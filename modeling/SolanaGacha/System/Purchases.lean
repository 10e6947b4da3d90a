import SolanaGacha.Banner.Purchase
import SolanaGacha.System.Isolation

/-!
# The life of a purchase

`World.actions` reads off a run what its instructions did to one purchase, and in every run this is one of
the courses of `Purchase` (`World.Genesis.purchase_resolved`).
-/

namespace SolanaGacha

open Except Layout

/-! ## Actions -/

/-- The pool and the place of a purchase. -/
def Entry.place? : Entry → Option (Pubkey × UInt64)
  | .pull u => some (u.pool, u.index)
  | _ => none

/-- The asset of an Item. -/
def Entry.stored? : Entry → Option Pubkey
  | .item i => some i.asset
  | _ => none

/-- What a call does to purchase `i` of the pool at `P`. -/
def Call.action (L : Ledger) (slot : UInt64) (P : Pubkey) (i : UInt64) : Call → Option Action
  | .buy a d =>
    match L P with
    | .pool pool _ =>
      if a.pool.key = P ∧ pool.nextIndex = i then
        some (.buy a.pull.key a.buyer.key d.count (slot + pool.deadlineSlots))
      else none
    | _ => none
  | .settle a _ =>
    if (L a.pull.key).place? = some (P, i) then
      some (.settle slot (a.items.filterMap fun item => (L item.key).stored?))
    else none
  | .refund a => if (L a.pull.key).place? = some (P, i) then some (.refund slot) else none
  | .deliver a d =>
    if (L a.pull.key).place? = some (P, i) then some (.deliver d.outcome.toNat a.asset.key a.buyer.key)
    else none
  | _ => none

/-- What an event does to purchase `i` of the pool at `P`. -/
def Event.action (w : World) (P : Pubkey) (i : UInt64) : Event → Option Action
  | .call c => c.action w.ledger w.slot P i
  | .external => none

/-- What a run does to purchase `i` of the pool at `P`. -/
def World.actions (P : Pubkey) (i : UInt64) (trace : List (World × Event)) : List Action :=
  trace.filterMap fun x => x.2.action x.1 P i

/-! ## Banners -/

/-- The number of purchases of a pool so far. -/
def Banner.sold (S : Banner) : ℕ := (S.pool.map fun x => x.1.nextIndex.toNat).getD 0

namespace Banner.Represents

variable {rt : Runtime} {P : Pubkey} {S : Banner} {m : Market UInt8 Ticket} (h : S.Represents rt P m)

include h

theorem sold_eq : S.sold = m.accepted := by
  cases h with
  | empty pool => rw [sold, pool]; rfl
  | opened h =>
    rw [sold, h.header, Market.accepted, ← h.queued.next]
    rfl

theorem distinct {k k' : Pubkey} {pull pull' : Pull} (hk : S.pulls k = some pull)
    (hk' : S.pulls k' = some pull') (hindex : pull.index = pull'.index) : k = k' := by
  cases h with
  | empty pool items pulls => exact absurd ((pulls k).symm.trans hk) (by simp)
  | opened h => exact h.queued.distinct hk hk' hindex

theorem index_lt {k : Pubkey} {pull : Pull} (hk : S.pulls k = some pull) : pull.index.toNat < S.sold := by
  cases h with
  | empty pool items pulls => exact absurd ((pulls k).symm.trans hk) (by simp)
  | opened h =>
    rw [sold, h.header]
    exact h.queued.index_lt hk

end Banner.Represents

/-- The calls that write Pulls. -/
def Call.writesPull : Call → Bool
  | .buy _ _ => true
  | .refund _ => true
  | .settle _ _ => true
  | .deliver _ _ => true
  | _ => false

/-- The other calls leave all Pulls alone. -/
theorem Call.Effect.samePulls {rt : Runtime} {slot : UInt64} {time : Int64} {L L' : Ledger} {call : Call}
    (h : call.Effect rt slot time L L') (hquiet : call.writesPull = false) (P : Pubkey) :
    (L'.banner P).pulls = (L.banner P).pulls := by
  cases call with
  | createPool a d =>
    obtain ⟨pool, rfl, -⟩ := CreatePool.Effect.fresh h
    exact funext (Ledger.read_update (Entry.pull? P) (by rw [h.vacant]; rfl))
  | depositItem a d =>
    obtain ⟨pool, index, h⟩ := h
    exact funext (h.restocks.read (Entry.pull? P) (fun _ _ => rfl) rfl fun _ => rfl)
  | withdraw a d =>
    obtain ⟨pool, index, h⟩ := h
    exact (h.paid.sameBooks P).pulls
  | setStatus a d =>
    obtain ⟨pool, index, h⟩ := h
    rw [h.ledger]
    exact funext (Ledger.read_update (Entry.pull? P) (by rw [h.loaded]; rfl))
  | reclaim a =>
    obtain ⟨pool, index, item, h⟩ := h
    obtain ⟨tiers, index', asset, -, -, hasset, -, rfl⟩ := h.ledger
    exact funext (Ledger.read_update₃ (Entry.pull? P) (by rw [h.loaded]; rfl)
      (by rw [hasset]; rfl) (by rw [h.loadedItem]; rfl))
  | buyback a d =>
    obtain ⟨pool, index, h⟩ := h
    obtain ⟨M, hr, hpaid⟩ := h.ledger
    exact (hpaid.sameBooks P).pulls.trans
      (funext (hr.read (Entry.pull? P) (fun _ _ => rfl) rfl fun _ => rfl))
  | event =>
    obtain rfl := h
    rfl
  | buy a d => cases hquiet
  | refund a => cases hquiet
  | settle a d => cases hquiet
  | deliver a d => cases hquiet

theorem Call.action_of_quiet {call : Call} (hquiet : call.writesPull = false) {L : Ledger} {slot : UInt64}
    {P : Pubkey} {i : UInt64} : call.action L slot P i = none := by
  cases call with
  | buy a d | refund a | settle a d | deliver a d => cases hquiet
  | _ => rfl

/-- Only a purchase of the pool is accepted by its market. -/
theorem Call.accepts_eq_zero {L : Ledger} {P : Pubkey} {call : Call}
    (h : ∀ a d, call = .buy a d → a.pool.key ≠ P) : (call.move L P).accepts = 0 := by
  cases call with
  | buy a d => rw [Call.move, if_neg (h a d rfl)]; rfl
  | depositItem a d | buyback a d | reclaim a | refund a | settle a d =>
    rw [Call.move]
    split_ifs <;> rfl
  | _ => rfl

/-! ## Steps -/

/-- A write to the Pull of another purchase. -/
theorem Purchase.other {pulls pulls' : Pubkey → Option Pull} {sold sold' : ℕ} {i : UInt64}
    {actions : List Action} (h : Purchase pulls sold i actions) (hsold : sold ≤ sold')
    (hfuture : sold ≤ i.toNat → sold' ≤ i.toNat) {key : Pubkey} {e : Option Pull}
    (hpulls : pulls' = Function.update pulls key e) (hold : ∀ pull, pulls key = some pull → pull.index ≠ i)
    (hnew : ∀ pull, e = some pull → pull.index ≠ i) : Purchase pulls' sold' i actions := by
  refine h.frame hsold hfuture fun k pull hi => ?_
  rw [hpulls, Function.update_apply]
  split_ifs with hk
  · subst hk
    exact ⟨fun he => absurd hi (hnew pull he), fun hp => absurd hi (hold pull hp)⟩
  · rfl

/-- The assets that the Items of a settlement hold. -/
theorem Settle.Effect.stored {rt : Runtime} {slot : UInt64} {a : SettleAccounts} {d : SettleInstructionData}
    {pool : Pool} {index : List UInt8} {pull : Pull} {beta : FixedBytes 64} {awards : List Award}
    {L L' : Ledger} (h : Settle.Effect rt slot a d pool index pull beta awards L L') :
    (a.items.filterMap fun item => (L item.key).stored?) = awards.map fun award => award.item.asset := by
  have hkeys : (a.items.filterMap fun item => (L item.key).stored?) =
      (a.items.map AccountInfo.key).filterMap fun key => (L key).stored? := by
    rw [List.filterMap_map]
    rfl
  rw [hkeys, ← h.accounts, List.filterMap_map, ← List.filterMap_eq_map]
  refine List.filterMap_congr fun award haward => ?_
  show (L award.account).stored? = some award.item.asset
  rw [(h.item award haward).1]
  rfl

/-- A settlement records the assets of the Items that it closes. -/
theorem Settle.Effect.records {rt : Runtime} {slot : UInt64} {a : SettleAccounts} {d : SettleInstructionData}
    {pool : Pool} {index : List UInt8} {pull : Pull} {beta : FixedBytes 64} {awards : List Award}
    {L L' : Ledger} (h : Settle.Effect rt slot a d pool index pull beta awards L L') {m : Market UInt8 Ticket}
    (hm : (L.banner a.pool.key).Opened rt a.pool.key pool index m) :
    Pull.Records { pull with
      status := statusSettled, outcomes := recordAwards pull.outcomes 0 awards }
        (a.items.filterMap fun item => (L item.key).stored?) [] := by
  have hlen : awards.length = pull.count.toNat := by
    rw [← h.count, ← List.length_map (f := Award.account), h.accounts, List.length_map]
  rw [h.stored]
  refine ⟨(List.length_map _).trans hlen, fun j asset hj => ?_⟩
  rw [List.getElem?_map, Option.map_eq_some_iff] at hj
  obtain ⟨award, haward, rfl⟩ := hj
  obtain ⟨hlt, -⟩ := List.getElem?_eq_some_iff.mp haward
  have htier := (hm.shelved.item (Ledger.banner_items.mpr (h.item award (List.mem_of_getElem? haward)))).2.1
  refine ⟨⟨award.item.tier, award.item.asset⟩, ?_, rfl, ?_⟩
  · show (recordAwards pull.outcomes 0 awards)[j]? = _
    rw [recordAwards_getElem? _ _ _ _ (by have := h.small; omega), if_pos ⟨Nat.zero_le _, by omega⟩, Nat.sub_zero,
      haward]
    rfl
  · simp only [List.not_mem_nil, iff_false]
    intro heq
    rw [show award.item.tier = delivered from heq] at htier
    exact absurd htier (by decide)

/-- What the calls on a Pull do to purchase `i`. -/
theorem Ledger.place?_eq {L : Ledger} {k : Pubkey} {pull : Pull} {P : Pubkey} {i : UInt64}
    (hk : L k = .pull pull) : (L k).place? = some (P, i) ↔ pull.pool = P ∧ pull.index = i := by
  rw [hk]
  simp [Entry.place?]

/-- A call on another pool. -/
theorem Call.Effect.action_eq_none {rt : Runtime} {slot : UInt64} {time : Int64} {L L' : Ledger} {call : Call}
    (h : call.Effect rt slot time L L') {P : Pubkey} (hP : call.pool ≠ some P) (i : UInt64) :
    call.action L slot P i = none := by
  cases call with
  | buy a d =>
    rw [action]
    split
    · exact if_neg fun heq => hP (congrArg some heq.1)
    · rfl
  | settle a d =>
    obtain ⟨pool, index, pull, beta, awards, h⟩ := h
    exact if_neg fun hp => hP (congrArg some (h.samePool.symm.trans ((Ledger.place?_eq h.loadedPull).mp hp).1))
  | refund a =>
    obtain ⟨pool, index, pull, h⟩ := h
    exact if_neg fun hp => hP (congrArg some (h.samePool.symm.trans ((Ledger.place?_eq h.loadedPull).mp hp).1))
  | deliver a d =>
    obtain ⟨pool, index, pull, outcome, h⟩ := h
    exact if_neg fun hp => hP (congrArg some (h.samePool.symm.trans ((Ledger.place?_eq h.loadedPull).mp hp).1))
  | _ => rfl

section Own

variable {rt : Runtime} {slot : UInt64} {L L' : Ledger} {pool : Pool} {index : List UInt8} {pull : Pull}
  {i : UInt64} {actions : List Action}

theorem Ledger.sold_eq {P : Pubkey} (h : L P = .pool pool index) :
    (L.banner P).sold = pool.nextIndex.toNat := by
  rw [Banner.sold, Ledger.banner_pool.mpr h]
  rfl

theorem Buy.Effect.purchase {a : BuyAccounts} {d : BuyInstructionData}
    (hb : Buy.Effect rt slot a d pool index pull L L') (hgiver : ¬rt.IsPda a.buyer.key)
    (h : Purchase (L.banner a.pool.key).pulls (L.banner a.pool.key).sold i actions) :
    Purchase (L'.banner a.pool.key).pulls ((L.banner a.pool.key).sold + 1) i
      (actions ++ (Call.action L slot a.pool.key i (.buy a d)).toList) := by
  obtain ⟨-, hpending, hplace, hcount, -⟩ := hb.valid hgiver
  have hbuyer : pull.buyer = a.buyer.key := congrArg Pull.buyer hb.populated
  have hdeadline : slot + pool.deadlineSlots = pull.deadlineSlot := UInt64.toNat_inj.mp (by
    rw [UInt64.toNat_add, hb.deadline, Nat.mod_eq_of_lt pull.deadlineSlot.toNat_lt])
  have haction : Call.action L slot a.pool.key i (.buy a d) = if pool.nextIndex = i then
      some (.buy a.pull.key pull.buyer pull.count pull.deadlineSlot) else none := by
    simp only [Call.action, hb.loaded, hbuyer, hcount, hdeadline, true_and]
  have hsold := Ledger.sold_eq hb.loaded
  rw [haction]
  split_ifs with hi
  · exact h.buy (hsold.trans (congrArg UInt64.toNat hi)) (hb.pulls ▸ Function.update_self _ _ _)
      (hplace.trans hi) hpending
  · rw [Option.toList_none, List.append_nil]
    refine h.other (Nat.le_succ _) (fun hle => ?_) hb.pulls (fun pull' hp => ?_) fun pull' hp => ?_
    · have hne : pool.nextIndex.toNat ≠ i.toNat := fun heq => hi (UInt64.toNat_inj.mp heq)
      omega
    · exact absurd ((Ledger.banner_pulls.mp hp).1.symm.trans hb.vacant) (by simp)
    · obtain rfl := Option.some.inj hp
      exact hplace ▸ hi

variable {m : Market UInt8 Ticket} {P : Pubkey} (hm : (L.banner P).Represents rt P m)
  (h : Purchase (L.banner P).pulls (L.banner P).sold i actions)

include hm h

theorem Refund.Effect.purchase {a : RefundAccounts} (hr : Refund.Effect rt slot a pool index pull L L')
    (hP : a.pool.key = P) : Purchase (L'.banner P).pulls (L.banner P).sold i
      (actions ++ (Call.action L slot P i (.refund a)).toList) := by
  subst hP
  have hlive := Ledger.banner_pulls.mpr ⟨hr.loadedPull, hr.samePool⟩
  have hplace := Ledger.place?_eq (P := a.pool.key) (i := i) hr.loadedPull
  rw [Call.action]
  split_ifs with hi
  · exact h.refund hm.distinct hlive (hplace.mp hi).2 hr.pending hr.expired hr.pulls
  · rw [Option.toList_none, List.append_nil]
    have hne : pull.index ≠ i := fun heq => hi (hplace.mpr ⟨hr.samePool, heq⟩)
    refine h.other le_rfl (fun hle => hle) hr.pulls (fun pull' hp => ?_) fun pull' hp => by cases hp
    obtain rfl := Option.some.inj (hlive.symm.trans hp)
    exact hne

theorem Settle.Effect.purchase {a : SettleAccounts} {d : SettleInstructionData} {beta : FixedBytes 64}
    {awards : List Award} (hs : Settle.Effect rt slot a d pool index pull beta awards L L')
    (hP : a.pool.key = P) : Purchase (L'.banner P).pulls (L.banner P).sold i
      (actions ++ (Call.action L slot P i (.settle a d)).toList) := by
  subst hP
  have hopened := hm.of_header (Ledger.banner_pool.mpr hs.loaded)
  have hlive := Ledger.banner_pulls.mpr ⟨hs.loadedPull, hs.samePool⟩
  have hplace := Ledger.place?_eq (P := a.pool.key) (i := i) hs.loadedPull
  rw [Call.action]
  split_ifs with hi
  · exact h.settle hm.distinct hlive (hplace.mp hi).2 hs.pending hs.inTime (hs.records hopened)
      (hopened.pull hlive).count.1 hs.pulls
  · rw [Option.toList_none, List.append_nil]
    have hne : pull.index ≠ i := fun heq => hi (hplace.mpr ⟨hs.samePool, heq⟩)
    refine h.other le_rfl (fun hle => hle) hs.pulls (fun pull' hp => ?_) fun pull' hp => ?_
    · obtain rfl := Option.some.inj (hlive.symm.trans hp)
      exact hne
    · obtain rfl := Option.some.inj hp
      exact hne

variable (slot) in
theorem Deliver.Effect.purchase {a : DeliverAccounts} {d : DeliverInstructionData} {outcome : Outcome}
    (hd : Deliver.Effect a d pool index pull outcome L L') (hP : a.pool.key = P) :
    Purchase (L'.banner P).pulls (L.banner P).sold i
      (actions ++ (Call.action L slot P i (.deliver a d)).toList) := by
  subst hP
  have hlive := Ledger.banner_pulls.mpr ⟨hd.loadedPull, hd.samePool⟩
  have hplace := Ledger.place?_eq (P := a.pool.key) (i := i) hd.loadedPull
  obtain ⟨all, hall, hpulls⟩ := hd.pulls
  rw [Call.action, ← hd.asset, ← hd.buyer]
  split_ifs with hi
  · exact h.deliver hm.distinct hlive (hplace.mp hi).2 hd.settled hd.inCount hd.recorded hd.undelivered hall
      hpulls
  · rw [Option.toList_none, List.append_nil]
    have hne : pull.index ≠ i := fun heq => hi (hplace.mpr ⟨hd.samePool, heq⟩)
    refine h.other le_rfl (fun hle => hle) hpulls (fun pull' hp => ?_) fun pull' hp => ?_
    · obtain rfl := Option.some.inj (hlive.symm.trans hp)
      exact hne
    · split_ifs at hp
      obtain rfl := Option.some.inj hp
      exact hne

end Own

namespace World

variable {rt : Runtime} (hrt : rt.Lawful) {w w' : World} {event : Event} {P : Pubkey} {i : UInt64}
  {taken : List Action}

include hrt

/-- Every step takes a purchase on. -/
theorem Step.purchase (hsound : w.Sound rt) (hstep : Step rt w event w')
    (h : Purchase (w.ledger.banner P).pulls (w.ledger.banner P).sold i taken) :
    Purchase (w'.ledger.banner P).pulls (w'.ledger.banner P).sold i
      (taken ++ (event.action w P i).toList) := by
  obtain ⟨m, hm⟩ := hsound.banner P
  obtain ⟨m', hmove, hm'⟩ := hstep.market hrt hsound hm
  have hsold : (w'.ledger.banner P).sold = (w.ledger.banner P).sold + (event.move w P).accepts := by
    rw [hm.sold_eq, hm'.sold_eq, hmove.accepted]
  have hsame : (event.move w P).accepts = 0 → (w'.ledger.banner P).pulls = (w.ledger.banner P).pulls →
      Purchase (w'.ledger.banner P).pulls (w'.ledger.banner P).sold i taken := by
    intro hzero hpulls
    rw [hzero] at hsold
    rw [hsold, hpulls]
    exact h
  cases event with
  | external =>
    rw [Event.action, Option.toList_none, List.append_nil]
    cases hstep with
    | external hexternal => exact hsame rfl (Ledger.sameBooks hexternal.eq_or_foreign P).pulls
  | call c =>
    obtain ⟨-, heffect, hgiver⟩ := hstep.effect hrt hsound
    by_cases hP : c.pool = some P
    · cases c with
      | buy a d =>
        obtain ⟨pool, index, pull, hb⟩ := heffect
        obtain rfl := Option.some.inj hP
        rw [Event.move, Call.move, if_pos rfl] at hsold
        rw [hsold]
        exact hb.purchase (hgiver _ rfl) h
      | refund a =>
        obtain ⟨pool, index, pull, hr⟩ := heffect
        rw [Event.move, Call.accepts_eq_zero (by simp)] at hsold
        rw [hsold]
        exact hr.purchase hm h (Option.some.inj hP)
      | settle a d =>
        obtain ⟨pool, index, pull, beta, awards, hs⟩ := heffect
        rw [Event.move, Call.accepts_eq_zero (by simp)] at hsold
        rw [hsold]
        exact hs.purchase hm h (Option.some.inj hP)
      | deliver a d =>
        obtain ⟨pool, index, pull, outcome, hd⟩ := heffect
        rw [Event.move, Call.accepts_eq_zero (by simp)] at hsold
        rw [hsold]
        exact hd.purchase w.slot hm h (Option.some.inj hP)
      | _ =>
        rw [Event.action, Call.action_of_quiet rfl, Option.toList_none, List.append_nil]
        refine hsame ?_ (Call.Effect.samePulls heffect rfl P)
        rw [Event.move]
        exact Call.accepts_eq_zero (by simp)
    · have hzero : (c.move w.ledger P).accepts = 0 := Call.accepts_eq_zero fun a d hc heq =>
        hP (hc ▸ congrArg some heq)
      rw [Event.action, heffect.action_eq_none hP, Option.toList_none, List.append_nil]
      exact hsame hzero (heffect.sameBooks hP).pulls

/-- In every run each purchase takes one course: it is settled by its deadline or refunded after it, and
not both; what is settled is delivered once, to the buyer, as recorded. Its Pull is live from the purchase
until the refund or the last delivery. -/
theorem Genesis.purchase_resolved {w₀ : World} (hg : w₀.Genesis rt) {trace : List (World × Event)}
    (hrun : Run (Step rt) w₀ trace w) (P : Pubkey) (i : UInt64) :
    Purchase (w.ledger.banner P).pulls (w.ledger.banner P).sold i (actions P i trace) ∧
    (actions P i trace).countP Action.resolves ≤ 1 ∧
    ((∃ k pull, w.ledger k = .pull pull ∧ pull.pool = P ∧ pull.index = i) ↔
      (∃ key buyer count deadlineSlot, actions P i trace = [.buy key buyer count deadlineSlot]) ∨
      ∃ key buyer count deadlineSlot slot assets deliveries, actions P i trace =
        .buy key buyer count deadlineSlot :: .settle slot assets :: deliveries ∧
          deliveries.length < count.toNat) := by
  have hpurchase : Purchase (w.ledger.banner P).pulls (w.ledger.banner P).sold i (actions P i trace) := by
    induction hrun with
    | nil =>
      refine .unsold ?_ fun k pull hk => ?_
      · rw [Banner.sold, show (w₀.ledger.banner P).pool = none from ((hg.foreign P).reads P).1]
        exact Nat.zero_le _
      · exact absurd (((hg.foreign k).reads P).2.2.symm.trans hk) (by simp)
    | @snoc w₁ w₂ event steps run last ih =>
      have hactions : actions P i (steps ++ [(w₁, event)]) =
          actions P i steps ++ (event.action w₁ P i).toList := List.filterMap_snoc ..
      rw [hactions]
      exact last.purchase hrt (hg.sound.of_run hrt run) ih
  refine ⟨hpurchase, hpurchase.resolved_once, Iff.trans ?_ hpurchase.live_iff⟩
  exact exists₂_congr fun k pull => by rw [Ledger.banner_pulls, and_assoc]

omit hrt in
/-- The sample purchase, after its settlement. -/
theorem Genesis.purchase_resolved_sample : ∃ trace, Run (Step Sample.net.runtime) Sample.start trace Sample.settled ∧
    ∃ history, history = actions Sample.pool 0 trace ∧
      Purchase (Sample.settled.ledger.banner Sample.pool).pulls (Sample.settled.ledger.banner Sample.pool).sold 0
        history ∧ history.countP Action.resolves ≤ 1 ∧ history ≠ [] := by
  obtain ⟨trace₁, hopen⟩ := Sample.run_after Sample.start [Sample.createPool,
    Sample.depositItem Sample.item₀ Sample.asset₀ 253, Sample.depositItem Sample.item₁ Sample.asset₁ 251,
    Sample.setStatus 1] (by decide +kernel)
  obtain ⟨trace₂, hbuy⟩ := Sample.run_after Sample.opened [Sample.buy 2] (by decide +kernel)
  obtain ⟨trace₃, hsettle⟩ := Sample.run_after Sample.bought [Sample.settle [Sample.item₀]] (by decide +kernel)
  have hrun := (hopen.append hbuy).append hsettle
  obtain ⟨hpurchase, honce, hlive⟩ := Genesis.purchase_resolved Sample.net.runtime_lawful
    (Sample.net.genesis (by decide +kernel) 5 0) hrun Sample.pool 0
  refine ⟨_, hrun, _, rfl, hpurchase, honce, fun hnone => ?_⟩
  obtain ⟨pull, hpull, hplace⟩ := Sample.exists_pull (e := Sample.settled.ledger Sample.pull)
    (p := fun pull => pull.pool = Sample.pool ∧ pull.index = 0) (by decide +kernel)
  rw [hnone] at hlive
  rcases hlive.mp ⟨Sample.pull, pull, hpull, of_decide_eq_true hplace⟩ with
    ⟨_, _, _, _, heq⟩ | ⟨_, _, _, _, _, _, _, heq, -⟩ <;> cases heq

end World

end SolanaGacha
