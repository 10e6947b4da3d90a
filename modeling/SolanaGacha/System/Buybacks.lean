import SolanaGacha.System.Custody
import SolanaGacha.System.Purchases
import SolanaGacha.System.Stock

/-!
# Buybacks of one asset

A quote may be used again, but not before the asset has left the pool: between two buybacks of an asset it
was awarded by a settlement and then delivered (`World.Reached.buybacks`). The Item of the first buyback
holds the asset until a settlement awards it, and the outcome of the settlement until its delivery.
-/

namespace SolanaGacha

open Except Layout Inventory

/-! ## What ends a promise -/

section Effects

variable {rt : Runtime} {slot : UInt64} {time : Int64} {L L' : Ledger} {call : Call}
  (h : call.Effect rt slot time L L')

include h

/-- An Item ends in a settlement or a reclaim. -/
theorem Call.Effect.item_left {k : Pubkey} {item : Item} (hk : L k = .item item) (hleft : L' k ≠ .item item) :
    (∃ a d, call = .settle a d ∧ a.pool.key = item.pool ∧ k ∈ a.items.map AccountInfo.key) ∨
      ∃ a, call = .reclaim a ∧ a.pool.key = item.pool ∧ a.item.key = k := by
  have hpaid : ∀ {M M' : Ledger} {source destination authority amount},
      M.Paid rt source destination authority amount M' → M k = .item item → M' k = .item item := by
    intro M M' source destination authority amount hpaid hM
    rcases hpaid.eq_or_tokens k with heq | ⟨s, s', hs, -⟩
    · exact heq.trans hM
    · exact absurd (hs.symm.trans hM) (by simp)
  have hrestock : ∀ {M : Ledger} {Q itemKey assetKey giver tier bump pool index},
      Restocks rt L Q itemKey assetKey giver tier bump pool index M → M k = .item item := by
    intro M Q itemKey assetKey giver tier bump pool index hr
    obtain ⟨pool', index', c, -, hasset, -, -, -, -, hrest⟩ := hr.entries
    rw [hrest k (Ledger.ne_of_entry hk hr.loaded (by simp)) (Ledger.ne_of_entry hk hr.vacant (by simp))
      (Ledger.ne_of_entry hk hasset (by simp)), hk]
  cases call with
  | createPool a d =>
    obtain ⟨pool, rfl, -⟩ := CreatePool.Effect.fresh h
    exact absurd (Ledger.update_of_entry _ hk h.vacant (by simp)) hleft
  | depositItem a d =>
    obtain ⟨pool, index, h⟩ := h
    exact absurd (hrestock h.restocks) hleft
  | withdraw a d =>
    obtain ⟨pool, index, h⟩ := h
    exact absurd (hpaid h.paid hk) hleft
  | setStatus a d =>
    obtain ⟨pool, index, h⟩ := h
    exact absurd (h.ledger ▸ Ledger.update_of_entry _ hk h.loaded (by simp)) hleft
  | reclaim a =>
    obtain ⟨pool, index, item', h⟩ := h
    obtain ⟨tiers, index', c, -, -, hasset, -, rfl⟩ := h.ledger
    rcases eq_or_ne k a.item.key with rfl | hne
    · obtain rfl := Entry.item.inj (hk.symm.trans h.loadedItem)
      exact .inr ⟨a, rfl, h.samePool.symm, rfl⟩
    · refine absurd ?_ hleft
      rw [Function.update_of_ne hne, Function.update_of_ne (Ledger.ne_of_entry hk hasset (by simp)),
        Function.update_of_ne (Ledger.ne_of_entry hk h.loaded (by simp)), hk]
  | buy a d =>
    obtain ⟨pool, index, pull, h⟩ := h
    obtain ⟨pendingDraws, nextIndex, amount, reserved, token, left, -, -, -, -, -, -, -, -, hp⟩ := h.ledger
    refine absurd (hpaid hp ?_) hleft
    rw [Function.update_of_ne (Ledger.ne_of_entry hk h.loaded (by simp)),
      Function.update_of_ne (Ledger.ne_of_entry hk h.vacant (by simp)), hk]
  | refund a =>
    obtain ⟨pool, index, pull, h⟩ := h
    obtain ⟨amount, pendingDraws, nextSettle, M, -, -, -, hp, rfl⟩ := h.ledger
    refine absurd ?_ hleft
    rw [Function.update_of_ne (Ledger.ne_of_entry hk h.loadedPull (by simp))]
    exact hpaid hp (Ledger.update_of_entry _ hk h.loaded (by simp))
  | buyback a d =>
    obtain ⟨pool, index, h⟩ := h
    obtain ⟨M, hr, hp⟩ := h.ledger
    exact absurd (hpaid hp (hrestock hr)) hleft
  | settle a d =>
    obtain ⟨pool, index, pull, beta, awards, h⟩ := h
    obtain ⟨tiers, index', pendingDraws, nextSettle, -, -, -, -, rfl⟩ := h.ledger
    by_cases hmem : k ∈ awards.map Award.account
    · have hkey := h.accounts ▸ hmem
      obtain ⟨award, haward, rfl⟩ := List.mem_map.mp hmem
      obtain ⟨hentry, hpool⟩ := h.item award haward
      obtain rfl := Entry.item.inj (hk.symm.trans hentry)
      exact .inl ⟨a, d, rfl, hpool.symm, hkey⟩
    · refine absurd ?_ hleft
      rw [Function.update_of_ne (Ledger.ne_of_entry hk h.loadedPull (by simp)),
        Function.update_of_ne (Ledger.ne_of_entry hk h.loaded (by simp)), Ledger.vacate, if_neg hmem, hk]
  | deliver a d =>
    obtain ⟨pool, index, pull, outcome, h⟩ := h
    obtain ⟨c, all, hasset, -, -, rfl⟩ := h.ledger
    refine absurd ?_ hleft
    rw [Function.update_of_ne (Ledger.ne_of_entry hk h.loadedPull (by simp)),
      Function.update_of_ne (Ledger.ne_of_entry hk hasset (by simp)), hk]
  | event =>
    obtain rfl := h
    exact absurd hk hleft

/-- An outcome that is undelivered ends in its delivery. -/
theorem Call.Effect.outcome_left {P k x : Pubkey} {i : ℕ}
    (hk : (L.banner P).promised (.outcome k i) = some x)
    (hleft : (L'.banner P).promised (.outcome k i) ≠ some x) :
    ∃ a d, call = .deliver a d ∧ a.pool.key = P ∧ a.pull.key = k ∧ a.asset.key = x := by
  obtain ⟨pull₀, hpull₀, hpromised⟩ := Option.bind_eq_some_iff.mp hk
  have hkept : ∀ {key : Pubkey} {e : Option Pull}, k ≠ key →
      (L'.banner P).pulls = Function.update (L.banner P).pulls key e → False := by
    intro key e hne hpulls
    refine hleft ?_
    rw [Banner.promised, hpulls, Function.update_of_ne hne]
    exact hk
  by_cases hP : call.pool = some P
  · cases call with
    | buy a d =>
      obtain rfl := Option.some.inj hP
      obtain ⟨pool, index, pull, h⟩ := h
      refine (hkept ?_ h.pulls).elim
      exact Ledger.ne_of_entry (Ledger.banner_pulls.mp hpull₀).1 h.vacant (by simp)
    | refund a =>
      obtain rfl := Option.some.inj hP
      obtain ⟨pool, index, pull, h⟩ := h
      refine (hkept ?_ h.pulls).elim
      rintro rfl
      obtain rfl := Entry.pull.inj ((Ledger.banner_pulls.mp hpull₀).1.symm.trans h.loadedPull)
      exact absurd ((Pull.promised_of_pending h.pending i).symm.trans hpromised) (by simp)
    | settle a d =>
      obtain rfl := Option.some.inj hP
      obtain ⟨pool, index, pull, beta, awards, h⟩ := h
      refine (hkept ?_ h.pulls).elim
      rintro rfl
      obtain rfl := Entry.pull.inj ((Ledger.banner_pulls.mp hpull₀).1.symm.trans h.loadedPull)
      exact absurd ((Pull.promised_of_pending h.pending i).symm.trans hpromised) (by simp)
    | deliver a d =>
      obtain rfl := Option.some.inj hP
      obtain ⟨pool, index, pull, outcome, h⟩ := h
      obtain ⟨all, hall, hpulls⟩ := h.pulls
      rcases eq_or_ne k a.pull.key with rfl | hne
      · obtain rfl := Entry.pull.inj ((Ledger.banner_pulls.mp hpull₀).1.symm.trans h.loadedPull)
        refine ⟨a, d, rfl, rfl, rfl, ?_⟩
        by_contra hasset
        -- Another outcome was delivered, so this one is still promised and the Pull stays.
        have hne : i ≠ d.outcome.toNat := by
          rintro rfl
          obtain ⟨-, -, outcome', ho, -, hx⟩ := Pull.promised_eq_some.mp hpromised
          obtain rfl := Option.some.inj (h.recorded.symm.trans ho)
          exact hasset (h.asset.symm.trans hx)
        have hmarked := Pull.promised_marked_of_ne outcome hpromised hne
        refine hleft ?_
        rw [Banner.promised, hpulls, Function.update_self, Pull.eq_false_of_promised hall hmarked]
        exact hmarked
      · exact (hkept hne hpulls).elim
    | _ =>
      refine absurd ?_ hleft
      rw [Banner.promised, Call.Effect.samePulls h rfl P]
      exact hk
  · refine absurd ?_ hleft
    rw [Banner.promised, (h.sameBooks hP).pulls]
    exact hk

end Effects

/-! ## Runs -/

/-- The settlement of a purchase of the pool at `P` that awards the asset `x`. -/
def Event.Awards (w : World) (P x : Pubkey) (key : Pubkey) (event : Event) : Prop :=
  ∃ a d, event = .call (.settle a d) ∧ a.pool.key = P ∧ a.pull.key = key ∧
    ∃ info ∈ a.items, ∃ item, w.ledger info.key = .item item ∧ item.pool = P ∧ item.asset = x

/-- A delivery of the asset `x` by the pool at `P`. -/
def Event.Delivers (P x : Pubkey) (key : Pubkey) (event : Event) : Prop :=
  ∃ a d, event = .call (.deliver a d) ∧ a.pool.key = P ∧ a.pull.key = key ∧ a.asset.key = x

namespace World

variable {rt : Runtime} (hrt : rt.Lawful) {w w' : World} {P : Pubkey}

include hrt

/-- An Item ends in a settlement, which promises its asset to a purchase, or in a reclaim, when the pool is
retired. -/
theorem Step.item_left (hsound : w.Sound rt) {event : Event} (hstep : Step rt w event w') {k : Pubkey} {item : Item}
    (hk : w.ledger k = .item item) (hleft : w'.ledger k ≠ .item item) :
    (∃ key i, event.Awards w item.pool item.asset key ∧
      (w'.ledger.banner item.pool).promised (.outcome key i) = some item.asset) ∨
    ∃ pool index, w.ledger item.pool = .pool pool index ∧ pool.status = poolRetired := by
  cases event with
  | external =>
    cases hstep with
    | external hexternal =>
      rcases hexternal.eq_or_foreign k with heq | ⟨hforeign, -⟩
      · exact absurd (heq.trans hk) hleft
      · rw [hk] at hforeign
        exact hforeign.elim
  | call c =>
    obtain ⟨-, heffect, -⟩ := hstep.effect hrt hsound
    rcases heffect.item_left hk hleft with ⟨a, d, rfl, hpool, hmem⟩ | ⟨a, rfl, hpool, hkey⟩
    · obtain ⟨pool, index, pull, beta, awards, hs⟩ := heffect
      obtain ⟨m, hm⟩ := hsound.opened hs.loaded
      obtain ⟨info, hinfo, rfl⟩ := List.mem_map.mp hmem
      have hstored : item.asset ∈ a.items.filterMap fun item => (w.ledger item.key).stored? :=
        List.mem_filterMap.mpr ⟨info, hinfo, by rw [hk]; rfl⟩
      obtain ⟨i, hi⟩ := List.getElem?_of_mem hstored
      have hrecords := hs.records hm
      obtain ⟨outcome, ho, hasset, htier⟩ := hrecords.outcome i _ hi
      refine .inl ⟨a.pull.key, i, ⟨a, d, rfl, hpool, rfl, info, hinfo, item, hk, rfl, rfl⟩, ?_⟩
      rw [← hpool, Banner.promised, hs.pulls, Function.update_self]
      refine Pull.promised_eq_some.mpr ⟨rfl, ?_, outcome, ho, by simpa using htier, hasset⟩
      rw [← hrecords.length]
      exact (List.getElem?_eq_some_iff.mp hi).1
    · obtain ⟨pool, index, item', hr⟩ := heffect
      exact .inr ⟨pool, index, hpool ▸ hr.loaded, hr.retired⟩

/-- An undelivered outcome ends in its delivery. -/
theorem Step.outcome_left (hsound : w.Sound rt) {event : Event} (hstep : Step rt w event w') {k x : Pubkey} {i : ℕ}
    (hk : (w.ledger.banner P).promised (.outcome k i) = some x)
    (hleft : (w'.ledger.banner P).promised (.outcome k i) ≠ some x) : event.Delivers P x k := by
  cases event with
  | external =>
    cases hstep with
    | external hexternal =>
      refine absurd ?_ hleft
      rw [Banner.promised, (Ledger.sameBooks hexternal.eq_or_foreign P).pulls]
      exact hk
  | call c =>
    obtain ⟨-, heffect, -⟩ := hstep.effect hrt hsound
    obtain ⟨a, d, rfl, hP, hkey, hx⟩ := heffect.outcome_left hk hleft
    exact ⟨a, d, rfl, hP, hkey, hx⟩

/-- A buyback puts the asset on the shelf, at the next position. -/
theorem Step.bought_back (hsound : w.Sound rt) {a : BuybackAccounts} {d : BuybackInstructionData}
    (hstep : Step rt w (.call (.buyback a d)) w') : ∃ pool index,
      w.ledger a.pool.key = .pool pool index ∧ pool.status = poolActive ∧
      (∀ slot, (w.ledger.banner a.pool.key).promised slot ≠ some a.asset.key) ∧
      (w.ledger.banner a.pool.key).items a.item.key = none ∧
      w'.ledger a.item.key =
        .item (Item.fresh d.bump d.tier pool.inventoryVersion a.pool.key a.asset.key) ∧
      (w'.ledger.banner a.pool.key).items = Function.update (w.ledger.banner a.pool.key).items a.item.key
        (some (Item.fresh d.bump d.tier pool.inventoryVersion a.pool.key a.asset.key)) := by
  obtain ⟨-, ⟨pool, index, hb⟩, hgiver⟩ := hstep.effect hrt hsound
  obtain ⟨M, hr, hpaid⟩ := hb.ledger
  obtain ⟨m, hm⟩ := hsound.opened hr.loaded
  obtain ⟨pool', index', c, hrestocked, hc, hseller, hQ, hI, hA, hrest⟩ := hr.entries
  have hitem : w'.ledger a.item.key =
      .item (Item.fresh d.bump d.tier pool.inventoryVersion a.pool.key a.asset.key) := by
    rcases hpaid.eq_or_tokens a.item.key with heq | ⟨s, s', hs, -⟩
    · exact heq.trans hI
    · exact absurd (hs.symm.trans hI) (by simp)
  refine ⟨pool, index, hr.loaded, hb.active, fun slot hslot => ?_, ?_, hitem, ?_⟩
  · have hown : (w.ledger a.asset.key).OwnedBy a.pool.key := hm.held.owned hslot
    rw [hc] at hown
    have hne := hgiver _ rfl
    exact hne (hseller ▸ (show c.owner = a.pool.key from hown) ▸ hm.valid.isPda)
  · show (w.ledger a.item.key).item? _ = none
    rw [hr.vacant]
    rfl
  · rw [(hpaid.sameBooks a.pool.key).items]
    funext k
    rw [Function.update_apply]
    show (M k).item? _ = _
    split_ifs with hk
    · rw [hk, hI]
      exact if_pos rfl
    · show (M k).item? _ = (w.ledger k).item? _
      by_cases h1 : k = a.pool.key
      · rw [h1, hQ, hr.loaded]
        rfl
      · by_cases h2 : k = a.asset.key
        · rw [h2, hA, hc]
          rfl
        · rw [hrest k h1 hk h2]

/-- Between two buybacks of one asset, a settlement awards the asset to a purchase and a delivery takes it
out of the pool. -/
theorem Sound.resold (hsound : w.Sound rt) {a : BuybackAccounts} {d : BuybackInstructionData}
    (hfirst : Step rt w (.call (.buyback a d)) w') {trace : List (World × Event)} {w₂ w₃ : World}
    (hrun : Run (Step rt) w' trace w₂) {b : BuybackAccounts} {e : BuybackInstructionData}
    (hsecond : Step rt w₂ (.call (.buyback b e)) w₃) (hpool : b.pool.key = a.pool.key)
    (hasset : b.asset.key = a.asset.key) :
    ∃ before x middle y after key, trace = before ++ x :: (middle ++ y :: after) ∧
      x.2.Awards x.1 a.pool.key a.asset.key key ∧ y.2.Delivers a.pool.key a.asset.key key := by
  have hsound₁ := hfirst.sound hrt hsound
  have hsound₂ := hsound₁.of_run hrt hrun
  obtain ⟨pool, index, -, -, -, -, hitem, -⟩ := hfirst.bought_back hrt hsound
  obtain ⟨pool₂, index₂, hpool₂, hactive, hfree, -⟩ := hsecond.bought_back hrt hsound₂
  rw [hpool, hasset] at hfree
  rw [hpool] at hpool₂
  generalize hi : Item.fresh d.bump d.tier pool.inventoryVersion a.pool.key a.asset.key = item at hitem
  have hP : item.pool = a.pool.key := hi ▸ rfl
  have hx : item.asset = a.asset.key := hi ▸ rfl
  -- The Item is gone by the second buyback, so a settlement closed it.
  obtain ⟨before, x, rest, t, rfl, hbefore, hk, hstep, hgone, hrest⟩ :=
    hrun.exists_exit (P := fun v => v.ledger a.item.key = .item item) hitem fun hk =>
      hfree (.item a.item.key) (by
        rw [Banner.promised, Ledger.banner_items.mpr ⟨hk, hP⟩, ← hx]
        rfl)
  have hsound' := hsound₁.of_run hrt hbefore
  rcases hstep.item_left hrt hsound' hk hgone with ⟨key, i, hawards, hpromised⟩ | ⟨pool', index', hpool', hretired⟩
  · rw [hP, hx] at hawards hpromised
    -- The outcome is delivered by the second buyback, too.
    obtain ⟨middle, y, after, u, rfl, hmiddle, hy, hstep', hgone', -⟩ :=
      hrest.exists_exit (P := fun v => (v.ledger.banner a.pool.key).promised (.outcome key i) =
        some a.asset.key) hpromised (hfree _)
    have hsound'' := (hstep.sound hrt hsound').of_run hrt hmiddle
    exact ⟨before, x, middle, y, after, key, rfl, hawards, hstep'.outcome_left hrt hsound'' hy hgone'⟩
  · obtain ⟨pool₃, index₃, hpool₃, hlater⟩ :=
      hsound'.later hrt (hP ▸ hpool') ((Run.single hstep).append hrest)
    obtain ⟨rfl, rfl⟩ := Entry.pool.inj (hpool₃.symm.trans hpool₂)
    exact absurd ((hlater.retired hretired).symm.trans hactive) (by decide)

/-- In every run: a buyback puts one Item on the shelf, at a position that was never issued before, and
between two buybacks of one asset by one pool the asset was awarded to a purchase of the pool and then
delivered. -/
theorem Reached.buybacks (hw : w.Reached rt) {before : List (World × Event)} {w₀ w₁ : World}
    (hbefore : Run (Step rt) w before w₀) {a : BuybackAccounts} {d : BuybackInstructionData}
    (hfirst : Step rt w₀ (.call (.buyback a d)) w₁) :
    (∃ item, (w₀.ledger.banner a.pool.key).items a.item.key = none ∧
      (w₁.ledger.banner a.pool.key).items =
        Function.update (w₀.ledger.banner a.pool.key).items a.item.key (some item) ∧
      item.asset = a.asset.key ∧
      (∀ k item', w.ledger k = .item item' → item'.pool = a.pool.key → item'.position < item.position) ∧
      ∀ pool index, w.ledger a.pool.key = .pool pool index → pool.inventoryVersion ≤ item.position) ∧
    ∀ trace w₂ b e w₃, Run (Step rt) w₁ trace w₂ → Step rt w₂ (.call (.buyback b e)) w₃ →
      b.pool.key = a.pool.key → b.asset.key = a.asset.key →
      ∃ before x middle y after key, trace = before ++ x :: (middle ++ y :: after) ∧
        x.2.Awards x.1 a.pool.key a.asset.key key ∧ y.2.Delivers a.pool.key a.asset.key key := by
  have hsound := hw.sound hrt
  have hsound₀ := hsound.of_run hrt hbefore
  refine ⟨?_, fun trace w₂ b e w₃ hrun hsecond hpool hasset =>
    hsound₀.resold hrt hfirst hrun hsecond hpool hasset⟩
  obtain ⟨pool, index, hpool, -, -, hnone, -, hitems⟩ := hfirst.bought_back hrt hsound₀
  have hversion : ∀ pool' index', w.ledger a.pool.key = .pool pool' index' →
      pool'.inventoryVersion ≤ pool.inventoryVersion := by
    intro pool' index' hpool'
    obtain ⟨pool₀, index₀, hpool₀, hlater⟩ := hsound.later hrt hpool' hbefore
    obtain ⟨rfl, rfl⟩ := Entry.pool.inj (hpool₀.symm.trans hpool)
    exact UInt32.le_iff_toNat_le.mpr hlater.version
  refine ⟨_, hnone, hitems, rfl, fun k item' hk hP => ?_, hversion⟩
  obtain ⟨pool', index', m, hpool', hm⟩ := hsound.promised
    (show w.ledger.promised (.item k) = some (item'.asset, item'.pool) by rw [Ledger.promised, hk])
  have hlt := UInt32.lt_iff_toNat_lt.mp (hm.item_bounds hk rfl).1
  have hle := UInt32.le_iff_toNat_le.mp (hversion pool' index' (hP ▸ hpool'))
  exact UInt32.lt_iff_toNat_lt.mpr (hlt.trans_le hle)

omit hrt in
/-- One quote used twice: the asset is sold back, won and delivered, and sold back again. -/
theorem Reached.buybacks_sample : ∃ a d w₁ trace w₂ b e w₃ before x middle y after key,
    Step Sample.net.runtime (Sample.after Sample.start [Sample.createPool, Sample.setStatus 1])
      (.call (.buyback a d)) w₁ ∧
    Run (Step Sample.net.runtime) w₁ trace w₂ ∧ Step Sample.net.runtime w₂ (.call (.buyback b e)) w₃ ∧
    trace = before ++ x :: (middle ++ y :: after) ∧ x.2.Awards x.1 a.pool.key a.asset.key key ∧
      y.2.Delivers a.pool.key a.asset.key key := by
  generalize hopen : Sample.after Sample.start [Sample.createPool, Sample.setStatus 1] = opened
  have hopened : opened.Reached Sample.net.runtime :=
    hopen ▸ Sample.reached_after Sample.start_reached (by decide +kernel)
  obtain ⟨a, d, ha, hfirst⟩ := Sample.step_buyback opened
    (Sample.buyback Sample.authority Sample.item₀ Sample.authorityAta 253)
    (p := fun a => a.pool.key = Sample.pool ∧ a.asset.key = Sample.asset₀)
    (by rw [← hopen]; decide +kernel) (by rw [← hopen]; decide +kernel)
  generalize hstocked : Sample.after opened _ = stocked at hfirst
  obtain ⟨trace, hrun⟩ := Sample.run_after stocked
    [Sample.buy 1, Sample.settle [Sample.item₀], Sample.deliver 0 Sample.asset₀]
    (by rw [← hstocked, ← hopen]; decide +kernel)
  generalize hsold : Sample.after stocked _ = sold at hrun
  obtain ⟨b, e, hb, hsecond⟩ := Sample.step_buyback sold
    (Sample.buyback Sample.buyer Sample.item₁ Sample.buyerAta 251)
    (p := fun b => b.pool.key = Sample.pool ∧ b.asset.key = Sample.asset₀)
    (by rw [← hsold, ← hstocked, ← hopen]; decide +kernel)
    (by rw [← hsold, ← hstocked, ← hopen]; decide +kernel)
  simp only [decide_eq_true_eq] at ha hb
  obtain ⟨before, x, middle, y, after, key, htrace, hawards, hdelivers⟩ :=
    (Reached.buybacks Sample.net.runtime_lawful hopened .nil hfirst).2 trace sold b e _ hrun hsecond
      (hb.1.trans ha.1.symm) (hb.2.trans ha.2.symm)
  exact ⟨a, d, stocked, trace, sold, b, e, _, before, x, middle, y, after, key, hfirst, hrun, hsecond, htrace,
    hawards, hdelivers⟩

end World

end SolanaGacha
