import SolanaGacha.System.Deliveries
import SolanaGacha.System.Exits
import SolanaGacha.System.Retirement
import SolanaGacha.System.Revenue

/-!
# Winding a pool down

Nothing that a pool holds is stuck. Once the deadlines of the purchases that wait have passed, its authority
and any payer of transactions can wind it down: retire it, refund the queue from its head, deliver what was
drawn, and reclaim the other assets. Each of these instructions succeeds, takes one task off, and leaves the
rest of what the pool owes as it was (`World.Unwound`), so they can go on until nothing is left
(`World.Reached.winds_down`).
-/

namespace SolanaGacha

open Except Layout Inventory

/-! ## What a pool owes -/

/-- What a pool owes at a place: an asset, and who is to receive it. -/
def Banner.owed (S : Banner) (authority : Pubkey) : Slot → Option (Pubkey × Pubkey)
  | .item k => (S.items k).map fun item => (item.asset, authority)
  | .outcome k i => (S.pulls k).bind fun pull => (pull.promised i).map fun asset => (asset, pull.buyer)

section Owed

variable {S : Banner} {authority k asset receiver : Pubkey} {i : ℕ}

theorem Banner.owed_item : S.owed authority (.item k) = some (asset, receiver) ↔
    ∃ item, S.items k = some item ∧ item.asset = asset ∧ receiver = authority := by
  unfold owed
  rw [Option.map_eq_some_iff]
  constructor
  · rintro ⟨item, hitem, heq⟩
    obtain ⟨rfl, rfl⟩ := Prod.mk.inj heq
    exact ⟨item, hitem, rfl, rfl⟩
  · rintro ⟨item, hitem, rfl, rfl⟩
    exact ⟨item, hitem, rfl⟩

theorem Banner.owed_outcome : S.owed authority (.outcome k i) = some (asset, receiver) ↔
    ∃ pull, S.pulls k = some pull ∧ pull.promised i = some asset ∧ pull.buyer = receiver := by
  unfold owed
  rw [Option.bind_eq_some_iff]
  constructor
  · rintro ⟨pull, hpull, heq⟩
    obtain ⟨asset', hpromised, heq⟩ := Option.map_eq_some_iff.mp heq
    obtain ⟨rfl, rfl⟩ := Prod.mk.inj heq
    exact ⟨pull, hpull, hpromised, rfl⟩
  · rintro ⟨pull, hpull, hpromised, rfl⟩
    exact ⟨pull, hpull, Option.map_eq_some_iff.mpr ⟨asset, hpromised, rfl⟩⟩

end Owed

/-- A Pull that does not wait still owes something. -/
def Banner.Owing (S : Banner) : Prop :=
  ∀ k pull, S.pulls k = some pull → pull.status ≠ statusPending → pull.undelivered ≠ []

/-- A settled Pull is closed with its last delivery. -/
theorem Banner.Step.owing {rt : Runtime} {slot : UInt64} {P : Pubkey} {S S' : Banner}
    {move : Market.Move UInt8 Ticket} {m : Market UInt8 Ticket} (h : Step rt slot P S move S')
    (hm : S.Represents rt P m) (howing : S.Owing) : S'.Owing := by
  intro k pull hk hsettled
  cases h with
  | idle books => exact howing k pull (books.pulls ▸ hk) hsettled
  | create new valid stock counters header' items pulls => exact howing k pull (pulls ▸ hk) hsettled
  | setStatus header valid terminal header' items pulls => exact howing k pull (pulls ▸ hk) hsettled
  | restock header restocked derived vacant given header' items pulls =>
    exact howing k pull (pulls ▸ hk) hsettled
  | reclaim header settled loaded weights stock header' items pulls =>
    exact howing k pull (pulls ▸ hk) hsettled
  | buy header vacant valid pending place version deadline draws next remaining stock header' items pulls =>
    rw [pulls, Function.update_apply] at hk
    split_ifs at hk with heq
    · obtain rfl := Option.some.inj hk
      exact absurd pending hsettled
    · exact howing k pull hk hsettled
  | refund header loaded pending head expired draws next header' items pulls =>
    rw [pulls, Function.update_apply] at hk
    split_ifs at hk with heq
    exact howing k pull hk hsettled
  | @settle _ _ _ _ key pull₀ _ awards _ _ _ header loaded pending head inTime draws next item nodup count
      selected weights stock header' items pulls =>
    rw [pulls, Function.update_apply] at hk
    split_ifs at hk with heq
    · -- The first outcome is a draw, and no draw is recorded as delivered.
      have hopen := hm.of_header header
      have hvalid := hopen.pull loaded
      obtain ⟨award, rest, rfl⟩ := List.exists_cons_of_length_pos (l := awards) (count ▸ hvalid.count.1)
      have hrecorded := recordAwards_getElem? pull₀.outcomes 0 (award :: rest) 0 (by
        have := hvalid.count.2
        rw [maxCount] at this
        omega)
      rw [if_pos ⟨le_rfl, by simp⟩, Nat.sub_zero, List.getElem?_cons_zero, Option.map_some] at hrecorded
      obtain ⟨-, ht8, -⟩ := hopen.shelved.item (item award List.mem_cons_self)
      obtain rfl := Option.some.inj hk
      apply List.ne_nil_of_mem (a := 0)
      refine Pull.mem_undelivered.mpr ⟨award.item.asset, Pull.promised_eq_some.mpr
        ⟨rfl, hvalid.count.1, _, hrecorded, ?_, rfl⟩⟩
      intro htier
      change award.item.tier = delivered at htier
      rw [htier] at ht8
      exact absurd ht8 (by decide)
    · exact howing k pull hk hsettled
  | @deliver _ _ _ _ pull₀ i outcome all header loaded settled inCount recorded undelivered closes header'
      items pulls =>
    rw [pulls, Function.update_apply] at hk
    split_ifs at hk with heq hall
    · obtain rfl := Option.some.inj hk
      have hdone := @Pull.allDelivered_iff (pull₀.marked i outcome) all settled closes
      exact fun hnil => hall (hdone.mpr hnil)
    · exact howing k pull hk hsettled

/-- In every reachable state a settled Pull still owes something. -/
theorem World.Reached.owing {rt : Runtime} (hrt : rt.Lawful) {w : World} (hw : w.Reached rt) (P : Pubkey) :
    (w.ledger.banner P).Owing := by
  apply Reachable.induct (P := fun w => (w.ledger.banner P).Owing) _ _ hw
  · intro w h k pull hk
    exact absurd (((h.foreign k).reads P).2.2.symm.trans hk) (by simp)
  · intro w event w' hw howing hstep
    have hsound := World.Reached.sound hrt hw
    obtain ⟨m, hm⟩ := hsound.banner P
    exact (hstep.banner hrt hsound P).owing hm howing

/-! ## The instructions of the authority -/

/-- The instruction that sets the status of a pool. Its authority signs it. -/
def SetStatus.instruction (authority pool : Pubkey) (status : UInt8) : Instruction where
  accounts := [⟨authority, true, false⟩, ⟨pool, false, true⟩, ⟨eventAuthority, false, false⟩,
    ⟨programId, false, false⟩]
  data := [3, status]

/-- What the handler makes of its accounts. -/
def SetStatus.accounts (authority pool : Pubkey) : SetStatusAccounts where
  authority := ⟨authority, true, false⟩
  pool := ⟨pool, false, true⟩
  eventAuthority := ⟨eventAuthority, false, false⟩
  program := ⟨programId, false, false⟩

/-- The instruction that withdraws from a vault. The authority signs it. -/
def Withdraw.instruction (authority pool vault destination : Pubkey) (amount : UInt64) : Instruction where
  accounts := [⟨authority, true, false⟩, ⟨pool, false, false⟩, ⟨vault, false, true⟩,
    ⟨destination, false, true⟩, ⟨tokenId, false, false⟩, ⟨eventAuthority, false, false⟩,
    ⟨programId, false, false⟩]
  data := 2 :: u64.encode amount

/-- What the handler makes of its accounts. -/
def Withdraw.accounts (authority pool vault destination : Pubkey) : WithdrawAccounts where
  authority := ⟨authority, true, false⟩
  pool := ⟨pool, false, false⟩
  vault := ⟨vault, false, true⟩
  destination := ⟨destination, false, true⟩
  eventAuthority := ⟨eventAuthority, false, false⟩
  program := ⟨programId, false, false⟩

/-- A pool can always be retired. -/
theorem World.retire_isOk {rt : Runtime} (hrt : rt.Lawful) {w : World} {P : Pubkey} {pool : Pool}
    {index : List UInt8} (hpool : w.ledger P = .pool pool index) (hauthority : ¬rt.IsPda pool.authority) :
    ∃ w', processInstruction rt w (SetStatus.instruction pool.authority P poolRetired) = .ok w' ∧
      Step rt w (.call (.setStatus (SetStatus.accounts pool.authority P) ⟨poolRetired⟩)) w' := by
  have hload := (Account.entry_eq_pool.mp hpool).1
  have haccounts : SetStatusAccounts.tryFrom w
      (SetStatus.instruction pool.authority P poolRetired).accounts =
        .ok (SetStatus.accounts pool.authority P) := by
    simp [SetStatusAccounts.tryFrom, SetStatus.instruction, SetStatus.accounts, World.account, hload, failIf]
  have hparse : Instruction.parse w (SetStatus.instruction pool.authority P poolRetired) =
      .ok (.setStatus (SetStatus.accounts pool.authority P) ⟨poolRetired⟩) := by
    unfold Instruction.parse
    rw [haccounts]
    rfl
  have hprocess : processInstruction rt w (SetStatus.instruction pool.authority P poolRetired) =
      rt.emit (w.store Pool.layout P { pool with status := poolRetired }) 35 3 [P.val, [poolRetired]]
        ⟨eventAuthority, false, false⟩ ⟨programId, false, false⟩ := by
    rw [processInstruction_eq, hparse, ok_bind]
    simp [Call.process, SetStatus.process, SetStatus.accounts, World.account, hload, failIf]
  have hdone := hprocess.trans (Runtime.emit_eq hrt 3 (by simp [FixedBytes.length_val]) rfl rfl)
  exact ⟨_, hdone, .call (by simpa [SetStatus.instruction] using hauthority) hparse hdone⟩

/-! ## One instruction of a wind-down -/

/-- What winding down the pool at `P` with these terms leaves, and what it pays: nobody but the authority signs,
only refunds take from the vault, every other account gets what is `paid` to it, and what the pool no longer owes
belongs to its receiver. -/
structure World.Unwound (rt : Runtime) (P : Pubkey) (pool : Pool) (paid : Pubkey → ℕ) (w w' : World) :
    Prop where
  executes : ∃ ixs : List Instruction, w.execute rt ixs = .ok w' ∧
    ∀ ix ∈ ixs, ∀ info ∈ ix.accounts, info.isSigner = true → info.key = pool.authority
  vault : (w.ledger.banner P).vault + (w'.ledger.banner P).reserve =
    (w'.ledger.banner P).vault + (w.ledger.banner P).reserve
  balance : ∀ k, k ≠ pool.vault → (w'.ledger k).balance = (w.ledger k).balance + paid k
  token : ∀ k t, w.ledger k = .token t → k ≠ pool.vault → ∃ t', w'.ledger k = .token t' ∧ t'.mint = t.mint ∧
    t'.amount.toNat + (w'.ledger pool.vault).balance ≤ t.amount.toNat + (w.ledger pool.vault).balance
  asset : ∀ k c, w.ledger k = .asset c → c.owner ≠ P → w'.ledger k = .asset c
  handed : ∀ slot asset receiver, (w.ledger.banner P).owed pool.authority slot = some (asset, receiver) →
    (w'.ledger.banner P).owed pool.authority slot = some (asset, receiver) ∨
      receiver ≠ P ∧ ∃ c, w'.ledger asset = .asset c ∧ c.owner = receiver

/-- A pool that is being wound down: retired, with its terms, and with every purchase that waits expired and
ready to be refunded. -/
structure World.Winding (rt : Runtime) (P : Pubkey) (pool : Pool) (atas : Pubkey → Pubkey) (w : World) :
    Prop where
  sound : w.Sound rt
  backed : w.Backed
  header : ∃ pool' index, w.ledger P = .pool pool' index ∧ pool.SameTerms pool' ∧ pool'.status = poolRetired
  refundable : ∀ k pull, (w.ledger.banner P).pulls k = some pull → pull.status = statusPending →
    w.Refundable rt P pool k (atas k) pull
  owing : (w.ledger.banner P).Owing

namespace World

variable {rt : Runtime} {w w' w'' : World} {P : Pubkey} {pool : Pool} {atas : Pubkey → Pubkey}

theorem execute_append {ixs ixs' : List Instruction} (h : w.execute rt ixs = .ok w') :
    w.execute rt (ixs ++ ixs') = w'.execute rt ixs' := by
  induction ixs generalizing w with
  | nil =>
    obtain rfl := pure_eq_ok.mp h
    rfl
  | cons ix ixs ih =>
    obtain ⟨w₁, hfirst, hrest⟩ := bind_eq_ok.mp h
    rw [List.cons_append, execute, hfirst]
    exact ih hrest

namespace Unwound

variable {paid paid' : Pubkey → ℕ}

theorem refl (w : World) : w.Unwound rt P pool 0 w where
  executes := ⟨[], rfl, by simp⟩
  vault := rfl
  balance _ _ := rfl
  token _ t h _ := ⟨t, h, rfl, le_rfl⟩
  asset _ _ h _ := h
  handed _ _ _ h := .inl h

theorem trans (h : w.Unwound rt P pool paid w') (h' : w'.Unwound rt P pool paid' w'') :
    w.Unwound rt P pool (paid + paid') w'' where
  executes := by
    obtain ⟨ixs, hixs, hsigned⟩ := h.executes
    obtain ⟨ixs', hixs', hsigned'⟩ := h'.executes
    exact ⟨ixs ++ ixs', (execute_append hixs).trans hixs',
      List.forall_mem_append.mpr ⟨hsigned, hsigned'⟩⟩
  vault := by
    have hfirst := h.vault
    have hnext := h'.vault
    omega
  balance k hk := by
    rw [h'.balance k hk, h.balance k hk]
    exact Nat.add_assoc _ _ _
  token k t htoken hk := by
    obtain ⟨t', htoken', hmint, hsum⟩ := h.token k t htoken hk
    obtain ⟨t'', htoken'', hmint', hsum'⟩ := h'.token k t' htoken' hk
    exact ⟨t'', htoken'', hmint'.trans hmint, hsum'.trans hsum⟩
  asset k c hentry howner := h'.asset k c (h.asset k c hentry howner) howner
  handed slot asset receiver howed := by
    rcases h.handed slot asset receiver howed with howed' | ⟨hne, c, hentry, howner⟩
    · exact h'.handed slot asset receiver howed'
    · -- What its receiver has is no longer the pool's.
      exact .inr ⟨hne, c, h'.asset asset c hentry (howner ▸ hne), howner⟩

/-- Two runs without a refund. -/
theorem trans_zero (h : w.Unwound rt P pool 0 w') (h' : w'.Unwound rt P pool 0 w'') :
    w.Unwound rt P pool 0 w'' := by
  have hboth := h.trans h'
  rwa [add_zero] at hboth

end Unwound

end World

/-- What a refund leaves: the Items, the assets, and every balance but that of the vault. -/
theorem Refund.Effect.frame {rt : Runtime} {slot : UInt64} {a : RefundAccounts} {pool : Pool}
    {index : List UInt8} {pull : Pull} {L L' : Ledger} (h : Refund.Effect rt slot a pool index pull L L') :
    (L'.banner a.pool.key).items = (L.banner a.pool.key).items ∧
      (∀ k, k ≠ a.vault.key → k ≠ a.buyerAta.key → (L' k).balance = (L k).balance) ∧
      (∀ k c, L k = .asset c → L' k = .asset c) ∧
      ∃ pendingDraws nextSettle, L' a.pool.key = .pool { pool with pendingDraws, nextSettle } index ∧
        pool.pendingDraws.toNat = pull.count.toNat + pendingDraws.toNat := by
  obtain ⟨amount, pendingDraws, nextSettle, M, -, hdraws, -, hpaid, rfl⟩ := h.ledger
  generalize hpool' : ({ pool with pendingDraws, nextSettle } : Pool) = pool' at hpaid
  have hne := Ledger.ne_of_entry h.loaded h.loadedPull (by simp)
  have hM : M a.pull.key = .pull pull :=
    hpaid.of_pull (by rw [Function.update_of_ne hne.symm, h.loadedPull])
  refine ⟨?_, fun k hk hk' => ?_, fun k c hk => ?_, pendingDraws, nextSettle, ?_, hdraws⟩
  · funext k
    have hafter := Ledger.read_update (Entry.item? a.pool.key) (L := M) (k := a.pull.key) (e := .vacant)
      (by rw [hM]; rfl) k
    have hbefore := Ledger.read_update (Entry.item? a.pool.key) (L := L) (k := a.pool.key)
      (e := .pool pool' index) (by rw [h.loaded]; rfl) k
    exact hafter.trans ((congrFun (hpaid.sameBooks a.pool.key).items k).trans hbefore)
  · have hafter := Ledger.read_update Entry.balance (L := M) (k := a.pull.key) (e := .vacant)
      (by rw [hM]; rfl) k
    have hbefore := Ledger.read_update Entry.balance (L := L) (k := a.pool.key) (e := .pool pool' index)
      (by rw [h.loaded]; rfl) k
    have hpays := hpaid.balance k
    rw [if_neg fun heq => hk heq.1, if_neg fun heq => hk' heq.1, hbefore] at hpays
    rw [hafter]
    exact hpays
  · apply Ledger.update_of_entry _ _ hM (by simp)
    exact hpaid.asset_kept (Ledger.update_of_entry _ hk h.loaded (by simp))
  · rw [Function.update_of_ne hne, hpool']
    apply Ledger.banner_pool.mp
    rw [(hpaid.sameBooks a.pool.key).pool]
    exact Ledger.banner_pool.mpr (Function.update_self _ _ _)

/-- What a delivery to a buyer leaves: the header of the pool and its Items, every balance, the token accounts, every
other asset, and the Pull unless it was the last outcome. -/
structure Delivered (L L' : Ledger) (P k asset : Pubkey) (marked : Pull) (c : CoreAsset) : Prop where
  pool : L' P = L P
  items : (L'.banner P).items = (L.banner P).items
  pulls : (L'.banner P).pulls = Function.update (L.banner P).pulls k
    (if marked.undelivered = [] then none else some marked)
  balance : ∀ key, (L' key).balance = (L key).balance
  token : ∀ key t, L key = .token t → L' key = .token t
  others : ∀ key c', L key = .asset c' → key ≠ asset → L' key = .asset c'
  handed : L' asset = .asset { c with owner := marked.buyer }

/-- The entries that a delivery writes. -/
theorem Delivered.of_ledger {L L' : Ledger} {P k asset : Pubkey} {pool : Pool} {index : List UInt8}
    {pull : Pull} {i : ℕ} {outcome : Outcome} {c : CoreAsset} (hpool : L P = .pool pool index)
    (hentry : L k = .pull pull) (hP : pull.pool = P) (hasset : L asset = .asset c)
    (hledger : L' = Function.update (Function.update L asset (.asset { c with owner := pull.buyer })) k
      (if (pull.marked i outcome).undelivered = [] then .vacant else .pull (pull.marked i outcome))) :
    Delivered L L' P k asset (pull.marked i outcome) c := by
  generalize hleft : (if (pull.marked i outcome).undelivered = [] then Entry.vacant
    else .pull (pull.marked i outcome)) = e at hledger
  have he : e.balance = 0 ∧ e.item? P = none ∧ ∀ t, e ≠ .token t := by
    rw [← hleft]
    split_ifs <;> exact ⟨rfl, rfl, by simp⟩
  have hmarked : e.pull? P = if (pull.marked i outcome).undelivered = [] then none
      else some (pull.marked i outcome) := by
    rw [← hleft]
    split_ifs
    · rfl
    · exact Entry.pull?_eq_some.mpr ⟨rfl, hP⟩
  have hne : k ≠ asset := Ledger.ne_of_entry hentry hasset (by simp)
  have hentry' : Function.update L asset (.asset { c with owner := pull.buyer }) k = .pull pull :=
    (Function.update_of_ne hne _ _).trans hentry
  rw [hledger]
  constructor
  · rw [hpool]
    exact Ledger.update_of_entry _ (Ledger.update_of_entry _ hpool hasset (by simp)) hentry' (by simp)
  · exact funext (Ledger.read_update₂ (Entry.item? P) (by rw [hasset]; rfl) (by rw [hentry, he.2.1]; rfl))
  · rw [Ledger.banner_update_pulls, hmarked]
    congr 1
    exact funext (Ledger.read_update (Entry.pull? P) (by rw [hasset]; rfl))
  · exact Ledger.read_update₂ Entry.balance (by rw [hasset]; rfl) (by rw [hentry, he.1]; rfl)
  · exact fun key t hkey => Ledger.update_of_entry _ (Ledger.update_of_entry _ hkey hasset (by simp)) hentry'
      (by simp)
  · exact fun key c' hkey hother => Ledger.update_of_entry _
      ((Function.update_of_ne hother _ _).trans hkey) hentry' (by simp)
  · rw [Function.update_of_ne hne.symm, Function.update_self]
    rfl

/-- A delivery takes one outcome off what a pool owes. -/
theorem Banner.owed_marked {S S' : Banner} {authority k : Pubkey} {pull : Pull} {i : ℕ} {outcome : Outcome}
    (hpull : S.pulls k = some pull) (hpulls : S'.pulls = Function.update S.pulls k
      (if (pull.marked i outcome).undelivered = [] then none else some (pull.marked i outcome)))
    (key : Pubkey) (j : ℕ) (o : Pubkey × Pubkey) : S'.owed authority (.outcome key j) = some o ↔
      S.owed authority (.outcome key j) = some o ∧ (key, j) ≠ (k, i) := by
  obtain ⟨asset, receiver⟩ := o
  rw [owed_outcome, owed_outcome, hpulls]
  by_cases heq : key = k
  · subst heq
    rw [Function.update_self]
    constructor
    · rintro ⟨pull', hkey, hpromised, rfl⟩
      split_ifs at hkey
      obtain rfl := Option.some.inj hkey
      obtain ⟨hold, hji⟩ := Pull.promised_marked hpromised
      exact ⟨⟨pull, hpull, hold, rfl⟩, fun hsame => hji (Prod.mk.inj hsame).2⟩
    · rintro ⟨⟨pull', hkey, hpromised, rfl⟩, hji⟩
      obtain rfl := Option.some.inj (hpull.symm.trans hkey)
      have hstays := Pull.promised_marked_of_ne outcome hpromised fun hsame => hji (by rw [hsame])
      have hnil := List.ne_nil_of_mem (Pull.mem_undelivered.mpr ⟨_, hstays⟩)
      exact ⟨_, if_neg hnil, hstays, rfl⟩
  · rw [Function.update_of_ne heq]
    exact ⟨fun hold => ⟨hold, fun hsame => heq (Prod.mk.inj hsame).1⟩, fun hold => hold.1⟩

/-- What is read of an entry stays, where a reclaim does not write it. -/
theorem Reclaimed.read {L L' : Ledger} {P key : Pubkey} {item : Item} {pool : Pool} {index : List UInt8}
    (h : Reclaimed L L' P key item pool index) {β : Type} (f : Entry → β) (hpool : f (L' P) = f (L P))
    (hitem : f (L' key) = f (L key)) (hasset : f (L' item.asset) = f (L item.asset)) (k : Pubkey) :
    f (L' k) = f (L k) := by
  by_cases hP : k = P
  · rw [hP, hpool]
  · by_cases hkey : k = key
    · rw [hkey, hitem]
    · by_cases hk : k = item.asset
      · rw [hk, hasset]
      · rw [h.others k hP hkey hk]

/-- No draws are pending when no Pull waits. -/
theorem Banner.Opened.settled_of_idle {rt : Runtime} {P : Pubkey} {S : Banner} {pool : Pool}
    {index : List UInt8} {m : Market UInt8 Ticket} (hm : S.Opened rt P pool index m)
    (hidle : ∀ k pull, S.pulls k = some pull → pull.status ≠ statusPending) :
    pool.pendingDraws = 0 ∧ pool.nextSettle = pool.nextIndex := by
  have hqueue : m.queue = [] := by
    apply List.eq_nil_iff_length_eq_zero.mpr
    by_contra hne
    obtain ⟨pull, hpull, hpending, -⟩ :=
      hm.queued.ticket (List.getElem?_eq_getElem (Nat.pos_of_ne_zero hne))
    exact hidle _ pull hpull hpending
  have hdraws := hm.queued.draws
  have hnext := hm.queued.next
  rw [hqueue] at hdraws hnext
  constructor
  · exact UInt64.toNat_inj.mp hdraws
  · rw [hm.queued.served] at hnext
    exact UInt64.toNat_inj.mp hnext.symm

/-- The first Pull of a queue is the one whose turn it is. -/
theorem Banner.Opened.head_of_fifo {rt : Runtime} {L : Ledger} {P k : Pubkey} {pool : Pool} {index : List UInt8}
    {m : Market UInt8 Ticket} (hm : (L.banner P).Opened rt P pool index m) {pull : Pull}
    {rest : List (Pubkey × Pull)} (hfifo : L.Fifo P ((k, pull) :: rest)) : pull.index = pool.nextSettle := by
  obtain ⟨queue, hfifo', -, hindices⟩ := hm.fifo
  obtain rfl := hfifo'.unique hfifo
  have hlen := congrArg List.length hindices
  rw [List.length_map, List.length_range', List.length_cons] at hlen
  rw [← hlen, List.map_cons, List.range'_succ] at hindices
  exact UInt64.toNat_inj.mp ((List.cons.inj hindices).1.trans hm.queued.served)

/-- What refunds of some Pulls pay to each token account. -/
def Pool.refundsTo (pool : Pool) (atas : Pubkey → Pubkey) (queue : List (Pubkey × Pull)) (ata : Pubkey) : ℕ :=
  (pool.price.toNat + pool.bondPerDraw.toNat) * drawsOf (queue.filter fun x => ata = atas x.1)

theorem Pool.refundsTo_cons (pool : Pool) (atas : Pubkey → Pubkey) (x : Pubkey × Pull)
    (rest : List (Pubkey × Pull)) : pool.refundsTo atas (x :: rest) = (fun ata => if ata = atas x.1 then
      (pool.price.toNat + pool.bondPerDraw.toNat) * x.2.count.toNat else 0) + pool.refundsTo atas rest := by
  funext ata
  rw [Pi.add_apply]
  unfold refundsTo drawsOf
  by_cases hata : ata = atas x.1
  · rw [List.filter_cons_of_pos (by simpa using hata), if_pos hata, List.map_cons, List.sum_cons, Nat.mul_add]
  · rw [List.filter_cons_of_neg (by simpa using hata), if_neg hata, Nat.zero_add]

namespace World

variable {rt : Runtime} {w w' : World} {P : Pubkey} {pool : Pool} {atas : Pubkey → Pubkey}

/-- The account that a Pull is refunded to suits later headers of its pool. -/
theorem Refundable.of_terms {pool' : Pool} {k ata : Pubkey} {pull : Pull}
    (h : w.Refundable rt P pool k ata pull) (hterms : pool.SameTerms pool') :
    w.Refundable rt P pool' k ata pull := by
  obtain ⟨token, htoken, howner, hmint, hroom⟩ := h.destination
  refine ⟨h.loaded, h.samePool, h.pending, h.expired, token, htoken, howner, ?_, ?_⟩
  · rw [hterms.paymentMint, hmint]
  · rwa [hterms.vault]

namespace Winding

/-- The account that a buyer is refunded to is not the vault: one belongs to the holder of a key, the other to the
pool. -/
theorem ata_ne_vault (h : w.Winding rt P pool atas) {k : Pubkey} {pull : Pull}
    (hpull : (w.ledger.banner P).pulls k = some pull) (hpending : pull.status = statusPending) :
    atas k ≠ pool.vault := by
  obtain ⟨pool', index, hpool, hterms, -⟩ := h.header
  obtain ⟨m, hm⟩ := h.sound.opened hpool
  intro heq
  obtain ⟨token, htoken, howner, -⟩ := (h.refundable k pull hpull hpending).destination
  rw [heq, ← hterms.vault] at htoken
  obtain ⟨hvaultOwner, -⟩ := h.sound.vault hm.valid.isPda hm.valid.vault htoken
  exact (hm.pull hpull).buyer (howner ▸ hvaultOwner ▸ hm.valid.isPda)

/-- A pool has as many Items as positions at most. -/
theorem finite_items (h : w.Winding rt P pool atas) : {k | ((w.ledger.banner P).items k).isSome}.Finite := by
  obtain ⟨pool', index, hpool, -⟩ := h.header
  obtain ⟨m, hm⟩ := h.sound.opened hpool
  apply Set.Finite.of_injOn (f := fun k => ((w.ledger.banner P).items k).elim 0 fun item => item.position.toNat)
    (t := Set.Iio m.stock.length) _ _ (Set.finite_Iio _)
  · intro k hk
    obtain ⟨item, hitem⟩ := Option.isSome_iff_exists.mp hk
    dsimp only
    rw [hitem]
    exact hm.shelved.lt_length hitem
  · intro k hk k' hk' heq
    obtain ⟨item, hitem⟩ := Option.isSome_iff_exists.mp hk
    obtain ⟨item', hitem'⟩ := Option.isSome_iff_exists.mp hk'
    dsimp only at heq
    rw [hitem, hitem'] at heq
    exact hm.shelved.unique hitem hitem' (UInt32.toNat_inj.mp heq)

/-- A pool has as many Pulls as purchases at most, each with ten outcomes at most. -/
theorem finite_outcomes (h : w.Winding rt P pool atas) :
    {x : Pubkey × ℕ | ((w.ledger.banner P).owed pool.authority (.outcome x.1 x.2)).isSome}.Finite := by
  obtain ⟨pool', index, hpool, -⟩ := h.header
  obtain ⟨m, hm⟩ := h.sound.opened hpool
  apply Set.Finite.of_injOn
    (f := fun x => (((w.ledger.banner P).pulls x.1).elim 0 fun pull => pull.index.toNat, x.2))
    (t := Set.Iio pool'.nextIndex.toNat ×ˢ Set.Iio 256) _ _ ((Set.finite_Iio _).prod (Set.finite_Iio _))
  · rintro ⟨k, i⟩ hx
    obtain ⟨⟨asset, receiver⟩, howed⟩ := Option.isSome_iff_exists.mp hx
    obtain ⟨pull, hpull, hpromised, -⟩ := Banner.owed_outcome.mp howed
    obtain ⟨-, hlt, -⟩ := Pull.promised_eq_some.mp hpromised
    dsimp only
    rw [hpull]
    exact ⟨hm.queued.index_lt hpull, hlt.trans pull.count.toNat_lt⟩
  · rintro ⟨k, i⟩ hx ⟨k', i'⟩ hx' heq
    obtain ⟨⟨asset, receiver⟩, howed⟩ := Option.isSome_iff_exists.mp hx
    obtain ⟨pull, hpull, -⟩ := Banner.owed_outcome.mp howed
    obtain ⟨⟨asset', receiver'⟩, howed'⟩ := Option.isSome_iff_exists.mp hx'
    obtain ⟨pull', hpull', -⟩ := Banner.owed_outcome.mp howed'
    dsimp only at heq
    rw [hpull, hpull'] at heq
    obtain ⟨hindex, hi⟩ := Prod.mk.inj heq
    obtain rfl := hm.queued.distinct hpull hpull' (UInt64.toNat_inj.mp hindex)
    rw [hi]

section Step

variable (hrt : rt.Lawful) (hlamports : rt.Conserves) (h : w.Winding rt P pool atas)

include hrt hlamports h

/-- While a purchase waits, the oldest one is refunded. -/
theorem refund_first (htokens : rt.TransfersTokens) {k : Pubkey} {pull : Pull} {rest : List (Pubkey × Pull)}
    (hfifo : w.ledger.Fifo P ((k, pull) :: rest)) :
    ∃ w', w.Unwound rt P pool (fun ata => if ata = atas k then
        (pool.price.toNat + pool.bondPerDraw.toNat) * pull.count.toNat else 0) w' ∧
      w'.Winding rt P pool atas ∧ w'.ledger.Fifo P rest := by
  obtain ⟨pool', index, hpool, hterms, hretired⟩ := h.header
  obtain ⟨m, hm⟩ := h.sound.opened hpool
  have hhead := hm.head_of_fifo hfifo
  obtain ⟨hentry, hP, hpending⟩ := hfifo.mem.mp List.mem_cons_self
  have hpull := Ledger.banner_pulls.mpr ⟨hentry, hP⟩
  have hready := h.refundable k pull hpull hpending
  -- It has expired, and what it is refunded from covers it.
  obtain ⟨w', hprocess, hstep⟩ :=
    h.sound.refund_isOk hrt htokens hlamports h.backed hpool (hready.of_terms hterms) hhead
  obtain ⟨hclock, ⟨pool₁, index₁, pull₁, heffect⟩, -⟩ := hstep.effect hrt h.sound
  obtain ⟨rfl, rfl⟩ := Entry.pool.inj (hpool.symm.trans heffect.loaded)
  obtain rfl := Entry.pull.inj (hready.loaded.symm.trans heffect.loadedPull)
  have hsound' := hstep.sound hrt h.sound
  have hpulls : (w'.ledger.banner P).pulls = Function.update (w.ledger.banner P).pulls k none :=
    heffect.pulls
  obtain ⟨hitems, hbalance, hassets, pendingDraws, nextSettle, hpool', hdraws⟩ := heffect.frame
  change (w'.ledger.banner P).items = (w.ledger.banner P).items at hitems
  change ∀ key, key ≠ pool'.vault → _ at hbalance
  change w'.ledger P = _ at hpool'
  have hdistinct : ∀ key pull', (w.ledger.banner P).pulls key = some pull' →
      pull'.status = statusPending → atas key ≠ pool'.vault := by
    intro key pull' hpull' hpending'
    rw [hterms.vault]
    exact h.ata_ne_vault hpull' hpending'
  -- The refund moves its amount between two accounts, and closes the Pull.
  obtain ⟨hreceived, hspent, hsum, hkept⟩ := heffect.paid (hdistinct k pull hpull hpending).symm
  have hothers : ∀ {key pull'}, (w'.ledger.banner P).pulls key = some pull' →
      key ≠ k ∧ (w.ledger.banner P).pulls key = some pull' := by
    intro key pull' hkey
    rw [hpulls, Function.update_apply] at hkey
    split_ifs at hkey with heq
    exact ⟨heq, hkey⟩
  have htoken : ∀ key t, w.ledger key = .token t → key ≠ pool'.vault → ∃ t', w'.ledger key = .token t' ∧
      t'.owner = t.owner ∧ t'.mint = t.mint ∧ t'.amount.toNat + (w'.ledger pool'.vault).balance ≤
        t.amount.toNat + (w.ledger pool'.vault).balance := by
    intro key t hkey hne
    obtain ⟨t', hkey', howner, hmint⟩ := hkept key t hkey
    have hle := hsum key hne
    rw [hkey, hkey'] at hle
    exact ⟨t', hkey', howner, hmint, hle⟩
  refine ⟨w', ?_, ?_, hfifo.tail hpulls (by simp)⟩
  · refine ⟨⟨[_], by rw [execute, hprocess]; rfl, by simp [Refund.instruction]⟩, ?_, fun key hkey => ?_, ?_,
      fun key c hkey _ => hassets key c hkey, ?_⟩
    · rw [Ledger.banner_vault hpool, Ledger.banner_vault hpool', Ledger.banner_reserve hpool,
        Ledger.banner_reserve hpool', hdraws, Nat.mul_add]
      change (w.ledger pool'.vault).balance = (w'.ledger pool'.vault).balance + _ at hspent
      dsimp only
      omega
    · rw [← hterms.vault] at hkey
      rw [← hterms.price, ← hterms.bondPerDraw]
      by_cases hata : key = atas k
      · rw [if_pos hata, hata]
        exact hreceived
      · rw [if_neg hata]
        exact hbalance key hkey hata
    · rw [← hterms.vault]
      intro key t hkey hne
      obtain ⟨t', hkey', -, hmint, hle⟩ := htoken key t hkey hne
      exact ⟨t', hkey', hmint, hle⟩
    · intro slot asset receiver howed
      apply Or.inl
      cases slot with
      | item key =>
        rw [Banner.owed_item] at howed ⊢
        rwa [hitems]
      | outcome key j =>
        rw [Banner.owed_outcome] at howed ⊢
        obtain ⟨pull', hkey, hpromised, hbuyer⟩ := howed
        -- What waits has no outcomes.
        have hne : key ≠ k := by
          rintro rfl
          obtain rfl := Option.some.inj (hpull.symm.trans hkey)
          exact absurd (hpromised.symm.trans (Pull.promised_of_pending hpending j)) (by simp)
        exact ⟨pull', by rw [hpulls, Function.update_of_ne hne, hkey], hpromised, hbuyer⟩
  · refine ⟨hsound', processInstruction_backed hlamports hprocess h.backed, ⟨_, _, hpool', ?_, hretired⟩, ?_, ?_⟩
    · exact hterms.trans ⟨rfl, rfl, rfl, rfl, rfl, rfl, rfl, rfl, rfl⟩
    · intro key pull' hkey hpending'
      obtain ⟨-, hold⟩ := hothers hkey
      have hready' := h.refundable key pull' hold hpending'
      obtain ⟨t, hentry, howner, hmint, hroom⟩ := hready'.destination
      obtain ⟨t', hentry', howner', hmint', hle⟩ := htoken _ t hentry (hdistinct key pull' hold hpending')
      rw [← hterms.vault] at hroom
      refine ⟨(Ledger.banner_pulls.mp hkey).1, hready'.samePool, hpending', ?_, t', hentry',
        howner'.trans howner, hmint'.trans hmint, ?_⟩
      · rw [hclock.1]
        exact hready'.expired
      · rw [← hterms.vault]
        exact hle.trans_lt hroom
    · exact fun key pull' hkey hsettled => h.owing key pull' (hothers hkey).2 hsettled
/-- The purchases that wait are refunded one after the other. -/
theorem refund_all (htokens : rt.TransfersTokens) {queue : List (Pubkey × Pull)}
    (hfifo : w.ledger.Fifo P queue) : ∃ w', w.Unwound rt P pool (pool.refundsTo atas queue) w' ∧
      w'.Winding rt P pool atas ∧ w'.ledger.Fifo P [] := by
  induction queue generalizing w with
  | nil => exact ⟨w, .refl w, h, hfifo⟩
  | cons x rest ih =>
    obtain ⟨w₁, hfirst, hwinding, hrest⟩ := h.refund_first hrt hlamports htokens hfifo
    obtain ⟨w', hnext, hwinding', hdone⟩ := ih hwinding hrest
    rw [Pool.refundsTo_cons]
    exact ⟨w', hfirst.trans hnext, hwinding', hdone⟩

/-- While an outcome is undelivered, it is delivered. -/
theorem deliver_next (hassets : rt.TransfersAssets) (hauthority : ¬rt.IsPda pool.authority)
    (hidle : ∀ k pull, (w.ledger.banner P).pulls k = some pull → pull.status ≠ statusPending)
    (hsome : {x : Pubkey × ℕ |
      ((w.ledger.banner P).owed pool.authority (.outcome x.1 x.2)).isSome}.Nonempty) :
    ∃ x ∈ {x : Pubkey × ℕ | ((w.ledger.banner P).owed pool.authority (.outcome x.1 x.2)).isSome},
      ∃ w', w.Unwound rt P pool 0 w' ∧ (w'.Winding rt P pool atas ∧
          ∀ k pull, (w'.ledger.banner P).pulls k = some pull → pull.status ≠ statusPending) ∧
        {x : Pubkey × ℕ | ((w'.ledger.banner P).owed pool.authority (.outcome x.1 x.2)).isSome} =
          {x : Pubkey × ℕ |
            ((w.ledger.banner P).owed pool.authority (.outcome x.1 x.2)).isSome} \ {x} := by
  obtain ⟨pool', index, hpool, hterms, hretired⟩ := h.header
  obtain ⟨m, hm⟩ := h.sound.opened hpool
  obtain ⟨⟨k, i⟩, hx⟩ := hsome
  obtain ⟨⟨asset, receiver⟩, howed⟩ := Option.isSome_iff_exists.mp hx
  obtain ⟨pull, hpull, hpromised, rfl⟩ := Banner.owed_outcome.mp howed
  obtain ⟨hentry, hP⟩ := Ledger.banner_pulls.mp hpull
  have hslot : w.ledger.promised (.outcome k i) = some (asset, P) := by
    rw [Ledger.promised, hentry, Option.map_eq_some_iff]
    exact ⟨asset, hpromised, by rw [hP]⟩
  -- The pool owns what it promises, so it can be transferred.
  obtain ⟨-, -, c, -, hpda, hasset, howner⟩ := h.sound.promised_owned hslot
  obtain ⟨w', outcome, hprocess, hsound', hbacked', -, hledger⟩ :=
    h.sound.deliver hrt hassets hlamports h.backed hentry hpromised hasset hauthority
  have hsettled := (Pull.promised_eq_some.mp hpromised).1
  have hbuyer : pull.buyer ≠ P := fun heq => (hm.pull hpull).buyer (heq ▸ hpda)
  have hdelivered := Delivered.of_ledger hpool hentry hP hasset hledger
  have hpool₁ : w'.ledger P = .pool pool' index := hdelivered.pool.trans hpool
  have hothers : ∀ {key pull'}, (w'.ledger.banner P).pulls key = some pull' →
      (pull'.status ≠ statusPending ∧ pull'.undelivered ≠ []) := by
    intro key pull' hkey
    rw [hdelivered.pulls, Function.update_apply] at hkey
    split_ifs at hkey with heq hnil
    · obtain rfl := Option.some.inj hkey
      refine ⟨?_, hnil⟩
      rw [show (pull.marked i outcome).status = pull.status from rfl, hsettled]
      decide
    · exact ⟨hidle key pull' hkey, h.owing key pull' hkey (hidle key pull' hkey)⟩
  -- The other outcomes are owed as before.
  have howes := fun key j o => @Banner.owed_marked _ _ pool.authority _ _ _ _ hpull hdelivered.pulls key j o
  refine ⟨(k, i), hx, w', ?_, ⟨?_, fun key pull' hkey => (hothers hkey).1⟩, ?_⟩
  · refine ⟨⟨[_], by rw [execute, hprocess]; rfl, by simp [Deliver.instruction]⟩, ?_,
      fun key _ => hdelivered.balance key,
      fun key t hkey _ => ⟨t, hdelivered.token key t hkey, rfl, by rw [hdelivered.balance]⟩, ?_, ?_⟩
    · rw [Ledger.banner_vault hpool, Ledger.banner_vault hpool₁, Ledger.banner_reserve hpool,
        Ledger.banner_reserve hpool₁, hdelivered.balance]
    · intro key c' hkey hother
      apply hdelivered.others key c' hkey
      rintro rfl
      obtain rfl := Entry.asset.inj (hkey.symm.trans hasset)
      exact hother howner
    · intro slot asset' receiver howed'
      cases slot with
      | item key =>
        rw [Banner.owed_item] at howed' ⊢
        rw [hdelivered.items]
        exact .inl howed'
      | outcome key j =>
        by_cases hsame : (key, j) = (k, i)
        · obtain ⟨rfl, rfl⟩ := Prod.mk.inj hsame
          obtain ⟨rfl, rfl⟩ := Prod.mk.inj (Option.some.inj (howed.symm.trans howed'))
          exact .inr ⟨hbuyer, { c with owner := pull.buyer }, hdelivered.handed, rfl⟩
        · exact .inl ((howes key j _).mpr ⟨howed', hsame⟩)
  · refine ⟨hsound', hbacked', ⟨pool', index, hpool₁, hterms, hretired⟩, ?_, ?_⟩
    · exact fun key pull' hkey hpending' => absurd hpending' (hothers hkey).1
    · exact fun key pull' hkey _ => (hothers hkey).2
  · ext ⟨key, j⟩
    rw [Set.mem_ofPred_eq, Set.mem_sdiff, Set.mem_ofPred_eq, Set.mem_singleton_iff, Option.isSome_iff_exists,
      Option.isSome_iff_exists]
    simp only [howes, exists_and_right]

/-- When no Pull is left, an Item is reclaimed. -/
theorem reclaim_next (hassets : rt.TransfersAssets) (hauthority : ¬rt.IsPda pool.authority)
    (hidle : ∀ k, (w.ledger.banner P).pulls k = none)
    (hsome : {k | ((w.ledger.banner P).items k).isSome}.Nonempty) :
    ∃ k ∈ {k | ((w.ledger.banner P).items k).isSome}, ∃ w', w.Unwound rt P pool 0 w' ∧
      (w'.Winding rt P pool atas ∧ ∀ k, (w'.ledger.banner P).pulls k = none) ∧
        {k | ((w'.ledger.banner P).items k).isSome} = {k | ((w.ledger.banner P).items k).isSome} \ {k} := by
  obtain ⟨pool', index, hpool, hterms, hretired⟩ := h.header
  obtain ⟨m, hm⟩ := h.sound.opened hpool
  obtain ⟨key, hkey⟩ := hsome
  obtain ⟨item, hitem⟩ := Option.isSome_iff_exists.mp hkey
  obtain ⟨hentry, hP⟩ := Ledger.banner_items.mp hitem
  -- A reclaim wants a retired pool without pending draws.
  have hsettled : pool'.pendingDraws = 0 := (hm.settled_of_idle fun k pull hk => by simp [hidle] at hk).1
  have hauthority' : pool'.authority = pool.authority := Pool.authority_of_signerSeeds hterms.signerSeeds
  have hslot : w.ledger.promised (.item key) = some (item.asset, P) := by rw [Ledger.promised, hentry, ← hP]
  obtain ⟨-, -, c, -, hpda, hasset, howner⟩ := h.sound.promised_owned hslot
  rw [← hauthority'] at hauthority
  obtain ⟨w', hprocess, hstep⟩ := h.sound.reclaim_isOk hrt hassets hlamports h.backed hpool hauthority
    hretired hsettled hentry hP hasset howner
  obtain ⟨-, ⟨pool₁, index₁, item₁, heffect⟩, -⟩ := hstep.effect hrt h.sound
  obtain ⟨rfl, rfl⟩ := Entry.pool.inj (hpool.symm.trans heffect.loaded)
  obtain rfl := Entry.item.inj (hentry.symm.trans heffect.loadedItem)
  have htier := (hm.shelved.item hitem).2.1
  have hreclaimed := heffect.reclaimed htier (hm.tags_eq ▸ hm.stock)
  change Reclaimed w.ledger w'.ledger P key item pool' index at hreclaimed
  have hkeep := @Reclaimed.read _ _ _ _ _ _ _ hreclaimed
  obtain ⟨⟨tiers, index', hpool₁, -, hweights⟩, hclosed, ⟨c', hasset', -, hreturned⟩, hothers⟩ := hreclaimed
  obtain ⟨-, -, hitems⟩ := hstep.retired hrt h.sound hpool hretired hsettled
  have hreclaims : ∀ k, (Event.call (.reclaim (Reclaim.accounts pool'.authority P key item.asset
      (c.collection.getD coreId)))).reclaims P = some k ↔ k = key := by
    intro k
    unfold Event.reclaims Reclaim.accounts
    dsimp only
    rw [if_pos rfl, Option.some.injEq, eq_comm]
  simp only [hreclaims] at hitems
  have hitems : ∀ k, (w'.ledger.banner P).items k =
      if k = key then none else (w.ledger.banner P).items k := congrFun hitems
  obtain rfl := Entry.asset.inj (hasset.symm.trans hasset')
  have hbalance : ∀ k, (w'.ledger k).balance = (w.ledger k).balance :=
    hkeep Entry.balance (by rw [hpool₁, hpool]; rfl) (by rw [hclosed, hentry]; rfl)
      (by rw [hreturned, hasset]; rfl)
  have hpulls : ∀ k, (w'.ledger.banner P).pulls k = none := by
    intro k
    have hsame := hkeep (Entry.pull? P) (by rw [hpool₁, hpool]; rfl) (by rw [hclosed, hentry]; rfl)
      (by rw [hreturned, hasset]; rfl) k
    exact hsame.trans (hidle k)
  have hsound' := hstep.sound hrt h.sound
  refine ⟨key, hkey, w', ?_, ⟨?_, hpulls⟩, ?_⟩
  · refine ⟨⟨[_], by rw [execute, hprocess]; rfl, by simp [Reclaim.instruction, hauthority']⟩, ?_,
      fun k _ => hbalance k, ?_, ?_, ?_⟩
    · rw [Ledger.banner_vault hpool, Ledger.banner_vault hpool₁, Ledger.banner_reserve hpool,
        Ledger.banner_reserve hpool₁, hbalance]
    · intro k t hk _
      have hsame := hkeep Entry.token? (by rw [hpool₁, hpool]; rfl) (by rw [hclosed, hentry]; rfl)
        (by rw [hreturned, hasset]; rfl) k
      rw [hk] at hsame
      exact ⟨t, Entry.token?_eq_some.mp hsame, rfl, by rw [hbalance]⟩
    · intro k c' hk hother
      have hne : k ≠ item.asset := by
        rintro rfl
        obtain rfl := Entry.asset.inj (hk.symm.trans hasset)
        exact hother howner
      rw [hothers k (Ledger.ne_of_entry hk hpool (by simp)) (Ledger.ne_of_entry hk hentry (by simp)) hne, hk]
    · intro slot asset receiver howed
      cases slot with
      | outcome k j =>
        obtain ⟨pull, hk, -⟩ := Banner.owed_outcome.mp howed
        exact absurd ((hidle k).symm.trans hk) (by simp)
      | item k =>
        obtain ⟨item', hk, rfl, rfl⟩ := Banner.owed_item.mp howed
        by_cases heq : k = key
        · subst heq
          obtain rfl := Option.some.inj (hitem.symm.trans hk)
          refine .inr ⟨?_, _, hreturned, hauthority'⟩
          rintro hauth
          exact hauthority (hauthority' ▸ hauth ▸ hpda)
        · refine .inl (Banner.owed_item.mpr ⟨item', ?_, rfl, rfl⟩)
          rw [hitems, if_neg heq, hk]
  · refine ⟨hsound', processInstruction_backed hlamports hprocess h.backed, ⟨_, _, hpool₁, ?_, hretired⟩,
      ?_, ?_⟩
    · have hmap : tiers.map Tier.weight = pool'.tiers.map Tier.weight := by
        apply Vector.ext
        intro t ht
        rw [Vector.getElem_map, Vector.getElem_map, (hweights t ht).1]
      exact hterms.trans ⟨rfl, rfl, rfl, rfl, rfl, hmap, rfl, rfl, rfl⟩
    · exact fun k pull hk => absurd ((hpulls k).symm.trans hk) (by simp)
    · exact fun k pull hk => absurd ((hpulls k).symm.trans hk) (by simp)
  · ext k
    rw [Set.mem_ofPred_eq, hitems, Set.mem_sdiff, Set.mem_ofPred_eq, Set.mem_singleton_iff]
    by_cases heq : k = key
    · simp [heq]
    · simp [heq]

/-- Every outcome is delivered. -/
theorem deliver_all (hassets : rt.TransfersAssets) (hauthority : ¬rt.IsPda pool.authority)
    (hidle : ∀ k pull, (w.ledger.banner P).pulls k = some pull → pull.status ≠ statusPending) :
    ∃ w', w.Unwound rt P pool 0 w' ∧ w'.Winding rt P pool atas ∧ ∀ k, (w'.ledger.banner P).pulls k = none := by
  obtain ⟨w', hunwound, ⟨hwinding, hidle'⟩, hdone⟩ := @exists_drained World w _ _
    (fun v => Winding rt P pool atas v ∧
      ∀ k pull, (v.ledger.banner P).pulls k = some pull → pull.status ≠ statusPending)
    _ Unwound.refl Unwound.trans_zero
    (fun v hv hsome => hv.1.deliver_next hrt hlamports hassets hauthority hv.2 hsome) ⟨h, hidle⟩
    h.finite_outcomes
  refine ⟨w', hunwound, hwinding, fun k => ?_⟩
  by_contra hsome
  obtain ⟨pull, hpull⟩ := Option.ne_none_iff_exists'.mp hsome
  -- A Pull that is left still owes an outcome.
  obtain ⟨i, hi⟩ := List.exists_mem_of_ne_nil _ (hwinding.owing k pull hpull (hidle' k pull hpull))
  obtain ⟨asset, hpromised⟩ := Pull.mem_undelivered.mp hi
  have howed : (w'.ledger.banner P).owed pool.authority (.outcome k i) = some (asset, pull.buyer) :=
    Banner.owed_outcome.mpr ⟨pull, hpull, hpromised, rfl⟩
  have hmem : (k, i) ∈ {x : Pubkey × ℕ |
      ((w'.ledger.banner P).owed pool.authority (.outcome x.1 x.2)).isSome} :=
    Option.isSome_iff_exists.mpr ⟨_, howed⟩
  rw [hdone] at hmem
  exact hmem

/-- Every Item is reclaimed. -/
theorem reclaim_all (hassets : rt.TransfersAssets) (hauthority : ¬rt.IsPda pool.authority)
    (hidle : ∀ k, (w.ledger.banner P).pulls k = none) :
    ∃ w', w.Unwound rt P pool 0 w' ∧ w'.Winding rt P pool atas ∧
      (∀ k, (w'.ledger.banner P).pulls k = none) ∧ ∀ k, (w'.ledger.banner P).items k = none := by
  obtain ⟨w', hunwound, ⟨hwinding, hidle'⟩, hdone⟩ := @exists_drained World w _ _
    (fun v => Winding rt P pool atas v ∧ ∀ k, (v.ledger.banner P).pulls k = none)
    _ Unwound.refl Unwound.trans_zero
    (fun v hv hsome => hv.1.reclaim_next hrt hlamports hassets hauthority hv.2 hsome) ⟨h, hidle⟩
    h.finite_items
  refine ⟨w', hunwound, hwinding, hidle', fun k => ?_⟩
  have hnot := Set.eq_empty_iff_forall_notMem.mp hdone k
  exact Option.not_isSome_iff_eq_none.mp hnot

end Step

end Winding

/-! ## The rest of the money -/

section Withdraw

variable {destination : Pubkey} {amount : UInt64} {index : List UInt8} {vault token : TokenAccount}
  (hrt : rt.Lawful) (h : w.Sound rt) (hpool : w.ledger P = .pool pool index)
  (hvault : w.ledger pool.vault = .token vault)
  (hcovers : pool.reserve + amount.toNat ≤ vault.amount.toNat)

include hrt h hpool hvault hcovers

/-- What the vault holds above the reserve can be withdrawn. -/
theorem Sound.withdraw_isOk (htokens : rt.TransfersTokens) (hauthority : ¬rt.IsPda pool.authority)
    (htoken : w.ledger destination = .token token) (hmint : token.mint = pool.paymentMint)
    (hroom : token.amount.toNat + vault.amount.toNat < 2 ^ 64) :
    ∃ w', processInstruction rt w (Withdraw.instruction pool.authority P pool.vault destination amount) =
        .ok w' ∧
      Step rt w (.call (.withdraw (Withdraw.accounts pool.authority P pool.vault destination) ⟨amount⟩)) w' := by
  obtain ⟨m, hm⟩ := h.opened hpool
  obtain ⟨hvaultOwner, hvaultMint⟩ := h.vault hm.valid.isPda hm.valid.vault hvault
  have hload := (Account.entry_eq_pool.mp hpool).1
  obtain ⟨reserved, hreserved, hamount⟩ := hm.refundAmount_isOk (le_refl pool.pendingDraws.toNat)
  have hreserve : reserved.toNat = pool.reserve := hamount
  -- The surplus is the difference.
  have hle : reserved ≤ vault.amount := UInt64.le_iff_toNat_le.mpr (by omega)
  have hfree : spendable pool (w.accounts pool.vault) = .ok (vault.amount - reserved) :=
    spendable_eq_ok.mpr ⟨vault, reserved, hvault, hreserved, by
      rw [UInt64.toNat_sub_of_le _ _ hle]
      have := UInt64.le_iff_toNat_le.mp hle
      omega⟩
  have hfits : ¬vault.amount - reserved < amount := by
    rw [UInt64.lt_iff_toNat_lt, UInt64.toNat_sub_of_le _ _ hle]
    omega
  obtain ⟨paid, hpaid⟩ := @Runtime.transferTokens_isOk rt w htokens ⟨pool.vault, false, true⟩
    ⟨destination, false, true⟩ ⟨P, false, false⟩ amount _ _ _ hm.valid.derived hvault htoken hvaultOwner
    (hvaultMint.trans hmint.symm) (by omega) (fun _ => by omega) rfl rfl
  have haccounts : WithdrawAccounts.tryFrom w
      (Withdraw.instruction pool.authority P pool.vault destination amount).accounts =
        .ok (Withdraw.accounts pool.authority P pool.vault destination) := by
    simp [WithdrawAccounts.tryFrom, Withdraw.instruction, Withdraw.accounts, World.account, hload, failIf]
  have hdata : WithdrawInstructionData.tryFrom (u64.encode amount) = .ok ⟨amount⟩ := by
    unfold WithdrawInstructionData.tryFrom
    rw [failIf_neg (by simp), ok_bind, u64.decode_encode]
    rfl
  have hparse : Instruction.parse w (Withdraw.instruction pool.authority P pool.vault destination amount) =
      .ok (.withdraw (Withdraw.accounts pool.authority P pool.vault destination) ⟨amount⟩) := by
    unfold Instruction.parse
    rw [haccounts]
    change (do
      let a ← Except.ok (Withdraw.accounts pool.authority P pool.vault destination)
      let d ← WithdrawInstructionData.tryFrom (u64.encode amount)
      return Call.withdraw a d : Except Fault Call) = _
    rw [hdata]
    rfl
  have hprocess : processInstruction rt w
      (Withdraw.instruction pool.authority P pool.vault destination amount) =
        rt.emit paid 42 2 [P.val, u64.encode amount] ⟨eventAuthority, false, false⟩ ⟨programId, false, false⟩ := by
    rw [processInstruction_eq, hparse, ok_bind]
    simp [Call.process, Withdraw.process, Withdraw.accounts, World.account, hload, hfree, hfits, failIf,
      Runtime.pay, hpaid]
  have hdone := hprocess.trans (Runtime.emit_eq hrt 2 (by simp [FixedBytes.length_val]) rfl rfl)
  exact ⟨_, hdone, .call (by simpa [Withdraw.instruction] using hauthority) hparse hdone⟩

end Withdraw

section Rest

variable (hrt : rt.Lawful) (hlamports : rt.Conserves) {index : List UInt8}

include hrt

/-- Without Pulls the whole vault is surplus, and goes to an account that has room for it. -/
theorem Winding.withdraw_rest (h : w.Winding rt P pool atas) (htokens : rt.TransfersTokens)
    (hauthority : ¬rt.IsPda pool.authority) (hidle : ∀ k, (w.ledger.banner P).pulls k = none)
    {destination : Pubkey} {token : TokenAccount} (htoken : w.ledger destination = .token token)
    (hne : destination ≠ pool.vault) (hmint : token.mint = pool.paymentMint)
    (hroom : token.amount.toNat + (w.ledger pool.vault).balance < 2 ^ 64) :
    ∃ w', (∃ ixs : List Instruction, w.execute rt ixs = .ok w' ∧
        ∀ ix ∈ ixs, ∀ info ∈ ix.accounts, info.isSigner = true → info.key = pool.authority) ∧
      (w'.ledger pool.vault).balance = 0 ∧
      (∀ k, k ≠ pool.vault → (w'.ledger k).balance = (w.ledger k).balance +
        if k = destination then (w.ledger pool.vault).balance else 0) ∧
      ∀ k, w'.ledger k = w.ledger k ∨ ∃ s s', w.ledger k = .token s ∧ w'.ledger k = .token s' := by
  by_cases hzero : (w.ledger pool.vault).balance = 0
  · refine ⟨w, ⟨[], rfl, by simp⟩, hzero, fun k _ => ?_, fun k => .inl rfl⟩
    rw [hzero, ite_self]
    rfl
  obtain ⟨pool', index, hpool, hterms, -⟩ := h.header
  obtain ⟨m, hm⟩ := h.sound.opened hpool
  have hauthority' : pool'.authority = pool.authority := Pool.authority_of_signerSeeds hterms.signerSeeds
  obtain ⟨vault, hvault, hbalance⟩ := Entry.token_of_balance (Nat.pos_of_ne_zero hzero)
  have hreserve : pool'.reserve = 0 := by
    unfold Pool.reserve
    rw [(hm.settled_of_idle fun k pull hk => by simp [hidle] at hk).1]
    exact Nat.mul_zero _
  rw [← hterms.vault] at hvault hbalance hroom hne ⊢
  rw [hbalance] at hroom
  obtain ⟨w', hprocess, hstep⟩ := h.sound.withdraw_isOk hrt hpool hvault
    (show pool'.reserve + vault.amount.toNat ≤ vault.amount.toNat by rw [hreserve, Nat.zero_add]) htokens (hauthority' ▸ hauthority) htoken
    (hmint.trans hterms.paymentMint.symm) hroom
  obtain ⟨-, ⟨pool₁, index₁, heffect⟩, -⟩ := hstep.effect hrt h.sound
  have hpaid : w.ledger.Paid rt pool'.vault destination P vault.amount w'.ledger := heffect.paid
  refine ⟨w', ⟨[_], by rw [execute, hprocess]; rfl, by simp [Withdraw.instruction, hauthority']⟩, ?_,
    fun k hk => ?_, fun k => ?_⟩
  · have hspent := hpaid.balance_source hne.symm
    omega
  · have hpays := hpaid.balance k
    rw [if_neg fun heq => hk heq.1] at hpays
    by_cases hdestination : k = destination
    · rw [if_pos ⟨hdestination, hne.symm⟩] at hpays
      rw [if_pos hdestination, hbalance]
      exact hpays
    · rw [if_neg fun heq => hdestination heq.1] at hpays
      rw [if_neg hdestination]
      exact hpays
  · rcases hpaid.eq_or_tokens k with heq | ⟨s, s', hs, hs', -⟩
    · exact .inl heq
    · exact .inr ⟨s, s', hs, hs'⟩

include hlamports

/-- With the retirement of a pool the wind-down begins. -/
theorem Reached.winding (hw : w.Reached rt) (hbacked : w.Backed) (hpool : w.ledger P = .pool pool index)
    (hready : ∀ k pull, w.ledger k = .pull pull → pull.pool = P → pull.status = statusPending →
      w.Refundable rt P pool k (atas k) pull) :
    ∃ w', w.Unwound rt P pool 0 w' ∧ w'.Winding rt P pool atas ∧
      ∀ queue, w.ledger.Fifo P queue → w'.ledger.Fifo P queue := by
  have hsound := hw.sound hrt
  obtain ⟨w', hprocess, hstep⟩ := w.retire_isOk hrt hpool (hw.authority hrt hpool)
  obtain ⟨hclock, ⟨pool₁, index₁, heffect⟩, -⟩ := hstep.effect hrt hsound
  obtain ⟨rfl, rfl⟩ := Entry.pool.inj (hpool.symm.trans heffect.loaded)
  have hledger : w'.ledger = Function.update w.ledger P (.pool { pool with status := poolRetired } index) :=
    heffect.ledger
  have hpool' : w'.ledger P = .pool { pool with status := poolRetired } index := by
    rw [hledger, Function.update_self]
  -- Every other entry is as before.
  have hkeep : ∀ {k e}, w.ledger k = e → (∀ p i, e ≠ .pool p i) → w'.ledger k = e := by
    intro k e hk hother
    rw [hledger, Function.update_of_ne, hk]
    rintro rfl
    exact hother _ _ (hk.symm.trans hpool)
  have hbalance : ∀ k, (w'.ledger k).balance = (w.ledger k).balance := by
    rw [hledger]
    exact Ledger.read_update Entry.balance (by rw [hpool]; rfl)
  have hitems : (w'.ledger.banner P).items = (w.ledger.banner P).items := by
    rw [hledger]
    exact funext (Ledger.read_update (Entry.item? P) (by rw [hpool]; rfl))
  have hpulls : (w'.ledger.banner P).pulls = (w.ledger.banner P).pulls := by
    rw [hledger]
    exact funext (Ledger.read_update (Entry.pull? P) (by rw [hpool]; rfl))
  refine ⟨w', ?_, ?_, fun queue hfifo => ⟨fun {k pull} => ?_, hfifo.sorted⟩⟩
  · refine ⟨⟨[_], by rw [World.execute, hprocess]; rfl, by simp [SetStatus.instruction]⟩, ?_,
      fun k _ => hbalance k, ?_, fun k c hk _ => hkeep hk (by simp), ?_⟩
    · rw [Ledger.banner_vault hpool, Ledger.banner_vault hpool', Ledger.banner_reserve hpool,
        Ledger.banner_reserve hpool', hbalance]
    · exact fun k t hk _ => ⟨t, hkeep hk (by simp), rfl, by rw [hbalance]⟩
    · intro slot asset receiver howed
      apply Or.inl
      cases slot with
      | item k =>
        rw [Banner.owed_item] at howed ⊢
        rwa [hitems]
      | outcome k i =>
        rw [Banner.owed_outcome] at howed ⊢
        rwa [hpulls]
  · refine ⟨hstep.sound hrt hsound, processInstruction_backed hlamports hprocess hbacked,
      ⟨_, _, hpool', ⟨rfl, rfl, rfl, rfl, rfl, rfl, rfl, rfl, rfl⟩, rfl⟩, ?_, ?_⟩
    · intro k pull hk hpending
      rw [hpulls] at hk
      obtain ⟨hentry, hP⟩ := Ledger.banner_pulls.mp hk
      obtain ⟨-, -, -, hexpired, t, ht, howner, hmint, hroom⟩ := hready k pull hentry hP hpending
      refine ⟨hkeep hentry (by simp), hP, hpending, ?_, t, hkeep ht (by simp), howner, hmint, ?_⟩
      · rw [hclock.1]
        exact hexpired
      · rw [hbalance]
        exact hroom
    · intro k pull hk
      rw [hpulls] at hk
      exact hw.owing hrt P k pull hk
  · have hread : w'.ledger k = .pull pull ∧ pull.pool = P ↔ w.ledger k = .pull pull ∧ pull.pool = P := by
      rw [← Ledger.banner_pulls, ← Ledger.banner_pulls, hpulls]
    rw [hfifo.mem, ← and_assoc, ← and_assoc, hread]

end Rest

/-! ## The whole wind-down -/

/-- A pool that was wound down: it is retired, nobody waits and its index is empty, it has no Pull and no Item and
nothing in its vault, every outcome that it owed belongs to the buyer, and every other asset to the authority. -/
structure WoundDown (w : World) (P : Pubkey) (pool : Pool) (w' : World) : Prop where
  header : ∃ pool' index', w'.ledger P = .pool pool' index' ∧ pool.SameTerms pool' ∧
    pool'.status = poolRetired ∧ pool'.pendingDraws = 0 ∧ pool'.nextSettle = pool'.nextIndex ∧
      pool'.Emptied index'
  pull : ∀ k pull, w'.ledger k = .pull pull → pull.pool ≠ P
  item : ∀ k item, w'.ledger k = .item item → item.pool ≠ P
  delivered : ∀ k pull i asset, w.ledger k = .pull pull → pull.pool = P → pull.promised i = some asset →
    ∃ c, w'.ledger asset = .asset c ∧ c.owner = pull.buyer
  returned : ∀ k item, w.ledger k = .item item → item.pool = P →
    ∃ c, w'.ledger item.asset = .asset c ∧ c.owner = pool.authority
  vault : (w'.ledger pool.vault).balance = 0

/-- Every pool can be wound down by its authority alone, once the deadlines of the purchases that wait have passed:
some instructions, which at most the authority signs, retire it and execute until nothing is left. Every buyer who
waits gets the price and the penalty of the draws, every prize and every asset goes to its receiver, and what the
vault held beyond the reserve goes to the account that the authority names. -/
theorem Reached.winds_down (hrt : rt.Lawful) (hassets : rt.TransfersAssets) (htokens : rt.TransfersTokens)
    (hlamports : rt.Conserves) (hw : w.Reached rt) (hbacked : w.Backed) {index : List UInt8}
    (hpool : w.ledger P = .pool pool index)
    (hready : ∀ k pull, w.ledger k = .pull pull → pull.pool = P → pull.status = statusPending →
      w.Refundable rt P pool k (atas k) pull)
    {destination : Pubkey} {token : TokenAccount} (htoken : w.ledger destination = .token token)
    (hne : destination ≠ pool.vault) (hmint : token.mint = pool.paymentMint)
    (hroom : token.amount.toNat + (w.ledger pool.vault).balance < 2 ^ 64) :
    ∃ queue ixs w', w.ledger.Fifo P queue ∧ w.execute rt ixs = .ok w' ∧
      (∀ ix ∈ ixs, ∀ info ∈ ix.accounts, info.isSigner = true → info.key = pool.authority) ∧
      w.WoundDown P pool w' ∧
      ∀ k, k ≠ pool.vault → (w'.ledger k).balance = (w.ledger k).balance + pool.refundsTo atas queue k +
        if k = destination then (w.ledger pool.vault).balance - pool.reserve else 0 := by
  have hauthority := hw.authority hrt hpool
  obtain ⟨m, hm⟩ := (hw.sound hrt).opened hpool
  obtain ⟨queue, hfifo, -⟩ := hm.fifo
  -- Retirement stops new purchases; the Items come last, since a reclaim wants an empty queue.
  obtain ⟨w₁, hretire, hwinding₁, hqueue⟩ := hw.winding hrt hlamports hbacked hpool hready
  obtain ⟨w₂, hrefunds, hwinding₂, hserved⟩ := hwinding₁.refund_all hrt hlamports htokens (hqueue queue hfifo)
  obtain ⟨w₃, hdeliveries, hwinding₃, hpulls₃⟩ := hwinding₂.deliver_all hrt hlamports hassets hauthority
    fun k pull hk hpending => by
      obtain ⟨hentry, hP⟩ := Ledger.banner_pulls.mp hk
      exact absurd (hserved.mem.mpr ⟨hentry, hP, hpending⟩) List.not_mem_nil
  obtain ⟨w₄, hreclaims, hwinding₄, hpulls, hitems⟩ :=
    hwinding₃.reclaim_all hrt hlamports hassets hauthority hpulls₃
  have hunwound : w.Unwound rt P pool (pool.refundsTo atas queue) w₄ := by
    have hall := ((hretire.trans hrefunds).trans hdeliveries).trans hreclaims
    simpa only [zero_add, add_zero] using hall
  obtain ⟨pool', index', hpool', hterms, hretired⟩ := hwinding₄.header
  obtain ⟨m', hm'⟩ := hwinding₄.sound.opened hpool'
  obtain ⟨hsettled, hturn⟩ := hm'.settled_of_idle fun k pull hk => by simp [hpulls] at hk
  -- All that the reserve was for has been paid.
  have hvault : (w₄.ledger pool.vault).balance = (w.ledger pool.vault).balance - pool.reserve := by
    have hsum := hunwound.vault
    rw [Ledger.banner_vault hpool, Ledger.banner_vault hpool', Ledger.banner_reserve hpool,
      Ledger.banner_reserve hpool', hsettled, hterms.vault] at hsum
    have hreserve : pool.reserve =
      (pool.price.toNat + pool.bondPerDraw.toNat) * pool.pendingDraws.toNat := rfl
    rw [hreserve]
    change _ + _ * 0 = _ at hsum
    omega
  -- The account that is named has as much room as before: what refunds paid to it has left the vault.
  obtain ⟨t, ht, htmint, hle⟩ := hunwound.token destination token htoken hne
  obtain ⟨w', ⟨last, hlast, hlastSigned⟩, hempty, hbalance, hsame⟩ := hwinding₄.withdraw_rest hrt htokens
    hauthority hpulls ht hne (htmint.trans hmint) (hle.trans_lt hroom)
  obtain ⟨ixs, hixs, hsigned⟩ := hunwound.executes
  -- The withdrawal writes token accounts only.
  have hkeep : ∀ {k e}, w'.ledger k = e → e.token? = none → w₄.ledger k = e := by
    intro k e hk hother
    rcases hsame k with heq | ⟨s, s', -, hs'⟩
    · exact heq.symm.trans hk
    · exact absurd ((congrArg Entry.token? (hk.symm.trans hs')).symm.trans hother) (by simp [Entry.token?])
  have hkept : ∀ {k e}, w₄.ledger k = e → e.token? = none → w'.ledger k = e := by
    intro k e hk hother
    rcases hsame k with heq | ⟨s, s', hs, -⟩
    · exact heq.trans hk
    · exact absurd ((congrArg Entry.token? (hk.symm.trans hs)).symm.trans hother) (by simp [Entry.token?])
  refine ⟨queue, ixs ++ last, w', hfifo, (execute_append hixs).trans hlast,
    List.forall_mem_append.mpr ⟨hsigned, hlastSigned⟩, ⟨⟨pool', index', hkept hpool' rfl, hterms, hretired,
      hsettled, hturn, hm'.emptied hitems⟩, ?_, ?_, ?_, ?_, hempty⟩, fun k hk => ?_⟩
  · intro k pull hk hP
    have hpull := Ledger.banner_pulls.mpr ⟨hkeep hk rfl, hP⟩
    exact absurd ((hpulls k).symm.trans hpull) (by simp)
  · intro k item hk hP
    have hitem := Ledger.banner_items.mpr ⟨hkeep hk rfl, hP⟩
    exact absurd ((hitems k).symm.trans hitem) (by simp)
  · intro k pull i asset hk hP hpromised
    rcases hunwound.handed (.outcome k i) asset pull.buyer
        (Banner.owed_outcome.mpr ⟨pull, Ledger.banner_pulls.mpr ⟨hk, hP⟩, hpromised, rfl⟩) with hstill | ⟨-, c, hentry, howner⟩
    · obtain ⟨pull', hpull', -⟩ := Banner.owed_outcome.mp hstill
      exact absurd ((hpulls k).symm.trans hpull') (by simp)
    · exact ⟨c, hkept hentry rfl, howner⟩
  · intro k item hk hP
    rcases hunwound.handed (.item k) item.asset pool.authority
        (Banner.owed_item.mpr ⟨item, Ledger.banner_items.mpr ⟨hk, hP⟩, rfl, rfl⟩) with hstill | ⟨-, c, hentry, howner⟩
    · obtain ⟨item', hitem', -⟩ := Banner.owed_item.mp hstill
      exact absurd ((hitems k).symm.trans hitem') (by simp)
    · exact ⟨c, hkept hentry rfl, howner⟩
  · rw [hbalance k hk, hunwound.balance k hk, hvault]

/-- The sample pool, whose purchase has expired, is wound down. -/
theorem Reached.winds_down_sample : ∃ pool index queue w',
    Sample.expired.ledger Sample.pool = .pool pool index ∧ Sample.expired.ledger.Fifo Sample.pool queue ∧
    Sample.expired.WoundDown Sample.pool pool w' ∧
    (w'.ledger Sample.buyerAta).balance = (Sample.expired.ledger Sample.buyerAta).balance +
      pool.refundsTo (fun _ => Sample.buyerAta) queue Sample.buyerAta +
        ((Sample.expired.ledger pool.vault).balance - pool.reserve) := by
  obtain ⟨pool, index, hpool, hterms⟩ := Sample.exists_pool (e := Sample.expired.ledger Sample.pool)
    (p := fun pool => pool.nextIndex = 1 ∧ pool.paymentMint = Sample.paymentMint ∧
      Sample.buyerAta ≠ pool.vault ∧ (Sample.expired.ledger pool.vault).balance < 2 ^ 32) (by decide +kernel)
  obtain ⟨pull, hpull, hopen⟩ := Sample.exists_pull (e := Sample.expired.ledger Sample.pull)
    (p := fun pull => pull.pool = Sample.pool ∧ pull.deadlineSlot < 100 ∧ pull.index = 0 ∧
      pull.buyer = Sample.buyer) (by decide +kernel)
  obtain ⟨token, htoken, howner⟩ := Sample.exists_token (e := Sample.expired.ledger Sample.buyerAta)
    (p := fun token => token.owner = Sample.buyer ∧ token.mint = Sample.paymentMint ∧
      token.amount.toNat < 2 ^ 32) (by decide +kernel)
  simp only [decide_eq_true_eq] at hterms hopen howner
  obtain ⟨hnext, hmint, hne, hvault⟩ := hterms
  obtain ⟨hP, hdeadline, hindex, hbuyer⟩ := hopen
  obtain ⟨hholder, htokenMint, hamount⟩ := howner
  have hreached := Sample.expired_reached.reached
  have hbacked := Sample.expired_backed
  have hslot : Sample.expired.slot = 100 := rfl
  generalize Sample.expired = w at *
  obtain ⟨m, hm⟩ := (hreached.sound Sample.net.runtime_lawful).opened hpool
  have hroom : token.amount.toNat + (w.ledger pool.vault).balance < 2 ^ 64 := by omega
  obtain ⟨queue, ixs, w', hfifo, -, -, hdone, hbalance⟩ := @Reached.winds_down _ _ _ _
    (fun _ => Sample.buyerAta) Sample.net.runtime_lawful Sample.net.transfersAssets Sample.net.transfersTokens
    Sample.net.conserves hreached hbacked _ hpool (fun k' pull' hpull' hP' hpending => by
      -- There is one Pull.
      have hpulls := Ledger.banner_pulls.mpr ⟨hpull, hP⟩
      have hpulls' := Ledger.banner_pulls.mpr ⟨hpull', hP'⟩
      have hlt := hm.queued.index_lt hpulls'
      rw [hnext] at hlt
      have hzero : pull'.index = pull.index := by
        rw [hindex]
        exact UInt64.toNat_inj.mp (Nat.lt_one_iff.mp hlt)
      obtain rfl := hm.queued.distinct hpulls' hpulls hzero
      obtain rfl := Entry.pull.inj (hpull.symm.trans hpull')
      exact ⟨hpull, hP, hpending, by rw [hslot]; exact hdeadline, token, htoken, hholder.trans hbuyer.symm,
        htokenMint.trans hmint.symm, hroom⟩)
    _ _ htoken hne (htokenMint.trans hmint.symm) hroom
  refine ⟨pool, index, queue, w', hpool, hfifo, hdone, ?_⟩
  have hpaid := hbalance Sample.buyerAta hne
  rwa [if_pos rfl] at hpaid

end World

end SolanaGacha
