import SolanaGacha.Banner.Purchase
import SolanaGacha.Ledger.Exact
import SolanaGacha.System.Custody

/-!
# Deliveries

A delivery of an undelivered outcome succeeds in every sound state, whoever pays for it and whatever was
delivered before (`World.Sound.deliver`). It gives the asset to the buyer, takes the outcome off the
undelivered ones, and closes the Pull when that was the last.
-/

namespace SolanaGacha

open Except Layout

/-! ## What is left to deliver -/

/-- The outcomes of a settled Pull that are not delivered, in ascending order. -/
def Pull.undelivered (pull : Pull) : List ℕ :=
  (List.range pull.count.toNat).filter fun i => (pull.promised i).isSome

section Undelivered

variable {pull : Pull} {i : ℕ}

theorem Pull.mem_undelivered : i ∈ pull.undelivered ↔ ∃ asset, pull.promised i = some asset := by
  unfold undelivered
  rw [List.mem_filter, List.mem_range, Option.isSome_iff_exists]
  constructor
  · exact fun h => h.2
  · rintro ⟨asset, h⟩
    exact ⟨(promised_eq_some.mp h).2.1, asset, h⟩

/-- A delivery takes its outcome off. -/
theorem Pull.undelivered_marked (outcome : Outcome) :
    (pull.marked i outcome).undelivered = pull.undelivered.filter fun j => j ≠ i := by
  unfold undelivered
  rw [List.filter_filter]
  apply List.filter_congr
  intro j _
  rw [Bool.eq_iff_iff, Bool.and_eq_true, decide_eq_true_eq, Option.isSome_iff_exists,
    Option.isSome_iff_exists]
  constructor
  · rintro ⟨asset, h⟩
    obtain ⟨hold, hne⟩ := promised_marked h
    exact ⟨hne, asset, hold⟩
  · rintro ⟨hne, asset, hold⟩
    exact ⟨asset, promised_marked_of_ne outcome hold hne⟩

/-- Deliveries in ascending order. -/
theorem Pull.undelivered_marked_head {rest : List ℕ} (h : pull.undelivered = i :: rest) (outcome : Outcome) :
    (pull.marked i outcome).undelivered = rest := by
  have hnodup : (i :: rest).Nodup := h ▸ (List.nodup_range.filter _)
  have hnot : i ∉ rest := (List.nodup_cons.mp hnodup).1
  rw [undelivered_marked, h, List.filter_cons, if_neg (by simp), List.filter_eq_self]
  intro j hj
  exact decide_eq_true fun heq => hnot (heq ▸ hj)

/-- The program closes a Pull of which nothing is left. -/
theorem Pull.allDelivered_iff {all : Bool} (hsettled : pull.status = statusSettled)
    (hall : pull.allDelivered = .ok all) : all = true ↔ pull.undelivered = [] := by
  obtain ⟨-, hiff⟩ := allDelivered_eq_ok.mp hall
  rw [hiff, List.eq_nil_iff_forall_not_mem]
  constructor
  · intro hdone j hj
    obtain ⟨asset, hpromised⟩ := mem_undelivered.mp hj
    obtain ⟨-, hlt, outcome, ho, htier, -⟩ := promised_eq_some.mp hpromised
    exact htier (hdone j outcome hlt ho)
  · intro hnone j outcome hlt ho
    by_contra htier
    exact hnone j (mem_undelivered.mpr ⟨_, promised_eq_some.mpr ⟨hsettled, hlt, outcome, ho, htier, rfl⟩⟩)

end Undelivered

/-! ## One delivery -/

/-- The instruction that delivers an outcome. Whoever pays signs it. -/
def Deliver.instruction (payer pool pull buyer asset collection : Pubkey) (outcome : UInt8) :
    Instruction where
  accounts := [⟨payer, true, true⟩, ⟨pool, false, false⟩, ⟨pull, false, true⟩, ⟨buyer, false, true⟩,
    ⟨asset, false, true⟩, ⟨collection, false, false⟩, ⟨coreId, false, false⟩, ⟨systemId, false, false⟩,
    ⟨eventAuthority, false, false⟩, ⟨programId, false, false⟩]
  data := [21, outcome]

/-- What the handler makes of its accounts. -/
def Deliver.accounts (payer pool pull buyer asset collection : Pubkey) : DeliverAccounts where
  payer := ⟨payer, true, true⟩
  pool := ⟨pool, false, false⟩
  pull := ⟨pull, false, true⟩
  buyer := ⟨buyer, false, true⟩
  asset := ⟨asset, false, true⟩
  collection := ⟨collection, false, false⟩
  coreProgram := ⟨coreId, false, false⟩
  systemProgram := ⟨systemId, false, false⟩
  eventAuthority := ⟨eventAuthority, false, false⟩
  program := ⟨programId, false, false⟩

namespace World

variable {rt : Runtime} (hrt : rt.Lawful) {w : World}

include hrt

/-- A delivery of an undelivered outcome succeeds. -/
theorem Sound.deliver_isOk (hw : w.Sound rt) (hassets : rt.TransfersAssets) (hlamports : rt.Conserves)
    (hbacked : w.Backed) {k asset payer : Pubkey} {pull : Pull} {i : ℕ} {c : CoreAsset}
    (hpull : w.ledger k = .pull pull) (hpromised : pull.promised i = some asset)
    (hasset : w.ledger asset = .asset c) (hpayer : ¬rt.IsPda payer) :
    ∃ w', processInstruction rt w (Deliver.instruction payer pull.pool k pull.buyer asset
        (c.collection.getD coreId) (UInt8.ofNat i)) = .ok w' ∧
      Step rt w (.call (.deliver (Deliver.accounts payer pull.pool k pull.buyer asset
        (c.collection.getD coreId)) ⟨UInt8.ofNat i⟩)) w' := by
  have hslot : w.ledger.promised (.outcome k i) = some (asset, pull.pool) := by
    rw [Ledger.promised, hpull, Option.map_eq_some_iff]
    exact ⟨asset, hpromised, rfl⟩
  obtain ⟨pool, index, c', hpool, -, hasset', howner⟩ := hw.promised_owned hslot
  obtain rfl := Entry.asset.inj (hasset.symm.trans hasset')
  obtain ⟨m, hm⟩ := hw.opened hpool
  have hvalid := hm.pull (Ledger.banner_pulls.mpr ⟨hpull, rfl⟩)
  obtain ⟨hsettled, hlt, outcome, ho, htier, hrecorded⟩ := Pull.promised_eq_some.mp hpromised
  have hcount := hvalid.count.2
  rw [maxCount] at hcount
  have hi : (UInt8.ofNat i).toNat = i := UInt8.toNat_ofNat_of_lt' (by show i < 2 ^ 8; omega)
  have hload := (Account.entry_eq_pool.mp hpool).1
  have hload' := Account.entry_eq_pull.mp hpull
  have houtcome : pull.outcome i = .ok outcome := by
    unfold Pull.outcome
    rw [ho]
    rfl
  have haccounts : DeliverAccounts.tryFrom w (Deliver.instruction payer pull.pool k pull.buyer asset
      (c.collection.getD coreId) (UInt8.ofNat i)).accounts =
        .ok (Deliver.accounts payer pull.pool k pull.buyer asset (c.collection.getD coreId)) := by
    simp [DeliverAccounts.tryFrom, Deliver.instruction, Deliver.accounts, World.account, hload, hload',
      hsettled, failIf]
  -- Core transfers the asset with the signature of the pool.
  obtain ⟨w₁, htransfer⟩ := Runtime.transferAsset_isOk hassets (w := w) (t := ⟨⟨payer, true, true⟩,
    ⟨pull.pool, false, false⟩, ⟨pull.buyer, false, true⟩, ⟨asset, false, true⟩,
    ⟨c.collection.getD coreId, false, false⟩, ⟨coreId, false, false⟩, ⟨systemId, false, false⟩⟩)
    hm.valid.derived hasset howner rfl ⟨rfl, rfl⟩ rfl
  -- The outcome is marked, and a Pull that is done is closed to its buyer.
  have hmarked : pull.markDelivered i = .ok (pull.marked i outcome) := by
    unfold Pull.markDelivered
    rw [houtcome]
    rfl
  have hall : ∃ all, (pull.marked i outcome).allDelivered = .ok all := by
    unfold Pull.allDelivered
    rw [failIf_neg (by show ¬maxCount < pull.count.toNat; rw [maxCount]; omega)]
    exact ⟨_, rfl⟩
  obtain ⟨all, hall⟩ := hall
  have hbacked₁ : (w₁.store Pull.layout k (pull.marked i outcome)).Backed :=
    (Runtime.transferAsset_backed hlamports htransfer hbacked).store _ _
  generalize hstored : w₁.store Pull.layout k (pull.marked i outcome) = w₂ at hbacked₁
  have hne : pull.buyer ≠ k := fun heq => hvalid.buyer (heq ▸ ⟨_, hvalid.derived⟩)
  have hclose : ∃ accounts,
      (if all then close w₂.accounts k pull.buyer else .ok w₂.accounts) = .ok accounts := by
    split_ifs
    · exact close_isOk w₂.accounts k pull.buyer (Accounts.Backed.pair hbacked₁ hne)
    · exact ⟨_, rfl⟩
  obtain ⟨accounts, hclose⟩ := hclose
  have hparse : Instruction.parse w (Deliver.instruction payer pull.pool k pull.buyer asset
      (c.collection.getD coreId) (UInt8.ofNat i)) = .ok (.deliver (Deliver.accounts payer pull.pool k
        pull.buyer asset (c.collection.getD coreId)) ⟨UInt8.ofNat i⟩) := by
    unfold Instruction.parse
    rw [haccounts]
    rfl
  have hprocess : processInstruction rt w (Deliver.instruction payer pull.pool k pull.buyer asset
      (c.collection.getD coreId) (UInt8.ofNat i)) = rt.emit { w₂ with accounts } 67 21
        [k.val, asset.val, [UInt8.ofNat i]] ⟨eventAuthority, false, false⟩ ⟨programId, false, false⟩ := by
    rw [processInstruction_eq, hparse, ok_bind]
    simp [Call.process, Deliver.process, Deliver.accounts, World.account, hload, hload', hi, houtcome,
      Nat.not_le.mpr hlt, htier, hrecorded, htransfer, hmarked, hstored, hall, hclose, failIf]
  have hdone := hprocess.trans (Runtime.emit_eq hrt 21 (by simp [FixedBytes.length_val]) rfl rfl)
  exact ⟨_, hdone, .call (by simpa [Deliver.instruction] using hpayer) hparse hdone⟩

/-- What the delivery of an undelivered outcome does. -/
theorem Sound.deliver (hw : w.Sound rt) (hassets : rt.TransfersAssets) (hlamports : rt.Conserves)
    (hbacked : w.Backed) {k asset payer : Pubkey} {pull : Pull} {i : ℕ} {c : CoreAsset}
    (hpull : w.ledger k = .pull pull) (hpromised : pull.promised i = some asset)
    (hasset : w.ledger asset = .asset c) (hpayer : ¬rt.IsPda payer) :
    ∃ w' outcome, processInstruction rt w (Deliver.instruction payer pull.pool k pull.buyer asset
        (c.collection.getD coreId) (UInt8.ofNat i)) = .ok w' ∧ w'.Sound rt ∧ w'.Backed ∧
      pull.outcomes[i]? = some outcome ∧
      w'.ledger = Function.update (Function.update w.ledger asset (.asset { c with owner := pull.buyer })) k
        (if (pull.marked i outcome).undelivered = [] then .vacant else .pull (pull.marked i outcome)) := by
  obtain ⟨w', hprocess, hstep⟩ := hw.deliver_isOk hrt hassets hlamports hbacked hpull hpromised hasset hpayer
  obtain ⟨-, heffect, -⟩ := hstep.effect hrt hw
  obtain ⟨pool, index, pull', outcome, h⟩ := heffect
  obtain rfl : pull = pull' := Entry.pull.inj (hpull.symm.trans h.loadedPull)
  obtain ⟨hsettled, hlt, -⟩ := Pull.promised_eq_some.mp hpromised
  obtain ⟨c', all, hasset', -, hall, hledger⟩ := h.ledger
  obtain rfl : c = c' := Entry.asset.inj (hasset.symm.trans hasset')
  have hi : (UInt8.ofNat i).toNat = i := by
    have hcount := pull.count.toNat_lt
    exact UInt8.toNat_ofNat_of_lt' (hlt.trans hcount)
  have hrecorded : pull.outcomes[(UInt8.ofNat i).toNat]? = some outcome := h.recorded
  change (pull.marked (UInt8.ofNat i).toNat outcome).allDelivered = .ok all at hall
  change w'.ledger = Function.update (Function.update w.ledger asset (.asset { c with owner := pull.buyer })) k
    (if all then .vacant else .pull (pull.marked (UInt8.ofNat i).toNat outcome)) at hledger
  rw [hi] at hrecorded hall hledger
  have hiff := @Pull.allDelivered_iff (pull.marked i outcome) all hsettled hall
  refine ⟨w', outcome, hprocess, hstep.sound hrt hw, processInstruction_backed hlamports hprocess hbacked,
    hrecorded, ?_⟩
  rw [hledger]
  simp only [hiff]

end World

end SolanaGacha
