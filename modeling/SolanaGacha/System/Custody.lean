import SolanaGacha.System.Localnet

/-!
# Custody

An asset that an Item or an undelivered outcome records is owned by the pool of that record, and no two
records of any pools share an asset (`World.Reached.custody`).
-/

namespace SolanaGacha

open Except Layout

/-- The asset that an Item or an undelivered outcome promises, and the pool that promises it. -/
def Ledger.promised (L : Ledger) : Slot → Option (Pubkey × Pubkey)
  | .item key =>
    match L key with
    | .item i => some (i.asset, i.pool)
    | _ => none
  | .outcome key i =>
    match L key with
    | .pull u => (u.promised i).map fun asset => (asset, u.pool)
    | _ => none

/-- Promises, pool by pool. -/
theorem Ledger.promised_eq_some {L : Ledger} {slot : Slot} {asset P : Pubkey} :
    L.promised slot = some (asset, P) ↔ (L.banner P).promised slot = some asset := by
  cases slot with
  | item key =>
    show _ ↔ ((L key).item? P).map Item.asset = some asset
    rw [promised]
    cases L key with
    | item item =>
      simp only [Option.some.injEq, Prod.mk.injEq, Entry.item?]
      split_ifs with heq
      · simp [heq]
      · simp [heq]
    | _ => simp [Entry.item?]
  | outcome key i =>
    show _ ↔ ((L key).pull? P).bind (fun pull => pull.promised i) = some asset
    rw [promised]
    cases L key with
    | pull pull =>
      simp only [Option.map_eq_some_iff, Prod.mk.injEq, Entry.pull?]
      split_ifs with heq
      · simp [heq]
      · simp [heq]
    | _ => simp [Entry.pull?]

/-- A pool that promises something is open. -/
theorem World.Sound.promised {rt : Runtime} {w : World} (h : w.Sound rt) {slot : Slot} {asset P : Pubkey}
    (hslot : w.ledger.promised slot = some (asset, P)) : ∃ pool index m,
      w.ledger P = .pool pool index ∧ (w.ledger.banner P).Opened rt P pool index m := by
  rw [Ledger.promised_eq_some] at hslot
  obtain ⟨m, hm⟩ := h.banner P
  cases hm with
  | @opened pool index _ hm => exact ⟨pool, index, m, Ledger.banner_pool.mp hm.header, hm⟩
  | empty hpool hitems hpulls =>
    cases slot with
    | item key => simp [Banner.promised, hitems] at hslot
    | outcome key i => simp [Banner.promised, hpulls] at hslot

/-- What is promised is owned by the pool that promises it. -/
theorem World.Sound.promised_owned {rt : Runtime} {w : World} (h : w.Sound rt) {slot : Slot}
    {asset P : Pubkey} (hslot : w.ledger.promised slot = some (asset, P)) : ∃ pool index c,
      w.ledger P = .pool pool index ∧ rt.IsPda P ∧ w.ledger asset = .asset c ∧ c.owner = P := by
  obtain ⟨pool, index, m, hpool, hm⟩ := h.promised hslot
  have hown : (w.ledger asset).OwnedBy P := hm.held.owned (Ledger.promised_eq_some.mp hslot)
  cases hentry : w.ledger asset with
  | asset c =>
    rw [hentry] at hown
    exact ⟨pool, index, c, hpool, hm.valid.isPda, rfl, hown⟩
  | _ =>
    rw [hentry] at hown
    exact hown.elim

/-- Nothing is promised twice, by one pool or by two: an asset has one owner. -/
theorem World.Sound.promised_unique {rt : Runtime} {w : World} (h : w.Sound rt) {slot slot' : Slot}
    {asset P P' : Pubkey} (hslot : w.ledger.promised slot = some (asset, P))
    (hslot' : w.ledger.promised slot' = some (asset, P')) : slot = slot' ∧ P = P' := by
  obtain ⟨pool, index, c, hpool, -, hentry, hown⟩ := h.promised_owned hslot
  obtain ⟨-, -, c', -, -, hentry', hown'⟩ := h.promised_owned hslot'
  obtain rfl : c = c' := Entry.asset.inj (hentry.symm.trans hentry')
  obtain rfl : P = P' := hown.symm.trans hown'
  obtain ⟨m, hm⟩ := h.opened hpool
  exact ⟨hm.held.unique (Ledger.promised_eq_some.mp hslot) (Ledger.promised_eq_some.mp hslot'), rfl⟩

/-- In every reachable state: what is promised is owned by the pool that promises it, nothing is promised
twice, by one pool or by two, and Core can transfer it for the pool. -/
theorem World.Reached.custody {rt : Runtime} (hrt : rt.Lawful) (hcore : rt.TransfersAssets) {w : World}
    (hw : w.Reached rt) :
    (∀ slot asset P, w.ledger.promised slot = some (asset, P) → ∃ pool index c,
      w.ledger P = .pool pool index ∧ rt.IsPda P ∧ w.ledger asset = .asset c ∧ c.owner = P ∧
        ∀ payer newOwner, ∃ accounts',
          rt.coreTransfer w.accounts asset (c.collection.getD coreId) payer P newOwner = some accounts') ∧
    ∀ slot slot' asset P P', w.ledger.promised slot = some (asset, P) →
      w.ledger.promised slot' = some (asset, P') → slot = slot' ∧ P = P' := by
  have hsound := hw.sound hrt
  refine ⟨fun slot asset P hslot => ?_, fun slot slot' asset P P' => hsound.promised_unique⟩
  obtain ⟨pool, index, c, hpool, hpda, hentry, rfl⟩ := hsound.promised_owned hslot
  exact ⟨pool, index, c, hpool, hpda, hentry, rfl, fun payer newOwner =>
    hcore w.accounts asset payer newOwner c hentry⟩

theorem World.Reached.custody_sample :
    Sample.settled.ledger.promised (.outcome Sample.pull 0) = some (Sample.asset₀, Sample.pool) ∧
    Sample.settled.ledger.promised (.item Sample.item₁) = some (Sample.asset₁, Sample.pool) ∧
    (∀ slot asset P, Sample.settled.ledger.promised slot = some (asset, P) → ∃ pool index c,
      Sample.settled.ledger P = .pool pool index ∧ Sample.net.runtime.IsPda P ∧
        Sample.settled.ledger asset = .asset c ∧ c.owner = P ∧
        ∀ payer newOwner, ∃ accounts', Sample.net.runtime.coreTransfer Sample.settled.accounts asset
          (c.collection.getD coreId) payer P newOwner = some accounts') ∧
    ∀ slot slot' asset P P', Sample.settled.ledger.promised slot = some (asset, P) →
      Sample.settled.ledger.promised slot' = some (asset, P') → slot = slot' ∧ P = P' :=
  ⟨by decide +kernel, by decide +kernel, World.Reached.custody Sample.net.runtime_lawful
    Sample.net.transfersAssets Sample.settled_reached⟩

end SolanaGacha
