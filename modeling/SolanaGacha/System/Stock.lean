import SolanaGacha.Banner.History
import SolanaGacha.System.Localnet

/-!
# The stock of a pool

The tags of the index, the counters of the header and the Items of a pool describe the same stock in every
reachable state, and a position is issued once (`World.Reached.stock_consistent`).
-/

namespace SolanaGacha

open Except Layout Inventory

/-- An Item account of the pool at `P` for a position in a tier. -/
def Ledger.Shelves (L : Ledger) (P : Pubkey) (tier p : ℕ) (key : Pubkey) : Prop :=
  ∃ item, L key = .item item ∧ item.pool = P ∧ item.tier.toNat = tier ∧ item.position.toNat = p

namespace Banner.Opened

variable {rt : Runtime} {L : Ledger} {P : Pubkey} {pool : Pool} {index : List UInt8}
  {m : Market UInt8 Ticket} (h : (L.banner P).Opened rt P pool index m)

include h

theorem tagAt_eq (p : ℕ) : tagAt index p = m.stock.getD p 0 := h.stock.indexed.tag p

/-- A tag is that of the one Item at its position. -/
theorem tag_iff_shelves {tier : ℕ} (htier : tier < 8) (p : ℕ) :
    (tagAt index p).toNat = tier + 1 ↔ ∃! key, L.Shelves P tier p key := by
  rw [h.tagAt_eq]
  constructor
  · intro htag
    have hlive : Live m.stock tier p := UInt8.toNat_inj.mp (htag.trans (tierTag_toNat htier).symm)
    obtain ⟨key, item, hitem, hposition⟩ := h.shelved.stocked (p := p) (hlive ▸ tierTag_ne_zero htier)
    obtain ⟨hpool, hsmall, hlive', -⟩ := h.shelved.item hitem
    have htag' := hlive'.symm.trans (hposition ▸ hlive)
    refine ⟨key, ⟨item, (Ledger.banner_items.mp hitem).1, hpool, (tierTag_inj hsmall htier).mp htag',
      hposition⟩, ?_⟩
    rintro key' ⟨item', hentry, hpool', -, hposition'⟩
    exact h.shelved.unique (Ledger.banner_items.mpr ⟨hentry, hpool'⟩) hitem
      (UInt32.toNat_inj.mp (hposition'.trans hposition.symm))
  · rintro ⟨key, ⟨item, hentry, hpool, rfl, rfl⟩, -⟩
    obtain ⟨-, hsmall, hlive, -⟩ := h.shelved.item (Ledger.banner_items.mpr ⟨hentry, hpool⟩)
    rw [hlive, tierTag_toNat hsmall]

/-- An Item's position was issued, in a tier in use. -/
theorem item_bounds {key : Pubkey} {item : Item} (hentry : L key = .item item) (hpool : item.pool = P) :
    item.position < pool.inventoryVersion ∧ item.tier < pool.tierCount := by
  have hitem := Ledger.banner_items.mpr ⟨hentry, hpool⟩
  have hlt := h.shelved.lt_length hitem
  obtain ⟨-, hsmall, hlive, -⟩ := h.shelved.item hitem
  rw [h.stock.version] at hlt
  have hle := h.stock.tier _ (List.mem_of_getElem? (i := item.position.toNat) (a := tierTag item.tier.toNat) (by
    rw [List.getElem?_eq_getElem (h.shelved.lt_length hitem), ← hlive, List.getD_eq_getElem]))
  rw [tierTag_toNat hsmall] at hle
  exact ⟨UInt32.lt_iff_toNat_lt.mpr hlt, UInt8.lt_iff_toNat_lt.mpr hle⟩

theorem remaining_eq {tier : ℕ} (htier : tier < 8) : pool.tiers[tier].remaining.toNat =
    ((List.range pool.inventoryVersion.toNat).filter fun p => (tagAt index p).toNat = tier + 1).length := by
  rw [h.stock.remaining tier htier, ← h.tags_eq, Pool.tags, List.count, List.countP_map,
    List.countP_eq_length_filter]
  refine congrArg List.length (List.filter_congr fun p _ => ?_)
  simp only [Function.comp_apply, beq_eq_decide, decide_eq_decide, ← UInt8.toNat_inj, tierTag_toNat htier]

end Banner.Opened

namespace World

variable {rt : Runtime} (hrt : rt.Lawful) {w w' : World} {trace : List (World × Event)} {P : Pubkey}
  {pool : Pool} {index : List UInt8}

include hrt

/-- A pool is never closed, and becomes what its steps make of it. -/
theorem Sound.later (h : w.Sound rt) (hpool : w.ledger P = .pool pool index)
    (hrun : Run (Step rt) w trace w') :
    ∃ pool' index', w'.ledger P = .pool pool' index' ∧ pool.Later pool' := by
  refine (hrun.preserves (P := fun v => v.Sound rt ∧ ∃ pool' index', v.ledger P = .pool pool' index' ∧
    pool.Later pool') (fun v e v' hv hstep => ⟨hstep.sound hrt hv.1, ?_⟩) ⟨h, pool, index, hpool, .refl pool⟩).2
  obtain ⟨hsound, pool₁, index₁, hpool₁, hlater⟩ := hv
  obtain ⟨pool₂, index₂, hpool₂, hlater'⟩ := (hstep.banner hrt hsound P).later (Ledger.banner_pool.mpr hpool₁)
  exact ⟨pool₂, index₂, Ledger.banner_pool.mp hpool₂, hlater.trans hlater'⟩

/-- An Item at a position that was issued before a run was there before it. -/
theorem Sound.item_kept (h : w.Sound rt) (hpool : w.ledger P = .pool pool index)
    (hrun : Run (Step rt) w trace w') {key : Pubkey} {item : Item} (hentry : w'.ledger key = .item item)
    (hP : item.pool = P) (hold : item.position < pool.inventoryVersion) : w.ledger key = .item item := by
  have hmain := hrun.preserves (P := fun v => v.Sound rt ∧ (∃ pool' index', v.ledger P = .pool pool' index' ∧
      pool.Later pool') ∧ ∀ key item, v.ledger key = .item item → item.pool = P →
        item.position < pool.inventoryVersion → w.ledger key = .item item)
    (fun v e v' hv hstep => ?_) ⟨h, ⟨pool, index, hpool, .refl pool⟩, fun _ _ hk _ _ => hk⟩
  · exact hmain.2.2 key item hentry hP hold
  · obtain ⟨hsound, ⟨pool₁, index₁, hpool₁, hlater⟩, hkept⟩ := hv
    have hbanner := hstep.banner hrt hsound P
    obtain ⟨pool₂, index₂, hpool₂, hlater'⟩ := hbanner.later (Ledger.banner_pool.mpr hpool₁)
    refine ⟨hstep.sound hrt hsound, ⟨pool₂, index₂, Ledger.banner_pool.mp hpool₂, hlater.trans hlater'⟩,
      fun k item hk hP hlt => ?_⟩
    rcases hbanner.item_kept (Ledger.banner_pool.mpr hpool₁) (Ledger.banner_items.mpr ⟨hk, hP⟩) with hk' | heq
    · exact hkept k item (Ledger.banner_items.mp hk').1 hP hlt
    · have := UInt32.lt_iff_toNat_lt.mp hlt
      have := hlater.version
      rw [heq] at *
      omega

/-- In every reachable state the bytes, the tags, the counters and the Items of a pool describe one stock.
Along every run from there, positions are issued once, Items stay what they are, and what is gone stays
gone. -/
theorem Reached.stock_consistent (hw : w.Reached rt) (hpool : w.ledger P = .pool pool index) :
    (w.accounts P).data.length = 256 + 96 * ((pool.inventoryVersion.toNat + 63) / 64) ∧
    (∀ p tier, tier < 8 →
      ((tagAt index p).toNat = tier + 1 ↔ ∃! key, w.ledger.Shelves P tier p key)) ∧
    (∀ key item, w.ledger key = .item item → item.pool = P →
      item.position < pool.inventoryVersion ∧ item.tier < pool.tierCount) ∧
    (∀ p, pool.inventoryVersion.toNat ≤ p → tagAt index p = 0) ∧
    (∀ tier (_ : tier < 8), pool.tiers[tier].remaining.toNat =
      ((List.range pool.inventoryVersion.toNat).filter fun p => (tagAt index p).toNat = tier + 1).length) ∧
    ∀ trace w', Run (Step rt) w trace w' → ∃ pool' index', w'.ledger P = .pool pool' index' ∧
      pool.inventoryVersion ≤ pool'.inventoryVersion ∧
      (∀ key item, w'.ledger key = .item item → item.pool = P → item.position < pool.inventoryVersion →
        w.ledger key = .item item) ∧
      ∀ p, p < pool.inventoryVersion.toNat → tagAt index p = 0 → tagAt index' p = 0 := by
  have hsound := hw.sound hrt
  obtain ⟨m, hm⟩ := hsound.opened hpool
  refine ⟨?_, fun p tier htier => hm.tag_iff_shelves htier p, fun key item => hm.item_bounds,
    fun p hp => ?_, fun tier htier => hm.remaining_eq htier, fun trace w' hrun => ?_⟩
  · obtain ⟨-, -, -, hlen⟩ := Pool.load_eq_ok.mp (Account.entry_eq_pool.mp hpool).1
    rw [hlen]
    show 256 + (pool.inventoryVersion.toNat + 63) / 64 * 96 = _
    rw [Nat.mul_comm]
  · rw [hm.tagAt_eq, List.getD_eq_default]
    rw [hm.stock.version]
    exact hp
  · obtain ⟨pool', index', hpool', hlater⟩ := hsound.later hrt hpool hrun
    obtain ⟨moves, m', hmoves, hm', -⟩ := hsound.run hrt hrun (.opened hm)
    have hopened := hm'.of_header (Ledger.banner_pool.mpr hpool')
    refine ⟨pool', index', hpool', UInt32.le_iff_toNat_le.mpr hlater.version,
      fun key item => hsound.item_kept hrt hpool hrun, fun p hp hzero => ?_⟩
    rw [hm.tagAt_eq] at hzero
    rw [hopened.tagAt_eq]
    exact Market.getD_eq_zero_of_run hmoves (by rw [hm.stock.version]; exact hp) hzero

omit hrt in
theorem Reached.stock_consistent_sample : ∃ pool index,
    Sample.bought.ledger Sample.pool = .pool pool index ∧ pool.inventoryVersion = 2 ∧
    (Sample.bought.accounts Sample.pool).data.length =
      256 + 96 * ((pool.inventoryVersion.toNat + 63) / 64) ∧
    (∀ p tier, tier < 8 →
      ((tagAt index p).toNat = tier + 1 ↔ ∃! key, Sample.bought.ledger.Shelves Sample.pool tier p key)) ∧
    (∀ key item, Sample.bought.ledger key = .item item → item.pool = Sample.pool →
      item.position < pool.inventoryVersion ∧ item.tier < pool.tierCount) ∧
    (∀ p, pool.inventoryVersion.toNat ≤ p → tagAt index p = 0) ∧
    (∀ tier (_ : tier < 8), pool.tiers[tier].remaining.toNat =
      ((List.range pool.inventoryVersion.toNat).filter fun p => (tagAt index p).toNat = tier + 1).length) ∧
    ∀ trace w', Run (Step Sample.net.runtime) Sample.bought trace w' →
      ∃ pool' index', w'.ledger Sample.pool = .pool pool' index' ∧
        pool.inventoryVersion ≤ pool'.inventoryVersion ∧
        (∀ key item, w'.ledger key = .item item → item.pool = Sample.pool →
          item.position < pool.inventoryVersion → Sample.bought.ledger key = .item item) ∧
        ∀ p, p < pool.inventoryVersion.toNat → tagAt index p = 0 → tagAt index' p = 0 := by
  obtain ⟨pool, index, hpool, hversion⟩ := Sample.exists_pool (e := Sample.bought.ledger Sample.pool)
    (p := fun header => header.inventoryVersion = 2) (by decide +kernel)
  exact ⟨pool, index, hpool, by simpa using hversion,
    Reached.stock_consistent Sample.net.runtime_lawful Sample.bought_reached hpool⟩

end World

end SolanaGacha
