import SolanaGacha.Core.Draw
import SolanaGacha.Index.Take
import SolanaGacha.Lib.Reservation
import Mathlib.Algebra.BigOperators.Group.Finset.Basic

/-!
# Header, index and tags agree

A pool counts its stock three times: the tags of its index, the Fenwick counts over them, and the
`remaining` counters of its header. `Stock` says that the three agree with one list of tags, and each
of the changes that the handlers make keeps it: a restock issues the next position (`Stock.restock`), a
draw or a reclaim clears one (`Stock.clear`).
-/

namespace SolanaGacha

open Except Layout Inventory

/-- A pool's header and index count the stock that a list of tags describes. -/
structure Stock (pool : Pool) (index tags : List UInt8) : Prop where
  indexed : Indexed index tags
  version : tags.length = pool.inventoryVersion.toNat
  tierCount : pool.tierCount.toNat ≤ 8
  tier : ∀ tag ∈ tags, tag.toNat ≤ pool.tierCount.toNat
  remaining : ∀ t (_ : t < 8), pool.tiers[t].remaining.toNat = tags.count (tierTag t)

/-- The tags of a pool's positions, read from its index. -/
def Pool.tags (pool : Pool) (index : List UInt8) : List UInt8 :=
  (List.range pool.inventoryVersion.toNat).map (tagAt index)

/-- A restocked pool: its version and its index grow by one position, in a tier in use. -/
structure Restocked (header : Pool) (index : List UInt8) (tier : UInt8) (header' : Pool)
    (index' : List UInt8) : Prop where
  small : header.inventoryVersion.toNat + 1 < 2 ^ 32
  append : (Inventory.append header.inventoryVersion tier).run
    ⟨index ++ List.replicate (inventorySpace (header.inventoryVersion + 1) - index.length) 0⟩ =
      .ok ((), ⟨index'⟩)
  counter : { header with inventoryVersion := header.inventoryVersion + 1 }.updateRemaining tier
    (·.checkedAdd 1) = .ok header'

/-- Counting the tags that are not zero, tier by tier. -/
theorem countP_eq_sum {k : ℕ} (hk : k ≤ 8) {tags : List UInt8} (htags : ∀ tag ∈ tags, tag.toNat ≤ k) :
    tags.countP (· ≠ 0) = ∑ t ∈ Finset.range k, tags.count (tierTag t) := by
  induction tags with
  | nil => simp
  | cons tag tags ih =>
    have hle := htags tag List.mem_cons_self
    have hone : (∑ t ∈ Finset.range k, if tag == tierTag t then 1 else 0) = if tag ≠ 0 then 1 else 0 := by
      by_cases hzero : tag = 0
      · rw [if_neg (by simpa using hzero)]
        refine Finset.sum_eq_zero fun t ht => if_neg ?_
        have htag : tierTag t ≠ 0 := tierTag_ne_zero (by have := Finset.mem_range.mp ht; omega)
        simpa [hzero] using htag.symm
      · have hpos : 0 < tag.toNat := UInt8.pos_iff_ne_zero.mpr hzero
        rw [if_pos hzero, Finset.sum_eq_single (tag.toNat - 1)]
        · rw [if_pos]
          rw [beq_iff_eq, ← UInt8.toNat_inj, tierTag_toNat (by omega)]
          omega
        · intro t ht hne
          have := Finset.mem_range.mp ht
          rw [if_neg]
          rw [beq_iff_eq, ← UInt8.toNat_inj, tierTag_toNat (by omega)]
          omega
        · intro hmem
          exact absurd (Finset.mem_range.mpr (by omega)) hmem
    simp only [List.count_cons, Finset.sum_add_distrib, hone, List.countP_cons,
      ih fun tag ht => htags tag (List.mem_cons_of_mem _ ht), decide_eq_true_eq]

/-- Clearing an entry takes one off its tier. -/
theorem count_set_zero {tags : List UInt8} {tier p t : ℕ} (htier : tier < 8) (ht : t < 8)
    (hp : Live tags tier p) : (tags.set p 0).count (tierTag t) =
      tags.count (tierTag t) - if tier = t then 1 else 0 := by
  have hlt := lt_length_of_live htier hp
  have hget : tags[p] = tierTag tier := by
    rwa [Live, List.getD_eq_getElem?_getD, List.getElem?_eq_getElem hlt, Option.getD_some] at hp
  have hzero : ((0 : UInt8) == tierTag t) = false := by
    simpa using (tierTag_ne_zero ht).symm
  rw [List.count_set hlt, hget, hzero]
  simp only [beq_iff_eq, tierTag_inj htier ht, Bool.false_eq_true, if_false, add_zero]

/-- An available position is counted. -/
theorem count_pos_of_live {tags : List UInt8} {tier p : ℕ} (htier : tier < 8) (hp : Live tags tier p) :
    0 < tags.count (tierTag tier) := by
  have hlt := lt_length_of_live htier hp
  rw [Live, List.getD_eq_getElem _ _ hlt] at hp
  exact List.count_pos_iff.mpr (hp ▸ List.getElem_mem hlt)

namespace Stock

variable {pool pool' : Pool} {index index' tags : List UInt8}

/-- The list of tags is the one that the index stores. -/
theorem tags_eq (h : Stock pool index tags) : pool.tags index = tags := by
  refine List.ext_getElem ?_ fun p hp hp' => ?_
  · rw [Pool.tags, List.length_map, List.length_range, h.version]
  · simp only [Pool.tags, List.getElem_map, List.getElem_range, h.indexed.tag p]
    exact (List.getElem_eq_getD 0).symm

/-- Two pools with the same tags have the same index, and with the same weights the same tiers. -/
theorem unique (h : Stock pool index tags) (h' : Stock pool' index' tags)
    (hweights : pool.tiers.map Tier.weight = pool'.tiers.map Tier.weight) :
    index = index' ∧ pool.tiers = pool'.tiers := by
  constructor
  · exact h.indexed.unique h'.indexed
  · apply Vector.ext
    intro t ht
    have hweight := congrArg (·[t]) hweights
    simp only [Vector.getElem_map] at hweight
    have hremaining : pool.tiers[t].remaining = pool'.tiers[t].remaining := by
      rw [← UInt32.toNat_inj, h.remaining t ht, h'.remaining t ht]
    generalize pool.tiers[t] = tier at *
    generalize pool'.tiers[t] = tier' at *
    cases tier
    cases tier'
    simp only at hweight hremaining
    rw [hweight, hremaining]

/-- A tag is that of a tier in use, or zero. -/
theorem tag_eq (h : Stock pool index tags) {p : ℕ} {tag : UInt8} (hp : tags[p]? = some tag)
    (hne : tag ≠ 0) : ∃ t, t < pool.tierCount.toNat ∧ tag = tierTag t := by
  have hmem := List.mem_of_getElem? hp
  have hle := h.tier tag hmem
  have hpos : 0 < tag.toNat := UInt8.pos_iff_ne_zero.mpr hne
  have hcount := h.tierCount
  refine ⟨tag.toNat - 1, by omega, ?_⟩
  rw [← UInt8.toNat_inj, tierTag_toNat (by omega)]
  omega

/-- The stock without the position that a tier's counter is decremented for. -/
theorem clear (h : Stock pool index tags) {tier : UInt8} {p : ℕ} (hlive : Live tags tier.toNat p)
    (hindexed : Indexed index' (tags.set p 0))
    (hcounter : pool.updateRemaining tier (·.checkedSub 1) = .ok pool') :
    Stock pool' index' (tags.set p 0) := by
  obtain ⟨-, htier, selected, left, hsel, hleft, rfl⟩ := Pool.updateRemaining_eq_ok.mp hcounter
  have ht8 : tier.toNat < 8 := htier.trans_le h.tierCount
  refine ⟨hindexed, by rw [List.length_set]; exact h.version, h.tierCount, fun tag ht => ?_,
    fun t ht => ?_⟩
  · rcases List.mem_or_eq_of_mem_set ht with hmem | rfl
    · exact h.tier tag hmem
    · exact Nat.zero_le _
  · have hremaining := h.remaining t ht
    rw [count_set_zero ht8 ht hlive, Vector.getElem_setIfInBounds]
    split_ifs with heq
    · subst heq
      have hleft' : selected.remaining.toNat = 1 + left.toNat := UInt32.checkedSub_eq_some.mp hleft
      rw [Vector.getElem?_eq_getElem ht, Option.some.injEq] at hsel
      rw [hsel] at hremaining
      show left.toNat = _
      omega
    · rw [hremaining, Nat.sub_zero]

/-- A restocked pool has one more position, in its tier. -/
theorem restock (h : Stock pool index tags) {tier : UInt8} (hr : Restocked pool index tier pool' index') :
    tier.toNat < pool.tierCount.toNat ∧ Stock pool' index' (tags ++ [tierTag tier.toNat]) := by
  obtain ⟨hsmall, happend, hcounter⟩ := hr
  obtain ⟨-, htier, selected, left, hsel, hleft, rfl⟩ := Pool.updateRemaining_eq_ok.mp hcounter
  have hcount := h.tierCount
  have htier : tier.toNat < pool.tierCount.toNat := htier
  have ht8 : tier.toNat < 8 := htier.trans_le hcount
  have hversionlen := h.version
  have hversion : (pool.inventoryVersion + 1).toNat = tags.length + 1 := by
    rw [UInt32.toNat_add, UInt32.toNat_one, Nat.mod_eq_of_lt hsmall, h.version]
  -- The handler grows the index to the space of one more position.
  have hspace : inventorySpace (pool.inventoryVersion + 1) = (tags.length / 64 + 1) * 96 := by
    show ((pool.inventoryVersion + 1).toNat + 63) / 64 * 96 = _
    rw [hversion]
    omega
  obtain ⟨data, hrun, hindexed⟩ := append_run h.indexed h.version.symm (by omega) ht8
  rw [hspace, InventoryM.run_eq_ok, hrun] at happend
  obtain rfl : data = index' := by simpa using happend
  refine ⟨htier, hindexed, ?_, hcount, fun tag ht => ?_, fun t ht => ?_⟩
  · rw [List.length_append, List.length_singleton, hversion]
  · rcases List.mem_append.mp ht with hmem | hmem
    · exact h.tier tag hmem
    · rw [List.mem_singleton.mp hmem, tierTag_toNat ht8]
      exact htier
  · have hremaining := h.remaining t ht
    rw [List.count_append, List.count_singleton, Vector.getElem_setIfInBounds]
    by_cases heq : tier.toNat = t
    · subst heq
      have hleft' : selected.remaining.toNat + 1 = left.toNat := UInt32.checkedAdd_eq_some.mp hleft
      rw [Vector.getElem?_eq_getElem ht, Option.some.injEq] at hsel
      rw [hsel] at hremaining
      simp only [if_true, beq_self_eq_true]
      omega
    · have hne : (tierTag tier.toNat == tierTag t) = false := by
        simpa using fun h => heq ((tierTag_inj ht8 ht).mp h)
      simpa [heq, hne] using hremaining

/-- The header's total is the number of positions left. -/
theorem remaining_eq (h : Stock pool index tags) :
    pool.remaining = .ok (Market.candidates tags tags.length).card := by
  have hslice : pool.tierSlice = .ok _ := Pool.tierSlice_eq_ok.mpr ⟨h.tierCount, rfl⟩
  have hcount := h.tierCount
  have hmap : ((pool.tiers.toList.take pool.tierCount.toNat).map fun tier => tier.remaining.toNat) =
      (List.range pool.tierCount.toNat).map fun t => tags.count (tierTag t) := by
    refine List.ext_getElem (by simp [hcount]) fun t ht _ => ?_
    rw [List.length_map, List.length_take] at ht
    simp only [List.getElem_map, List.getElem_take, Vector.getElem_toList, List.getElem_range]
    exact h.remaining t (by omega)
  rw [Pool.remaining, hslice, ok_bind, hmap, Market.card_candidates, List.take_length,
    countP_eq_sum hcount h.tier]
  rfl

/-- A removed position was available in its tier, and the counter of the tier goes down with it. -/
theorem remove (h : Stock pool index tags) {position : UInt32} {tier : UInt8} {inventory : Inventory}
    (hremove : (Inventory.remove position tier).run ⟨index⟩ = .ok ((), inventory))
    (hcounter : pool.updateRemaining tier (·.checkedSub 1) = .ok pool') :
    Live tags tier.toNat position.toNat ∧
      Stock pool' inventory.data (tags.set position.toNat 0) := by
  obtain ⟨-, htier, -⟩ := Pool.updateRemaining_eq_ok.mp hcounter
  have ht8 : tier.toNat < 8 := htier.trans_le h.tierCount
  have hlive : Live tags tier.toNat position.toNat := by
    rw [Live, ← h.indexed.tag, tagAt, stored_of_remove ht8 (InventoryM.run_eq_ok.mp hremove)]
    rfl
  obtain ⟨data, hrun, hindexed⟩ := remove_run h.indexed ht8 hlive
  rw [InventoryM.run_eq_ok, hrun] at hremove
  obtain rfl : ⟨data⟩ = inventory := by simpa using hremove
  exact ⟨hlive, h.clear hlive hindexed hcounter⟩

end Stock

end SolanaGacha
