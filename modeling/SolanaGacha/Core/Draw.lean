import SolanaGacha.Core.State
import Mathlib.Algebra.Order.BigOperators.Group.List

/-!
# What a draw selects

`Pool.draw` picks a tier by weight among those that still have candidates and then a rank among them.
A result is always a tier in use with a rank below its number of candidates (`draw_spec`), the draw
depends on the weights of the header only (`draw_congr`), and with positive weights it has a result as
long as one tier has a candidate (`draw_isOk`).
-/

namespace SolanaGacha

open Except Layout

namespace Pool

/-! ## The walk over the tiers -/

/-- A selected tier is one of those walked over, and it has candidates. -/
theorem drawTierWalk_spec {remaining : Vector UInt32 8} {tiers : List Tier} {i roll : ℕ} {tier : UInt8}
    (h : drawTierWalk remaining tiers i roll = .ok tier) (hlen : i + tiers.length ≤ 8) :
    i ≤ tier.toNat ∧ tier.toNat < i + tiers.length ∧
      ∃ count, remaining[tier.toNat]? = some count ∧ count ≠ 0 := by
  induction tiers generalizing i roll with
  | nil => simp [drawTierWalk] at h
  | cons first tiers ih =>
    rw [List.length_cons] at hlen ⊢
    simp only [drawTierWalk, bind_eq_ok, okOr_eq_ok] at h
    obtain ⟨count, hcount, h⟩ := h
    split_ifs at h with hzero hroll
    · obtain ⟨h1, h2, h3⟩ := ih h (by omega)
      exact ⟨by omega, by omega, h3⟩
    · obtain rfl := pure_eq_ok.mp h
      have htier : (UInt8.ofNat i).toNat = i := UInt8.toNat_ofNat_of_lt' (by show i < 256; omega)
      rw [htier]
      exact ⟨le_rfl, by omega, count, hcount, hzero⟩
    · obtain ⟨h1, h2, h3⟩ := ih h (by omega)
      exact ⟨by omega, by omega, h3⟩

/-- The walk reads weights only. -/
theorem drawTierWalk_congr (remaining : Vector UInt32 8) {tiers tiers' : List Tier}
    (h : tiers.map Tier.weight = tiers'.map Tier.weight) (i roll : ℕ) :
    drawTierWalk remaining tiers i roll = drawTierWalk remaining tiers' i roll := by
  induction tiers generalizing tiers' i roll with
  | nil =>
    obtain rfl := List.map_eq_nil_iff.mp h.symm
    rfl
  | cons first tiers ih =>
    cases tiers' with
    | nil => simp at h
    | cons first' tiers' =>
      obtain ⟨hfirst, hrest⟩ := List.cons.inj h
      simp only [drawTierWalk, ih hrest, hfirst]

theorem drawTotal_cons (first : Tier) (tiers : List Tier) (count : UInt32) (counts : List UInt32) :
    ((((first :: tiers).zip (count :: counts)).filter fun x => 0 < x.2).map
      fun x => x.1.weight.toNat).sum = (if count = 0 then 0 else first.weight.toNat) +
        (((tiers.zip counts).filter fun x => 0 < x.2).map fun x => x.1.weight.toNat).sum := by
  rw [List.zip_cons_cons, List.filter_cons]
  by_cases hzero : count = 0
  · simp [hzero]
  · have hpos : (0 : UInt32) < count := UInt32.pos_iff_ne_zero.mpr hzero
    simp [hzero, hpos]

theorem drawTotal_congr {counts : List UInt32} {tiers tiers' : List Tier}
    (h : tiers.map Tier.weight = tiers'.map Tier.weight) :
    (((tiers.zip counts).filter fun x => 0 < x.2).map fun x => x.1.weight.toNat).sum =
      (((tiers'.zip counts).filter fun x => 0 < x.2).map fun x => x.1.weight.toNat).sum := by
  induction tiers generalizing tiers' counts with
  | nil =>
    obtain rfl := List.map_eq_nil_iff.mp h.symm
    rfl
  | cons first tiers ih =>
    cases tiers' with
    | nil => simp at h
    | cons first' tiers' =>
      obtain ⟨hfirst, hrest⟩ := List.cons.inj h
      cases counts with
      | nil => rfl
      | cons count counts => rw [drawTotal_cons, drawTotal_cons, hfirst, ih hrest]

/-- A roll below the total weight selects a tier. -/
theorem drawTierWalk_isOk (remaining : Vector UInt32 8) (tiers : List Tier) (i roll : ℕ)
    (hlen : i + tiers.length ≤ 8)
    (hroll : roll < (((tiers.zip (remaining.toList.drop i)).filter fun x => 0 < x.2).map
      fun x => x.1.weight.toNat).sum) : ∃ tier, drawTierWalk remaining tiers i roll = .ok tier := by
  induction tiers generalizing i roll with
  | nil => simp at hroll
  | cons first tiers ih =>
    rw [List.length_cons] at hlen
    have hi : i < remaining.toList.length := by
      rw [Vector.length_toList]
      omega
    have hget : remaining[i]? = some remaining.toList[i] := by
      rw [Vector.getElem_toList]
      exact Vector.getElem?_eq_getElem (by omega)
    rw [List.drop_eq_getElem_cons hi, drawTotal_cons] at hroll
    simp only [drawTierWalk, hget, okOr, ok_bind]
    by_cases hzero : remaining.toList[i] = 0
    · rw [if_pos hzero, Nat.zero_add] at hroll
      rw [if_pos hzero]
      exact ih (i + 1) roll (by omega) hroll
    · rw [if_neg hzero] at hroll
      rw [if_neg hzero]
      by_cases hlt : roll < first.weight.toNat
      · rw [if_pos hlt]
        exact ⟨_, rfl⟩
      · rw [if_neg hlt]
        exact ih (i + 1) _ (by omega) (by omega)

/-! ## The draw -/

/-- A result of a draw: a tier in use, and a rank among its candidates. -/
theorem draw_spec {pool : Pool} {hash : FixedBytes 32} {remaining : Vector UInt32 8} {tier : UInt8}
    {rank : UInt32} (h : pool.draw hash remaining = .ok (tier, rank)) :
    pool.tierCount.toNat ≤ 8 ∧ tier.toNat < pool.tierCount.toNat ∧
      ∃ count, remaining[tier.toNat]? = some count ∧ rank.toNat < count.toNat := by
  simp only [draw, drawTier, bind_eq_ok, okOr_eq_ok, failIf_eq_ok, pure_eq_ok, tierSlice_eq_ok,
    Prod.mk.injEq] at h
  obtain ⟨tier', ⟨tiers, ⟨hcount, rfl⟩, _, htotal, hwalk⟩, count, hget, _, hzero, rfl, rfl⟩ := h
  have hlen : (pool.tiers.toList.take pool.tierCount.toNat).length = pool.tierCount.toNat := by
    rw [List.length_take, Vector.length_toList, min_eq_left hcount]
  obtain ⟨-, hlt, -⟩ := drawTierWalk_spec hwalk (by omega)
  have hpos : 0 < count.toNat := UInt32.pos_iff_ne_zero.mpr hzero
  have hmod := Nat.mod_lt (u64.readAt 8 hash.val).toNat hpos
  refine ⟨hcount, by omega, count, hget, ?_⟩
  rw [UInt32.toNat_ofNat_of_lt' (hmod.trans count.toNat_lt)]
  exact hmod

/-- A draw depends on the weights of the tiers in use only. -/
theorem draw_congr {pool pool' : Pool} (hcount : pool'.tierCount = pool.tierCount)
    (hweight : pool'.tiers.toList.map Tier.weight = pool.tiers.toList.map Tier.weight) :
    pool'.draw = pool.draw := by
  have hslice : (pool'.tiers.toList.take pool.tierCount.toNat).map Tier.weight =
      (pool.tiers.toList.take pool.tierCount.toNat).map Tier.weight := by
    rw [List.map_take, List.map_take, hweight]
  funext hash remaining
  simp only [draw, drawTier, tierSlice, hcount]
  by_cases h : pool.tierCount.toNat ≤ maxTiers
  · simp only [if_pos h, ok_bind, drawTotal, drawTotal_congr hslice,
      drawTierWalk_congr remaining hslice]
    rfl
  · simp only [if_neg h, error_bind]

/-- Counting stock does not change what is drawn. -/
theorem draw_updateRemaining {pool pool' : Pool} {tier : UInt8} {f : UInt32 → Option UInt32}
    (h : pool.updateRemaining tier f = .ok pool') : pool'.draw = pool.draw := by
  obtain ⟨-, -, selected, remaining, hsel, -, rfl⟩ := updateRemaining_eq_ok.mp h
  refine draw_congr rfl (List.ext_getElem (by simp) fun t ht _ => ?_)
  have ht8 : t < 8 := by simpa using ht
  simp only [List.getElem_map, Vector.getElem_toList, Vector.getElem_setIfInBounds]
  split_ifs with heq
  · subst heq
    rw [Vector.getElem?_eq_getElem ht8, Option.some.injEq] at hsel
    rw [hsel]
  · rfl

/-- With positive weights, a draw has a result as long as one tier in use has a candidate. -/
theorem draw_isOk {pool : Pool} {remaining : Vector UInt32 8} (hcount : pool.tierCount.toNat ≤ 8)
    (hweight : ∀ tier ∈ pool.tiers.toList.take pool.tierCount.toNat, tier.weight ≠ 0)
    (hsome : ∃ t, ∃ h : t < 8, t < pool.tierCount.toNat ∧ remaining[t] ≠ 0) (hash : FixedBytes 32) :
    ∃ tier rank, pool.draw hash remaining = .ok (tier, rank) := by
  generalize htiers : pool.tiers.toList.take pool.tierCount.toNat = tiers at hweight
  have hlen : tiers.length = pool.tierCount.toNat := by
    rw [← htiers, List.length_take, Vector.length_toList, min_eq_left hcount]
  have hslice : pool.tierSlice = .ok tiers := tierSlice_eq_ok.mpr ⟨hcount, htiers⟩
  have htotal : 0 < drawTotal tiers remaining := by
    obtain ⟨t, h8, ht, hne⟩ := hsome
    have hmem : (tiers[t], remaining[t]) ∈ (tiers.zip remaining.toList).filter fun x => 0 < x.2 := by
      refine List.mem_filter.mpr ⟨?_, by simpa using UInt32.pos_iff_ne_zero.mpr hne⟩
      refine List.mem_iff_getElem.mpr ⟨t, by simp; omega, ?_⟩
      simp
    have hpos : 0 < tiers[t].weight.toNat :=
      UInt32.pos_iff_ne_zero.mpr (hweight _ (List.getElem_mem _))
    exact hpos.trans_le (List.le_sum_of_mem (List.mem_map.mpr ⟨_, hmem, rfl⟩))
  obtain ⟨tier, hwalk⟩ := drawTierWalk_isOk remaining tiers 0
    ((u64.readAt 0 hash.val).toNat % drawTotal tiers remaining) (by omega) (by
      rw [List.drop_zero]
      exact Nat.mod_lt _ htotal)
  obtain ⟨-, -, count, hget, hne⟩ := drawTierWalk_spec hwalk (by omega)
  refine ⟨tier, UInt32.ofNat ((u64.readAt 8 hash.val).toNat % count.toNat), ?_⟩
  simp only [draw, drawTier, hslice, ok_bind, failIf_neg htotal.ne', hwalk, hget, okOr, failIf_neg hne]
  rfl

end Pool

end SolanaGacha
