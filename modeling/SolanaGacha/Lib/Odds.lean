import Mathlib.Algebra.BigOperators.Fin
import Mathlib.Algebra.Group.Action.Defs
import Mathlib.Data.Int.CardIntervalMod
import Mathlib.Algebra.Order.BigOperators.Group.Finset

/-!
# Weighted selection

A roll selects the first entry of a list of weights whose cumulative weight exceeds it (`select`). Rolls below
the total weight partition into one interval for each entry (`select_eq_some`), and a roll that is the
residue of a number below `N` falls into an interval of `w` residues between `w * (N / T)` and
`w * (N / T + 1)` times (`card_mod_interval`), so the selection realises its weights up to the last,
incomplete block of residues (`card_select`).
-/

namespace SolanaGacha.Odds

open Finset

/-! ## The selection -/

/-- The entry that a roll selects. -/
def select : List ℕ → ℕ → Option ℕ
  | [], _ => none
  | w :: ws, roll => if roll < w then some 0 else (select ws (roll - w)).map (· + 1)

/-- An entry is selected by the rolls from the cumulative weight before it up to that after it. -/
theorem select_eq_some {ws : List ℕ} {roll j : ℕ} : select ws roll = some j ↔
    ∃ w, ws[j]? = some w ∧ (ws.take j).sum ≤ roll ∧ roll < (ws.take j).sum + w := by
  induction ws generalizing roll j with
  | nil => simp [select]
  | cons first ws ih =>
    unfold select
    cases j with
    | zero => by_cases h : roll < first <;> simp [h]
    | succ j =>
      by_cases h : roll < first
      · rw [if_pos h, List.getElem?_cons_succ, List.take_succ_cons, List.sum_cons]
        constructor
        · intro hsome
          cases hsome
        · rintro ⟨w, -, hle, -⟩
          omega
      · rw [if_neg h, Option.map_eq_some_iff, List.getElem?_cons_succ, List.take_succ_cons, List.sum_cons]
        constructor
        · rintro ⟨i, hi, heq⟩
          obtain rfl : i = j := Nat.succ_injective heq
          obtain ⟨w, hw, hle, hlt⟩ := ih.mp hi
          exact ⟨w, hw, by omega, by omega⟩
        · rintro ⟨w, hw, hle, hlt⟩
          exact ⟨j, ih.mpr ⟨w, hw, by omega, by omega⟩, rfl⟩

/-- Every roll below the total weight selects an entry. -/
theorem exists_select {ws : List ℕ} {roll : ℕ} (h : roll < ws.sum) : ∃ j, select ws roll = some j := by
  induction ws generalizing roll with
  | nil => simp at h
  | cons first ws ih =>
    unfold select
    by_cases hfirst : roll < first
    · exact ⟨0, if_pos hfirst⟩
    · rw [List.sum_cons] at h
      obtain ⟨j, hj⟩ := ih (show roll - first < ws.sum by omega)
      exact ⟨j + 1, by rw [if_neg hfirst, hj]; rfl⟩

/-- The total weight, entry by entry. -/
theorem sum_eq {ws : List ℕ} {n : ℕ} (h : ws.length ≤ n) : ws.sum = ∑ j : Fin n, ws[j.val]?.getD 0 := by
  induction ws generalizing n with
  | nil => simp
  | cons first ws ih =>
    rw [List.length_cons] at h
    obtain ⟨n, rfl⟩ := Nat.exists_eq_succ_of_ne_zero (show n ≠ 0 by omega)
    rw [Fin.sum_univ_succ, List.sum_cons, ih (show ws.length ≤ n by omega)]
    rfl

/-! ## Residues -/

/-- How often a residue occurs. -/
theorem card_mod (N : ℕ) {T r : ℕ} (hr : r < T) :
    N / T ≤ #{x ∈ range N | x % T = r} ∧ #{x ∈ range N | x % T = r} ≤ N / T + 1 := by
  have hcount := Nat.count_modEq_card N (show 0 < T by omega) r
  have hmod : ∀ x, x ≡ r [MOD T] ↔ x % T = r := by
    intro x
    rw [Nat.ModEq, Nat.mod_eq_of_lt hr]
  simp only [Nat.count_eq_card_filter_range, hmod] at hcount
  rw [hcount]
  split_ifs <;> omega

/-- How often the residues of an interval occur. -/
theorem card_mod_interval (N : ℕ) {T a w : ℕ} (h : a + w ≤ T) :
    w * (N / T) ≤ #{x ∈ range N | a ≤ x % T ∧ x % T < a + w} ∧
      #{x ∈ range N | a ≤ x % T ∧ x % T < a + w} ≤ w * (N / T + 1) := by
  have hcard : #{x ∈ range N | a ≤ x % T ∧ x % T < a + w} =
      ∑ r ∈ Ico a (a + w), #{x ∈ range N | x % T = r} := by
    rw [card_eq_sum_card_fiberwise (f := (· % T)) (t := Ico a (a + w))]
    · refine sum_congr rfl fun r hr => congrArg card ?_
      rw [filter_filter]
      refine filter_congr fun x _ => ?_
      have := mem_Ico.mp hr
      constructor
      · exact fun hx => hx.2
      · intro hx
        exact ⟨by omega, hx⟩
    · intro x hx
      have hx := (mem_filter.mp hx).2
      exact mem_coe.mpr (mem_Ico.mpr hx)
  have hmem : ∀ r ∈ Ico a (a + w), r < T := by
    intro r hr
    have := mem_Ico.mp hr
    omega
  have hsize : #(Ico a (a + w)) = w := by rw [Nat.card_Ico, Nat.add_sub_cancel_left]
  rw [hcard]
  constructor
  · have := card_nsmul_le_sum _ _ _ fun r hr => (card_mod N (hmem r hr)).1
    rwa [hsize, smul_eq_mul] at this
  · have := sum_le_card_nsmul _ _ _ fun r hr => (card_mod N (hmem r hr)).2
    rwa [hsize, smul_eq_mul] at this

/-- A selection by a first residue, and an element by a second one. -/
theorem card_select (N : ℕ) {ws : List ℕ} {j w n k : ℕ} (hw : ws[j]? = some w) (hk : k < n) :
    w * (N / ws.sum) * (N / n) ≤
        #{x ∈ range N ×ˢ range N | select ws (x.1 % ws.sum) = some j ∧ x.2 % n = k} ∧
      #{x ∈ range N ×ˢ range N | select ws (x.1 % ws.sum) = some j ∧ x.2 % n = k} ≤
        w * (N / ws.sum + 1) * (N / n + 1) := by
  have hinterval : ∀ roll, select ws roll = some j ↔
      (ws.take j).sum ≤ roll ∧ roll < (ws.take j).sum + w := by
    intro roll
    rw [select_eq_some, hw]
    simp
  have hfits : (ws.take j).sum + w ≤ ws.sum := by
    obtain ⟨hlt, rfl⟩ := List.getElem?_eq_some_iff.mp hw
    rw [← List.sum_take_succ _ _ hlt]
    exact (List.take_sublist _ _).sum_le_sum (by simp)
  have hcard : #{x ∈ range N ×ˢ range N | select ws (x.1 % ws.sum) = some j ∧ x.2 % n = k} =
      #{x ∈ range N | (ws.take j).sum ≤ x % ws.sum ∧ x % ws.sum < (ws.take j).sum + w} *
        #{x ∈ range N | x % n = k} := by
    simp only [hinterval]
    rw [filter_product (fun x => (ws.take j).sum ≤ x % ws.sum ∧ x % ws.sum < (ws.take j).sum + w)
      (fun y => y % n = k), card_product]
  rw [hcard]
  obtain ⟨hlow, hhigh⟩ := card_mod_interval N hfits
  obtain ⟨hlow', hhigh'⟩ := card_mod N hk
  exact ⟨Nat.mul_le_mul hlow hlow', Nat.mul_le_mul hhigh hhigh'⟩

end SolanaGacha.Odds
