import Mathlib.Algebra.BigOperators.Intervals
import Mathlib.Data.Nat.Bitwise
import Mathlib.Data.Nat.Count
import Mathlib.Data.Nat.Factorization.Basic
import Mathlib.Tactic.Positivity
import Mathlib.Tactic.Ring

/-!
# Fenwick trees

A Fenwick tree over the counts `c 0, c 1, …` has the nodes `1, 2, …`. Node `n` stores the sum of
`c` over the blocks `parent n ≤ b < n`, where `parent n = n &&& (n - 1)` clears the lowest set bit.
Everything here follows from the form `n = 2^k * (2 * m + 1)` of a node, in which
`parent n = 2^(k+1) * m` and the next node above it is `next n = 2^(k+1) * (m + 1)`.

- A prefix sum walks `n, parent n, …` (`prefix_eq_add`).
- The nodes that cover a block `b` are `b + 1, next (b + 1), …` (`covers_iff_next`), the chain that
  an update walks.
- Where the blocks hold a sequence, `blockCount` is how many of its entries satisfy a predicate, so a
  prefix sum counts the entries of a prefix (`sum_blockCount`), and one more entry adds one to the
  nodes that cover its block (`nodeSum_insert`).
- A rank is found by a descent over powers of two. At a step `2^e`, from a node that is a multiple
  of `2^(e+1)`, the only covering node of that level is `node + 2^e` (`covers_iff_of_level`).
-/

namespace Fenwick

open Finset

/-- The start of the range of node `n`: `n` without its lowest set bit. -/
def parent (n : ℕ) : ℕ := n &&& (n - 1)

/-- The lowest set bit of `n`, the number of blocks that node `n` covers. -/
def width (n : ℕ) : ℕ := n - parent n

/-- The smallest node above `n` whose range holds the range of `n`. -/
def next (n : ℕ) : ℕ := n + width n

/-- Node `n` covers block `b`. -/
def Covers (n b : ℕ) : Prop := parent n ≤ b ∧ b < n

instance (n b : ℕ) : Decidable (Covers n b) := inferInstanceAs (Decidable (_ ∧ _))

/-! ## The form of a node -/

theorem double_land_double_succ (a b : ℕ) : (2 * a) &&& (2 * b + 1) = 2 * (a &&& b) := by
  have h := Nat.land_bit false a true b
  simpa [Nat.bit_val] using h

theorem double_succ_land_double (a b : ℕ) : (2 * a + 1) &&& (2 * b) = 2 * (a &&& b) := by
  rw [Nat.land_comm, double_land_double_succ, Nat.land_comm]

theorem double_land_double (a b : ℕ) : (2 * a) &&& (2 * b) = 2 * (a &&& b) := by
  have h := Nat.land_bit false a false b
  simpa [Nat.bit_val] using h

theorem double_succ_land_double_succ (a b : ℕ) : (2 * a + 1) &&& (2 * b + 1) = 2 * (a &&& b) + 1 := by
  have h := Nat.land_bit true a true b
  simpa [Nat.bit_val] using h

/-- Every node is a power of two times an odd number. -/
theorem exists_form {n : ℕ} (h : 0 < n) : ∃ k m, n = 2 ^ k * (2 * m + 1) := by
  obtain ⟨k, j, ⟨m, rfl⟩, rfl⟩ := Nat.exists_eq_two_pow_mul_odd (Nat.ne_of_gt h)
  exact ⟨k, m, rfl⟩

theorem parent_form (k m : ℕ) : parent (2 ^ k * (2 * m + 1)) = 2 ^ (k + 1) * m := by
  unfold parent
  induction k with
  | zero => simpa using double_succ_land_double m m
  | succ k ih =>
    have hpos : 0 < 2 ^ k * (2 * m + 1) := by positivity
    have h1 : 2 ^ (k + 1) * (2 * m + 1) = 2 * (2 ^ k * (2 * m + 1)) := by ring
    have h2 : 2 * (2 ^ k * (2 * m + 1)) - 1 = 2 * (2 ^ k * (2 * m + 1) - 1) + 1 := by omega
    rw [h1, h2, double_land_double_succ, ih]
    ring

theorem width_form (k m : ℕ) : width (2 ^ k * (2 * m + 1)) = 2 ^ k := by
  rw [width, parent_form, show 2 ^ k * (2 * m + 1) = 2 ^ (k + 1) * m + 2 ^ k by ring,
    Nat.add_sub_cancel_left]

theorem next_form (k m : ℕ) : next (2 ^ k * (2 * m + 1)) = 2 ^ (k + 1) * (m + 1) := by
  rw [next, width_form]
  ring

theorem parent_lt {n : ℕ} (h : 0 < n) : parent n < n := by
  have := Nat.and_le_right (n := n) (m := n - 1)
  unfold parent
  omega

theorem width_pos {n : ℕ} (h : 0 < n) : 0 < width n := by
  have := parent_lt h
  unfold width
  omega

theorem lt_next {n : ℕ} (h : 0 < n) : n < next n := by
  have := width_pos h
  unfold next
  omega

/-- Two complement digits have no common bit. -/
theorem land_compl (w : ℕ) : ∀ m, m < 2 ^ w → m &&& (2 ^ w - 1 - m) = 0 := by
  induction w with
  | zero => intro m h; simp at h; simp [h]
  | succ w ih =>
    intro m h
    rw [pow_succ] at h
    have ih' := ih (m / 2) (by omega)
    rcases Nat.even_or_odd' m with ⟨j, rfl | rfl⟩
    · rw [show 2 ^ (w + 1) - 1 - 2 * j = 2 * (2 ^ w - 1 - j) + 1 by rw [pow_succ]; omega,
        double_land_double_succ]
      rw [show 2 * j / 2 = j by omega] at ih'
      rw [ih', mul_zero]
    · rw [show 2 ^ (w + 1) - 1 - (2 * j + 1) = 2 * (2 ^ w - 1 - j) by rw [pow_succ]; omega,
        double_succ_land_double]
      rw [show (2 * j + 1) / 2 = j by omega] at ih'
      rw [ih', mul_zero]

/-- On `w`-bit words, `n & -n` is the lowest set bit. -/
theorem land_neg (w : ℕ) {n : ℕ} (hpos : 0 < n) (h : n < 2 ^ w) : n &&& (2 ^ w - n) = width n := by
  obtain ⟨k, m, rfl⟩ := exists_form hpos
  rw [width_form]
  induction k generalizing w with
  | zero =>
    cases w with
    | zero => simp at h
    | succ w =>
      rw [pow_succ] at h
      rw [show 2 ^ (w + 1) - 2 ^ 0 * (2 * m + 1) = 2 * (2 ^ w - 1 - m) + 1 by rw [pow_succ]; omega,
        pow_zero, one_mul, double_succ_land_double_succ, land_compl w m (by omega), mul_zero,
        zero_add]
  | succ k ih =>
    cases w with
    | zero =>
      have : 0 < 2 ^ (k + 1) * (2 * m + 1) := by positivity
      omega
    | succ w =>
      have h1 : 2 ^ (k + 1) * (2 * m + 1) = 2 * (2 ^ k * (2 * m + 1)) := by ring
      rw [h1] at h ⊢
      rw [pow_succ] at h
      rw [show 2 ^ (w + 1) - 2 * (2 ^ k * (2 * m + 1)) = 2 * (2 ^ w - 2 ^ k * (2 * m + 1)) by
        rw [pow_succ]; omega, double_land_double, ih w (by positivity) (by omega)]
      ring

/-! ## Prefix sums -/

/-- The sum of `c` over the blocks that node `n` covers. -/
def nodeSum (c : ℕ → ℕ) (n : ℕ) : ℕ := ∑ b ∈ Ico (parent n) n, c b

/-- A prefix is the node at its end and the prefix before that node. -/
theorem prefix_eq_add (c : ℕ → ℕ) {n : ℕ} (h : 0 < n) :
    ∑ b ∈ range n, c b = nodeSum c n + ∑ b ∈ range (parent n), c b := by
  rw [nodeSum, add_comm]
  exact (sum_range_add_sum_Ico c (parent_lt h).le).symm

/-- The node of the last block, from the prefixes at its two ends. -/
theorem nodeSum_succ_of_zero (c : ℕ → ℕ) (n : ℕ) (h : c n = 0) :
    nodeSum c (n + 1) + ∑ b ∈ range (parent (n + 1)), c b = ∑ b ∈ range n, c b := by
  rw [← prefix_eq_add c (Nat.succ_pos n), sum_range_succ, h, add_zero]

/-! ## Counts of a sequence in blocks -/

section BlockCount

variable {w x : ℕ} {p p' : ℕ → Prop} [DecidablePred p] [DecidablePred p']

/-- How many entries of block `b` satisfy `p`, where a block holds `w` entries. -/
def blockCount (w : ℕ) (p : ℕ → Prop) [DecidablePred p] (b : ℕ) : ℕ :=
  Nat.count (fun o => p (w * b + o)) w

theorem blockCount_congr (w : ℕ) (h : ∀ k, p' k ↔ p k) : blockCount w p' = blockCount w p := by
  funext b
  simp only [blockCount, h]

/-- The blocks of a prefix together hold what the prefix holds. -/
theorem sum_blockCount (w : ℕ) (p : ℕ → Prop) [DecidablePred p] (n : ℕ) :
    ∑ b ∈ range n, blockCount w p b = Nat.count p (w * n) := by
  induction n with
  | zero => simp
  | succ n ih => rw [sum_range_succ, ih, Nat.mul_succ, Nat.count_add, blockCount]

/-- One more entry that counts. -/
theorem count_insert (hx : ¬p x) (hx' : p' x) (h : ∀ k, k ≠ x → (p' k ↔ p k)) (n : ℕ) :
    Nat.count p' n = Nat.count p n + if x < n then 1 else 0 := by
  induction n with
  | zero => simp
  | succ n ih =>
    rw [Nat.count_succ, Nat.count_succ, ih]
    rcases lt_trichotomy n x with hn | rfl | hn
    · have hne := h n (by omega)
      rw [if_neg (by omega : ¬x < n), if_neg (by omega : ¬x < n + 1)]
      simp only [hne, add_zero]
    · simp [hx, hx']
    · have hne := h n (by omega)
      rw [if_pos hn, if_pos (by omega : x < n + 1)]
      simp only [hne]
      omega

theorem blockCount_insert (hw : 0 < w) (hx : ¬p x) (hx' : p' x) (h : ∀ k, k ≠ x → (p' k ↔ p k))
    (b : ℕ) : blockCount w p' b = blockCount w p b + if b = x / w then 1 else 0 := by
  have hadd' := Nat.count_add (p := p') (w * b) w
  have hadd := Nat.count_add (p := p) (w * b) w
  rw [count_insert hx hx' h, count_insert hx hx' h] at hadd'
  unfold blockCount
  have hblock : b = x / w ↔ w * b ≤ x ∧ x < w * b + w := by
    rw [eq_comm, Nat.div_eq_iff hw, mul_comm w b]
    omega
  simp only [hblock]
  split_ifs at hadd' ⊢ <;> omega

/-- One more entry that counts adds one to the nodes that cover its block. -/
theorem nodeSum_insert (hw : 0 < w) (hx : ¬p x) (hx' : p' x) (h : ∀ k, k ≠ x → (p' k ↔ p k))
    (n : ℕ) : nodeSum (blockCount w p') n =
      nodeSum (blockCount w p) n + if Covers n (x / w) then 1 else 0 := by
  unfold nodeSum
  rw [sum_congr rfl fun b _ => blockCount_insert hw hx hx' h b, sum_add_distrib, sum_ite_eq']
  exact congrArg _ (if_congr mem_Ico rfl rfl)

/-- A node counts the entries between the prefixes at its two ends. -/
theorem nodeSum_blockCount (w : ℕ) (p : ℕ → Prop) [DecidablePred p] {n : ℕ} (h : 0 < n) :
    nodeSum (blockCount w p) n + Nat.count p (w * parent n) = Nat.count p (w * n) := by
  rw [← sum_blockCount, ← sum_blockCount, ← prefix_eq_add _ h]

end BlockCount

/-! ## Updates -/

/-- The covering nodes of a block are the node of the block itself and those of the next one. -/
theorem covers_iff_next {x n : ℕ} (hx : 0 < x) :
    (parent n < x ∧ x ≤ n) ↔ n = x ∨ (parent n < next x ∧ next x ≤ n) := by
  rcases Nat.eq_zero_or_pos n with rfl | hn
  · have := lt_next hx
    omega
  obtain ⟨k, m, rfl⟩ := exists_form hx
  obtain ⟨j, l, rfl⟩ := exists_form hn
  rw [parent_form, next_form]
  -- Whether the node's level is above that of `x` decides both directions.
  rcases Nat.lt_or_ge k j with hkj | hjk
  · -- Both ends of the node are multiples of `2^(k+1)`, and `x` lies in the middle of two of them.
    obtain ⟨i, rfl⟩ := Nat.exists_eq_add_of_lt hkj
    have e1 : 2 ^ (k + i + 1) * (2 * l + 1) = 2 ^ (k + 1) * (2 ^ i * (2 * l + 1)) := by ring
    have e2 : 2 ^ (k + i + 1 + 1) * l = 2 ^ (k + 1) * (2 ^ i * (2 * l)) := by ring
    have e3 : 2 ^ k * (2 * m + 1) = 2 ^ (k + 1) * m + 2 ^ k := by ring
    have e4 : 2 ^ (k + 1) * (m + 1) = 2 ^ (k + 1) * m + 2 ^ (k + 1) := by ring
    have hk : 2 ^ (k + 1) = 2 ^ k + 2 ^ k := by ring
    have hpos : 0 < 2 ^ k := by positivity
    rw [e1, e2]
    generalize 2 ^ i * (2 * l + 1) = u
    generalize 2 ^ i * (2 * l) = v
    constructor
    · rintro ⟨h1, h2⟩
      refine .inr ⟨by omega, Nat.mul_le_mul_left _ ?_⟩
      by_contra hlt
      have : 2 ^ (k + 1) * u ≤ 2 ^ (k + 1) * m := Nat.mul_le_mul_left _ (by omega)
      omega
    · rintro (h | ⟨h1, h2⟩)
      · exfalso
        rcases Nat.lt_or_ge m u with hmu | hum
        · have : 2 ^ (k + 1) * (m + 1) ≤ 2 ^ (k + 1) * u := Nat.mul_le_mul_left _ hmu
          omega
        · have : 2 ^ (k + 1) * u ≤ 2 ^ (k + 1) * m := Nat.mul_le_mul_left _ hum
          omega
      · have hv : v ≤ m := by
          by_contra hlt
          have : 2 ^ (k + 1) * (m + 1) ≤ 2 ^ (k + 1) * v := Nat.mul_le_mul_left _ (by omega)
          omega
        have : 2 ^ (k + 1) * v ≤ 2 ^ (k + 1) * m := Nat.mul_le_mul_left _ hv
        omega
  · -- `x` and the next node are multiples of the node's width, so they cannot lie inside its range.
    obtain ⟨i, rfl⟩ := Nat.exists_eq_add_of_le hjk
    have e1 : 2 ^ (j + i) * (2 * m + 1) = 2 ^ j * (2 ^ i * (2 * m + 1)) := by ring
    have e2 : 2 ^ (j + i + 1) * (m + 1) = 2 ^ j * (2 ^ i * (2 * m + 2)) := by ring
    have e3 : 2 ^ (j + 1) * l = 2 ^ j * (2 * l) := by ring
    have hu : 2 ^ i * (2 * m + 2) = 2 ^ i * (2 * m + 1) + 2 ^ i := by ring
    have hi : 0 < 2 ^ i := by positivity
    have hj : 0 < 2 ^ j := by positivity
    rw [e1, e2, e3, hu]
    have heven : 2 ∣ 2 ^ i * (2 * m + 1) + 2 ^ i := ⟨2 ^ i * (m + 1), by ring⟩
    generalize 2 ^ i * (2 * m + 1) = u at *
    simp only [Nat.mul_lt_mul_left hj, Nat.mul_le_mul_left_iff hj, Nat.mul_right_inj hj.ne']
    omega

/-! ## Descents -/

/-- The nodes below level `e + 1` are those below level `e` and those of that level. -/
theorem width_lt_succ {n : ℕ} (hn : 0 < n) (e : ℕ) :
    width n < 2 ^ (e + 1) ↔ width n < 2 ^ e ∨ width n = 2 ^ e := by
  obtain ⟨k, m, rfl⟩ := exists_form hn
  rw [width_form, Nat.pow_lt_pow_iff_right one_lt_two, Nat.pow_lt_pow_iff_right one_lt_two,
    Nat.pow_right_inj one_lt_two]
  omega

theorem width_le (n : ℕ) : width n ≤ n := Nat.sub_le _ _

/-- The nodes of level `e` are those with a range of `2^e` blocks. -/
theorem width_eq_iff {n e : ℕ} (hn : 0 < n) :
    width n = 2 ^ e ↔ ∃ m, n = 2 ^ (e + 1) * m + 2 ^ e := by
  obtain ⟨k, m, rfl⟩ := exists_form hn
  rw [width_form]
  constructor
  · intro h
    obtain rfl : k = e := Nat.pow_right_injective le_rfl h
    exact ⟨m, by ring⟩
  · rintro ⟨m', h⟩
    have h' := congrArg width h
    rw [width_form, show 2 ^ (e + 1) * m' + 2 ^ e = 2 ^ e * (2 * m' + 1) by ring, width_form] at h'
    exact h'

/-- From a multiple of `2^(e+1)`, the node `2^e` further covers exactly the blocks between. -/
theorem parent_add {node e : ℕ} (h : 2 ^ (e + 1) ∣ node) : parent (node + 2 ^ e) = node := by
  obtain ⟨m, rfl⟩ := h
  rw [show 2 ^ (e + 1) * m + 2 ^ e = 2 ^ e * (2 * m + 1) by ring, parent_form]

theorem width_add {node e : ℕ} (h : 2 ^ (e + 1) ∣ node) : width (node + 2 ^ e) = 2 ^ e := by
  rw [width, parent_add h]
  omega

/-- In the window `[node, node + 2^(e+1))`, the covering node of level `e` is `node + 2^e`. -/
theorem covers_iff_of_level {node e n b : ℕ} (h : 2 ^ (e + 1) ∣ node) (hn : 0 < n)
    (hw : width n = 2 ^ e) (hlo : node ≤ b) (hhi : b < node + 2 ^ (e + 1)) :
    Covers n b ↔ n = node + 2 ^ e ∧ b < node + 2 ^ e := by
  obtain ⟨m, rfl⟩ := h
  obtain ⟨m', rfl⟩ := (width_eq_iff hn).mp hw
  have hp : parent (2 ^ (e + 1) * m' + 2 ^ e) = 2 ^ (e + 1) * m' := parent_add ⟨m', rfl⟩
  have hpow : 2 ^ (e + 1) = 2 ^ e + 2 ^ e := by ring
  have hpos : 0 < 2 ^ e := by positivity
  rw [Covers, hp]
  constructor
  · rintro ⟨h1, h2⟩
    have hmm : m' = m := by
      by_contra hne
      rcases Nat.lt_or_gt_of_ne hne with hlt | hgt
      · have : 2 ^ (e + 1) * (m' + 1) ≤ 2 ^ (e + 1) * m := Nat.mul_le_mul_left _ hlt
        rw [mul_add, mul_one] at this
        omega
      · have : 2 ^ (e + 1) * (m + 1) ≤ 2 ^ (e + 1) * m' := Nat.mul_le_mul_left _ hgt
        rw [mul_add, mul_one] at this
        omega
    subst hmm
    exact ⟨rfl, h2⟩
  · rintro ⟨h1, h2⟩
    have hmm : 2 ^ (e + 1) * m' = 2 ^ (e + 1) * m := by omega
    omega

end Fenwick
