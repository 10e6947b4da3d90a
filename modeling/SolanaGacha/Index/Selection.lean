import SolanaGacha.Index.Stock
import SolanaGacha.Program.Runtime

/-!
# What the draws of a purchase select

`Runtime.selections` is the draw over a plain list of tags, which knows no index: each draw picks a tier
by weight and the entry of a rank in it, and clears the entry. Its results are distinct available
positions (`selections_spec`), and it has a result for as many draws as there are positions left
(`selections_isOk`). The handler's draw loop and the SDK's settlement plan are both compared with it.
-/

namespace SolanaGacha

open Except Layout Inventory

/-- The number of tags of each tier. -/
def tally (tags : List UInt8) : Vector UInt32 8 :=
  .ofFn fun tier => UInt32.ofNat (tags.count (tierTag tier))

/-- The tiers and positions that `n` draws select from a list of tags, starting with draw number `i`. -/
def Runtime.selections (rt : Runtime) (pool : Pool) (beta : FixedBytes 64) :
    List UInt8 → ℕ → ℕ → Except Fault (List (UInt8 × ℕ))
  | _, _, 0 => return []
  | tags, i, n + 1 => do
    let (tier, rank) ← pool.draw (rt.sha256 (beta.val ++ [UInt8.ofNat i])) (tally tags)
    let position ← okOr .panicked (tags.idxsOf (tierTag tier.toNat))[rank.toNat]?
    let rest ← rt.selections pool beta (tags.set position 0) (i + 1) n
    return (tier, position) :: rest

/-! ## Counting -/

theorem getElem_tally {tags : List UInt8} (hsmall : tags.length < 2 ^ 32) {t : ℕ} (ht : t < 8) :
    (tally tags)[t].toNat = tags.count (tierTag t) := by
  have hle := List.count_le_length (l := tags) (a := tierTag t)
  simp only [tally, Vector.getElem_ofFn]
  rw [UInt32.toNat_ofNat_of_lt' (by show _ < 2 ^ 32; omega)]

/-- Counts that agree with the tags are the tally. -/
theorem eq_tally {v : Vector UInt32 8} {tags : List UInt8} (hsmall : tags.length < 2 ^ 32)
    (h : ∀ t (_ : t < 8), v[t].toNat = tags.count (tierTag t)) : v = tally tags := by
  apply Vector.ext
  intro t ht
  rw [← UInt32.toNat_inj, h t ht, getElem_tally hsmall ht]

/-- The tally after a draw, as the handler updates it. -/
theorem tally_set {tags : List UInt8} (hsmall : tags.length < 2 ^ 32) {tier p : ℕ} (ht : tier < 8)
    (hp : Live tags tier p) {left : UInt32} (hleft : (tally tags)[tier].toNat = left.toNat + 1) :
    (tally tags).setIfInBounds tier left = tally (tags.set p 0) := by
  refine eq_tally (by rwa [List.length_set]) fun t ht' => ?_
  rw [Vector.getElem_setIfInBounds, count_set_zero ht ht' hp]
  rw [getElem_tally hsmall ht] at hleft
  split_ifs with heq
  · subst heq
    omega
  · rw [getElem_tally hsmall ht', Nat.sub_zero]

theorem live_of_getElem?_idxsOf {tags : List UInt8} {tier rank p : ℕ}
    (h : (tags.idxsOf (tierTag tier))[rank]? = some p) : Live tags tier p := by
  rw [Live, List.getD_eq_getElem?_getD, (getElem?_idxsOf.mp h).1, Option.getD_some]

/-- An entry of a prefix has the same rank in the whole list. -/
theorem getElem?_idxsOf_take {tags : List UInt8} {c rank p : ℕ} {tag : UInt8}
    (h : ((tags.take c).idxsOf tag)[rank]? = some p) :
    p < c ∧ (tags.idxsOf tag)[rank]? = some p := by
  obtain ⟨hget, hcount⟩ := getElem?_idxsOf.mp h
  rw [List.getElem?_take] at hget
  split_ifs at hget with hlt
  refine ⟨hlt, getElem?_idxsOf.mpr ⟨hget, ?_⟩⟩
  rwa [List.take_take, min_eq_left hlt.le] at hcount

/-! ## Selections -/

namespace Runtime

variable {rt : Runtime} {pool : Pool} {beta : FixedBytes 64}

/-- The selections read the weights of the header only. -/
theorem selections_congr {pool' : Pool} (hdraw : pool'.draw = pool.draw) (tags : List UInt8) (i n : ℕ) :
    rt.selections pool' beta tags i n = rt.selections pool beta tags i n := by
  induction n generalizing tags i with
  | zero => rfl
  | succ n ih => simp only [selections, hdraw, ih]

/-- One selection, and the rest of them. -/
theorem selections_succ_eq_ok {tags : List UInt8} {i n : ℕ} {draws : List (UInt8 × ℕ)} :
    rt.selections pool beta tags i (n + 1) = .ok draws ↔ ∃ tier rank position rest,
      pool.draw (rt.sha256 (beta.val ++ [UInt8.ofNat i])) (tally tags) = .ok (tier, rank) ∧
        (tags.idxsOf (tierTag tier.toNat))[rank.toNat]? = some position ∧
        rt.selections pool beta (tags.set position 0) (i + 1) n = .ok rest ∧
        draws = (tier, position) :: rest := by
  simp only [selections, bind_eq_ok, okOr_eq_ok, pure_eq_ok, Prod.exists]
  constructor
  · rintro ⟨tier, rank, hdraw, position, hposition, rest, hrest, rfl⟩
    exact ⟨tier, rank, position, rest, hdraw, hposition, hrest, rfl⟩
  · rintro ⟨tier, rank, position, rest, hdraw, hposition, hrest, rfl⟩
    exact ⟨tier, rank, hdraw, position, hposition, rest, hrest, rfl⟩

/-- The selected positions are distinct, and each is available in its tier. -/
theorem selections_spec {tags : List UInt8} {i n : ℕ} {draws : List (UInt8 × ℕ)}
    (h : rt.selections pool beta tags i n = .ok draws) :
    draws.length = n ∧ (draws.map Prod.snd).Nodup ∧
      ∀ d ∈ draws, d.1.toNat < pool.tierCount.toNat ∧ d.1.toNat < 8 ∧ Live tags d.1.toNat d.2 := by
  induction n generalizing tags i draws with
  | zero =>
    obtain rfl := pure_eq_ok.mp h
    simp
  | succ n ih =>
    obtain ⟨tier, rank, position, rest, hdraw, hposition, hrest, rfl⟩ := selections_succ_eq_ok.mp h
    obtain ⟨hcount, htier, -⟩ := Pool.draw_spec hdraw
    have hlive := live_of_getElem?_idxsOf hposition
    have ht8 : tier.toNat < 8 := by omega
    have hlt := lt_length_of_live ht8 hlive
    obtain ⟨hlen, hnodup, hspec⟩ := ih hrest
    -- What is selected later is available after the position was cleared, so it is another one.
    have hlater : ∀ d ∈ rest, d.2 ≠ position ∧ Live tags d.1.toNat d.2 := by
      intro d hd
      obtain ⟨-, hd8, hd⟩ := hspec d hd
      rw [Live, getD_clear hlt] at hd
      split_ifs at hd with heq
      · exact absurd hd.symm (tierTag_ne_zero hd8)
      · exact ⟨heq, hd⟩
    refine ⟨by rw [List.length_cons, hlen], ?_, fun d hd => ?_⟩
    · rw [List.map_cons, List.nodup_cons]
      refine ⟨fun hmem => ?_, hnodup⟩
      obtain ⟨d, hd, heq⟩ := List.mem_map.mp hmem
      exact (hlater d hd).1 heq
    · rcases List.mem_cons.mp hd with rfl | hd
      · exact ⟨htier, ht8, hlive⟩
      · exact ⟨(hspec d hd).1, (hspec d hd).2.1, (hlater d hd).2⟩

/-- With positive weights, as many draws succeed as there are positions left. -/
theorem selections_isOk {tags : List UInt8} (hcount : pool.tierCount.toNat ≤ 8)
    (hweight : ∀ tier ∈ pool.tiers.toList.take pool.tierCount.toNat, tier.weight ≠ 0)
    (hsmall : tags.length < 2 ^ 32) (htags : ∀ tag ∈ tags, tag.toNat ≤ pool.tierCount.toNat) (i : ℕ)
    {n : ℕ} (hn : n ≤ tags.countP (· ≠ 0)) : ∃ draws, rt.selections pool beta tags i n = .ok draws := by
  induction n generalizing tags i with
  | zero => exact ⟨[], rfl⟩
  | succ n ih =>
    have hsome : ∃ t, ∃ h : t < 8, t < pool.tierCount.toNat ∧ (tally tags)[t] ≠ 0 := by
      by_contra hnone
      push Not at hnone
      rw [countP_eq_sum hcount htags, Finset.sum_eq_zero fun t ht => ?_] at hn
      · omega
      · have hlt := Finset.mem_range.mp ht
        rw [← getElem_tally hsmall (by omega), hnone t (by omega) hlt]
        rfl
    obtain ⟨tier, rank, hdraw⟩ := Pool.draw_isOk hcount hweight hsome
      (rt.sha256 (beta.val ++ [UInt8.ofNat i]))
    obtain ⟨-, htier, c, hget, hrank⟩ := Pool.draw_spec hdraw
    have ht8 : tier.toNat < 8 := by omega
    rw [Vector.getElem?_eq_getElem ht8, Option.some.injEq] at hget
    have hlen : rank.toNat < (tags.idxsOf (tierTag tier.toNat)).length := by
      rw [List.length_idxsOf, ← getElem_tally hsmall ht8, hget]
      exact hrank
    generalize hposition : (tags.idxsOf (tierTag tier.toNat))[rank.toNat] = position
    have hposition' : (tags.idxsOf (tierTag tier.toNat))[rank.toNat]? = some position := by
      rw [List.getElem?_eq_getElem hlen, hposition]
    have hlive := live_of_getElem?_idxsOf hposition'
    have hlt := lt_length_of_live ht8 hlive
    -- One entry fewer is left.
    have hleft : n ≤ (tags.set position 0).countP (· ≠ 0) := by
      rw [List.countP_set hlt]
      split_ifs <;> omega
    obtain ⟨rest, hrest⟩ := ih (show (tags.set position 0).length < 2 ^ 32 by
      rwa [List.length_set])
      (fun tag ht => by
        rcases List.mem_or_eq_of_mem_set ht with hmem | rfl
        · exact htags tag hmem
        · exact Nat.zero_le _) (i + 1) hleft
    exact ⟨_, selections_succ_eq_ok.mpr ⟨tier, rank, position, rest, hdraw, hposition', hrest, rfl⟩⟩

end Runtime

end SolanaGacha
