import SolanaGacha.Core.Draw
import SolanaGacha.Lib.Odds

/-!
# The odds of a draw

`Pool.draw` realises the configured weights. The walk over the tiers is a weighted selection
(`Odds.select`) by the weights of the eligible tiers, and the rank is a residue, so each candidate is
selected by as many pairs of words as its share of the hash space, up to the bias of the two remainders
(`Pool.draw_odds`).
-/

namespace SolanaGacha

open Except Layout Finset

namespace Pool

/-- The tiers that a draw may select: in use, with candidates. -/
def Eligible (pool : Pool) (remaining : Vector UInt32 8) (t : Fin 8) : Prop :=
  t.val < pool.tierCount.toNat ∧ 0 < remaining[t]

instance (pool : Pool) (remaining : Vector UInt32 8) : DecidablePred (pool.Eligible remaining) :=
  fun _ => inferInstanceAs (Decidable (_ ∧ _))

/-- The total weight of the eligible tiers. -/
def eligibleWeight (pool : Pool) (remaining : Vector UInt32 8) : ℕ :=
  ∑ t with pool.Eligible remaining t, pool.tiers[t].weight.toNat

/-- A hash from its first and next eight bytes as words, and the bytes that no draw reads. -/
def hashOf (first next : ℕ) (rest : FixedBytes 16) : FixedBytes 32 :=
  ⟨u64.encode (UInt64.ofNat first) ++ u64.encode (UInt64.ofNat next) ++ rest.val, by
    simp only [List.length_append, u64.encode_length, rest.property]
    rfl⟩

/-- The pairs of words that select a rank of a tier. -/
def selecting (pool : Pool) (remaining : Vector UInt32 8) (rest : FixedBytes 16) (tier : UInt8)
    (rank : UInt32) : Finset (ℕ × ℕ) :=
  {x ∈ range (2 ^ 64) ×ˢ range (2 ^ 64) |
    pool.draw (hashOf x.1 x.2 rest) remaining = .ok (tier, rank)}

/-- The words of such a hash. -/
theorem readAt_hashOf {first next : ℕ} (hfirst : first < 2 ^ 64) (hnext : next < 2 ^ 64)
    (rest : FixedBytes 16) : (u64.readAt 0 (hashOf first next rest).val).toNat = first ∧
      (u64.readAt 8 (hashOf first next rest).val).toNat = next := by
  have hlen : ∀ n, (u64.encode (UInt64.ofNat n)).length = 8 := fun n => u64.encode_length _
  have hsplit : (hashOf first next rest).val =
      u64.encode (UInt64.ofNat first) ++ (u64.encode (UInt64.ofNat next) ++ rest.val) := List.append_assoc _ _ _
  unfold readAt
  rw [hsplit]
  constructor
  · rw [List.drop_zero, u64.decode_append, UInt64.toNat_ofNat_of_lt' hfirst]
  · rw [List.drop_left' (hlen first), u64.decode_append, UInt64.toNat_ofNat_of_lt' hnext]

/-! ## The walk is a weighted selection -/

/-- The weights of the tiers with candidates, zero for the others. -/
def shares (tiers : List Tier) (counts : List UInt32) : List ℕ :=
  List.zipWith (fun tier count => if count = 0 then 0 else tier.weight.toNat) tiers counts

theorem drawTotal_eq (tiers : List Tier) (remaining : Vector UInt32 8) :
    drawTotal tiers remaining = (shares tiers remaining.toList).sum := by
  unfold drawTotal shares
  generalize remaining.toList = counts
  induction tiers generalizing counts with
  | nil => rfl
  | cons first tiers ih =>
    cases counts with
    | nil => rfl
    | cons count counts => rw [drawTotal_cons, ih, List.zipWith_cons_cons, List.sum_cons]

/-- The walk over the tiers from an index on. -/
theorem drawTierWalk_eq (remaining : Vector UInt32 8) (tiers : List Tier) (i roll : ℕ)
    (hlen : i + tiers.length ≤ 8) : drawTierWalk remaining tiers i roll =
      okOr (Fault.custom GachaError.soldOut)
        ((Odds.select (shares tiers (remaining.toList.drop i)) roll).map fun j => UInt8.ofNat (i + j)) := by
  induction tiers generalizing i roll with
  | nil => rfl
  | cons first tiers ih =>
    rw [List.length_cons] at hlen
    have hi : i < remaining.toList.length := by
      rw [Vector.length_toList]
      omega
    have hget : remaining[i]? = some remaining.toList[i] := by
      rw [Vector.getElem_toList]
      exact Vector.getElem?_eq_getElem (by omega)
    have hshift : (fun j => UInt8.ofNat (i + 1 + j)) = (fun j => UInt8.ofNat (i + j)) ∘ (· + 1) := by
      funext j
      show UInt8.ofNat (i + 1 + j) = UInt8.ofNat (i + (j + 1))
      rw [Nat.add_assoc, Nat.add_comm 1]
    have hrest := fun roll => ih (i + 1) roll (by omega)
    unfold shares at hrest ⊢
    rw [hshift] at hrest
    rw [List.drop_eq_getElem_cons hi, List.zipWith_cons_cons]
    unfold drawTierWalk Odds.select
    rw [hget]
    simp only [okOr, ok_bind]
    by_cases hzero : remaining.toList[i] = 0
    · -- A tier without candidates is an entry of weight zero.
      rw [if_pos hzero, if_pos hzero, if_neg (Nat.not_lt_zero _), Option.map_map, Nat.sub_zero]
      exact hrest roll
    · rw [if_neg hzero, if_neg hzero]
      by_cases hroll : roll < first.weight.toNat
      · rw [if_pos hroll, if_pos hroll]
        rfl
      · rw [if_neg hroll, if_neg hroll, Option.map_map]
        exact hrest _

/-! ## The pairs of words that select a candidate -/

section Odds

variable (pool : Pool) (remaining : Vector UInt32 8)

/-- The share of a tier. -/
theorem shares_getElem? (t : Fin 8) :
    (shares (pool.tiers.toList.take pool.tierCount.toNat) remaining.toList)[t.val]? =
      if t.val < pool.tierCount.toNat then
        some (if remaining[t] = 0 then 0 else pool.tiers[t].weight.toNat)
      else none := by
  have hget : ∀ {α : Type} (v : Vector α 8), v.toList[t.val]? = some v[t] := by
    intro α v
    rw [Vector.getElem?_toList]
    exact Vector.getElem?_eq_getElem t.isLt
  unfold shares
  rw [List.getElem?_zipWith, List.getElem?_take, hget remaining]
  by_cases ht : t.val < pool.tierCount.toNat
  · rw [if_pos ht, if_pos ht, hget pool.tiers]
  · rw [if_neg ht, if_neg ht]

/-- The shares add up to the weight of the eligible tiers. -/
theorem eligibleWeight_eq : pool.eligibleWeight remaining =
    (shares (pool.tiers.toList.take pool.tierCount.toNat) remaining.toList).sum := by
  have hshare := shares_getElem? pool remaining
  have hlen : (shares (pool.tiers.toList.take pool.tierCount.toNat) remaining.toList).length ≤ 8 := by
    unfold shares
    rw [List.length_zipWith, Vector.length_toList]
    omega
  rw [Odds.sum_eq hlen]
  unfold eligibleWeight
  rw [sum_filter]
  refine sum_congr rfl fun t _ => ?_
  have heligible : pool.Eligible remaining t ↔ t.val < pool.tierCount.toNat ∧ remaining[t] ≠ 0 := by
    unfold Eligible
    rw [UInt32.pos_iff_ne_zero]
  rw [hshare]
  by_cases ht : t.val < pool.tierCount.toNat
  · by_cases hzero : remaining[t] = 0
    · rw [if_pos ht, if_pos hzero, if_neg fun h => (heligible.mp h).2 hzero]
      rfl
    · rw [if_pos ht, if_neg hzero, if_pos (heligible.mpr ⟨ht, hzero⟩)]
      rfl
  · rw [if_neg ht, if_neg fun h => ht (heligible.mp h).1]
    rfl

variable {pool remaining}

/-- A tier that the walk selects is eligible and has a positive weight. -/
theorem eligible_of_select {t : Fin 8} {roll : ℕ}
    (h : Odds.select (shares (pool.tiers.toList.take pool.tierCount.toNat) remaining.toList) roll = some t.val) :
    pool.Eligible remaining t ∧ 0 < pool.tiers[t].weight := by
  obtain ⟨w, hw, hle, hlt⟩ := Odds.select_eq_some.mp h
  rw [shares_getElem?] at hw
  split_ifs at hw with ht hzero
  all_goals obtain rfl := Option.some.inj hw
  · omega
  · refine ⟨⟨ht, UInt32.pos_iff_ne_zero.mpr hzero⟩, UInt32.lt_iff_toNat_lt.mpr ?_⟩
    show 0 < pool.tiers[t].weight.toNat
    omega

variable (hcount : pool.tierCount.toNat ≤ 8)
include hcount

/-- A candidate is selected when its tier is, by the first word, and its rank is, by the next. -/
theorem draw_eq_ok_iff (hpos : 0 < pool.eligibleWeight remaining) {hash : FixedBytes 32} {t : Fin 8}
    {rank : UInt32} : pool.draw hash remaining = .ok (UInt8.ofNat t, rank) ↔
      Odds.select (shares (pool.tiers.toList.take pool.tierCount.toNat) remaining.toList)
        ((u64.readAt 0 hash.val).toNat % pool.eligibleWeight remaining) = some t.val ∧
      (u64.readAt 8 hash.val).toNat % remaining[t].toNat = rank.toNat := by
  have htotal := eligibleWeight_eq pool remaining
  have heligible : ∀ roll, Odds.select _ roll = some t.val → pool.Eligible remaining t ∧ _ :=
    fun roll => eligible_of_select
  generalize htiers : pool.tiers.toList.take pool.tierCount.toNat = tiers at htotal heligible
  have hlen : 0 + tiers.length ≤ 8 := by
    rw [← htiers, List.length_take, Vector.length_toList]
    omega
  have hbyte : ∀ {n : ℕ}, n < 8 → (UInt8.ofNat n).toNat = n :=
    fun hn => UInt8.toNat_ofNat_of_lt' (by show _ < 256; omega)
  have hget : remaining[(UInt8.ofNat t).toNat]? = some remaining[t] := by
    rw [hbyte t.isLt]
    exact Vector.getElem?_eq_getElem t.isLt
  have hwalk := drawTierWalk_eq remaining tiers 0 ((u64.readAt 0 hash.val).toNat % pool.eligibleWeight remaining)
    hlen
  have htier : pool.drawTier hash remaining = .ok (UInt8.ofNat t) ↔
      Odds.select (shares tiers remaining.toList)
        ((u64.readAt 0 hash.val).toNat % pool.eligibleWeight remaining) = some t.val := by
    unfold drawTier
    rw [tierSlice_eq_ok.mpr ⟨hcount, htiers⟩]
    simp only [ok_bind, drawTotal_eq, ← htotal, failIf_neg hpos.ne', hwalk, okOr_eq_ok, List.drop_zero,
      Nat.zero_add, Option.map_eq_some_iff]
    constructor
    · rintro ⟨j, hj, heq⟩
      obtain ⟨w, hw, -⟩ := Odds.select_eq_some.mp hj
      have hlt : j < 8 := by
        have hlt := (List.getElem?_eq_some_iff.mp hw).1
        unfold shares at hlt
        rw [List.length_zipWith, Vector.length_toList] at hlt
        omega
      have heq := congrArg UInt8.toNat heq
      rw [hbyte hlt, hbyte t.isLt] at heq
      rw [hj, heq]
    · exact fun h => ⟨t, h, rfl⟩
  unfold draw
  constructor
  · intro h
    obtain ⟨tier, hdraw, h⟩ := bind_eq_ok.mp h
    obtain ⟨count, hfound, h⟩ := bind_eq_ok.mp h
    obtain ⟨_, hzero, h⟩ := bind_eq_ok.mp h
    obtain ⟨rfl, rfl⟩ := Prod.mk.inj (pure_eq_ok.mp h)
    obtain rfl := Option.some.inj (hget.symm.trans (okOr_eq_ok.mp hfound))
    have hlt := (Nat.mod_lt (u64.readAt 8 hash.val).toNat
      (UInt32.pos_iff_ne_zero.mpr (failIf_eq_ok.mp hzero))).trans remaining[t].toNat_lt
    exact ⟨htier.mp hdraw, (UInt32.toNat_ofNat_of_lt' hlt).symm⟩
  · rintro ⟨hselect, hrank⟩
    have hzero : remaining[t] ≠ 0 := UInt32.pos_iff_ne_zero.mp (heligible _ hselect).1.2
    simp only [htier.mpr hselect, ok_bind, hget, okOr, failIf_neg hzero, hrank, UInt32.ofNat_toNat]
    rfl

/-- A selected candidate is one of an eligible tier with a positive weight. -/
theorem eligible_of_draw (hpos : 0 < pool.eligibleWeight remaining) {hash : FixedBytes 32} {t : Fin 8}
    {rank : UInt32} (h : pool.draw hash remaining = .ok (UInt8.ofNat t, rank)) :
    pool.Eligible remaining t ∧ 0 < pool.tiers[t].weight ∧ rank < remaining[t] := by
  obtain ⟨hselect, hrank⟩ := (draw_eq_ok_iff hcount hpos).mp h
  obtain ⟨heligible, hweight⟩ := eligible_of_select hselect
  refine ⟨heligible, hweight, UInt32.lt_iff_toNat_lt.mpr ?_⟩
  rw [← hrank]
  exact Nat.mod_lt _ (UInt32.lt_iff_toNat_lt.mp heligible.2)

/-- For all weights and remaining counts with an eligible weight: a draw never fails and returns a rank of an
eligible tier; each of the candidates of an eligible tier of weight `w` with `n` remaining is selected by
between `w * ⌊2^64 / T⌋ * ⌊2^64 / n⌋` and `w * (⌊2^64 / T⌋ + 1) * (⌊2^64 / n⌋ + 1)` of the pairs of words; and
no hash selects a tier that is not eligible or has weight zero. -/
theorem draw_odds (hpos : 0 < pool.eligibleWeight remaining) :
    (∀ hash, ∃ (t : Fin 8) (rank : UInt32), pool.Eligible remaining t ∧ rank < remaining[t] ∧
      pool.draw hash remaining = .ok (UInt8.ofNat t, rank)) ∧
    (∀ (rest : FixedBytes 16) (t : Fin 8) (rank : UInt32), pool.Eligible remaining t → rank < remaining[t] →
      pool.tiers[t].weight.toNat * (2 ^ 64 / pool.eligibleWeight remaining) * (2 ^ 64 / remaining[t].toNat) ≤
          #(pool.selecting remaining rest (UInt8.ofNat t) rank) ∧
        #(pool.selecting remaining rest (UInt8.ofNat t) rank) ≤
          pool.tiers[t].weight.toNat * (2 ^ 64 / pool.eligibleWeight remaining + 1) *
            (2 ^ 64 / remaining[t].toNat + 1)) ∧
    ∀ hash (t : Fin 8) (rank : UInt32), ¬pool.Eligible remaining t ∨ pool.tiers[t].weight = 0 →
      pool.draw hash remaining ≠ .ok (UInt8.ofNat t, rank) := by
  have htotal := eligibleWeight_eq pool remaining
  refine ⟨fun hash => ?_, fun rest t rank heligible hrank => ?_, fun hash t rank hnone hdraw => ?_⟩
  · -- The residue of the first word is below the total.
    have hroll := Nat.mod_lt (u64.readAt 0 hash.val).toNat hpos
    rw [htotal] at hroll
    obtain ⟨j, hj⟩ := Odds.exists_select hroll
    rw [← htotal] at hj
    have hj8 : j < 8 := by
      obtain ⟨w, hw, -⟩ := Odds.select_eq_some.mp hj
      have hlt := (List.getElem?_eq_some_iff.mp hw).1
      unfold shares at hlt
      rw [List.length_zipWith, Vector.length_toList] at hlt
      omega
    have hdraw : pool.draw hash remaining = .ok (UInt8.ofNat j,
        UInt32.ofNat ((u64.readAt 8 hash.val).toNat % remaining[j].toNat)) := by
      have hzero : remaining[j] ≠ 0 :=
        UInt32.pos_iff_ne_zero.mp (eligible_of_select (t := ⟨j, hj8⟩) hj).1.2
      refine (draw_eq_ok_iff hcount hpos (t := ⟨j, hj8⟩)).mpr ⟨hj, ?_⟩
      have hlt := (Nat.mod_lt (u64.readAt 8 hash.val).toNat
        (UInt32.pos_iff_ne_zero.mpr hzero)).trans remaining[j].toNat_lt
      exact (UInt32.toNat_ofNat_of_lt' hlt).symm
    obtain ⟨heligible, -, hrank⟩ := eligible_of_draw hcount hpos (t := ⟨j, hj8⟩) hdraw
    exact ⟨⟨j, hj8⟩, _, heligible, hrank, hdraw⟩
  · have hselecting : pool.selecting remaining rest (UInt8.ofNat t) rank =
        {x ∈ range (2 ^ 64) ×ˢ range (2 ^ 64) |
          Odds.select (shares (pool.tiers.toList.take pool.tierCount.toNat) remaining.toList)
            (x.1 % pool.eligibleWeight remaining) = some t.val ∧ x.2 % remaining[t].toNat = rank.toNat} := by
      unfold selecting
      apply filter_congr
      simp only [mem_product, mem_range, and_imp]
      intro x hx hx'
      obtain ⟨hfirst, hnext⟩ := readAt_hashOf hx hx' rest
      rw [draw_eq_ok_iff hcount hpos, hfirst, hnext]
    have hshare : (shares (pool.tiers.toList.take pool.tierCount.toNat) remaining.toList)[t.val]? =
        some pool.tiers[t].weight.toNat := by
      rw [shares_getElem?, if_pos heligible.1, if_neg (UInt32.pos_iff_ne_zero.mp heligible.2)]
    rw [hselecting, htotal]
    exact Odds.card_select (2 ^ 64) hshare (UInt32.lt_iff_toNat_lt.mp hrank)
  · obtain ⟨heligible, hweight, -⟩ := eligible_of_draw hcount hpos hdraw
    rcases hnone with hnone | hzero
    · exact hnone heligible
    · rw [hzero] at hweight
      exact absurd hweight (by decide)

end Odds

/-- A pool with three tiers of weights 3, 0 and 4. -/
def threeTiers : Pool := { Pool.layout.decode [] with
  tierCount := 3
  tiers := (Vector.replicate 8 ⟨0, 0⟩).set 0 ⟨3, 0⟩ |>.set 2 ⟨4, 0⟩ }

/-- The odds of the last of the two candidates of its first tier, when its other tiers have seven and one. -/
theorem draw_odds_sample :
    3 * (2 ^ 64 / 7) * (2 ^ 64 / 2) ≤
        #(threeTiers.selecting #v[2, 7, 1, 0, 0, 0, 0, 0] ⟨List.replicate 16 0, rfl⟩ 0 1) ∧
      #(threeTiers.selecting #v[2, 7, 1, 0, 0, 0, 0, 0] ⟨List.replicate 16 0, rfl⟩ 0 1) ≤
        3 * (2 ^ 64 / 7 + 1) * (2 ^ 64 / 2 + 1) := by
  have hweight : threeTiers.eligibleWeight #v[2, 7, 1, 0, 0, 0, 0, 0] = 7 := by decide +kernel
  have hodds := (@draw_odds threeTiers #v[2, 7, 1, 0, 0, 0, 0, 0] (by decide +kernel)
    (by rw [hweight]; decide)).2.1 ⟨List.replicate 16 0, rfl⟩ 0 1 (by decide +kernel) (by decide +kernel)
  have htier : threeTiers.tiers[(0 : Fin 8)].weight.toNat = 3 := by decide +kernel
  have hcount : (#v[2, 7, 1, 0, 0, 0, 0, 0] : Vector UInt32 8)[(0 : Fin 8)].toNat = 2 := by decide +kernel
  have hzero : UInt8.ofNat ((0 : Fin 8) : ℕ) = 0 := rfl
  rwa [hweight, htier, hcount, hzero] at hodds

end Pool

end SolanaGacha
