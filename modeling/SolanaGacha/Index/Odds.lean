import Mathlib.Data.Fin.Tuple.Finset
import SolanaGacha.Core.Odds
import SolanaGacha.Index.Selection

/-!
# The odds of a whole pull

The draws of a pull are made without replacement: each clears the position that it selects, and the next one
is a draw from what is left. `Pool.selections` makes them from a list of hashes. A list of draws is selected
by the hashes whose words select it draw by draw, so the sequences of pairs of words that select it are
counted by the product of the counts of its draws (`Pool.card_paying`), each of them in the stock that its
predecessors leave.
-/

namespace SolanaGacha

open Except Layout Finset Inventory

namespace Pool

/-- The tiers and positions that draws with some hashes select from a list of tags, one after the other. -/
def selections (pool : Pool) : List (FixedBytes 32) → List UInt8 → Except Fault (List (UInt8 × ℕ))
  | [], _ => return []
  | hash :: hashes, tags => do
    let (tier, rank) ← pool.draw hash (tally tags)
    let position ← okOr .panicked (tags.idxsOf (tierTag tier.toNat))[rank.toNat]?
    let rest ← pool.selections hashes (tags.set position 0)
    return (tier, position) :: rest

/-- The configured weight of a tier. -/
def weightOf (pool : Pool) (tier : UInt8) : ℕ :=
  (pool.tiers[tier.toNat]?.map fun t => t.weight.toNat).getD 0

/-- The number of sequences of words that select some draws, when every quotient is `slack` too small: the
weight of each tier over the weight of those that are left, and one of the candidates that are left in it. -/
def odds (pool : Pool) (slack : ℕ) : List UInt8 → List (UInt8 × ℕ) → ℕ
  | _, [] => 1
  | tags, (tier, position) :: draws =>
    pool.weightOf tier * (2 ^ 64 / pool.eligibleWeight (tally tags) + slack) *
      (2 ^ 64 / tags.count (tierTag tier.toNat) + slack) * pool.odds slack (tags.set position 0) draws

/-- All pairs of words. -/
@[irreducible]
def wordPairs : Finset (ℕ × ℕ) := range (2 ^ 64) ×ˢ range (2 ^ 64)

/-- The sequences of pairs of words that select some draws, for hashes with the given unread bytes. -/
def paying (pool : Pool) (tags : List UInt8) {n : ℕ} (rest : Fin n → FixedBytes 16)
    (draws : List (UInt8 × ℕ)) : Finset (Fin n → ℕ × ℕ) :=
  {x ∈ Fintype.piFinset fun _ => wordPairs |
    pool.selections (List.ofFn fun i => hashOf (x i).1 (x i).2 (rest i)) tags = .ok draws}

/-- The two words of a hash that a draw reads. -/
def wordsOf (hash : FixedBytes 32) : ℕ × ℕ := ((u64.readAt 0 hash.val).toNat, (u64.readAt 8 hash.val).toNat)

/-- The bytes of a hash that no draw reads. -/
def unreadOf (hash : FixedBytes 32) : FixedBytes 16 :=
  ⟨hash.val.drop 16, by rw [List.length_drop, hash.length_val]⟩

/-- Draws that a list of tags offers: of different positions, each available in its tier. -/
structure Offers (pool : Pool) (tags : List UInt8) (draws : List (UInt8 × ℕ)) : Prop where
  nodup : (draws.map Prod.snd).Nodup
  tier : ∀ d ∈ draws, d.1.toNat < pool.tierCount.toNat
  live : ∀ d ∈ draws, Live tags d.1.toNat d.2

/-! ## Words -/

/-- A hash from its words and the other bytes. -/
theorem hashOf_wordsOf (hash : FixedBytes 32) :
    hashOf (wordsOf hash).1 (wordsOf hash).2 (unreadOf hash) = hash := by
  have hlen := hash.length_val
  have hfirst := u64.encode_decode (hash.val.drop 0) (by rw [List.length_drop, hlen]; decide)
  have hnext := u64.encode_decode (hash.val.drop 8) (by rw [List.length_drop, hlen]; decide)
  have hsplit : (hash.val.drop 8).take 8 ++ hash.val.drop 16 = hash.val.drop 8 := by
    rw [show hash.val.drop 16 = (hash.val.drop 8).drop 8 by rw [List.drop_drop], List.take_append_drop]
  apply Subtype.ext
  unfold hashOf wordsOf unreadOf readAt
  dsimp only
  rw [UInt64.ofNat_toNat, UInt64.ofNat_toNat, hfirst, hnext, List.append_assoc, u64_size, hsplit,
    List.drop_zero, List.take_append_drop]

theorem wordsOf_mem (hash : FixedBytes 32) : wordsOf hash ∈ wordPairs := by
  unfold wordPairs wordsOf
  rw [mem_product, mem_range, mem_range]
  exact ⟨UInt64.toNat_lt _, UInt64.toNat_lt _⟩

/-- The words of some hashes pay the draws that the hashes select. -/
theorem mem_paying_wordsOf {pool : Pool} {tags : List UInt8} {draws : List (UInt8 × ℕ)} {n : ℕ}
    (hashes : Fin n → FixedBytes 32) :
    (fun i => wordsOf (hashes i)) ∈ pool.paying tags (fun i => unreadOf (hashes i)) draws ↔
      pool.selections (List.ofFn hashes) tags = .ok draws := by
  unfold paying
  simp only [mem_filter, Fintype.mem_piFinset, wordsOf_mem, implies_true, true_and, hashOf_wordsOf]

/-! ## One draw -/

section Draw

variable {pool : Pool} {remaining : Vector UInt32 8} (hcount : pool.tierCount.toNat ≤ 8)

theorem weightOf_eq {tier : UInt8} (htier : tier.toNat < 8) :
    pool.weightOf tier = pool.tiers[tier.toNat].weight.toNat := by
  unfold weightOf
  rw [Vector.getElem?_eq_getElem htier]
  rfl

/-- An eligible tier with a positive weight counts. -/
theorem eligibleWeight_pos {t : Fin 8} (heligible : pool.Eligible remaining t)
    (hweight : pool.tiers[t].weight ≠ 0) : 0 < pool.eligibleWeight remaining := by
  have hpos : 0 < pool.tiers[t].weight.toNat :=
    UInt32.lt_iff_toNat_lt.mp (UInt32.pos_iff_ne_zero.mpr hweight)
  unfold eligibleWeight
  calc 0 < pool.tiers[t].weight.toNat := hpos
    _ ≤ ∑ t with pool.Eligible remaining t, pool.tiers[t].weight.toNat :=
      single_le_sum (f := fun t : Fin 8 => pool.tiers[t].weight.toNat) (fun _ _ => Nat.zero_le _)
        (mem_filter.mpr ⟨mem_univ t, heligible⟩)

include hcount

/-- How many pairs of words select a candidate. -/
theorem card_selecting {t : Fin 8} {rank : UInt32} (heligible : pool.Eligible remaining t)
    (hweight : pool.tiers[t].weight ≠ 0) (hrank : rank < remaining[t]) (rest : FixedBytes 16) :
    pool.tiers[t].weight.toNat * (2 ^ 64 / pool.eligibleWeight remaining) * (2 ^ 64 / remaining[t].toNat) ≤
        #(pool.selecting remaining rest (UInt8.ofNat t) rank) ∧
      #(pool.selecting remaining rest (UInt8.ofNat t) rank) ≤
        pool.tiers[t].weight.toNat * (2 ^ 64 / pool.eligibleWeight remaining + 1) *
          (2 ^ 64 / remaining[t].toNat + 1) := by
  have hpos := eligibleWeight_pos heligible hweight
  have htotal := eligibleWeight_eq pool remaining
  have hshare : (shares (pool.tiers.toList.take pool.tierCount.toNat) remaining.toList)[t.val]? =
      some pool.tiers[t].weight.toNat := by
    rw [shares_getElem?, if_pos heligible.1, if_neg (UInt32.pos_iff_ne_zero.mp heligible.2)]
  have hselecting : pool.selecting remaining rest (UInt8.ofNat t) rank =
      {x ∈ range (2 ^ 64) ×ˢ range (2 ^ 64) |
        Odds.select (shares (pool.tiers.toList.take pool.tierCount.toNat) remaining.toList)
          (x.1 % pool.eligibleWeight remaining) = some t.val ∧ x.2 % remaining[t].toNat = rank.toNat} := by
    unfold selecting
    apply filter_congr
    simp only [mem_product, mem_range, and_imp]
    intro x hx hx'
    obtain ⟨hfirst, hnext⟩ := readAt_hashOf hx hx' rest
    rw [draw_eq_ok_iff hcount hpos, hfirst, hnext]
  rw [hselecting, htotal]
  exact Odds.card_select (2 ^ 64) hshare (UInt32.lt_iff_toNat_lt.mp hrank)

end Draw

/-! ## Draw by draw -/

section Pull

variable {pool : Pool} {tags : List UInt8} {draws : List (UInt8 × ℕ)}

/-- One draw, and the rest of them. -/
theorem selections_cons_eq_ok {hash : FixedBytes 32} {hashes : List (FixedBytes 32)} {tier : UInt8} {p : ℕ}
    (hlive : Live tags tier.toNat p) (htier : tier.toNat < 8) (hsmall : tags.length < 2 ^ 32) :
    pool.selections (hash :: hashes) tags = .ok ((tier, p) :: draws) ↔
      pool.draw hash (tally tags) =
          .ok (tier, UInt32.ofNat ((tags.take p).count (tierTag tier.toNat))) ∧
        pool.selections hashes (tags.set p 0) = .ok draws := by
  have hlt := lt_length_of_live htier hlive
  have hget : tags[p]? = some (tierTag tier.toNat) := by
    rw [Live, List.getD_eq_getElem?_getD, List.getElem?_eq_getElem hlt, Option.getD_some] at hlive
    rw [List.getElem?_eq_getElem hlt, hlive]
  -- The rank of the position fits a word.
  have hfits : (UInt32.ofNat ((tags.take p).count (tierTag tier.toNat))).toNat =
      (tags.take p).count (tierTag tier.toNat) := by
    apply UInt32.toNat_ofNat_of_lt'
    have hle := List.count_le_length (l := tags.take p) (a := tierTag tier.toNat)
    rw [List.length_take] at hle
    show _ < 2 ^ 32
    omega
  rw [selections]
  simp only [bind_eq_ok, okOr_eq_ok, pure_eq_ok, Prod.exists, List.cons.injEq, Prod.mk.injEq]
  constructor
  · rintro ⟨tier', rank, hdraw, position, hposition, rest, hrest, ⟨rfl, rfl⟩, rfl⟩
    obtain ⟨-, hrank⟩ := getElem?_idxsOf.mp hposition
    rw [hrank, UInt32.ofNat_toNat]
    exact ⟨hdraw, hrest⟩
  · rintro ⟨hdraw, hrest⟩
    refine ⟨tier, _, hdraw, p, getElem?_idxsOf.mpr ⟨hget, hfits.symm⟩, draws, hrest, ⟨rfl, rfl⟩, rfl⟩

/-- What is offered after a draw: its position is cleared, and the later ones are others. -/
theorem Offers.tail {d : UInt8 × ℕ} (h : pool.Offers tags (d :: draws)) (hcount : pool.tierCount.toNat ≤ 8) :
    pool.Offers (tags.set d.2 0) draws where
  nodup := (List.nodup_cons.mp h.nodup).2
  tier d' hd' := h.tier d' (List.mem_cons_of_mem _ hd')
  live d' hd' := by
    have hd8 : d.1.toNat < 8 := (h.tier d List.mem_cons_self).trans_le hcount
    have hlt := lt_length_of_live hd8 (h.live d List.mem_cons_self)
    have hne : d'.2 ≠ d.2 := by
      intro heq
      exact (List.nodup_cons.mp h.nodup).1 (heq ▸ List.mem_map_of_mem hd')
    unfold Live
    rw [getD_clear hlt, if_neg hne]
    exact h.live d' (List.mem_cons_of_mem _ hd')

/-- The words of the first hash select the first draw, and those of the others the rest. -/
theorem paying_cons {n : ℕ} {rest : Fin (n + 1) → FixedBytes 16} {tier : UInt8} {p : ℕ}
    (hlive : Live tags tier.toNat p) (htier : tier.toNat < 8) (hsmall : tags.length < 2 ^ 32) :
    #(pool.paying tags rest ((tier, p) :: draws)) =
      #(pool.selecting (tally tags) (rest 0) tier
        (UInt32.ofNat ((tags.take p).count (tierTag tier.toNat)))) *
        #(pool.paying (tags.set p 0) (Fin.tail rest) draws) := by
  have hcard := card_consEquiv_filter_piFinset
    (Fin.cons (α := fun _ => Finset (ℕ × ℕ))
      (pool.selecting (tally tags) (rest 0) tier (UInt32.ofNat ((tags.take p).count (tierTag tier.toNat))))
      fun _ : Fin n => wordPairs)
    fun x => pool.selections (List.ofFn fun i => hashOf (x i).1 (x i).2 (Fin.tail rest i)) (tags.set p 0) =
      .ok draws
  rw [Fin.cons_zero, Fin.tail_cons] at hcard
  have hselecting : ∀ {x}, x ∈ pool.selecting (tally tags) (rest 0) tier
      (UInt32.ofNat ((tags.take p).count (tierTag tier.toNat))) ↔ x ∈ wordPairs ∧
        pool.draw (hashOf x.1 x.2 (rest 0)) (tally tags) =
          .ok (tier, UInt32.ofNat ((tags.take p).count (tierTag tier.toNat))) := by
    unfold selecting wordPairs
    exact mem_filter
  unfold paying
  rw [← hcard]
  congr 1
  ext x
  rw [mem_filter, mem_filter, Fin.mem_piFinset_iff_zero_tail, Fin.mem_piFinset_iff_zero_tail,
    Fin.cons_zero, Fin.tail_cons, hselecting, List.ofFn_succ, selections_cons_eq_ok hlive htier hsmall]
  constructor
  · rintro ⟨⟨hzero, htail⟩, hdraw, hrest⟩
    exact ⟨⟨⟨hzero, hdraw⟩, htail⟩, hrest⟩
  · rintro ⟨⟨⟨hzero, hdraw⟩, htail⟩, hrest⟩
    exact ⟨⟨hzero, htail⟩, hdraw, hrest⟩

/-- The sequences of words that select some draws from a stock are counted by the product of the shares of
the draws, each in the stock that is left for it, up to the bias of the remainders. -/
theorem card_paying (hcount : pool.tierCount.toNat ≤ 8)
    (hweights : ∀ tier ∈ pool.tiers.toList.take pool.tierCount.toNat, tier.weight ≠ 0)
    (hsmall : tags.length < 2 ^ 32) (hoffers : pool.Offers tags draws) {n : ℕ} (hn : draws.length = n)
    (rest : Fin n → FixedBytes 16) :
    pool.odds 0 tags draws ≤ #(pool.paying tags rest draws) ∧
      #(pool.paying tags rest draws) ≤ pool.odds 1 tags draws := by
  induction draws generalizing tags n with
  | nil =>
    obtain rfl : 0 = n := hn
    have hall : pool.paying tags rest [] = Fintype.piFinset fun _ => wordPairs := by
      unfold paying
      apply filter_true_of_mem
      exact fun x _ => rfl
    rw [hall, Fintype.card_piFinset, prod_of_isEmpty]
    exact ⟨le_rfl, le_rfl⟩
  | cons d draws ih =>
    obtain ⟨tier, p⟩ := d
    obtain ⟨n, rfl⟩ : ∃ m, n = m + 1 := ⟨draws.length, hn.symm⟩
    have hlt : tier.toNat < pool.tierCount.toNat := hoffers.tier _ List.mem_cons_self
    have htier : tier.toNat < 8 := hlt.trans_le hcount
    have hlive : Live tags tier.toNat p := hoffers.live _ List.mem_cons_self
    -- The tier has a candidate left, namely the position, so it is eligible, and the rank is in range.
    have htally : (tally tags)[tier.toNat].toNat = tags.count (tierTag tier.toNat) :=
      getElem_tally hsmall htier
    obtain ⟨hget, hrank⟩ : tags[p]? = some (tierTag tier.toNat) ∧
        (tags.take p).count (tierTag tier.toNat) < tags.count (tierTag tier.toNat) := by
      have hp := lt_length_of_live htier hlive
      rw [Live, List.getD_eq_getElem?_getD, List.getElem?_eq_getElem hp, Option.getD_some] at hlive
      refine ⟨by rw [List.getElem?_eq_getElem hp, hlive], ?_⟩
      calc (tags.take p).count (tierTag tier.toNat)
          < (tags.take (p + 1)).count (tierTag tier.toNat) := by
            rw [List.take_succ_eq_append_getElem hp, List.count_append, hlive]
            simp
        _ ≤ tags.count (tierTag tier.toNat) := (List.take_sublist _ _).count_le _
    have hword : UInt32.ofNat ((tags.take p).count (tierTag tier.toNat)) < (tally tags)[tier.toNat] := by
      apply UInt32.lt_iff_toNat_lt.mpr
      have hbound := (tally tags)[tier.toNat].toNat_lt
      rw [htally] at hbound ⊢
      rwa [UInt32.toNat_ofNat_of_lt' (hrank.trans hbound)]
    have heligible : pool.Eligible (tally tags) ⟨tier.toNat, htier⟩ :=
      ⟨hlt, UInt32.lt_of_le_of_lt UInt32.zero_le hword⟩
    have hweight : pool.tiers[(⟨tier.toNat, htier⟩ : Fin 8)].weight ≠ 0 := by
      apply hweights
      rw [List.mem_take_iff_getElem]
      exact ⟨tier.toNat, by rw [Vector.length_toList]; omega, by rw [Vector.getElem_toList]; rfl⟩
    obtain ⟨hlow, hhigh⟩ := card_selecting hcount heligible hweight hword (rest 0)
    obtain ⟨hlow', hhigh'⟩ := ih (List.length_set.trans_lt hsmall)
      (hoffers.tail hcount) (Nat.succ.inj hn) (Fin.tail rest)
    have hofNat : UInt8.ofNat tier.toNat = tier := UInt8.ofNat_toNat
    simp only [hofNat] at hlow hhigh
    rw [paying_cons hlive htier hsmall]
    unfold odds
    rw [weightOf_eq htier, ← htally]
    exact ⟨Nat.mul_le_mul hlow hlow', Nat.mul_le_mul hhigh hhigh'⟩

end Pull

end Pool

/-! ## The draws of a settlement -/

/-- The draws of an output are those of its hashes. -/
theorem Runtime.selections_eq (rt : Runtime) (pool : Pool) (beta : FixedBytes 64) (tags : List UInt8) (i n : ℕ) :
    rt.selections pool beta tags i n =
      pool.selections (List.ofFn fun j : Fin n => rt.sha256 (beta.val ++ [UInt8.ofNat (i + j)])) tags := by
  induction n generalizing tags i with
  | zero => rfl
  | succ n ih =>
    have hshift : ∀ j : Fin n, i + 1 + j.val = i + j.succ.val := by
      intro j
      rw [Fin.val_succ]
      omega
    rw [List.ofFn_succ]
    unfold selections Pool.selections
    simp only [ih, hshift, Fin.val_zero, Nat.add_zero]

end SolanaGacha
