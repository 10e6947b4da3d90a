import SolanaGacha.Program.Inventory

/-!
# The bytes of the index, and counting

`Indexed data tags` says what the bytes of an index mean: the tags of the positions issued so far, each
`tier + 1` while the position is available and zero afterwards, and a Fenwick tree over the available
positions of each tier, block by block. The other modules of this folder give every method of
`Inventory` its meaning on the list of tags; here `counts` counts the tags of a prefix (`counts_eq_ok`).
-/

namespace SolanaGacha

open Except Layout Fenwick

namespace Inventory

/-! ## The bytes of an index -/

/-- The tag of an available position of a tier. -/
def tierTag (tier : ℕ) : UInt8 := UInt8.ofNat (tier + 1)

/-- The stored tag of a position; zero behind the data. -/
def tagAt (data : List UInt8) (p : ℕ) : UInt8 := data[tagOffset p]?.getD 0

/-- The stored count of a tier in a node. -/
def nodeAt (data : List UInt8) (k tier : ℕ) : UInt32 := u32.readAt (countOffset k tier) data

/-- Position `p` is available in a tier. -/
abbrev Live (tags : List UInt8) (tier p : ℕ) : Prop := tags.getD p 0 = tierTag tier

/-- The first `m` nodes count the available positions of the blocks that they cover. -/
def NodeCounts (data tags : List UInt8) (m : ℕ) : Prop :=
  ∀ k tier, 0 < k → k ≤ m → tier < 8 →
    (nodeAt data k tier).toNat = nodeSum (blockCount 64 (Live tags tier)) k

/-- The bytes of an index and the tags of the positions issued so far. -/
structure Indexed (data tags : List UInt8) : Prop where
  length : data.length = (tags.length + 63) / 64 * 96
  /-- Positions are `u32`. -/
  small : tags.length < 2 ^ 32
  tag : ∀ p, tagAt data p = tags.getD p 0
  valid : ∀ tag ∈ tags, tag.toNat ≤ 8
  node : NodeCounts data tags ((tags.length + 63) / 64)

/-- The empty index has no positions. -/
theorem indexed_nil : Indexed [] [] where
  length := rfl
  small := by decide
  tag _ := rfl
  valid _ h := absurd h List.not_mem_nil
  node k tier hk hkb _ := by simp only [List.length_nil] at hkb; omega

theorem tierTag_inj {tier tier' : ℕ} (h : tier < 8) (h' : tier' < 8) :
    tierTag tier = tierTag tier' ↔ tier = tier' := by
  rw [tierTag, tierTag, ← UInt8.toNat_inj, UInt8.toNat_ofNat', UInt8.toNat_ofNat']
  omega

theorem tierTag_ne_zero {tier : ℕ} (h : tier < 8) : tierTag tier ≠ 0 := by
  rw [tierTag, Ne, ← UInt8.toNat_inj, UInt8.toNat_ofNat']
  simp only [UInt8.toNat_zero]
  omega

theorem tierTag_toNat {tier : ℕ} (h : tier < 8) : (tierTag tier).toNat = tier + 1 := by
  rw [tierTag, UInt8.toNat_ofNat']
  omega

/-- The tag that the code computes as `tier + 1`. -/
theorem checkedAdd_one_eq {tier : UInt8} (h : tier.toNat < 8) :
    tier.checkedAdd 1 = some (tierTag tier.toNat) := by
  rw [UInt8.checkedAdd_eq_some, tierTag_toNat h]
  rfl

/-- Counting with the list of tags. -/
theorem count_live {tags : List UInt8} {tier : ℕ} (h : tier < 8) (n : ℕ) :
    Nat.count (Live tags tier) n = (tags.take n).count (tierTag tier) := by
  induction n with
  | zero => simp
  | succ n ih =>
    rw [Nat.count_succ, ih, List.take_add_one, List.count_append]
    simp only [Live, List.getD_eq_getElem?_getD]
    have hne := tierTag_ne_zero h
    cases tags[n]? with
    | none => simp [hne.symm]
    | some tag => simp [List.count_singleton, beq_iff_eq]

theorem count_live_le (tags : List UInt8) {tier : ℕ} (h : tier < 8) (n : ℕ) :
    Nat.count (Live tags tier) n ≤ tags.length := by
  rw [count_live h]
  exact List.count_le_length.trans (List.length_take_le' _ _)

/-! ## Fields do not overlap -/

theorem tagOffset_eq (p : ℕ) : tagOffset p = p / 64 * 96 + 32 + p % 64 := rfl

theorem countOffset_eq (k tier : ℕ) : countOffset k tier = (k - 1) * 96 + tier * 4 := rfl

theorem tagOffset_inj {p q : ℕ} : tagOffset p = tagOffset q ↔ p = q := by
  rw [tagOffset_eq, tagOffset_eq]
  omega

/-- A tag lies outside of every count. -/
theorem tagOffset_disjoint (p : ℕ) {k tier : ℕ} (ht : tier < 8) :
    tagOffset p < countOffset k tier ∨ countOffset k tier + 4 ≤ tagOffset p := by
  rw [tagOffset_eq, countOffset_eq]
  omega

/-- Different counts do not overlap. -/
theorem countOffset_disjoint {k k' tier tier' : ℕ} (hk : 0 < k) (hk' : 0 < k') (ht : tier < 8)
    (ht' : tier' < 8) (h : ¬(k = k' ∧ tier = tier')) :
    countOffset k tier + 4 ≤ countOffset k' tier' ∨
      countOffset k' tier' + 4 ≤ countOffset k tier := by
  rw [countOffset_eq, countOffset_eq]
  omega

/-- The bytes of an index are determined by its tags: every byte is one of a tag or one of a count. -/
theorem Indexed.unique {data data' tags : List UInt8} (h : Indexed data tags) (h' : Indexed data' tags) :
    data = data' := by
  have hlen := h.length
  have hlen' := h'.length
  apply List.ext_getElem?
  intro i
  by_cases hi : i < data.length
  · by_cases hcount : i % 96 < 32
    · -- A byte of the count of the tier `i % 96 / 4` in the node of block `i / 96`.
      have hoffset : countOffset (i / 96 + 1) (i % 96 / 4) = i / 96 * 96 + i % 96 / 4 * 4 := rfl
      have hnode : nodeAt data (i / 96 + 1) (i % 96 / 4) = nodeAt data' (i / 96 + 1) (i % 96 / 4) := by
        rw [← UInt32.toNat_inj, h.node _ _ (by omega) (by omega) (by omega),
          h'.node _ _ (by omega) (by omega) (by omega)]
      apply u32.getElem?_eq_of_readAt _ _ hnode
      all_goals
        rw [hoffset]
        try rw [u32_size]
        omega
    · -- The tag of a position of block `i / 96`.
      have hoffset : tagOffset (i / 96 * 64 + (i % 96 - 32)) = i := by
        rw [tagOffset_eq]
        omega
      have htag := (h.tag (i / 96 * 64 + (i % 96 - 32))).trans (h'.tag _).symm
      unfold tagAt at htag
      rw [hoffset, List.getElem?_eq_getElem hi, List.getElem?_eq_getElem (by omega)] at htag
      rw [List.getElem?_eq_getElem hi, List.getElem?_eq_getElem (by omega)]
      exact congrArg some htag
  · rw [List.getElem?_eq_none (by omega), List.getElem?_eq_none (by omega)]

section Write

variable {data : List UInt8} {k tier : ℕ} (hk : 0 < k) (hlen : k * 96 ≤ data.length) (ht : tier < 8)

include hk hlen ht

theorem countOffset_le : countOffset k tier + 4 ≤ data.length := by
  rw [countOffset_eq]
  omega

theorem count_eq_ok : count ⟨data⟩ k tier = .ok (nodeAt data k tier) := by
  have h := countOffset_le hk hlen ht
  rw [count, failIf_neg (by simp only; omega)]
  rfl

theorem setCount_run (c : UInt32) :
    setCount k tier c ⟨data⟩ = (.ok (), ⟨u32.writeAt (countOffset k tier) c data⟩) := by
  have h := countOffset_le hk hlen ht
  have hread : InventoryM.read (fun inventory =>
      failIf (k = 0 ∨ inventory.data.length < countOffset k tier + 4) Fault.panicked) ⟨data⟩ =
        (.ok (), ⟨data⟩) := InventoryM.read_run_ok (failIf_neg (by simp only; omega) _)
  rw [setCount, InventoryM.bind_run_ok hread, InventoryM.modify_run]

theorem length_writeCount (c : UInt32) :
    (u32.writeAt (countOffset k tier) c data).length = data.length :=
  u32.writeAt_length c data (countOffset_le hk hlen ht)

theorem tagAt_writeCount (c : UInt32) (p : ℕ) :
    tagAt (u32.writeAt (countOffset k tier) c data) p = tagAt data p := by
  rw [tagAt, tagAt, u32.getElem?_writeAt c data (countOffset_le hk hlen ht) _
    (tagOffset_disjoint p ht)]

theorem nodeAt_writeCount (c : UInt32) {k' tier' : ℕ} (hk' : 0 < k') (ht' : tier' < 8) :
    nodeAt (u32.writeAt (countOffset k tier) c data) k' tier' =
      if k' = k ∧ tier' = tier then c else nodeAt data k' tier' := by
  have h := countOffset_le hk hlen ht
  split_ifs with heq
  · obtain ⟨rfl, rfl⟩ := heq
    exact u32.readAt_writeAt c data h
  · exact u32.readAt_writeAt_of_disjoint u32 c data h (countOffset_disjoint hk' hk ht' ht heq)

end Write

/-- Writing a tag changes no count. -/
theorem nodeAt_setTag (data : List UInt8) (p : ℕ) (tag : UInt8) (k : ℕ) {tier : ℕ} (ht : tier < 8) :
    nodeAt (data.set (tagOffset p) tag) k tier = nodeAt data k tier :=
  u32.readAt_set_of_disjoint data tag (tagOffset_disjoint p ht)

theorem tagAt_setTag {data : List UInt8} {p : ℕ} (h : tagOffset p < data.length) (tag : UInt8) (q : ℕ) :
    tagAt (data.set (tagOffset p) tag) q = if q = p then tag else tagAt data q := by
  rw [tagAt, List.getElem?_set]
  rcases eq_or_ne q p with rfl | hq
  · simp [h]
  · rw [if_neg (by rwa [tagOffset_inj, eq_comm]), if_neg hq, tagAt]

/-! ## Counting a prefix -/

/-- An array that is computed tier by tier. -/
theorem forTiers_eq_ok {α : Type} {f : ℕ → Except Fault α} {g : ℕ → α}
    (h : ∀ tier, tier < 8 → f tier = .ok (g tier)) : forTiers f = .ok (.ofFn fun tier => g tier) := by
  simp only [forTiers, h 0 (by omega), h 1 (by omega), h 2 (by omega), h 3 (by omega),
    h 4 (by omega), h 5 (by omega), h 6 (by omega), h 7 (by omega), ok_bind]
  rfl

/-- Adding without overflow. -/
theorem checkedAdd_eq {a b : UInt32} (h : a.toNat + b.toNat < 2 ^ 32) : a.checkedAdd b = some (a + b) :=
  if_pos h

section Counts

variable {data tags : List UInt8} {m : ℕ} (hnode : NodeCounts data tags m)
  (hlen : m * 96 ≤ data.length) (hsmall : tags.length < 2 ^ 32)

include hnode hlen hsmall

omit hsmall in
/-- The walk of a prefix sum, from what it has added up so far. -/
theorem prefixCountsLoop_eq_ok (k : ℕ) (hk : k ≤ m) (acc : Vector UInt32 8)
    (hacc : ∀ tier (h : tier < 8), acc[tier].toNat + Nat.count (Live tags tier) (64 * k) < 2 ^ 32) :
    ∃ v, prefixCountsLoop ⟨data⟩ k acc = .ok v ∧ ∀ tier (h : tier < 8),
      v[tier].toNat = acc[tier].toNat + Nat.count (Live tags tier) (64 * k) := by
  induction k using Nat.strong_induction_on generalizing acc with
  | _ k ih =>
    rw [prefixCountsLoop]
    split_ifs with hpos
    swap
    · obtain rfl : k = 0 := by omega
      exact ⟨acc, rfl, by simp⟩
    -- The node `k` is added, and the rest of the walk is the prefix before it.
    have hsplit : ∀ tier, tier < 8 → (nodeAt data k tier).toNat +
        Nat.count (Live tags tier) (64 * parent k) = Nat.count (Live tags tier) (64 * k) := by
      intro tier ht
      rw [hnode k tier hpos hk ht, nodeSum_blockCount 64 _ hpos]
    have hstep : ∀ tier, tier < 8 → (do
        let total ← okOr Fault.panicked acc[tier]?
        let count ← count ⟨data⟩ k tier
        okOr Fault.panicked (total.checkedAdd count)) =
          .ok ((acc[tier]?.getD 0) + nodeAt data k tier) := by
      intro tier ht
      have hfits := hacc tier ht
      have := hsplit tier ht
      rw [Vector.getElem?_eq_getElem ht, count_eq_ok hpos (by omega) ht]
      simp only [okOr, ok_bind, Option.getD_some]
      rw [checkedAdd_eq (by omega)]
    rw [forTiers_eq_ok hstep, ok_bind]
    have hsum : ∀ tier (ht : tier < 8),
        ((Vector.ofFn fun tier : Fin 8 => acc[tier.val]?.getD 0 + nodeAt data k tier)[tier]).toNat =
          acc[tier].toNat + (nodeAt data k tier).toNat := by
      intro tier ht
      have hfits := hacc tier ht
      have := hsplit tier ht
      rw [Vector.getElem_ofFn, Vector.getElem?_eq_getElem ht, Option.getD_some, UInt32.toNat_add]
      dsimp only
      omega
    obtain ⟨v, hv, hcount⟩ := ih (parent k) (parent_lt hpos) ((parent_lt hpos).le.trans hk) _
      (fun tier ht => by
        have hfits := hacc tier ht
        have := hsplit tier ht
        rw [hsum tier ht]
        omega)
    refine ⟨v, hv, fun tier ht => ?_⟩
    have := hsplit tier ht
    rw [hcount tier ht, hsum tier ht]
    omega

/-- `prefix_counts` counts the tags of the first blocks. -/
theorem prefixCounts_eq_ok {k : ℕ} (hk : k ≤ m) :
    ∃ v, prefixCounts ⟨data⟩ k = .ok v ∧ ∀ tier (h : tier < 8),
      v[tier].toNat = Nat.count (Live tags tier) (64 * k) := by
  obtain ⟨v, hv, hcount⟩ := prefixCountsLoop_eq_ok hnode hlen k hk (.replicate 8 0)
    (fun tier ht => by
      have := count_live_le tags ht (64 * k)
      simp only [Vector.getElem_replicate, UInt32.toNat_zero]
      omega)
  exact ⟨v, hv, fun tier ht => by simpa using hcount tier ht⟩

end Counts

/-- The tail of `counts`: adding up the tags of a slice. -/
theorem foldlM_addTag_eq_ok (slice : List UInt8) (hvalid : ∀ tag ∈ slice, tag.toNat ≤ 8)
    (acc : Vector UInt32 8)
    (hacc : ∀ tier (h : tier < 8), acc[tier].toNat + slice.count (tierTag tier) < 2 ^ 32) :
    ∃ v, slice.foldlM addTag acc = .ok v ∧ ∀ tier (h : tier < 8),
      v[tier].toNat = acc[tier].toNat + slice.count (tierTag tier) := by
  induction slice generalizing acc with
  | nil => exact ⟨acc, rfl, by simp⟩
  | cons tag slice ih =>
    have hvalid' : ∀ tag ∈ slice, tag.toNat ≤ 8 := fun t ht => hvalid t (List.mem_cons_of_mem _ ht)
    rw [List.foldlM_cons]
    rcases eq_or_ne tag 0 with rfl | hne
    · have hskip : ∀ tier, tier < 8 → ((0 : UInt8) :: slice).count (tierTag tier) =
          slice.count (tierTag tier) := fun tier ht =>
        List.count_cons_of_ne (tierTag_ne_zero ht).symm
      obtain ⟨v, hv, hcount⟩ := ih hvalid' acc fun tier ht => by
        have := hacc tier ht
        rwa [hskip tier ht] at this
      refine ⟨v, ?_, fun tier ht => ?_⟩
      · rw [addTag, if_pos rfl]
        exact hv
      · rw [hcount tier ht, hskip tier ht]
    · -- A tag that is not zero names the tier one below it.
      have htag := hvalid tag List.mem_cons_self
      have hpos : 0 < tag.toNat := Nat.pos_of_ne_zero fun h => hne (UInt8.toNat.inj (by simpa using h))
      have hown : tag.toNat - 1 < 8 := by omega
      have heq : tierTag (tag.toNat - 1) = tag := by
        rw [← UInt8.toNat_inj, tierTag_toNat hown]
        omega
      have hcons : ∀ tier, tier < 8 → (tag :: slice).count (tierTag tier) =
          slice.count (tierTag tier) + if tier = tag.toNat - 1 then 1 else 0 := by
        intro tier ht
        rw [List.count_cons]
        congr 1
        simp only [beq_iff_eq]
        refine if_congr ⟨fun h => ?_, fun h => ?_⟩ rfl rfl
        · rw [← heq, eq_comm] at h
          exact (tierTag_inj ht hown).mp h
        · rw [h, heq]
      have hadd : addTag acc tag =
          .ok (acc.setIfInBounds (tag.toNat - 1) (acc[tag.toNat - 1] + 1)) := by
        have := hacc (tag.toNat - 1) hown
        rw [hcons _ hown, if_pos rfl] at this
        rw [addTag, if_neg hne, Vector.getElem?_eq_getElem hown]
        simp only [okOr, ok_bind]
        rw [checkedAdd_eq (by simp only [UInt32.toNat_one]; omega)]
        rfl
      have hset : ∀ tier (ht : tier < 8),
          ((acc.setIfInBounds (tag.toNat - 1) (acc[tag.toNat - 1] + 1))[tier]).toNat =
            acc[tier].toNat + if tier = tag.toNat - 1 then 1 else 0 := by
        intro tier ht
        rw [Vector.getElem_setIfInBounds ht]
        split_ifs with h1 h2 h2
        · subst h2
          have := hacc _ ht
          rw [hcons _ ht, if_pos rfl] at this
          rw [UInt32.toNat_add, UInt32.toNat_one]
          omega
        · omega
        · omega
        · omega
      rw [hadd, ok_bind]
      obtain ⟨v, hv, hcount⟩ := ih hvalid' _ fun tier ht => by
        have := hacc tier ht
        rw [hcons tier ht] at this
        rw [hset tier ht]
        omega
      refine ⟨v, hv, fun tier ht => ?_⟩
      rw [hcount tier ht, hset tier ht, hcons tier ht]
      omega

/-- The tags of a block, as a slice of the data: behind the last position they are zero. -/
theorem tags_slice {data tags : List UInt8} (htag : ∀ p, tagAt data p = tags.getD p 0) {b j : ℕ}
    (hj : j ≤ 64) (hlen : b * 96 + 32 + j ≤ data.length) :
    (data.drop (b * 96 + 32)).take j = (tags.drop (64 * b) ++ List.replicate j 0).take j := by
  apply List.ext_getElem?
  intro i
  by_cases hi : i < j
  swap
  · simp [hi]
  have hoff : tagOffset (64 * b + i) = b * 96 + 32 + i := by
    rw [tagOffset_eq]
    omega
  have h := htag (64 * b + i)
  rw [tagAt, hoff, List.getElem?_eq_getElem (by omega), Option.getD_some,
    List.getD_eq_getElem?_getD] at h
  rw [List.getElem?_take_of_lt hi, List.getElem?_take_of_lt hi, List.getElem?_drop,
    List.getElem?_eq_getElem (by omega), h]
  rcases Nat.lt_or_ge (64 * b + i) tags.length with hlt | hge
  · rw [List.getElem?_append_left (by rw [List.length_drop]; omega), List.getElem?_drop,
      List.getElem?_eq_getElem hlt, Option.getD_some]
  · rw [List.getElem?_append_right (by rw [List.length_drop]; omega),
      List.getElem?_replicate_of_lt (by rw [List.length_drop]; omega),
      List.getElem?_eq_none hge, Option.getD_none]

/-- `counts`, with the sizes of a block. -/
theorem counts_eq (data : List UInt8) (cutoff : UInt32) : counts ⟨data⟩ cutoff = (do
    let counts ← prefixCounts ⟨data⟩ (cutoff.toNat / 64)
    if cutoff.toNat % 64 > 0 then do
      failIf (data.length < cutoff.toNat / 64 * 96 + 32 + cutoff.toNat % 64) Fault.panicked
      ((data.drop (cutoff.toNat / 64 * 96 + 32)).take (cutoff.toNat % 64)).foldlM addTag counts
    else return counts) := rfl

/-- `counts` counts the tags of a prefix. -/
theorem counts_eq_ok {data tags : List UInt8} (h : Indexed data tags) {cutoff : UInt32}
    (hcut : cutoff.toNat ≤ tags.length) :
    ∃ v, counts ⟨data⟩ cutoff = .ok v ∧ ∀ tier (_ : tier < 8),
      v[tier].toNat = (tags.take cutoff.toNat).count (tierTag tier) := by
  have hlen := h.length
  obtain ⟨v, hv, hcount⟩ := prefixCounts_eq_ok h.node (by omega) h.small
    (k := cutoff.toNat / 64) (by omega)
  have htake : tags.take cutoff.toNat = tags.take (64 * (cutoff.toNat / 64)) ++
      (tags.drop (64 * (cutoff.toNat / 64))).take (cutoff.toNat % 64) := by
    rw [← List.take_add, Nat.div_add_mod]
  have hvalid : ∀ tag ∈ (tags.drop (64 * (cutoff.toNat / 64))).take (cutoff.toNat % 64),
      tag.toNat ≤ 8 := fun tag ht => h.valid tag (List.mem_of_mem_drop (List.mem_of_mem_take ht))
  have hfits : ∀ tier (_ : tier < 8), v[tier].toNat +
      ((tags.drop (64 * (cutoff.toNat / 64))).take (cutoff.toNat % 64)).count (tierTag tier) =
        (tags.take cutoff.toNat).count (tierTag tier) := by
    intro tier ht
    rw [hcount tier ht, count_live ht, ← List.count_append, ← htake]
  rw [counts_eq, hv, ok_bind]
  by_cases htail : cutoff.toNat % 64 > 0
  · have hslice := tags_slice h.tag (b := cutoff.toNat / 64) (j := cutoff.toNat % 64) (by omega)
      (by omega)
    rw [List.take_append_of_le_length (by rw [List.length_drop]; omega)] at hslice
    rw [if_pos htail, failIf_neg (by omega), ok_bind, hslice]
    obtain ⟨v', hv', hcount'⟩ := foldlM_addTag_eq_ok _ hvalid v fun tier ht => by
      have hle := List.count_le_length (l := tags.take cutoff.toNat) (a := tierTag tier)
      have := h.small
      rw [hfits tier ht]
      rw [List.length_take] at hle
      omega
    exact ⟨v', hv', fun tier ht => by rw [hcount' tier ht, hfits tier ht]⟩
  · refine ⟨v, if_neg htail, fun tier ht => ?_⟩
    have := hfits tier ht
    rw [show cutoff.toNat % 64 = 0 by omega, List.take_zero, List.count_nil, add_zero] at this
    exact this

end Inventory

end SolanaGacha
