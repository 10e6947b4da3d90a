import SolanaGacha.Index.Counts

/-!
# Append and remove

Both walk over the nodes that cover one block, and `updateLoop_run` shows that the walk changes exactly
those. So `append` adds a tag, with a new block's node computed from two older prefixes (`append_run`),
and `remove` clears one that is there (`remove_run`).
-/

namespace SolanaGacha

open Except Layout Fenwick

namespace Inventory

/-! ## The walk over the covering nodes -/

/-- The low bit that the code computes on 64-bit words. -/
theorem lowBit_eq {node : ℕ} (hpos : 0 < node) (h : node < 2 ^ 64) : lowBit node = width node :=
  land_neg 64 hpos h

/-- The walk from node `x` changes the count of a tier by `f` in the nodes whose range holds `x - 1`,
and nothing else. -/
theorem updateLoop_run {f : UInt32 → Option UInt32} {e : Fault} {tier : ℕ} (ht : tier < 8)
    (blocks : ℕ) (hblocks : blocks < 2 ^ 63) (g : ℕ → UInt32) (x : ℕ) (hx : 0 < x) (data : List UInt8)
    (hlen : blocks * 96 ≤ data.length)
    (hf : ∀ k, parent k < x → x ≤ k → k ≤ blocks → f (nodeAt data k tier) = some (g k)) :
    ∃ data', updateLoop f e tier blocks x ⟨data⟩ = (.ok (), ⟨data'⟩) ∧
      data'.length = data.length ∧ (∀ p, tagAt data' p = tagAt data p) ∧
      ∀ k tier', 0 < k → k ≤ blocks → tier' < 8 → nodeAt data' k tier' =
        if tier' = tier ∧ parent k < x ∧ x ≤ k then g k else nodeAt data k tier' := by
  generalize hgap : blocks + 1 - x = gap
  induction gap using Nat.strong_induction_on generalizing x data with
  | _ gap ih =>
    rw [updateLoop]
    by_cases hle : x ≤ blocks
    swap
    · refine ⟨data, by rw [if_neg hle]; rfl, rfl, fun _ => rfl, fun k tier' hk hkb ht' => ?_⟩
      rw [if_neg (by omega)]
    have hbit : lowBit x = width x := lowBit_eq hx (by omega)
    have hnext : x + lowBit x = next x := by rw [hbit, next]
    have hlt := lt_next hx
    have hxlen : x * 96 ≤ data.length := by omega
    -- The first node is written, and the walk goes on from the next covering node.
    have hread : InventoryM.read (fun inventory => count inventory x tier) ⟨data⟩ =
        (.ok (nodeAt data x tier), ⟨data⟩) := InventoryM.read_run_ok (count_eq_ok hx hxlen ht)
    have hcalc : InventoryM.read (fun _ => okOr e (f (nodeAt data x tier))) ⟨data⟩ =
        (.ok (g x), ⟨data⟩) := by
      apply InventoryM.read_run_ok
      rw [hf x (parent_lt hx) le_rfl hle, okOr]
    rw [if_pos hle, InventoryM.bind_run_ok hread, InventoryM.bind_run_ok hcalc,
      InventoryM.bind_run_ok (setCount_run hx hxlen ht (g x)),
      if_pos (by rw [hbit]; exact width_pos hx), hnext]
    have hcovers : ∀ k, (parent k < x ∧ x ≤ k) ↔ k = x ∨ (parent k < next x ∧ next x ≤ k) :=
      fun k => covers_iff_next hx
    obtain ⟨data', hrun, hlen', htag', hnode'⟩ := ih (blocks + 1 - next x) (by omega) (next x)
      (by omega) (u32.writeAt (countOffset x tier) (g x) data)
      (by rw [length_writeCount hx hxlen ht]; omega)
      (fun k h1 h2 h3 => by
        rw [nodeAt_writeCount hx hxlen ht (g x) (by omega) ht, if_neg (by omega)]
        exact hf k ((hcovers k).mpr (.inr ⟨h1, h2⟩)).1 ((hcovers k).mpr (.inr ⟨h1, h2⟩)).2 h3)
      rfl
    refine ⟨data', hrun, by rw [hlen', length_writeCount hx hxlen ht],
      fun p => by rw [htag', tagAt_writeCount hx hxlen ht], fun k tier' hk hkb ht' => ?_⟩
    rw [hnode' k tier' hk hkb ht', nodeAt_writeCount hx hxlen ht (g x) hk ht']
    simp only [hcovers k]
    split_ifs with h1 h2 h3 h3 h4
    · rfl
    · omega
    · rw [show k = x by omega]
    · omega
    · omega
    · rfl

/-! ## Append -/

/-- Which positions are available once one more is. -/
theorem live_append_iff {tags : List UInt8} {tier tier' : ℕ} (p : ℕ) :
    Live (tags ++ [tierTag tier]) tier' p ↔
      if p = tags.length then tierTag tier = tierTag tier' else Live tags tier' p := by
  rw [Live, Live, List.getD_eq_getElem?_getD, List.getD_eq_getElem?_getD]
  rcases lt_trichotomy p tags.length with hlt | rfl | hgt
  · rw [List.getElem?_append_left hlt, if_neg (by omega)]
  · rw [List.getElem?_append_right le_rfl, if_pos rfl]
    simp
  · rw [List.getElem?_eq_none (by simp; omega), List.getElem?_eq_none (by omega),
      if_neg (by omega)]

/-- One more position changes the counts of its tier in the nodes that cover its block. -/
theorem nodeSum_append {tags : List UInt8} {tier tier' : ℕ} (ht : tier < 8) (ht' : tier' < 8) (k : ℕ) :
    nodeSum (blockCount 64 (Live (tags ++ [tierTag tier]) tier')) k =
      nodeSum (blockCount 64 (Live tags tier')) k +
        if tier' = tier ∧ Covers k (tags.length / 64) then 1 else 0 := by
  rcases eq_or_ne tier' tier with rfl | hne
  · have hfresh : ¬Live tags tier' tags.length := by
      simpa [Live] using (tierTag_ne_zero ht').symm
    rw [nodeSum_insert (by omega) hfresh ((live_append_iff _).mpr (by simp))
      fun p hp => by rw [live_append_iff, if_neg hp]]
    simp
  · have hsame : ∀ p, Live (tags ++ [tierTag tier]) tier' p ↔ Live tags tier' p := by
      intro p
      rw [live_append_iff]
      split_ifs with hp
      · subst hp
        have h1 : tierTag tier ≠ tierTag tier' := fun h => hne ((tierTag_inj ht ht').mp h).symm
        have h2 := (tierTag_ne_zero ht').symm
        simp [Live, h1, h2]
      · rfl
    rw [if_neg (by tauto), add_zero, blockCount_congr 64 hsame]

/-- The counts of a new node, from the prefixes at its two ends. -/
theorem initNode_run {node : ℕ} (hnode : 0 < node) (newest oldest : Vector UInt32 8)
    (hle : ∀ tier (h : tier < 8), oldest[tier].toNat ≤ newest[tier].toNat) (tiers : List ℕ)
    (htiers : ∀ tier ∈ tiers, tier < 8) (data : List UInt8) (hlen : node * 96 ≤ data.length) :
    ∃ data', initNode node newest oldest tiers ⟨data⟩ = (.ok (), ⟨data'⟩) ∧
      data'.length = data.length ∧ (∀ p, tagAt data' p = tagAt data p) ∧
      ∀ k tier (h : tier < 8), 0 < k → nodeAt data' k tier =
        if k = node ∧ tier ∈ tiers then newest[tier] - oldest[tier] else nodeAt data k tier := by
  induction tiers generalizing data with
  | nil => exact ⟨data, rfl, rfl, fun _ => rfl, fun k tier h hk => by simp⟩
  | cons tier tiers ih =>
    have ht := htiers tier List.mem_cons_self
    have hcalc : InventoryM.read (fun _ => do
        let newer ← okOr Fault.panicked newest[tier]?
        let older ← okOr Fault.panicked oldest[tier]?
        okOr Fault.panicked (newer.checkedSub older)) ⟨data⟩ =
          (.ok (newest[tier] - oldest[tier]), ⟨data⟩) := by
      apply InventoryM.read_run_ok
      rw [Vector.getElem?_eq_getElem ht, Vector.getElem?_eq_getElem ht]
      simp only [okOr, ok_bind, UInt32.checkedSub, if_pos (hle tier ht)]
    rw [initNode, InventoryM.bind_run_ok hcalc,
      InventoryM.bind_run_ok (setCount_run hnode hlen ht _)]
    obtain ⟨data', hrun, hlen', htag', hnode'⟩ := ih
      (fun t h => htiers t (List.mem_cons_of_mem _ h))
      (u32.writeAt (countOffset node tier) (newest[tier] - oldest[tier]) data)
      (by rw [length_writeCount hnode hlen ht]; exact hlen)
    refine ⟨data', hrun, by rw [hlen', length_writeCount hnode hlen ht],
      fun p => by rw [htag', tagAt_writeCount hnode hlen ht], fun k tier' ht' hk => ?_⟩
    rw [hnode' k tier' ht' hk, nodeAt_writeCount hnode hlen ht _ hk ht']
    simp only [List.mem_cons]
    split_ifs with h1 h2 h2 h3 h3
    · rfl
    · exact absurd ⟨h1.1, .inr h1.2⟩ h2
    · obtain ⟨-, rfl⟩ := h2
      rfl
    · exact absurd ⟨h2.1, .inl h2.2⟩ h3
    · exact absurd h3 (by tauto)
    · rfl

theorem nodeSum_le (tags : List UInt8) {tier k : ℕ} (ht : tier < 8) (hk : 0 < k) :
    nodeSum (blockCount 64 (Live tags tier)) k ≤ tags.length := by
  have h := nodeSum_blockCount 64 (Live tags tier) hk
  have hle := count_live_le tags ht (64 * k)
  omega

/-- Zero bytes behind the data are tags of positions that were not issued. -/
theorem tagAt_append_zeros (data : List UInt8) (j p : ℕ) :
    tagAt (data ++ List.replicate j 0) p = tagAt data p := by
  rw [tagAt, tagAt]
  rcases Nat.lt_or_ge (tagOffset p) data.length with hlt | hge
  · rw [List.getElem?_append_left hlt]
  · rw [List.getElem?_append_right hge, List.getElem?_eq_none hge, List.getElem?_replicate]
    split_ifs <;> rfl

/-- A position that opens a block computes the node of that block, and any other changes nothing. -/
theorem openBlock_run {data tags : List UInt8} (htag : ∀ p, tagAt data p = tags.getD p 0)
    (hnode : NodeCounts data tags ((tags.length + 63) / 64)) (hsmall : tags.length < 2 ^ 32)
    (hlen : data.length = (tags.length / 64 + 1) * 96) :
    ∃ data', openBlock (tags.length / 64) (tags.length % 64) ⟨data⟩ = (.ok (), ⟨data'⟩) ∧
      data'.length = data.length ∧ (∀ p, tagAt data' p = tags.getD p 0) ∧
      NodeCounts data' tags (tags.length / 64 + 1) := by
  rw [openBlock]
  split_ifs with hopen
  swap
  · exact ⟨data, rfl, rfl, htag, by rwa [show tags.length / 64 + 1 = (tags.length + 63) / 64 by omega]⟩
  obtain ⟨newest, hnewest, hnew⟩ := prefixCounts_eq_ok hnode (by omega) hsmall
    (k := tags.length / 64) (by omega)
  obtain ⟨oldest, holdest, hold⟩ := prefixCounts_eq_ok hnode (by omega) hsmall
    (k := parent (tags.length / 64 + 1)) (by
      have : parent (tags.length / 64 + 1) < tags.length / 64 + 1 := parent_lt (Nat.succ_pos _)
      omega)
  -- The new block is still empty, so its node holds what the two prefixes differ by.
  have hdiff : ∀ tier (ht : tier < 8), nodeSum (blockCount 64 (Live tags tier)) (tags.length / 64 + 1) +
      oldest[tier].toNat = newest[tier].toNat := by
    intro tier ht
    have hempty : blockCount 64 (Live tags tier) (tags.length / 64) = 0 := by
      apply Nat.count_of_forall_not
      intro o _ hlive
      rw [Live, List.getD_eq_default _ _ (by omega)] at hlive
      exact tierTag_ne_zero ht hlive.symm
    rw [hnew tier ht, hold tier ht, ← sum_blockCount, ← sum_blockCount]
    exact nodeSum_succ_of_zero _ _ hempty
  obtain ⟨data', hrun, hlen', htag', hnode'⟩ := initNode_run (Nat.succ_pos (tags.length / 64))
    newest oldest (fun tier ht => by
      have := hdiff tier ht
      omega)
    (List.range maxTiers) (fun tier => List.mem_range.mp) data (by omega)
  refine ⟨data', ?_, hlen', fun p => by rw [htag', htag], fun k tier hk hkb ht => ?_⟩
  · rw [InventoryM.bind_run_ok (InventoryM.read_run_ok hnewest),
      InventoryM.bind_run_ok (InventoryM.read_run_ok holdest)]
    exact hrun
  · rw [hnode' k tier ht hk]
    by_cases hkn : k = tags.length / 64 + 1
    · subst hkn
      rw [if_pos ⟨rfl, List.mem_range.mpr ht⟩, UInt32.toNat_sub_of_le]
      · have := hdiff tier ht
        omega
      · rw [UInt32.le_iff_toNat_le]
        have := hdiff tier ht
        omega
    · rw [if_neg (by tauto)]
      exact hnode k tier hk (by omega) ht

/-- `append`, with the sizes of a block. -/
theorem append_eq (position : UInt32) (tier : UInt8) : append position tier = (do
    openBlock (position.toNat / 64) (position.toNat % 64)
    let tag ← InventoryM.read fun _ => okOr Fault.panicked (tier.checkedAdd 1)
    InventoryM.read fun inventory =>
      failIf (inventory.data.length ≤ tagOffset position.toNat) Fault.panicked
    InventoryM.modify fun data => data.set (tagOffset position.toNat) tag
    let blocks ← InventoryM.read fun inventory => .ok inventory.blocks
    updateLoop (fun count => count.checkedAdd 1) Fault.panicked tier.toNat blocks
      (position.toNat / 64 + 1)) := rfl

/-- `append` makes the next position available in its tier. -/
theorem append_run {data tags : List UInt8} (h : Indexed data tags) {position : UInt32} {tier : UInt8}
    (hpos : position.toNat = tags.length) (hsmall : tags.length + 1 < 2 ^ 32) (ht : tier.toNat < 8) :
    ∃ data', append position tier
        ⟨data ++ List.replicate ((tags.length / 64 + 1) * 96 - data.length) 0⟩ = (.ok (), ⟨data'⟩) ∧
      Indexed data' (tags ++ [tierTag tier.toNat]) := by
  have hlen := h.length
  generalize hext : data ++ List.replicate ((tags.length / 64 + 1) * 96 - data.length) 0 = grown
  have hglen : grown.length = (tags.length / 64 + 1) * 96 := by
    rw [← hext, List.length_append, List.length_replicate]
    omega
  have hgtag : ∀ p, tagAt grown p = tags.getD p 0 := fun p => by
    rw [← hext, tagAt_append_zeros, h.tag]
  have hgnode : NodeCounts grown tags ((tags.length + 63) / 64) := by
    intro k t hk hkb ht'
    rw [← hext, nodeAt, u32.readAt_append _ _ (countOffset_le hk (by omega) ht')]
    exact h.node k t hk hkb ht'
  obtain ⟨opened, hopen, holen, hotag, honode⟩ := openBlock_run hgtag hgnode h.small hglen
  -- The tag is written, and then counted in every node that covers its block.
  have htoff : tagOffset tags.length < opened.length := by
    rw [tagOffset_eq]
    omega
  have hone : ∀ k, 0 < k → k ≤ tags.length / 64 + 1 →
      (nodeAt opened k tier.toNat).toNat + 1 < 2 ^ 32 := by
    intro k hk hkb
    have := nodeSum_le tags ht hk
    rw [honode k _ hk hkb ht]
    omega
  obtain ⟨data', hrun, hlen', htag', hnode'⟩ := updateLoop_run (f := fun count => count.checkedAdd 1)
    (e := .panicked) ht (tags.length / 64 + 1) (by omega)
    (fun k => nodeAt opened k tier.toNat + 1) (tags.length / 64 + 1) (Nat.succ_pos _)
    (opened.set (tagOffset tags.length) (tierTag tier.toNat)) (by rw [List.length_set]; omega)
    (fun k _ hk hkb => by
      rw [nodeAt_setTag _ _ _ _ ht]
      exact checkedAdd_eq (hone k (by omega) hkb))
  have hlen'' : data'.length = (tags.length / 64 + 1) * 96 := by
    rw [hlen', List.length_set]
    omega
  refine ⟨data', ?_, ?_⟩
  · have hblocks : (⟨opened.set (tagOffset tags.length) (tierTag tier.toNat)⟩ : Inventory).blocks =
        tags.length / 64 + 1 := by
      show (opened.set _ _).length / 96 = _
      rw [List.length_set]
      omega
    rw [append_eq, hpos, InventoryM.bind_run_ok hopen, InventoryM.bind_run_ok (InventoryM.read_run_ok
        (by rw [checkedAdd_one_eq ht, okOr])),
      InventoryM.bind_run_ok (InventoryM.read_run_ok (failIf_neg (by simp only; omega) _)),
      InventoryM.bind_run_ok (InventoryM.modify_run _ _), InventoryM.bind_run_ok (blocks_run _), hblocks]
    exact hrun
  · constructor
    · rw [hlen'', List.length_append, List.length_singleton]
      omega
    · rw [List.length_append, List.length_singleton]
      exact hsmall
    · intro p
      rw [htag', tagAt_setTag htoff, hotag, List.getD_eq_getElem?_getD, List.getD_eq_getElem?_getD]
      rcases lt_trichotomy p tags.length with hlt | rfl | hgt
      · rw [if_neg (by omega), List.getElem?_append_left hlt]
      · simp
      · rw [if_neg (by omega), List.getElem?_eq_none (by omega), List.getElem?_eq_none (by simp; omega)]
    · intro tag hmem
      rcases List.mem_append.mp hmem with hmem | hmem
      · exact h.valid tag hmem
      · rw [List.mem_singleton.mp hmem, tierTag_toNat ht]
        omega
    · intro k t hk hkb ht'
      rw [List.length_append, List.length_singleton] at hkb
      have hkb' : k ≤ tags.length / 64 + 1 := by omega
      rw [hnode' k t hk hkb' ht', nodeSum_append ht ht', ← honode k t hk hkb' ht',
        nodeAt_setTag _ _ _ _ ht']
      have hcov : Covers k (tags.length / 64) ↔ parent k < tags.length / 64 + 1 ∧
          tags.length / 64 + 1 ≤ k := by
        rw [Covers]
        omega
      simp only [hcov]
      split_ifs with hc
      · obtain ⟨rfl, -⟩ := hc
        have := hone k hk hkb'
        rw [UInt32.toNat_add, UInt32.toNat_one]
        omega
      · rfl

/-! ## Clearing a tag -/

theorem lt_length_of_live {tags : List UInt8} {tier p : ℕ} (ht : tier < 8) (hp : Live tags tier p) :
    p < tags.length := by
  by_contra hge
  rw [Live, List.getD_eq_default _ _ (by omega)] at hp
  exact tierTag_ne_zero ht hp.symm

theorem getD_clear {tags : List UInt8} {p : ℕ} (hp : p < tags.length) (q : ℕ) :
    (tags.set p 0).getD q 0 = if q = p then 0 else tags.getD q 0 := by
  rw [List.getD_eq_getElem?_getD, List.getD_eq_getElem?_getD, List.getElem?_set]
  rcases eq_or_ne q p with rfl | hq
  · simp [hp]
  · rw [if_neg hq.symm, if_neg hq]

/-- A cleared position was counted in its tier by the nodes that cover its block. -/
theorem nodeSum_clear {tags : List UInt8} {tier tier' p : ℕ} (ht : tier < 8) (ht' : tier' < 8)
    (hp : Live tags tier p) (k : ℕ) :
    nodeSum (blockCount 64 (Live tags tier')) k =
      nodeSum (blockCount 64 (Live (tags.set p 0) tier')) k +
        if tier' = tier ∧ Covers k (p / 64) then 1 else 0 := by
  have hlt := lt_length_of_live ht hp
  have hgone : ¬Live (tags.set p 0) tier' p := by
    rw [Live, getD_clear hlt, if_pos rfl]
    exact (tierTag_ne_zero ht').symm
  have hsame : ∀ q, q ≠ p → (Live tags tier' q ↔ Live (tags.set p 0) tier' q) := fun q hq => by
    rw [Live, Live, getD_clear hlt, if_neg hq]
  rcases eq_or_ne tier' tier with rfl | hne
  · rw [nodeSum_insert (by omega) hgone hp hsame]
    simp
  · have hother : ¬Live tags tier' p := fun h =>
      hne ((tierTag_inj ht' ht).mp (h.symm.trans hp))
    have hall : ∀ q, Live tags tier' q ↔ Live (tags.set p 0) tier' q := fun q => by
      rcases eq_or_ne q p with rfl | hq
      · exact ⟨fun h => absurd h hother, fun h => absurd h hgone⟩
      · exact hsame q hq
    rw [if_neg (by tauto), add_zero, blockCount_congr 64 hall]

/-- The index after one tag was cleared, and one taken off its tier in every node that covers it. -/
theorem Indexed.clear {data data' tags : List UInt8} (h : Indexed data tags) {tier p : ℕ}
    (ht : tier < 8) (hp : Live tags tier p) (hlen : data'.length = data.length)
    (htag : ∀ q, tagAt data' q = if q = p then 0 else tagAt data q)
    (hnode : ∀ k tier', 0 < k → k ≤ (tags.length + 63) / 64 → tier' < 8 → nodeAt data' k tier' =
      if tier' = tier ∧ Covers k (p / 64) then nodeAt data k tier' - 1 else nodeAt data k tier') :
    Indexed data' (tags.set p 0) := by
  have hlt := lt_length_of_live ht hp
  constructor
  · rw [hlen, h.length, List.length_set]
  · rw [List.length_set]
    exact h.small
  · intro q
    rw [htag, h.tag, getD_clear hlt]
  · intro tag hmem
    rcases List.mem_or_eq_of_mem_set hmem with hmem | rfl
    · exact h.valid tag hmem
    · simp
  · intro k tier' hk hkb ht'
    rw [List.length_set] at hkb
    have hcount := h.node k tier' hk hkb ht'
    rw [nodeSum_clear ht ht' hp] at hcount
    rw [hnode k tier' hk hkb ht']
    split_ifs at hcount ⊢ with hc
    · rw [UInt32.toNat_sub_of_le _ _ (by rw [UInt32.le_iff_toNat_le, UInt32.toNat_one]; omega),
        UInt32.toNat_one]
      omega
    · exact hcount

/-! ## Remove -/

/-- A removal that succeeds found the tag of its tier at the position. -/
theorem stored_of_remove {position : UInt32} {tier : UInt8} (ht : tier.toNat < 8)
    {inventory inventory' : Inventory} (h : remove position tier inventory = (.ok (), inventory')) :
    inventory.data[tagOffset position.toNat]? = some (tierTag tier.toNat) := by
  have hremovable : removable position tier inventory = .ok () := by
    cases hr : removable position tier inventory with
    | ok u => rfl
    | error e =>
      have hread : InventoryM.read (removable position tier) inventory = (.error e, inventory) := by
        rw [InventoryM.read, hr]
      rw [remove, InventoryM.bind_run_error hread] at h
      simp at h
  rw [removable] at hremovable
  cases htag : inventory.data[tagOffset position.toNat]? with
  | none =>
    rw [htag] at hremovable
    simp at hremovable
  | some tag =>
    rw [htag] at hremovable
    simp only [checkedAdd_one_eq ht, okOr, ok_bind, failIf_eq_ok, not_not] at hremovable
    rw [hremovable]

/-- `remove` clears the tag of an available position. -/
theorem remove_run {data tags : List UInt8} (h : Indexed data tags) {position : UInt32} {tier : UInt8}
    (ht : tier.toNat < 8) (hp : Live tags tier.toNat position.toNat) :
    ∃ data', remove position tier ⟨data⟩ = (.ok (), ⟨data'⟩) ∧
      Indexed data' (tags.set position.toNat 0) := by
  have hlen := h.length
  have hsmall := h.small
  have hlt := lt_length_of_live ht hp
  have htoff : tagOffset position.toNat < data.length := by
    rw [tagOffset_eq]
    omega
  -- The tag is there, and the nodes that cover its block count at least this position.
  have hstored : data[tagOffset position.toNat]? = some (tierTag tier.toNat) := by
    have htag := h.tag position.toNat
    rw [hp, tagAt, List.getElem?_eq_getElem htoff, Option.getD_some] at htag
    rw [List.getElem?_eq_getElem htoff, htag]
  have hremovable : removable position tier ⟨data⟩ = .ok () := by
    simp only [removable, hstored, checkedAdd_one_eq ht, okOr, ok_bind]
    exact failIf_neg (by simp) _
  obtain ⟨data', hrun, hlen', htag', hnode'⟩ := updateLoop_run (f := fun count => count.checkedSub 1)
    (e := GachaError.invalidItem) ht ((tags.length + 63) / 64) (by omega)
    (fun k => nodeAt data k tier.toNat - 1) (position.toNat / 64 + 1) (Nat.succ_pos _)
    (data.set (tagOffset position.toNat) 0) (by rw [List.length_set]; omega)
    (fun k h1 h2 h3 => by
      have hcount := h.node k tier.toNat (by omega) h3 ht
      rw [nodeSum_clear ht ht hp, if_pos ⟨rfl, by omega, by omega⟩] at hcount
      rw [nodeAt_setTag _ _ _ _ ht]
      exact if_pos (by rw [UInt32.toNat_one]; omega))
  refine ⟨data', ?_, h.clear ht hp (by rw [hlen', List.length_set])
    (fun q => by rw [htag', tagAt_setTag htoff]) fun k tier' hk hkb ht' => ?_⟩
  · have hblocks : (⟨data.set (tagOffset position.toNat) 0⟩ : Inventory).blocks =
        (tags.length + 63) / 64 := by
      show (data.set _ _).length / 96 = _
      rw [List.length_set]
      omega
    rw [remove, InventoryM.bind_run_ok (InventoryM.read_run_ok hremovable),
      InventoryM.bind_run_ok (InventoryM.modify_run _ _), InventoryM.bind_run_ok (blocks_run _),
      hblocks]
    exact hrun
  · rw [hnode' k tier' hk hkb ht', nodeAt_setTag _ _ _ _ ht']
    have hcov : Covers k (position.toNat / 64) ↔ parent k < position.toNat / 64 + 1 ∧
        position.toNat / 64 + 1 ≤ k := by
      rw [Covers]
      omega
    simp only [hcov]
    split_ifs with hc
    · rw [hc.1]
    · rfl

end Inventory

end SolanaGacha
