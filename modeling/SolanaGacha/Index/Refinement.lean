import SolanaGacha.Index.Take

/-!
# The index refines a list of tags

Two machines with the same operations: `IndexOp.onTags` works on a plain list of tags, and
`IndexOp.onIndex` runs the source's methods on the bytes. `index_refines_tags` runs any sequence of
operations on both. They return the same positions, and at the end every count of a prefix, every
stored node and every stored tag is what the list says.
-/

namespace SolanaGacha

open Except Layout Fenwick Inventory

/-- An operation on the availability of prize positions. -/
inductive IndexOp
  /-- Issue the next position, available in `tier`. -/
  | append (tier : UInt8)
  /-- Take the `rank`th available position of `tier`. -/
  | take (tier : UInt8) (rank : UInt32)
  /-- Remove a position that is available in `tier`. -/
  | remove (position : UInt32) (tier : UInt8)
  deriving DecidableEq

namespace IndexOp

/-- The operation on a plain list of tags, with the position that it returns. It is undefined where its
precondition fails: tiers are below 8, positions are `u32`, and what is taken or removed is
available. -/
def onTags : IndexOp → List UInt8 → Option (List UInt8 × Option ℕ)
  | append tier, tags =>
    if tier < 8 ∧ tags.length + 1 < 2 ^ 32 then some (tags ++ [tier + 1], none) else none
  | take tier rank, tags =>
    if tier < 8 then (tags.idxsOf (tier + 1))[rank.toNat]?.map fun p => (tags.set p 0, some p)
    else none
  | remove position tier, tags =>
    if tier < 8 ∧ tags[position.toNat]? = some (tier + 1) then
      some (tags.set position.toNat 0, none)
    else none

/-- The operation on the bytes of an index with so many positions: `append` on data grown with zero
bytes to the space of one more position, as the restocking handlers call it, `take` and `remove`. -/
def onIndex : IndexOp → ℕ × Inventory → Except Fault ((ℕ × Inventory) × Option UInt32)
  | append tier, (positions, inventory) => do
    let space := inventorySpace (UInt32.ofNat (positions + 1))
    let grown := inventory.data ++ List.replicate (space - inventory.data.length) 0
    let ((), inventory) ← (Inventory.append (UInt32.ofNat positions) tier).run ⟨grown⟩
    return ((positions + 1, inventory), none)
  | take tier rank, (positions, inventory) => do
    let (position, inventory) ← (Inventory.take tier rank).run inventory
    return ((positions, inventory), some position)
  | remove position tier, (positions, inventory) => do
    let ((), inventory) ← (Inventory.remove position tier).run inventory
    return ((positions, inventory), none)

/-- A sequence of operations on a list of tags, with what they return. -/
def runTags : List IndexOp → List UInt8 → Option (List UInt8 × List (Option ℕ))
  | [], tags => some (tags, [])
  | op :: ops, tags => do
    let (tags, out) ← op.onTags tags
    let (tags, outs) ← runTags ops tags
    return (tags, out :: outs)

/-- A sequence of operations on an index, with what they return. -/
def runIndex : List IndexOp → ℕ × Inventory →
    Except Fault ((ℕ × Inventory) × List (Option UInt32))
  | [], index => return (index, [])
  | op :: ops, index => do
    let (index, out) ← op.onIndex index
    let (index, outs) ← runIndex ops index
    return (index, out :: outs)

/-- The tag that the source computes for a tier. -/
theorem tierTag_eq_add_one {tier : UInt8} (ht : tier < 8) : tierTag tier.toNat = tier + 1 := by
  have h : tier.toNat < 8 := UInt8.lt_iff_toNat_lt.mp ht
  rw [← UInt8.toNat_inj, tierTag_toNat h, UInt8.toNat_add, UInt8.toNat_one]
  omega

/-- The operations on the list and on the bytes agree, one at a time. -/
theorem onIndex_of_onTags {op : IndexOp} {data tags tags' : List UInt8} {out : Option ℕ}
    (h : Indexed data tags) (hop : op.onTags tags = some (tags', out)) :
    ∃ data', op.onIndex (tags.length, ⟨data⟩) =
      .ok ((tags'.length, ⟨data'⟩), out.map UInt32.ofNat) ∧ Indexed data' tags' := by
  have hlen := h.length
  cases op with
  | append tier =>
    rw [onTags, Option.ite_none_right_eq_some, Option.some.injEq, Prod.mk.injEq] at hop
    obtain ⟨⟨htier, hsmall⟩, rfl, rfl⟩ := hop
    have hspace : inventorySpace (UInt32.ofNat (tags.length + 1)) = (tags.length / 64 + 1) * 96 := by
      show ((UInt32.ofNat (tags.length + 1)).toNat + 63) / 64 * 96 = _
      rw [UInt32.toNat_ofNat_of_lt' hsmall]
      omega
    obtain ⟨data', hrun, h'⟩ := append_run h
      (UInt32.toNat_ofNat_of_lt' (Nat.lt_of_succ_lt hsmall)) hsmall (UInt8.lt_iff_toNat_lt.mp htier)
    rw [tierTag_eq_add_one htier] at h'
    refine ⟨data', ?_, h'⟩
    rw [onIndex, hspace]
    simp only
    rw [InventoryM.run_eq_ok.mpr hrun, ok_bind, List.length_append]
    rfl
  | take tier rank =>
    rw [onTags, Option.ite_none_right_eq_some, Option.map_eq_some_iff] at hop
    obtain ⟨htier, p, hp, hout⟩ := hop
    obtain ⟨rfl, rfl⟩ := Prod.mk.injEq .. ▸ hout
    rw [← tierTag_eq_add_one htier] at hp
    obtain ⟨data', hrun, h'⟩ := take_run h (UInt8.lt_iff_toNat_lt.mp htier) hp
    refine ⟨data', ?_, h'⟩
    rw [onIndex, InventoryM.run_eq_ok.mpr hrun, ok_bind, List.length_set]
    rfl
  | remove position tier =>
    rw [onTags, Option.ite_none_right_eq_some, Option.some.injEq, Prod.mk.injEq] at hop
    obtain ⟨⟨htier, htag⟩, rfl, rfl⟩ := hop
    have hlive : Live tags tier.toNat position.toNat := by
      rw [Live, List.getD_eq_getElem?_getD, htag, Option.getD_some, tierTag_eq_add_one htier]
    obtain ⟨data', hrun, h'⟩ := remove_run h (UInt8.lt_iff_toNat_lt.mp htier) hlive
    refine ⟨data', ?_, h'⟩
    rw [onIndex, InventoryM.run_eq_ok.mpr hrun, ok_bind, List.length_set]
    rfl

theorem runIndex_of_runTags (ops : List IndexOp) {data tags tags' : List UInt8} {outs : List (Option ℕ)}
    (h : Indexed data tags) (hrun : runTags ops tags = some (tags', outs)) :
    ∃ data', runIndex ops (tags.length, ⟨data⟩) =
      .ok ((tags'.length, ⟨data'⟩), outs.map (Option.map UInt32.ofNat)) ∧ Indexed data' tags' := by
  induction ops generalizing data tags outs with
  | nil =>
    rw [runTags, Option.some.injEq, Prod.mk.injEq] at hrun
    obtain ⟨rfl, rfl⟩ := hrun
    exact ⟨data, rfl, h⟩
  | cons op ops ih =>
    rw [runTags, Option.bind_eq_bind, Option.bind_eq_some_iff] at hrun
    obtain ⟨⟨mid, out⟩, hop, hrest⟩ := hrun
    rw [Option.bind_eq_bind, Option.bind_eq_some_iff] at hrest
    obtain ⟨⟨last, outs'⟩, hops, hout⟩ := hrest
    obtain ⟨rfl, rfl⟩ := Prod.mk.injEq .. ▸ Option.some.inj hout
    obtain ⟨data1, hrun1, h1⟩ := onIndex_of_onTags h hop
    obtain ⟨data2, hrun2, h2⟩ := ih h1 hops
    refine ⟨data2, ?_, h2⟩
    rw [runIndex, hrun1, ok_bind]
    simp only
    rw [hrun2, ok_bind]
    rfl

/-- A node counts the available positions of the blocks that it covers. -/
theorem nodeAt_eq_count {data tags : List UInt8} (h : Indexed data tags) {k tier : ℕ} (hk : 0 < k)
    (hkb : k ≤ (tags.length + 63) / 64) (ht : tier < 8) :
    (nodeAt data k tier).toNat =
      ((tags.take (64 * k)).drop (64 * parent k)).count (tierTag tier) := by
  have hsplit := nodeSum_blockCount 64 (Live tags tier) hk
  have hle : 64 * parent k ≤ 64 * k := Nat.mul_le_mul_left 64 (parent_lt hk).le
  have htake := List.take_append_drop (64 * parent k) (tags.take (64 * k))
  rw [List.take_take, min_eq_left hle] at htake
  have hcount := congrArg (List.count (tierTag tier)) htake
  rw [List.count_append, ← count_live ht, ← count_live ht] at hcount
  rw [h.node k tier hk hkb ht]
  omega

/-- Any sequence of operations on an index that starts empty does what it does on a plain list of
tags: it returns the same positions, and afterwards `counts` of every cutoff is the number of tags of
each tier below it, every node counts the available positions of the blocks that it covers, and the
stored tags are those of the list. -/
theorem index_refines_tags (ops : List IndexOp) (tags : List UInt8) (outs : List (Option ℕ))
    (h : runTags ops [] = some (tags, outs)) :
    ∃ inventory, runIndex ops (0, ⟨[]⟩) =
        .ok ((tags.length, inventory), outs.map (Option.map UInt32.ofNat)) ∧
      (∀ cutoff : UInt32, cutoff.toNat ≤ tags.length → ∃ v, inventory.counts cutoff = .ok v ∧
        ∀ tier (_ : tier < 8),
          v[tier].toNat = (tags.take cutoff.toNat).count (UInt8.ofNat (tier + 1))) ∧
      (∀ node tier, 0 < node → node ≤ inventory.blocks → tier < 8 →
        ∃ c, inventory.count node tier = .ok c ∧ c.toNat =
          ((tags.take (64 * node)).drop (64 * parent node)).count (UInt8.ofNat (tier + 1))) ∧
      inventory.blocks = (tags.length + 63) / 64 ∧
      ∀ p, p < tags.length → inventory.data[tagOffset p]? = tags[p]? := by
  obtain ⟨data, hrun, hindex⟩ := runIndex_of_runTags ops indexed_nil h
  have hlen := hindex.length
  have hblocks : (⟨data⟩ : Inventory).blocks = (tags.length + 63) / 64 := by
    show data.length / 96 = _
    omega
  refine ⟨⟨data⟩, hrun, fun cutoff hcut => counts_eq_ok hindex hcut, fun node tier hn hnb ht => ?_,
    hblocks, fun p hp => ?_⟩
  · rw [hblocks] at hnb
    exact ⟨_, count_eq_ok hn (by omega) ht, nodeAt_eq_count hindex hn hnb ht⟩
  · have htag := hindex.tag p
    have hoff : tagOffset p < data.length := by
      rw [tagOffset_eq]
      omega
    rw [tagAt, List.getElem?_eq_getElem hoff, Option.getD_some, List.getD_eq_getElem?_getD,
      List.getElem?_eq_getElem hp, Option.getD_some] at htag
    simp only [List.getElem?_eq_getElem hoff, List.getElem?_eq_getElem hp, htag]

/-- The refinement on a sequence with every operation: two deposits in tier 2 and one in tier 1, a take
from tier 2, and the removal of the position in tier 1. -/
theorem index_refines_tags_sample :
    runTags [append 2, append 1, append 2, take 2 1, remove 1 1] [] =
        some ([3, 0, 0], [none, none, none, some 2, none]) ∧
      ∃ inventory, runIndex [append 2, append 1, append 2, take 2 1, remove 1 1] (0, ⟨[]⟩) =
        .ok ((3, inventory), [none, none, none, some 2, none]) := by
  have h : runTags [append 2, append 1, append 2, take 2 1, remove 1 1] [] =
    some ([3, 0, 0], [none, none, none, some 2, none]) := by decide
  obtain ⟨inventory, hrun, -⟩ := index_refines_tags _ _ _ h
  exact ⟨h, inventory, hrun⟩

end IndexOp

end SolanaGacha
