import SolanaGacha.Index.Refinement

/-!
# Failing operations

`take` writes counts on its way down, before it knows whether it will find a position, and `remove` clears a
tag before it takes one off the counts above it. A rank that is too large passes over every block, though, so
the descent writes nothing and ends past the last one (`takeDescend_past`), and the counts above an available
position are positive. So both fail exactly when what they look for is not there, and then they leave the
index as it was (`IndexOp.failures_change_nothing`).
-/

namespace SolanaGacha

open Except Layout Fenwick Inventory

namespace Inventory

/-! ## A rank that is too large -/

/-- The descent with a rank beyond the available positions, from a window of `2^e` blocks that reaches past the
last one: it skips whole blocks only, and writes nothing. -/
theorem takeDescend_past {data tags : List UInt8} (h : Indexed data tags) {tier rank blocks : ℕ} (ht : tier < 8)
    (hblocks : blocks = (tags.length + 63) / 64) (hrank : Nat.count (Live tags tier) (64 * blocks) ≤ rank)
    (e node : ℕ) (left : UInt32) (hdvd : 2 ^ e ∣ node) (hle : node ≤ blocks) (hlt : blocks < node + 2 ^ e)
    (hleft : left.toNat + Nat.count (Live tags tier) (64 * node) = rank) :
    ∃ left', takeDescend tier blocks (2 ^ e / 2) node left ⟨data⟩ = (.ok (blocks, left'), ⟨data⟩) := by
  have hlen := h.length
  induction e generalizing node left with
  | zero =>
    obtain rfl : node = blocks := by omega
    exact ⟨left, by rw [takeDescend, if_pos (by omega)]; rfl⟩
  | succ e ih =>
    have hstep : 2 ^ (e + 1) / 2 = 2 ^ e := by rw [pow_succ]; omega
    have hpos : 0 < 2 ^ e := Nat.two_pow_pos e
    have hhalf : 2 ^ e ∣ node := (pow_dvd_pow 2 (Nat.le_succ e)).trans hdvd
    rw [pow_succ] at hlt
    rw [hstep, takeDescend, if_neg (by omega)]
    by_cases hnext : node + 2 ^ e ≤ blocks
    swap
    · rw [if_neg hnext]
      exact ih node left hhalf hle (by omega) hleft
    have hk : 0 < node + 2 ^ e := by omega
    have hread : InventoryM.read (fun inventory => count inventory (node + 2 ^ e) tier) ⟨data⟩ =
        (.ok (nodeAt data (node + 2 ^ e) tier), ⟨data⟩) :=
      InventoryM.read_run_ok (count_eq_ok hk (by omega) ht)
    -- The node's positions come before the end, so the rank is beyond them too.
    have hcount : (nodeAt data (node + 2 ^ e) tier).toNat + Nat.count (Live tags tier) (64 * node) =
        Nat.count (Live tags tier) (64 * (node + 2 ^ e)) := by
      have hsum := nodeSum_blockCount 64 (Live tags tier) hk
      rw [parent_add hdvd] at hsum
      rw [h.node _ tier hk (hblocks ▸ hnext) ht, hsum]
    have hmono := Nat.count_monotone (Live tags tier) (Nat.mul_le_mul_left 64 hnext)
    have hskip : nodeAt data (node + 2 ^ e) tier ≤ left := by
      rw [UInt32.le_iff_toNat_le]
      omega
    rw [if_pos hnext, InventoryM.bind_run_ok hread, if_pos hskip]
    apply ih (node + 2 ^ e) (left - nodeAt data (node + 2 ^ e) tier) (hhalf.add dvd_rfl) hnext (by omega)
    rw [UInt32.toNat_sub_of_le _ _ hskip]
    have := UInt32.le_iff_toNat_le.mp hskip
    omega

/-- `take` of a rank beyond the available positions of its tier. -/
theorem take_fails {data tags : List UInt8} (h : Indexed data tags) {tier : UInt8} (ht : tier.toNat < 8)
    {rank : UInt32} (hrank : tags.count (tierTag tier.toNat) ≤ rank.toNat) :
    take tier rank ⟨data⟩ = (.error GachaError.invalidItem, ⟨data⟩) := by
  have hlen := h.length
  obtain ⟨e, hpow, hpowle⟩ := le_nextPowerOfTwo ((tags.length + 63) / 64)
  have hdouble : 2 ^ (e + 1) = 2 ^ e + 2 ^ e := by rw [pow_succ]; omega
  have hpos : 0 < 2 ^ e := Nat.two_pow_pos e
  have hall : Nat.count (Live tags tier.toNat) (64 * ((tags.length + 63) / 64)) ≤ rank.toNat := by
    rw [count_live ht, List.take_of_length_le (by omega)]
    exact hrank
  obtain ⟨left, hdescend⟩ := takeDescend_past h ht rfl hall (e + 1) 0 rank (dvd_zero _) (Nat.zero_le _)
    (by omega) (by simp)
  rw [show 2 ^ (e + 1) / 2 = nextPowerOfTwo ((tags.length + 63) / 64) by omega] at hdescend
  have hblocks : (⟨data⟩ : Inventory).blocks = (tags.length + 63) / 64 := by
    show data.length / 96 = _
    omega
  rw [take_eq, InventoryM.bind_run_ok (blocks_run _), hblocks, InventoryM.bind_run_ok hdescend]
  simp only [if_true]
  rfl

/-! ## A position that is not available -/

/-- `remove` of a position that is not available in the tier. -/
theorem remove_fails {data tags : List UInt8} (h : Indexed data tags) {position : UInt32} {tier : UInt8}
    (ht : tier.toNat < 8) (hp : ¬Live tags tier.toNat position.toNat) :
    remove position tier ⟨data⟩ = (.error GachaError.invalidItem, ⟨data⟩) := by
  have hremovable : removable position tier ⟨data⟩ = .error GachaError.invalidItem := by
    have htag := h.tag position.toNat
    unfold removable
    unfold tagAt at htag
    cases hstored : data[tagOffset position.toNat]? with
    | none => rfl
    | some tag =>
      rw [hstored, Option.getD_some] at htag
      have hne : tag ≠ tierTag tier.toNat := by
        rw [htag]
        exact hp
      simp only [checkedAdd_one_eq ht, okOr, ok_bind]
      exact if_pos hne
  have hread : InventoryM.read (removable position tier) ⟨data⟩ =
      (.error GachaError.invalidItem, ⟨data⟩) := by
    unfold InventoryM.read
    rw [hremovable]
  unfold remove
  rw [InventoryM.bind_run_error hread]

end Inventory

namespace IndexOp

/-! ## Any sequence of operations -/

/-- What an operation leaves of a list of tags: one that is not defined changes nothing. -/
def leaveTags (op : IndexOp) (tags : List UInt8) : List UInt8 :=
  match op.onTags tags with
  | some (tags', _) => tags'
  | none => tags

/-- What an operation leaves of the bytes of an index, also when it fails. -/
def leaveIndex : IndexOp → ℕ × Inventory → ℕ × Inventory
  | append tier, (positions, inventory) =>
    let space := inventorySpace (UInt32.ofNat (positions + 1))
    let grown := inventory.data ++ List.replicate (space - inventory.data.length) 0
    (positions + 1, (Inventory.append (UInt32.ofNat positions) tier ⟨grown⟩).2)
  | take tier rank, (positions, inventory) => (positions, (Inventory.take tier rank inventory).2)
  | remove position tier, (positions, inventory) => (positions, (Inventory.remove position tier inventory).2)

/-- Tiers are below 8, and the positions that are issued are `u32`. -/
def Admissible : IndexOp → ℕ → Prop
  | append tier, positions => tier < 8 ∧ positions + 1 < 2 ^ 32
  | take tier _, _ => tier < 8
  | remove _ tier, _ => tier < 8

/-- The states that operations reach from the empty index, with the tags of their positions: `append` makes the
next position available, what `take` and `remove` find is no longer available, and what they do not find
changes nothing. -/
inductive Reaches : List UInt8 → ℕ × Inventory → Prop
  | empty : Reaches [] (0, ⟨[]⟩)
  | step {tags : List UInt8} {index : ℕ × Inventory} (op : IndexOp) :
    Reaches tags index → op.Admissible tags.length → Reaches (op.leaveTags tags) (op.leaveIndex index)

/-- A successful operation leaves its result. -/
theorem leaveIndex_of_onIndex {op : IndexOp} {index index' : ℕ × Inventory} {out : Option UInt32}
    (h : op.onIndex index = .ok (index', out)) : op.leaveIndex index = index' := by
  obtain ⟨positions, inventory⟩ := index
  cases op with
  | append tier =>
    obtain ⟨⟨_, inventory'⟩, hrun, h⟩ := bind_eq_ok.mp h
    obtain ⟨rfl, -⟩ := Prod.mk.inj (pure_eq_ok.mp h)
    exact congrArg (Prod.mk _) (congrArg Prod.snd (InventoryM.run_eq_ok.mp hrun))
  | take tier rank =>
    obtain ⟨⟨_, inventory'⟩, hrun, h⟩ := bind_eq_ok.mp h
    obtain ⟨rfl, -⟩ := Prod.mk.inj (pure_eq_ok.mp h)
    exact congrArg (Prod.mk _) (congrArg Prod.snd (InventoryM.run_eq_ok.mp hrun))
  | remove position tier =>
    obtain ⟨⟨_, inventory'⟩, hrun, h⟩ := bind_eq_ok.mp h
    obtain ⟨rfl, -⟩ := Prod.mk.inj (pure_eq_ok.mp h)
    exact congrArg (Prod.mk _) (congrArg Prod.snd (InventoryM.run_eq_ok.mp hrun))

section Indexed

variable {data tags : List UInt8} (h : Indexed data tags) {tier : UInt8} (ht : tier < 8)
include h ht

/-- `take` fails when its rank is not below the number of available positions, and only then. -/
theorem take_cases (rank : UInt32) :
    (tags.count (tier + 1) ≤ rank.toNat ∧
        Inventory.take tier rank ⟨data⟩ = (.error GachaError.invalidItem, ⟨data⟩)) ∨
      (rank.toNat < tags.count (tier + 1) ∧
        ∃ position inventory, Inventory.take tier rank ⟨data⟩ = (.ok position, inventory)) := by
  have ht8 := UInt8.lt_iff_toNat_lt.mp ht
  rw [← tierTag_eq_add_one ht]
  by_cases hrank : tags.count (tierTag tier.toNat) ≤ rank.toNat
  · exact .inl ⟨hrank, take_fails h ht8 hrank⟩
  · have hlen : rank.toNat < (tags.idxsOf (tierTag tier.toNat)).length := by
      rw [List.length_idxsOf]
      omega
    obtain ⟨data', hrun, -⟩ := take_run h ht8 (List.getElem?_eq_getElem hlen)
    exact .inr ⟨by omega, _, _, hrun⟩

/-- `remove` fails when its position is not available in the tier, and only then. -/
theorem remove_cases (position : UInt32) :
    (tags[position.toNat]? ≠ some (tier + 1) ∧
        Inventory.remove position tier ⟨data⟩ = (.error GachaError.invalidItem, ⟨data⟩)) ∨
      (tags[position.toNat]? = some (tier + 1) ∧
        ∃ inventory, Inventory.remove position tier ⟨data⟩ = (.ok (), inventory)) := by
  have ht8 := UInt8.lt_iff_toNat_lt.mp ht
  have hlive : Live tags tier.toNat position.toNat ↔ tags[position.toNat]? = some (tier + 1) := by
    unfold Live
    rw [tierTag_eq_add_one ht, List.getD_eq_getElem?_getD]
    cases tags[position.toNat]? with
    | some tag => rw [Option.getD_some, Option.some_inj]
    | none =>
      rw [Option.getD_none]
      constructor
      · intro hzero
        have hne := congrArg UInt8.toNat hzero
        rw [← tierTag_eq_add_one ht, tierTag_toNat ht8] at hne
        exact absurd hne.symm (Nat.succ_ne_zero _)
      · intro hsome
        cases hsome
  rw [Ne, ← hlive]
  by_cases hp : Live tags tier.toNat position.toNat
  · obtain ⟨data', hrun, -⟩ := remove_run h ht8 hp
    exact .inr ⟨hp, _, hrun⟩
  · exact .inl ⟨hp, remove_fails h ht8 hp⟩

end Indexed

/-- What an operation leaves of an index is what it leaves of the tags. -/
theorem indexed_leave {op : IndexOp} {data tags : List UInt8} (h : Indexed data tags)
    (hop : op.Admissible tags.length) : (op.leaveIndex (tags.length, ⟨data⟩)).1 = (op.leaveTags tags).length ∧
      Indexed (op.leaveIndex (tags.length, ⟨data⟩)).2.data (op.leaveTags tags) := by
  unfold leaveTags
  cases htags : op.onTags tags with
  | some result =>
    obtain ⟨data', hrun, h'⟩ := onIndex_of_onTags h htags
    rw [leaveIndex_of_onIndex hrun]
    exact ⟨rfl, h'⟩
  | none =>
    -- An operation that finds nothing.
    suffices hsame : op.leaveIndex (tags.length, ⟨data⟩) = (tags.length, ⟨data⟩) by
      rw [hsame]
      exact ⟨rfl, h⟩
    cases op with
    | append tier =>
      have hsome : (append tier).onTags tags = some (tags ++ [tier + 1], none) := if_pos hop
      rw [hsome] at htags
      cases htags
    | take tier rank =>
      obtain ⟨-, hrun⟩ | ⟨hrank, -⟩ := take_cases h hop rank
      · exact congrArg (Prod.mk _) (congrArg Prod.snd hrun)
      · have htier : tier < 8 := hop
        rw [onTags, if_pos htier, Option.map_eq_none_iff, List.getElem?_eq_none_iff, List.length_idxsOf] at htags
        omega
    | remove position tier =>
      obtain ⟨-, hrun⟩ | ⟨htag, -⟩ := remove_cases h hop position
      · exact congrArg (Prod.mk _) (congrArg Prod.snd hrun)
      · have hsome : (remove position tier).onTags tags = some (tags.set position.toNat 0, none) :=
          if_pos ⟨hop, htag⟩
        rw [hsome] at htags
        cases htags

/-- The bytes that operations reach index the tags. -/
theorem Reaches.indexed {tags : List UInt8} {index : ℕ × Inventory} (h : Reaches tags index) :
    index.1 = tags.length ∧ Indexed index.2.data tags := by
  induction h with
  | empty => exact ⟨rfl, indexed_nil⟩
  | @step tags index op _ hop ih =>
    obtain ⟨hlen, hindexed⟩ := ih
    have hleave := indexed_leave hindexed hop
    rwa [← hlen] at hleave

/-- In every index state that `append`, `take` and `remove` reach: `take` fails with `InvalidItem` exactly when
its rank is not below the number of available positions of its tier, `remove` exactly when its position is not
available in its tier, and both then leave every byte of the index as it was. -/
theorem failures_change_nothing {tags : List UInt8} {positions : ℕ} {inventory : Inventory}
    (h : Reaches tags (positions, inventory)) {tier : UInt8} (ht : tier < 8) :
    (∀ rank : UInt32,
      ((Inventory.take tier rank inventory).1 = .error (.custom GachaError.invalidItem) ↔
        tags.count (tier + 1) ≤ rank.toNat) ∧
      ∀ e, (Inventory.take tier rank inventory).1 = .error e →
        (Inventory.take tier rank inventory).2 = inventory) ∧
    ∀ position : UInt32,
      ((Inventory.remove position tier inventory).1 = .error (.custom GachaError.invalidItem) ↔
        tags[position.toNat]? ≠ some (tier + 1)) ∧
      ∀ e, (Inventory.remove position tier inventory).1 = .error e →
        (Inventory.remove position tier inventory).2 = inventory := by
  obtain ⟨-, hindexed⟩ := h.indexed
  constructor
  · intro rank
    obtain ⟨hrank, hrun⟩ | ⟨hrank, position, inventory', hrun⟩ := take_cases hindexed ht rank
    · rw [hrun]
      exact ⟨iff_of_true rfl hrank, fun _ _ => rfl⟩
    · rw [hrun]
      exact ⟨iff_of_false (fun herror => nomatch herror) (by omega), fun _ herror => nomatch herror⟩
  · intro position
    obtain ⟨htag, hrun⟩ | ⟨htag, inventory', hrun⟩ := remove_cases hindexed ht position
    · rw [hrun]
      exact ⟨iff_of_true rfl htag, fun _ _ => rfl⟩
    · rw [hrun]
      exact ⟨iff_of_false (fun herror => nomatch herror) fun hne => hne htag, fun _ herror => nomatch herror⟩

/-- Failing operations on the index of a deposit in tier 2 and one in tier 1, of which the first is taken. -/
theorem failures_change_nothing_sample : ∃ inventory, Reaches [0, 2] (2, inventory) ∧
    (Inventory.take 2 0 inventory).1 = .error (.custom GachaError.invalidItem) ∧
      (Inventory.take 2 0 inventory).2 = inventory ∧
      (Inventory.remove 0 2 inventory).1 = .error (.custom GachaError.invalidItem) ∧
      (Inventory.remove 0 2 inventory).2 = inventory := by
  have hreaches : Reaches [0, 2] ((take 2 0).leaveIndex ((append 1).leaveIndex
      ((append 2).leaveIndex (0, ⟨[]⟩)))) :=
    .step (take 2 0) (.step (append 1) (.step (append 2) .empty ⟨by decide, by decide⟩)
      ⟨by decide, by decide⟩) (show (2 : UInt8) < 8 by decide)
  obtain ⟨htake, hremove⟩ := failures_change_nothing hreaches (show 2 < 8 by decide)
  have htake' := (htake 0).1.mpr (by decide)
  have hremove' := (hremove 0).1.mpr (by decide)
  exact ⟨_, hreaches, htake', (htake 0).2 _ htake', hremove', (hremove 0).2 _ hremove'⟩

end IndexOp

end SolanaGacha
