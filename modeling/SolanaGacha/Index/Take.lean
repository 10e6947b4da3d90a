import SolanaGacha.Index.Update

/-!
# Take

`take` descends the tree in powers of two to the block of the wanted position, and takes one off the
nodes on its way. The nodes of each level that it writes are those that cover the block
(`takeDescend_run`), so the descent and a bottom-up walk over the same block change the same nodes, and
`take` clears the tag of the `rank`th available position of its tier (`take_run`).
-/

namespace SolanaGacha

open Except Layout Fenwick

namespace Inventory

/-! ## Take -/

/-- The positions of a tag in ascending order: the `rank`th is the one that `rank` others precede. -/
theorem getElem?_idxsOf {tags : List UInt8} {tag : UInt8} {rank p : ℕ} :
    (tags.idxsOf tag)[rank]? = some p ↔
      tags[p]? = some tag ∧ (tags.take p).count tag = rank := by
  induction tags generalizing rank p with
  | nil => simp
  | cons a tags ih =>
    rw [List.idxsOf_cons, List.idxsOf_start]
    by_cases ha : a = tag
    · subst ha
      simp only [BEq.rfl, if_true]
      cases p with
      | zero =>
        cases rank with
        | zero => simp
        | succ rank =>
          simp only [List.getElem?_cons_succ, List.getElem?_map, Option.map_eq_some_iff]
          constructor
          · rintro ⟨q, -, hq⟩
            omega
          · rintro ⟨-, hc⟩
            simp at hc
      | succ p =>
        cases rank with
        | zero => simp
        | succ rank => simp [ih]
    · have hbeq : (a == tag) = false := by simpa using ha
      simp only [hbeq, Bool.false_eq_true, if_false, List.getElem?_map, Option.map_eq_some_iff]
      cases p with
      | zero => simp [ha]
      | succ p => simp [ih, ha]

/-- The scan of one block finds the `rank`th of its tags. -/
theorem takeScan_eq {tier : UInt8} (ht : tier.toNat < 8) (slice : List UInt8) (start : ℕ)
    (rank : UInt32) : takeScan tier slice start rank =
      .ok ((slice.idxsOf (tierTag tier.toNat) start)[rank.toNat]?) := by
  induction slice generalizing start rank with
  | nil => rfl
  | cons tag slice ih =>
    rw [takeScan, checkedAdd_one_eq ht, List.idxsOf_cons]
    simp only [okOr, ok_bind]
    by_cases htag : tag = tierTag tier.toNat
    · subst htag
      by_cases hrank : rank = 0
      · subst hrank
        simp [pure, Except.pure]
      · have hpos : 0 < rank.toNat := Nat.pos_of_ne_zero fun h =>
          hrank (UInt32.toNat.inj (by simpa using h))
        have hsub : (rank - 1).toNat = rank.toNat - 1 := by
          rw [UInt32.toNat_sub_of_le _ _ (by rw [UInt32.le_iff_toNat_le, UInt32.toNat_one]; omega),
            UInt32.toNat_one]
        simp only [ne_eq, not_true_eq_false, if_false, hrank, not_false_eq_true, if_true, BEq.rfl]
        rw [ih, hsub, List.getElem?_cons, if_neg (by omega)]
    · have hbeq : (tag == tierTag tier.toNat) = false := by simpa using htag
      simp only [ne_eq, htag, not_false_eq_true, if_true, hbeq, Bool.false_eq_true, if_false]
      exact ih (start + 1) rank

theorem le_nextPowerOfTwo (n : ℕ) : ∃ e, nextPowerOfTwo n = 2 ^ e ∧ n ≤ 2 ^ e := by
  unfold nextPowerOfTwo
  split_ifs with h
  · exact ⟨0, rfl, h⟩
  · have := Nat.lt_log2_self (n := n - 1)
    exact ⟨_, rfl, by omega⟩

section Descend

variable {tags : List UInt8} {tier blocks rank block : ℕ} (ht : tier < 8)
  (hblock : block < blocks) (hlo : Nat.count (Live tags tier) (64 * block) ≤ rank)
  (hhi : rank < Nat.count (Live tags tier) (64 * (block + 1)))

include ht hblock hlo hhi

/-- The descent to the block that holds the `rank`th available position of a tier, from a window of
`2^e` blocks around it: it ends at the block with the rank left in it, and takes one off the tier in
exactly the nodes below level `e` that cover the block. -/
theorem takeDescend_run (e node : ℕ) (left : UInt32) (data : List UInt8) (hdvd : 2 ^ e ∣ node)
    (hle : node ≤ block) (hlt : block < node + 2 ^ e)
    (hleft : left.toNat + Nat.count (Live tags tier) (64 * node) = rank)
    (hlen : blocks * 96 ≤ data.length)
    (hnode : ∀ k, 0 < k → k ≤ blocks → width k < 2 ^ e →
      (nodeAt data k tier).toNat = nodeSum (blockCount 64 (Live tags tier)) k) :
    ∃ data' left', takeDescend tier blocks (2 ^ e / 2) node left ⟨data⟩ =
        (.ok (block, left'), ⟨data'⟩) ∧
      left'.toNat + Nat.count (Live tags tier) (64 * block) = rank ∧
      data'.length = data.length ∧ (∀ p, tagAt data' p = tagAt data p) ∧
      ∀ k tier', 0 < k → k ≤ blocks → tier' < 8 → nodeAt data' k tier' =
        if tier' = tier ∧ Covers k block ∧ width k < 2 ^ e then nodeAt data k tier' - 1
        else nodeAt data k tier' := by
  have hmono : Monotone fun k => Nat.count (Live tags tier) (64 * k) :=
    fun a b hab => Nat.count_monotone _ (Nat.mul_le_mul_left 64 hab)
  induction e generalizing node left data with
  | zero =>
    obtain rfl : node = block := by omega
    refine ⟨data, left, by rw [takeDescend, if_pos (by omega)]; rfl, hleft, rfl, fun _ => rfl,
      fun k tier' hk _ _ => ?_⟩
    have := width_pos hk
    rw [if_neg (by omega)]
  | succ e ih =>
    have hstep : 2 ^ (e + 1) / 2 = 2 ^ e := by rw [pow_succ]; omega
    have hpos : 0 < 2 ^ e := by positivity
    have hhalf : 2 ^ e ∣ node := (pow_dvd_pow 2 (Nat.le_succ e)).trans hdvd
    have hbelow : ∀ k, width k < 2 ^ e → width k < 2 ^ (e + 1) := fun k h => by
      rw [pow_succ]
      omega
    -- Which nodes of the level of this step cover the block.
    have hlevel : ∀ k, 0 < k → ((Covers k block ∧ width k < 2 ^ (e + 1)) ↔
        (k = node + 2 ^ e ∧ block < node + 2 ^ e) ∨ (Covers k block ∧ width k < 2 ^ e)) := by
      intro k hk
      rw [width_lt_succ hk]
      constructor
      · rintro ⟨hc, hw | hw⟩
        · exact .inr ⟨hc, hw⟩
        · exact .inl ((covers_iff_of_level hdvd hk hw hle hlt).mp hc)
      · rintro (⟨rfl, hb⟩ | ⟨hc, hw⟩)
        · have hw := width_add hdvd
          exact ⟨(covers_iff_of_level hdvd hk hw hle hlt).mpr ⟨rfl, hb⟩, .inr hw⟩
        · exact ⟨hc, .inl hw⟩
    rw [hstep, takeDescend, if_neg (by omega)]
    by_cases hnext : node + 2 ^ e ≤ blocks
    swap
    · -- The step leads out of the tree, and the block is below it.
      obtain ⟨data', left', hrun, hleft', hlen', htag', hnode'⟩ := ih node left data hhalf hle
        (by omega) hleft hlen (fun k hk hkb hw => hnode k hk hkb (hbelow k hw))
      refine ⟨data', left', by rw [if_neg hnext]; exact hrun, hleft', hlen', htag',
        fun k tier' hk hkb ht' => ?_⟩
      rw [hnode' k tier' hk hkb ht']
      refine if_congr (and_congr_right fun _ => ?_) rfl rfl
      rw [hlevel k hk]
      refine ⟨.inr, fun h => h.resolve_left ?_⟩
      rintro ⟨rfl, -⟩
      omega
    have hk : 0 < node + 2 ^ e := by omega
    have hklen : (node + 2 ^ e) * 96 ≤ data.length := by omega
    have hread : InventoryM.read (fun inventory => count inventory (node + 2 ^ e) tier) ⟨data⟩ =
        (.ok (nodeAt data (node + 2 ^ e) tier), ⟨data⟩) :=
      InventoryM.read_run_ok (count_eq_ok hk hklen ht)
    have hcount : (nodeAt data (node + 2 ^ e) tier).toNat +
        Nat.count (Live tags tier) (64 * node) = Nat.count (Live tags tier) (64 * (node + 2 ^ e)) := by
      have h := nodeSum_blockCount 64 (Live tags tier) hk
      rw [parent_add hdvd] at h
      rw [hnode _ hk hnext (by rw [width_add hdvd, pow_succ]; omega), h]
    rw [if_pos hnext, InventoryM.bind_run_ok hread]
    split_ifs with hskip
    · -- The node's available positions all precede the one wanted.
      rw [UInt32.le_iff_toNat_le] at hskip
      have hbeyond : node + 2 ^ e ≤ block := by
        by_contra hlt'
        have := hmono (show block + 1 ≤ node + 2 ^ e by omega)
        simp only at this
        omega
      obtain ⟨data', left', hrun, hleft', hlen', htag', hnode'⟩ := ih (node + 2 ^ e)
        (left - nodeAt data (node + 2 ^ e) tier) data (hhalf.add dvd_rfl) hbeyond
        (by rw [pow_succ] at hlt; omega)
        (by rw [UInt32.toNat_sub_of_le _ _ (UInt32.le_iff_toNat_le.mpr hskip)]; omega) hlen
        (fun k hk hkb hw => hnode k hk hkb (hbelow k hw))
      refine ⟨data', left', hrun, hleft', hlen', htag', fun k tier' hk hkb ht' => ?_⟩
      rw [hnode' k tier' hk hkb ht']
      refine if_congr (and_congr_right fun _ => ?_) rfl rfl
      rw [hlevel k hk]
      exact ⟨.inr, fun h => h.resolve_left (by omega)⟩
    · -- The node holds the position, so one is taken off its count.
      rw [UInt32.le_iff_toNat_le] at hskip
      have hwithin : block < node + 2 ^ e := by
        by_contra hge
        have := hmono (show node + 2 ^ e ≤ block by omega)
        simp only at this
        omega
      rw [InventoryM.bind_run_ok (setCount_run hk hklen ht _)]
      obtain ⟨data', left', hrun, hleft', hlen', htag', hnode'⟩ := ih node left
        (u32.writeAt (countOffset (node + 2 ^ e) tier) (nodeAt data (node + 2 ^ e) tier - 1) data)
        hhalf hle hwithin hleft (by rw [length_writeCount hk hklen ht]; exact hlen)
        (fun k hk' hkb hw => by
          have hne : k ≠ node + 2 ^ e := by
            rintro rfl
            rw [width_add hdvd] at hw
            omega
          rw [nodeAt_writeCount hk hklen ht _ hk' ht, if_neg (by tauto)]
          exact hnode k hk' hkb (hbelow k hw))
      refine ⟨data', left', hrun, hleft', by rw [hlen', length_writeCount hk hklen ht],
        fun p => by rw [htag', tagAt_writeCount hk hklen ht], fun k tier' hk' hkb ht' => ?_⟩
      rw [hnode' k tier' hk' hkb ht', nodeAt_writeCount hk hklen ht _ hk' ht']
      simp only [hlevel k hk']
      by_cases hkn : k = node + 2 ^ e
      · subst hkn
        have hw : ¬width (node + 2 ^ e) < 2 ^ e := by rw [width_add hdvd]; omega
        by_cases htt : tier' = tier
        · subst htt
          simp [hw, hwithin]
        · simp [htt]
      · simp [hkn]

end Descend

/-- `take`, with the sizes of a block. -/
theorem take_eq (tier : UInt8) (rank : UInt32) : take tier rank = (do
    let blocks ← InventoryM.read fun inventory => .ok inventory.blocks
    let (node, rank) ← takeDescend tier.toNat blocks (nextPowerOfTwo blocks) 0 rank
    if node = blocks then InventoryM.read fun _ => .error GachaError.invalidItem
    else do
      let found ← InventoryM.read fun inventory => do
        failIf (inventory.data.length < node * 96 + 32 + 64) Fault.panicked
        takeScan tier ((inventory.data.drop (node * 96 + 32)).take 64) 0 rank
      match found with
      | some offset => do
        InventoryM.modify fun data => data.set (node * 96 + 32 + offset) 0
        return UInt32.ofNat (node * 64 + offset)
      | none => InventoryM.read fun _ => .error GachaError.invalidItem) := rfl

/-- `take` clears the tag of the `rank`th available position of a tier, and returns the position. -/
theorem take_run {data tags : List UInt8} (h : Indexed data tags) {tier : UInt8} (ht : tier.toNat < 8)
    {rank : UInt32} {p : ℕ} (hp : (tags.idxsOf (tierTag tier.toNat))[rank.toNat]? = some p) :
    ∃ data', take tier rank ⟨data⟩ = (.ok (UInt32.ofNat p), ⟨data'⟩) ∧ Indexed data' (tags.set p 0) := by
  have hlen := h.length
  have hsmall := h.small
  obtain ⟨htagp, hrank⟩ := getElem?_idxsOf.mp hp
  have hlive : Live tags tier.toNat p := by rw [Live, List.getD_eq_getElem?_getD, htagp, Option.getD_some]
  have hplt := lt_length_of_live ht hlive
  rw [← count_live ht] at hrank
  -- The block of the position holds the rank: the positions before the block are at most `rank`.
  have hlo : Nat.count (Live tags tier.toNat) (64 * (p / 64)) ≤ rank.toNat := by
    rw [← hrank]
    exact Nat.count_monotone _ (by omega)
  have hhi : rank.toNat < Nat.count (Live tags tier.toNat) (64 * (p / 64 + 1)) := by
    have hsucc := Nat.count_succ (p := Live tags tier.toNat) p
    rw [if_pos hlive] at hsucc
    have hmono := Nat.count_monotone (Live tags tier.toNat) (show p + 1 ≤ 64 * (p / 64 + 1) by omega)
    omega
  obtain ⟨e, hpow, hpowle⟩ := le_nextPowerOfTwo ((tags.length + 63) / 64)
  have hdouble : 2 ^ (e + 1) = 2 ^ e + 2 ^ e := by ring
  obtain ⟨mid, left, hdescend, hleft, hmlen, hmtag, hmnode⟩ := takeDescend_run ht
    (show p / 64 < (tags.length + 63) / 64 by omega) hlo hhi (e + 1) 0 rank data (dvd_zero _)
    (Nat.zero_le _) (by omega) (by simp) (by omega)
    (fun k hk hkb _ => h.node k _ hk hkb ht)
  rw [show 2 ^ (e + 1) / 2 = nextPowerOfTwo ((tags.length + 63) / 64) by omega] at hdescend
  -- The scan of the block finds the position.
  have hmtag' : ∀ q, tagAt mid q = tags.getD q 0 := fun q => by rw [hmtag, h.tag]
  have hslice := tags_slice hmtag' (b := p / 64) le_rfl (by omega)
  have hscan : (((mid.drop (p / 64 * 96 + 32)).take 64).idxsOf (tierTag tier.toNat))[left.toNat]? =
      some (p % 64) := by
    rw [hslice, getElem?_idxsOf]
    have hdrop : 64 * (p / 64) + p % 64 = p := Nat.div_add_mod p 64
    constructor
    · rw [List.getElem?_take_of_lt (by omega),
        List.getElem?_append_left (by rw [List.length_drop]; omega), List.getElem?_drop, hdrop, htagp]
    · rw [List.take_take, min_eq_left (by omega),
        List.take_append_of_le_length (by rw [List.length_drop]; omega)]
      have htake : tags.take p = tags.take (64 * (p / 64)) ++ (tags.drop (64 * (p / 64))).take (p % 64) := by
        rw [← List.take_add, hdrop]
      have hcount := congrArg (List.count (tierTag tier.toNat)) htake
      rw [List.count_append, ← count_live ht, ← count_live ht] at hcount
      omega
  have htoff : tagOffset p = p / 64 * 96 + 32 + p % 64 := tagOffset_eq p
  have hblocks : (⟨data⟩ : Inventory).blocks = (tags.length + 63) / 64 := by
    show data.length / 96 = _
    omega
  refine ⟨mid.set (tagOffset p) 0, ?_, h.clear ht hlive (by rw [List.length_set, hmlen])
    (fun q => by rw [tagAt_setTag (by omega), hmtag]) fun k tier' hk hkb ht' => ?_⟩
  · have hread : InventoryM.read (fun inventory => do
        failIf (inventory.data.length < p / 64 * 96 + 32 + 64) Fault.panicked
        takeScan tier ((inventory.data.drop (p / 64 * 96 + 32)).take 64) 0 left) ⟨mid⟩ =
          (.ok (some (p % 64)), ⟨mid⟩) := by
      apply InventoryM.read_run_ok
      rw [failIf_neg (by simp only; omega), ok_bind, takeScan_eq ht, hscan]
    rw [take_eq, InventoryM.bind_run_ok (blocks_run _), hblocks, InventoryM.bind_run_ok hdescend]
    simp only
    rw [if_neg (by omega), InventoryM.bind_run_ok hread]
    simp only
    rw [InventoryM.bind_run_ok (InventoryM.modify_run _ _), htoff,
      show p / 64 * 64 + p % 64 = p by omega]
    rfl
  · have hw : width k < 2 ^ (e + 1) := by
      have := width_le k
      omega
    rw [nodeAt_setTag _ _ _ _ ht', hmnode k tier' hk hkb ht']
    simp only [hw, and_true]

end Inventory

end SolanaGacha
