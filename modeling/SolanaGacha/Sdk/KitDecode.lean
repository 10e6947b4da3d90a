import SolanaGacha.Sdk.Decode
import SolanaGacha.Sdk.Kit

/-!
# What the TypeScript SDK accepts

The decoders of the TypeScript SDK read the bytes at offsets of their own. Each field is that of the header
which the Rust SDK overlays on the same bytes (`Pool.decode_eq` and the lemmas after it), so each decoder
accepts an account exactly under the condition of `Sdk/Decode`.
-/

namespace SolanaGacha

open Except Layout Inventory

/-! ## Offsets -/

namespace GachaKit

variable {data : List UInt8}

theorem byteAt_eq (i : ℕ) : byteAt data i = (u8.readAt i data).toNat := by
  show (data.getD i 0).toNat = ((data.drop i).headD 0).toNat
  rw [List.headD_eq_head?_getD, List.head?_drop, List.getD_eq_getElem?_getD]

theorem readU64_eq {offset : ℕ} (h : offset + 8 ≤ data.length) :
    readU64 data offset = (Layout.u64.readAt offset data).toNat := by
  have hlen : ((data.drop offset).take 8).length = 8 := by
    rw [List.length_take, List.length_drop]
    omega
  have hlt := leNat_lt ((data.drop offset).take 8)
  rw [hlen] at hlt
  have hread : ((bytes 8).decode (data.drop offset)).val = (data.drop offset).take 8 :=
    (bytes 8).encode_decode _ (by rw [List.length_drop]; show 8 ≤ _; omega)
  show leNat _ = (UInt64.ofNat (leNat ((bytes 8).decode (data.drop offset)).val)).toNat
  rw [hread, UInt64.toNat_ofNat_of_lt' hlt]

theorem readU32_eq {offset : ℕ} (h : offset + 4 ≤ data.length) :
    readU32 data offset = (Layout.u32.readAt offset data).toNat := by
  have hlen : ((data.drop offset).take 4).length = 4 := by
    rw [List.length_take, List.length_drop]
    omega
  have hlt := leNat_lt ((data.drop offset).take 4)
  rw [hlen] at hlt
  have hread : ((bytes 4).decode (data.drop offset)).val = (data.drop offset).take 4 :=
    (bytes 4).encode_decode _ (by rw [List.length_drop]; show 4 ≤ _; omega)
  show leNat _ = (UInt32.ofNat (leNat ((bytes 4).decode (data.drop offset)).val)).toNat
  rw [hread, UInt32.toNat_ofNat_of_lt' hlt]

/-- The bytes of a number that fits. -/
theorem u64_eq_ok (n : UInt64) : GachaKit.u64 n.toNat = .ok (Layout.u64.encode n) := by
  have hlt := n.toNat_lt
  unfold GachaKit.u64 maxU64
  rw [failIf_neg (by omega), ok_bind]
  rfl

theorem u32_eq_ok (n : UInt32) : GachaKit.u32 n.toNat = .ok (Layout.u32.encode n) := by
  have hlt := n.toNat_lt
  unfold GachaKit.u32
  rw [failIf_neg (by simp; omega), ok_bind]
  rfl

theorem pda_eq_ok {rt : Runtime} {seeds : List (List UInt8)} {derived : Pubkey} {bump : ℕ} :
    pda rt seeds = .ok (derived, bump) ↔
      ∃ b : UInt8, rt.findProgramAddress seeds programId = some (derived, b) ∧ b.toNat = bump := by
  unfold pda
  simp only [bind_eq_ok, okOr_eq_ok, pure_eq_ok, Prod.exists, Prod.mk.injEq]
  constructor
  · rintro ⟨_, b, hfind, rfl, rfl⟩
    exact ⟨b, hfind, rfl⟩
  · rintro ⟨b, hfind, rfl⟩
    exact ⟨_, b, hfind, rfl, rfl⟩

theorem check_eq_ok {owner : Pubkey} {min : ℕ} (hmin : 0 < min) {u : Unit} :
    check owner data min = .ok u ↔ owner = programId ∧ min ≤ data.length ∧ data[0]? = some 1 := by
  unfold check byteAt
  rw [failIf_eq_ok, not_or, not_or, not_not, not_lt, not_not, List.getD_eq_getElem?_getD]
  refine and_congr_right fun _ => and_congr_right fun hlen => ?_
  rw [List.getElem?_eq_getElem (by omega), Option.getD_some, Option.some.injEq, ← UInt8.toNat_inj]
  rfl

end GachaKit

/-- The fields of a pool header by their offsets. -/
theorem Pool.decode_eq (data : List UInt8) : Pool.layout.decode data =
    { version := u8.readAt 0 data
      bump := u8.readAt 1 data
      tierCount := u8.readAt 2 data
      status := u8.readAt 3 data
      inventoryVersion := u32.readAt 4 data
      authority := (bytes 32).readAt 8 data
      operator := (bytes 32).readAt 40 data
      paymentMint := (bytes 32).readAt 72 data
      vault := (bytes 32).readAt 104 data
      id := u64.readAt 136 data
      price := u64.readAt 144 data
      deadlineSlots := u64.readAt 152 data
      bondPerDraw := u64.readAt 160 data
      pendingDraws := u64.readAt 168 data
      nextIndex := u64.readAt 176 data
      nextSettle := u64.readAt 184 data
      tiers := (Tier.layout.vector 8).readAt 192 data } := by
  unfold readAt Pool.layout
  simp only [Layout.iso, Layout.pair, List.drop_drop]
  rfl

/-- The fields of a pull header by their offsets. -/
theorem Pull.decode_eq (data : List UInt8) : Pull.layout.decode data =
    { version := u8.readAt 0 data
      bump := u8.readAt 1 data
      status := u8.readAt 2 data
      count := u8.readAt 3 data
      inventoryVersion := u32.readAt 4 data
      index := u64.readAt 8 data
      deadlineSlot := u64.readAt 16 data
      pool := (bytes 32).readAt 24 data
      buyer := (bytes 32).readAt 56 data
      clientSeed := (bytes 32).readAt 88 data
      outcomes := (Outcome.layout.vector 10).readAt 120 data } := by
  unfold readAt Pull.layout
  simp only [Layout.iso, Layout.pair, List.drop_drop]
  rfl

/-- The fields of an item header by their offsets. -/
theorem Item.decode_eq (data : List UInt8) : Item.layout.decode data =
    { version := u8.readAt 0 data
      bump := u8.readAt 1 data
      tier := u8.readAt 2 data
      padding := u8.readAt 3 data
      position := u32.readAt 4 data
      pool := (bytes 32).readAt 8 data
      asset := (bytes 32).readAt 40 data } := by
  unfold readAt Item.layout
  simp only [Layout.iso, Layout.pair, List.drop_drop]
  rfl

theorem Pool.tiers_eq (data : List UInt8) {t : ℕ} (ht : t < 8) :
    (Pool.layout.decode data).tiers[t] = ⟨u32.readAt (192 + 8 * t) data, u32.readAt (196 + 8 * t) data⟩ := by
  rw [Pool.decode_eq]
  have hread := Tier.layout.getElem_readAt_vector 192 data ht
  refine hread.trans ?_
  rw [show Tier.layout.size = 8 from rfl, Nat.mul_comm, readAt, Tier.layout, Layout.iso, Layout.pair]
  simp only [List.drop_drop, u32_size, readAt]
  rw [show 192 + 8 * t + 4 = 196 + 8 * t by omega]

/-! ## Pools -/

namespace GachaKit.Pool

variable {rt : Runtime} {key owner : Pubkey} {data : List UInt8}

/-- The header that the Rust SDK reads from the same bytes. -/
def header (pool : GachaKit.Pool) : SolanaGacha.Pool := SolanaGacha.Pool.layout.decode pool.data

section Header

variable {pool : GachaKit.Pool} (hlen : poolLen ≤ pool.data.length)

theorem authority_eq : pool.authority = pool.header.authority := by rw [header, Pool.decode_eq]; rfl
theorem operator_eq : pool.operator = pool.header.operator := by rw [header, Pool.decode_eq]; rfl
theorem paymentMint_eq : pool.paymentMint = pool.header.paymentMint := by rw [header, Pool.decode_eq]; rfl
theorem vault_eq : pool.vault = pool.header.vault := by rw [header, Pool.decode_eq]; rfl

theorem bump_eq : byteAt pool.data 1 = pool.header.bump.toNat := by rw [header, Pool.decode_eq, byteAt_eq]
theorem tierCount_eq : byteAt pool.data 2 = pool.header.tierCount.toNat := by
  rw [header, Pool.decode_eq, byteAt_eq]
theorem status_eq : byteAt pool.data 3 = pool.header.status.toNat := by
  rw [header, Pool.decode_eq, byteAt_eq]

include hlen

theorem id_eq : pool.id = pool.header.id.toNat := by
  rw [header, Pool.decode_eq]
  exact readU64_eq (hlen.trans' (by decide))

theorem price_eq : pool.price = pool.header.price.toNat := by
  rw [header, Pool.decode_eq]
  exact readU64_eq (hlen.trans' (by decide))

theorem deadlineSlots_eq : pool.deadlineSlots = pool.header.deadlineSlots.toNat := by
  rw [header, Pool.decode_eq]
  exact readU64_eq (hlen.trans' (by decide))

theorem bondPerDraw_eq : pool.bondPerDraw = pool.header.bondPerDraw.toNat := by
  rw [header, Pool.decode_eq]
  exact readU64_eq (hlen.trans' (by decide))

theorem pendingDraws_eq : pool.pendingDraws = pool.header.pendingDraws.toNat := by
  rw [header, Pool.decode_eq]
  exact readU64_eq (hlen.trans' (by decide))

theorem nextSettle_eq : pool.nextSettle = pool.header.nextSettle.toNat := by
  rw [header, Pool.decode_eq]
  exact readU64_eq (hlen.trans' (by decide))

theorem inventoryVersion_eq : pool.inventoryVersion = pool.header.inventoryVersion.toNat := by
  rw [header, Pool.decode_eq]
  exact readU32_eq (hlen.trans' (by decide))

/-- The tiers in use, read one by one. -/
theorem tiers_eq (hcount : pool.header.tierCount.toNat ≤ 8) : pool.tiers =
    (pool.header.tiers.toList.take pool.header.tierCount.toNat).map fun tier =>
      ⟨tier.weight.toNat, tier.remaining.toNat⟩ := by
  have hfits : 256 ≤ pool.data.length := hlen
  refine List.ext_getElem (by simp [tiers, tierCount_eq, hcount]) fun t ht _ => ?_
  simp only [tiers, List.length_map, List.length_range, tierCount_eq] at ht
  simp only [tiers, List.getElem_map, List.getElem_range, List.getElem_take, Vector.getElem_toList]
  rw [show pool.header.tiers[t] = _ from SolanaGacha.Pool.tiers_eq pool.data (by omega), readU32_eq (by omega),
    readU32_eq (by omega)]

end Header

/-! ### Tags -/

section Tags

variable {pool : GachaKit.Pool}

/-- The tag that the Rust SDK reads. -/
theorem tag_eq (p : ℕ) : pool.tag p = (tagAt (pool.data.drop poolLen) p).toNat := by
  unfold tag byteAt tagAt
  rw [List.getElem?_drop, List.getD_eq_getElem?_getD, tagOffset_eq]
  show (pool.data[256 + p / 64 * 96 + 32 + p % 64]?.getD 0).toNat =
    (pool.data[256 + (p / 64 * 96 + 32 + p % 64)]?.getD 0).toNat
  rw [Nat.add_assoc, Nat.add_assoc, Nat.add_assoc]

/-- The tags of all positions. -/
theorem map_tag (hlen : poolLen ≤ pool.data.length) : (List.range pool.inventoryVersion).map pool.tag =
    (pool.header.tags (pool.data.drop poolLen)).map UInt8.toNat := by
  rw [inventoryVersion_eq hlen, Pool.tags, List.map_map]
  exact List.map_congr_left fun p _ => tag_eq p

/-- The loop over some positions counts their tags, when each is that of a tier. -/
theorem countTags_eq_ok {tierCount : ℕ} {ps counts counts' : List ℕ} (hlen : counts.length = tierCount) :
    pool.countTags tierCount ps counts = .ok counts' ↔ (∀ t ∈ ps.map pool.tag, t ≤ tierCount) ∧
      counts' = (List.range tierCount).map fun t => counts.getD t 0 + (ps.map pool.tag).count (t + 1) := by
  induction ps generalizing counts with
  | nil =>
    have hself : ((List.range tierCount).map fun t => counts.getD t 0 + 0) = counts := by
      refine List.ext_getElem (by simp [hlen]) fun t ht ht' => ?_
      simp [List.getD_eq_getElem?_getD, List.getElem?_eq_getElem ht']
    show pure counts = Except.ok counts' ↔ _
    simp only [pure_eq_ok, List.map_nil, List.not_mem_nil, false_implies, implies_true, true_and,
      List.count_nil, hself]
    exact eq_comm
  | cons p ps ih =>
    rw [countTags, bind_eq_ok]
    simp only [failIf_eq_ok, not_lt, List.map_cons, List.forall_mem_cons, exists_const]
    rw [ih (by split_ifs <;> simp [hlen]), and_assoc]
    refine and_congr_right fun hle => and_congr_right fun _ => ?_
    refine Eq.congr_right (List.map_congr_left fun t ht => ?_)
    have hlt := List.mem_range.mp ht
    rw [List.count_cons]
    split_ifs with hpos hown hown
    · -- The counter of the tag's tier goes up by one, and no other one.
      rw [beq_iff_eq.mp hown, Nat.add_sub_cancel]
      simp only [List.getD_eq_getElem?_getD, List.getElem?_set, hlen, hlt, if_true, Option.getD_some]
      omega
    · have hne : pool.tag p - 1 ≠ t := fun heq => hown (by rw [beq_iff_eq]; omega)
      rw [List.getD_eq_getElem?_getD, List.getElem?_set_ne hne, ← List.getD_eq_getElem?_getD, add_zero]
    · exact absurd (by rw [beq_iff_eq.mp hown]; exact Nat.succ_pos t) hpos
    · rw [add_zero]

/-- The check of the tags of a complete account. -/
theorem checkTags_eq_ok {u : Unit} (hlen : poolLen ≤ pool.data.length)
    (hcount : pool.header.tierCount.toNat ≤ 8) : pool.checkTags pool.header.tierCount.toNat = .ok u ↔
      GachaRust.TagsAccepted pool.header (pool.header.tags (pool.data.drop poolLen)) := by
  unfold checkTags
  simp only [bind_eq_ok, failIf_eq_ok, countTags_eq_ok List.length_replicate, map_tag hlen, tiers_eq hlen hcount]
  generalize pool.header.tags (pool.data.drop poolLen) = tags
  have htier : (∀ t ∈ tags.map UInt8.toNat, t ≤ pool.header.tierCount.toNat) ↔
      ∀ tag ∈ tags, tag.toNat ≤ pool.header.tierCount.toNat := List.forall_mem_map
  have hcounts : ∀ t, t < pool.header.tierCount.toNat →
      (List.replicate pool.header.tierCount.toNat 0).getD t 0 + (tags.map UInt8.toNat).count (t + 1) =
        tags.count (tierTag t) := by
    intro t ht
    rw [List.getD_replicate _ ht, zero_add, ← tierTag_toNat (show t < 8 by omega)]
    exact List.count_map_of_injective tags UInt8.toNat (fun a b => UInt8.toNat_inj.mp) (tierTag t)
  constructor
  · rintro ⟨_, ⟨hle, rfl⟩, hsame⟩
    push Not at hsame
    refine ⟨htier.mp hle, fun t ht hlt => ?_⟩
    rw [← hcounts t hlt]
    exact hsame (⟨pool.header.tiers[t].weight.toNat, pool.header.tiers[t].remaining.toNat⟩, _)
      (List.mem_iff_getElem.mpr ⟨t, by simp; omega, by simp⟩)
  · rintro ⟨hle, hremaining⟩
    refine ⟨_, ⟨htier.mpr hle, rfl⟩, ?_⟩
    push Not
    intro x hx
    obtain ⟨t, ht, rfl⟩ := List.mem_iff_getElem.mp hx
    simp only [List.length_zip, List.length_map, List.length_take, Vector.length_toList,
      List.length_range] at ht
    simp only [List.getElem_zip, List.getElem_map, List.getElem_take, Vector.getElem_toList,
      List.getElem_range]
    rw [hcounts t (by omega)]
    exact hremaining t (by omega) (by omega)

end Tags

/-! ### Acceptance -/

/-- The checks that come before those of the tags and of the addresses. -/
theorem fields_iff {pool : GachaKit.Pool} (hlen : poolLen ≤ pool.data.length) :
    (integer (byteAt pool.data 2) 1 8 ∧ byteAt pool.data 3 < 3 ∧
      (pool.data.length = 256 ∨ pool.data.length = 256 + inventorySpace pool.inventoryVersion) ∧
        pool.price ≠ 0 ∧ pool.bondPerDraw ≠ 0 ∧ pool.deadlineSlots ≠ 0 ∧
          (pool.price + pool.bondPerDraw) * 10 ≤ maxU64 ∧ ∀ tier ∈ pool.tiers, tier.weight ≠ 0) ↔
    (1 ≤ pool.header.tierCount.toNat ∧ pool.header.tierCount.toNat ≤ 8) ∧ pool.header.status ≤ poolRetired ∧
      (pool.data.length = poolLen ∨
        pool.data.length = poolLen + SolanaGacha.inventorySpace pool.header.inventoryVersion) ∧
        pool.header.price ≠ 0 ∧ pool.header.bondPerDraw ≠ 0 ∧ pool.header.deadlineSlots ≠ 0 ∧
          (pool.header.price.toNat + pool.header.bondPerDraw.toNat) * 10 < 2 ^ 64 ∧
            ∀ tier ∈ pool.header.tiers.toList.take pool.header.tierCount.toNat, tier.weight ≠ 0 := by
  have hzero : ∀ n : UInt64, n.toNat ≠ 0 ↔ n ≠ 0 := fun n => by
    rw [Ne, Ne, ← UInt64.toNat_inj]
    rfl
  have hstatus : pool.header.status.toNat < 3 ↔ pool.header.status ≤ poolRetired := by
    rw [UInt8.le_iff_toNat_le, show poolRetired.toNat = 2 from rfl]
    omega
  have hspace : inventorySpace pool.header.inventoryVersion.toNat =
      SolanaGacha.inventorySpace pool.header.inventoryVersion := rfl
  rw [tierCount_eq, status_eq, inventoryVersion_eq hlen, price_eq hlen, bondPerDraw_eq hlen,
    deadlineSlots_eq hlen, hzero, hzero, hzero, hstatus, hspace]
  refine and_congr_right fun hcount => ?_
  have hweights : (∀ tier ∈ pool.tiers, tier.weight ≠ 0) ↔
      ∀ tier ∈ pool.header.tiers.toList.take pool.header.tierCount.toNat, tier.weight ≠ 0 := by
    rw [tiers_eq hlen hcount.2, List.forall_mem_map]
    refine forall₂_congr fun tier _ => ?_
    rw [Ne, Ne, ← UInt32.toNat_inj]
    rfl
  have hrefund : (pool.header.price.toNat + pool.header.bondPerDraw.toNat) * 10 ≤ maxU64 ↔
      (pool.header.price.toNat + pool.header.bondPerDraw.toNat) * 10 < 2 ^ 64 := by
    unfold maxU64
    omega
  rw [hweights, hrefund]
  rfl

theorem addressFor_eq_ok {pool : GachaKit.Pool} (hlen : poolLen ≤ pool.data.length) {derived : Pubkey}
    {bump : UInt8} : addressFor rt pool.authority pool.id = .ok (derived, bump.toNat) ↔
      rt.findProgramAddress [poolSeed, pool.header.authority.val, Layout.u64.encode pool.header.id] programId =
        some (derived, bump) := by
  unfold addressFor
  rw [id_eq hlen, u64_eq_ok, ok_bind, authority_eq, pda_eq_ok]
  constructor
  · rintro ⟨b, hfind, hb⟩
    rwa [UInt8.toNat_inj.mp hb] at hfind
  · exact fun hfind => ⟨bump, hfind, rfl⟩

/-- A pool account is accepted under the same condition. -/
theorem fromAccount_eq_ok {pool : GachaKit.Pool} : fromAccount rt key owner data = .ok pool ↔
    GachaRust.PoolAccepted rt key owner data (SolanaGacha.Pool.layout.decode data) ∧
      ⟨key, data⟩ = pool := by
  suffices hself : ∀ snapshot : GachaKit.Pool,
      fromAccount rt snapshot.address owner snapshot.data = .ok pool ↔
        GachaRust.PoolAccepted rt snapshot.address owner snapshot.data snapshot.header ∧ snapshot = pool from
    hself ⟨key, data⟩
  intro snapshot
  unfold fromAccount
  simp only [bind_eq_ok, check_eq_ok (show 0 < 256 by omega), failIf_eq_ok, pure_eq_ok, Prod.exists, not_or,
    not_and_or, not_lt, not_le, not_not]
  constructor
  · rintro ⟨_, ⟨howner, hlen, hversion⟩, _, hfields, _, hchecked, derived, bump, hderived, _, ⟨hkey, hbump⟩,
      vault, hvault, _, hsame, rfl⟩
    push Not at hfields
    obtain ⟨hcount, hstatus, hcomplete, hprice, hbond, hdeadline, hrefund, hweights⟩ :=
      (fields_iff hlen).mp hfields
    rw [bump_eq] at hbump
    rw [hbump] at hderived
    refine ⟨?_, rfl⟩
    constructor
    case owner => exact howner
    case length => exact hlen
    case version => exact hversion
    case tierCount => exact hcount
    case status => exact hstatus
    case complete => exact hcomplete
    case derived => exact hkey ▸ (addressFor_eq_ok hlen).mp hderived
    case vault =>
      rw [← paymentMint_eq, ← vault_eq, ← hsame]
      exact okOr_eq_ok.mp hvault
    case price => exact hprice
    case bondPerDraw => exact hbond
    case deadlineSlots => exact hdeadline
    case refund => exact hrefund
    case weights => exact hweights
    case tags =>
      intro hlong
      rw [if_pos (show 256 < _ from hlong), tierCount_eq] at hchecked
      exact (checkTags_eq_ok hlen hcount.2).mp hchecked
  · rintro ⟨h, rfl⟩
    have hfields := (fields_iff h.length).mpr ⟨h.tierCount, h.status, h.complete, h.price, h.bondPerDraw,
      h.deadlineSlots, h.refund, h.weights⟩
    have hchecked : (if 256 < snapshot.data.length then snapshot.checkTags (byteAt snapshot.data 2)
        else .ok ()) = .ok () := by
      split_ifs with hlong
      · rw [tierCount_eq]
        exact (checkTags_eq_ok h.length h.tierCount.2).mpr (h.tags hlong)
      · rfl
    refine ⟨(), ⟨h.owner, h.length, h.version⟩, (), ?_, (), hchecked, snapshot.address, _,
      (addressFor_eq_ok h.length).mpr h.derived, (), ⟨rfl, bump_eq.symm⟩, snapshot.vault, ?_, (), rfl, rfl⟩
    · push Not
      exact hfields
    · rw [paymentMint_eq, vault_eq]
      exact okOr_eq_ok.mpr h.vault

end GachaKit.Pool

/-! ## Pulls, Items and assets -/

namespace GachaKit

variable {rt : Runtime} {key owner : Pubkey} {data : List UInt8}

namespace Pull

/-- The header that the Rust SDK reads from the same bytes. -/
def header (pull : GachaKit.Pull) : SolanaGacha.Pull := SolanaGacha.Pull.layout.decode pull.data

variable {pull : GachaKit.Pull}

theorem bump_eq : byteAt pull.data 1 = pull.header.bump.toNat := by rw [header, Pull.decode_eq, byteAt_eq]
theorem statusByte_eq : byteAt pull.data 2 = pull.header.status.toNat := by
  rw [header, Pull.decode_eq, byteAt_eq]
theorem count_eq : pull.count = pull.header.count.toNat := by
  rw [header, Pull.decode_eq, count, byteAt_eq]
theorem pool_eq : pull.pool = pull.header.pool := by rw [header, Pull.decode_eq]; rfl
theorem buyer_eq : pull.buyer = pull.header.buyer := by rw [header, Pull.decode_eq]; rfl

theorem status_eq_pending : pull.status = .pending ↔ pull.header.status = statusPending := by
  unfold status
  rw [statusByte_eq, ← UInt8.toNat_inj]
  show (if pull.header.status.toNat = 0 then Status.pending else Status.settled) = _ ↔
    pull.header.status.toNat = 0
  split_ifs with h <;> simp [h]

variable (hlen : pullLen ≤ pull.data.length)

include hlen

theorem inventoryVersion_eq : pull.inventoryVersion = pull.header.inventoryVersion.toNat := by
  rw [header, Pull.decode_eq]
  exact readU32_eq (hlen.trans' (by decide))

theorem index_eq : pull.index = pull.header.index.toNat := by
  rw [header, Pull.decode_eq]
  exact readU64_eq (hlen.trans' (by decide))

theorem clientSeed_eq : pull.clientSeed = pull.header.clientSeed.val := by
  rw [header, Pull.decode_eq]
  refine ((bytes 32).encode_decode (pull.data.drop 88) ?_).symm
  rw [List.length_drop]
  exact Nat.le_sub_of_add_le (hlen.trans' (by decide))

omit hlen in
theorem outcome_eq {i : ℕ} (hi : i < 10) :
    byteAt pull.data (120 + i * 33) = pull.header.outcomes[i].tier.toNat := by
  rw [header, Pull.decode_eq, byteAt_eq]
  exact congrArg (fun outcome : Outcome => outcome.tier.toNat)
    (Outcome.layout.getElem_readAt_vector 120 pull.data hi).symm

omit hlen in
/-- The recorded tiers that are checked. -/
theorem outcomes_iff (hten : pull.header.count.toNat ≤ 10) :
    (pull.status = .settled → ∀ i ∈ List.range pull.count, byteAt pull.data (120 + i * 33) ≠ 255 →
      byteAt pull.data (120 + i * 33) < 8) ↔
    (pull.header.status ≠ statusPending →
      ∀ outcome ∈ pull.header.outcomes.toList.take pull.header.count.toNat,
        outcome.tier = delivered ∨ outcome.tier.toNat < 8) := by
  have hsettled : pull.status = .settled ↔ pull.header.status ≠ statusPending := by
    rw [Ne, ← status_eq_pending]
    cases pull.status <;> simp
  have hdelivered : ∀ tier : UInt8, tier.toNat ≠ 255 ↔ tier ≠ delivered := fun tier => by
    rw [Ne, Ne, ← UInt8.toNat_inj]
    rfl
  rw [hsettled, count_eq]
  refine imp_congr_right fun _ => ?_
  constructor
  · intro h outcome hmem
    obtain ⟨i, hi, rfl⟩ := List.mem_iff_getElem.mp hmem
    rw [List.length_take, Vector.length_toList] at hi
    have houtcome := h i (List.mem_range.mpr (by omega))
    rw [outcome_eq (by omega), hdelivered] at houtcome
    rw [List.getElem_take, Vector.getElem_toList]
    exact (Classical.em _).imp_right houtcome
  · intro h i hi
    have hlt := List.mem_range.mp hi
    rw [outcome_eq (by omega), hdelivered]
    refine fun hne => (h _ (List.mem_iff_getElem.mpr ⟨i, ?_, ?_⟩)).resolve_left hne
    · rw [List.length_take, Vector.length_toList]
      omega
    · rw [List.getElem_take, Vector.getElem_toList]

omit hlen in
/-- A pull account is accepted under the same condition. -/
theorem fromAccount_eq_ok : fromAccount rt key owner data = .ok pull ↔
    GachaRust.PullAccepted rt key owner data (SolanaGacha.Pull.layout.decode data) ∧
      ⟨key, data⟩ = pull := by
  suffices hself : ∀ snapshot : GachaKit.Pull,
      fromAccount rt snapshot.address owner snapshot.data = .ok pull ↔
        GachaRust.PullAccepted rt snapshot.address owner snapshot.data snapshot.header ∧ snapshot = pull from
    hself ⟨key, data⟩
  intro snapshot
  have hstatus : byteAt snapshot.data 2 ≤ 1 ↔ snapshot.header.status ≤ statusSettled := by
    rw [statusByte_eq, UInt8.le_iff_toNat_le]
    rfl
  have hcount : byteAt snapshot.data 3 = snapshot.header.count.toNat := count_eq
  -- The seed that is read is that of the header, and has its length.
  have hderived : ∀ {derived : Pubkey} {bump : UInt8}, pullLen ≤ snapshot.data.length →
      (addressFor rt snapshot.pool snapshot.clientSeed = .ok (derived, bump.toNat) ↔
        rt.findProgramAddress [pullSeed, snapshot.header.pool.val, snapshot.header.clientSeed.val] programId =
          some (derived, bump)) := by
    intro derived bump hlen
    unfold addressFor
    rw [clientSeed_eq hlen, failIf_neg (by simp), ok_bind, pool_eq, pda_eq_ok]
    constructor
    · rintro ⟨b, hfind, hb⟩
      rwa [UInt8.toNat_inj.mp hb] at hfind
    · exact fun hfind => ⟨bump, hfind, rfl⟩
  unfold fromAccount
  simp only [bind_eq_ok, check_eq_ok (show 0 < 450 by omega), failIf_eq_ok, pure_eq_ok, Prod.exists, not_or,
    not_lt, not_not]
  constructor
  · rintro ⟨_, ⟨howner, -, hversion⟩, _, ⟨hlength, hsettled, hone, hten⟩, _, houtcomes, derived, bump, hfind, _,
      ⟨hkey, hbump⟩, rfl⟩
    rw [hcount] at hone hten
    rw [hbump, bump_eq] at hfind
    push Not at houtcomes
    exact ⟨⟨howner, hlength, hversion, hstatus.mp hsettled, ⟨hone, hten⟩,
      hkey ▸ (hderived hlength.ge).mp hfind, (outcomes_iff hten).mp houtcomes⟩, rfl⟩
  · rintro ⟨h, rfl⟩
    refine ⟨(), ⟨h.owner, h.length.ge, h.version⟩, (), ⟨h.length, hstatus.mpr h.status, ?_⟩, (), ?_,
      snapshot.address, _, (hderived h.length.ge).mpr h.derived, (), ⟨rfl, bump_eq.symm⟩, rfl⟩
    · rw [hcount]
      exact h.count
    · push Not
      exact (outcomes_iff h.count.2).mpr h.outcomes

end Pull

namespace Item

/-- The header that the Rust SDK reads from the same bytes. -/
def header (item : GachaKit.Item) : SolanaGacha.Item := SolanaGacha.Item.layout.decode item.data

/-- The addresses of Items, from numbers in their range. -/
theorem addressFor_eq (pool : Pubkey) {tier : UInt8} (htier : tier.toNat < 8) (position : UInt32) :
    addressFor rt pool tier.toNat position.toNat =
      pda rt [itemSeed, pool.val, [tier], Layout.u32.encode position] := by
  unfold addressFor
  rw [failIf_neg (by simp; omega), ok_bind, u32_eq_ok, ok_bind, UInt8.ofNat_toNat]

/-- An item account is accepted under the same condition. -/
theorem fromAccount_eq_ok {item : GachaKit.Item} : fromAccount rt key owner data = .ok item ↔
    GachaRust.ItemAccepted rt key owner data (SolanaGacha.Item.layout.decode data) ∧
      ⟨key, data⟩ = item := by
  suffices hself : ∀ snapshot : GachaKit.Item,
      fromAccount rt snapshot.address owner snapshot.data = .ok item ↔
        GachaRust.ItemAccepted rt snapshot.address owner snapshot.data snapshot.header ∧ snapshot = item from
    hself ⟨key, data⟩
  intro snapshot
  have hbump : byteAt snapshot.data 1 = snapshot.header.bump.toNat := by
    rw [header, Item.decode_eq, byteAt_eq]
  have htier : snapshot.tier = snapshot.header.tier.toNat := by
    rw [header, Item.decode_eq, tier, byteAt_eq]
  have hpool : snapshot.pool = snapshot.header.pool := by
    rw [header, Item.decode_eq]
    rfl
  have hposition : itemLen ≤ snapshot.data.length → snapshot.position = snapshot.header.position.toNat := by
    intro hlen
    rw [header, Item.decode_eq]
    exact readU32_eq (hlen.trans' (by decide))
  have hderived : ∀ {derived : Pubkey} {bump : UInt8}, itemLen ≤ snapshot.data.length →
      snapshot.header.tier.toNat < 8 →
      (addressFor rt snapshot.pool snapshot.tier snapshot.position = .ok (derived, bump.toNat) ↔
        rt.findProgramAddress [itemSeed, snapshot.header.pool.val, [snapshot.header.tier],
          Layout.u32.encode snapshot.header.position] programId = some (derived, bump)) := by
    intro derived bump hlen hlt
    rw [htier, hposition hlen, hpool, addressFor_eq _ hlt, pda_eq_ok]
    constructor
    · rintro ⟨b, hfind, hb⟩
      rwa [UInt8.toNat_inj.mp hb] at hfind
    · exact fun hfind => ⟨bump, hfind, rfl⟩
  unfold fromAccount
  simp only [bind_eq_ok, check_eq_ok (show 0 < 72 by omega), failIf_eq_ok, pure_eq_ok, Prod.exists, not_or,
    not_le, not_not]
  constructor
  · rintro ⟨_, ⟨howner, -, hversion⟩, _, ⟨hlength, hlt⟩, derived, bump, hfind, _, ⟨hkey, hsame⟩, rfl⟩
    rw [htier] at hlt
    rw [hsame, hbump] at hfind
    exact ⟨⟨howner, hlength, hversion, hlt, hkey ▸ (hderived hlength.ge hlt).mp hfind⟩, rfl⟩
  · rintro ⟨h, rfl⟩
    exact ⟨(), ⟨h.owner, h.length.ge, h.version⟩, (), ⟨h.length, htier ▸ h.tier⟩, snapshot.address, _,
      (hderived h.length.ge h.tier).mpr h.derived, (), ⟨rfl, hbump.symm⟩, rfl⟩

end Item

/-- The collection of an asset, from the kind of its update authority as a number. -/
theorem collectionOf_eq (hlen : 33 < data.length) : CoreAsset.collectionOf data =
    if 2 < data[33].toNat ∨ data[33].toNat ≠ 0 ∧ data.length < 66 then .error .invalidAsset
    else .ok (if data[33].toNat = 2 then some ((bytes 32).readAt 34 data) else none) := by
  unfold CoreAsset.collectionOf
  rw [List.getElem?_eq_getElem hlen]
  generalize data[33] = kind
  -- The kinds of an update authority: none, an address and a collection.
  by_cases hkind : 2 < kind.toNat
  · have hrhs : ∀ x : Option Pubkey, (if 2 < kind.toNat ∨ kind.toNat ≠ 0 ∧ data.length < 66 then
        (.error .invalidAsset : Except GachaError (Option Pubkey)) else .ok x) = .error .invalidAsset :=
      fun x => if_pos (.inl hkind)
    rw [hrhs]
    split
    case h_4 => rfl
    all_goals
      next heq =>
        obtain rfl := Option.some_inj.mp heq
        exact absurd hkind (by decide)
  obtain rfl | rfl | rfl : kind = 0 ∨ kind = 1 ∨ kind = 2 := by
    simp only [← UInt8.toNat_inj]
    show _ = 0 ∨ _ = 1 ∨ _ = 2
    omega
  all_goals
    by_cases hlong : data.length < 66
    all_goals simp [hlong]

/-- The asset snapshots are the same. -/
theorem Asset.fromAccount_eq_ok {asset : GachaKit.Asset} : Asset.fromAccount key owner data = .ok asset ↔
    ∃ header, CoreAsset.fromAccount owner data = .ok header ∧
      ⟨key, header.owner, header.collection⟩ = asset := by
  have hfirst : byteAt data 0 = 1 ↔ data[0]? = some 1 := by
    unfold byteAt
    rw [List.getD_eq_getElem?_getD]
    cases data[0]? with
    | none => decide
    | some b =>
      rw [Option.getD_some, Option.some_inj, ← UInt8.toNat_inj]
      rfl
  unfold Asset.fromAccount CoreAsset.fromAccount
  by_cases hguard : owner ≠ coreId ∨ data.length < 34 ∨ data[0]? ≠ some 1
  · have hguard' : owner ≠ coreId ∨ data.length < 34 ∨ byteAt data 0 ≠ 1 := by rwa [Ne, Ne, hfirst]
    have hfail : failIf (owner ≠ coreId ∨ data.length < 34 ∨ data[0]? ≠ some 1) GachaError.invalidAsset =
      .error .invalidAsset := if_pos hguard
    have hfail' : failIf (owner ≠ coreId ∨ data.length < 34 ∨ byteAt data 0 ≠ 1)
      (Thrown.client .invalidAsset) = .error (.client .invalidAsset) := if_pos hguard'
    rw [hfail, hfail']
    constructor
    · intro h
      cases h
    · rintro ⟨_, h, -⟩
      cases h
  have hguard' : ¬(owner ≠ coreId ∨ data.length < 34 ∨ byteAt data 0 ≠ 1) := by rwa [Ne, Ne, hfirst]
  rw [failIf_neg hguard, failIf_neg hguard', ok_bind, ok_bind]
  have hlen : 33 < data.length := by
    have := fun h => hguard (.inr (.inl h))
    omega
  have hbyte : byteAt data 33 = data[33].toNat := by
    unfold byteAt
    rw [List.getD_eq_getElem _ _ hlen]
  rw [collectionOf_eq hlen, hbyte]
  by_cases hbad : 2 < data[33].toNat ∨ data[33].toNat ≠ 0 ∧ data.length < 66
  · have hfail : failIf (2 < data[33].toNat ∨ data[33].toNat ≠ 0 ∧ data.length < 66)
        (Thrown.client .invalidAsset) = .error (.client .invalidAsset) := if_pos hbad
    rw [if_pos hbad]
    simp only [hfail]
    constructor
    · intro h
      cases h
    · rintro ⟨_, h, -⟩
      cases h
  rw [if_neg hbad]
  simp only [failIf_neg hbad, ok_bind]
  constructor
  · intro h
    obtain rfl := Except.ok.inj h
    exact ⟨_, rfl, rfl⟩
  · rintro ⟨header, h, rfl⟩
    obtain rfl := Except.ok.inj h
    rfl

end GachaKit

end SolanaGacha
