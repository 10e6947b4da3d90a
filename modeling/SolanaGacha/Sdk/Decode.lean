import SolanaGacha.Index.Selection
import SolanaGacha.Ledger.Call
import SolanaGacha.Sdk.Snapshot

/-!
# What the Rust SDK accepts

`fromAccount` stated as a condition on the bytes: `PoolAccepted`, `PullAccepted` and `ItemAccepted` list the
checks on the decoded header, and each decoder accepts an account exactly under its condition. An address
is accepted with the bump that `find_program_address` returns, and with no other one.
-/

namespace SolanaGacha

open Except Layout Inventory

namespace GachaRust

variable {rt : Runtime} {address owner : Pubkey} {data : List UInt8}

theorem mapErr_eq_ok {α : Type} {e : Error} {x : Except SolanaGacha.Fault α} {a : α} :
    mapErr e x = .ok a ↔ x = .ok a := by
  cases x with
  | ok b => simp [mapErr]
  | error f => cases f <;> simp [mapErr]

theorem findProgramAddress_eq_ok {seeds : List (List UInt8)} {derived : Pubkey × UInt8} :
    findProgramAddress rt seeds = .ok derived ↔ rt.findProgramAddress seeds programId = some derived :=
  okOr_eq_ok

theorem check_eq_ok {minimum : ℕ} {version : UInt8} {u : Unit} :
    check owner data minimum version = .ok u ↔
      owner = programId ∧ minimum ≤ data.length ∧ data[0]? = some version := by
  unfold check
  rw [failIf_eq_ok, not_or, not_or, not_not, not_lt, not_not]

/-! ## Pools -/

/-- The tags behind a header: each is that of a tier in use, and they are counted in the header. -/
structure TagsAccepted (pool : SolanaGacha.Pool) (tags : List UInt8) : Prop where
  tier : ∀ tag ∈ tags, tag.toNat ≤ pool.tierCount.toNat
  remaining : ∀ t (_ : t < 8), t < pool.tierCount.toNat →
    pool.tiers[t].remaining.toNat = tags.count (tierTag t)

/-- What `Pool::from_account` checks of an account with this header. -/
structure PoolAccepted (rt : Runtime) (address owner : Pubkey) (data : List UInt8)
    (pool : SolanaGacha.Pool) : Prop where
  owner : owner = programId
  length : poolLen ≤ data.length
  version : data[0]? = some poolVersion
  tierCount : 1 ≤ pool.tierCount.toNat ∧ pool.tierCount.toNat ≤ 8
  status : pool.status ≤ poolRetired
  complete : data.length = poolLen ∨ data.length = poolLen + inventorySpace pool.inventoryVersion
  derived : rt.findProgramAddress [poolSeed, pool.authority.val, u64.encode pool.id] programId =
    some (address, pool.bump)
  vault : rt.ata address pool.paymentMint = some pool.vault
  price : pool.price ≠ 0
  bondPerDraw : pool.bondPerDraw ≠ 0
  deadlineSlots : pool.deadlineSlots ≠ 0
  refund : (pool.price.toNat + pool.bondPerDraw.toNat) * 10 < 2 ^ 64
  weights : ∀ tier ∈ pool.tiers.toList.take pool.tierCount.toNat, tier.weight ≠ 0
  tags : poolLen < data.length → TagsAccepted pool (pool.tags (data.drop poolLen))

theorem refundAmount_isOk {pool : SolanaGacha.Pool} :
    (∃ amount, pool.refundAmount (UInt64.ofNat maxCount) = .ok amount) ↔
      (pool.price.toNat + pool.bondPerDraw.toNat) * 10 < 2 ^ 64 := by
  have hten : (UInt64.ofNat maxCount).toNat = 10 := rfl
  simp only [Pool.refundAmount_eq_ok, hten]
  constructor
  · rintro ⟨amount, -, hamount⟩
    rw [hamount]
    exact amount.toNat_lt
  · intro hfits
    exact ⟨UInt64.ofNat _, by omega, (UInt64.toNat_ofNat_of_lt' hfits).symm⟩

namespace Pool

variable {pool : Pool}

/-- A complete account has all of its tags. -/
theorem tag_eq_tagAt (hcomplete : pool.data.length = poolLen + inventorySpace pool.header.inventoryVersion)
    {p : ℕ} (hp : p < pool.header.inventoryVersion.toNat) :
    pool.tag (UInt32.ofNat p) = .ok (tagAt (pool.data.drop poolLen) p) := by
  have hp32 : (UInt32.ofNat p).toNat = p :=
    UInt32.toNat_ofNat_of_lt' (hp.trans pool.header.inventoryVersion.toNat_lt)
  have hlt : poolLen + tagOffset p < pool.data.length := by
    rw [hcomplete, tagOffset_eq]
    show _ < _ + (_ + 63) / 64 * 96
    omega
  unfold tag
  rw [hp32, show poolLen + p / inventoryTagsPerBlock * inventoryBlockLen + inventoryCountsLen +
    p % inventoryTagsPerBlock = poolLen + tagOffset p by rw [tagOffset]; omega, tagAt, List.getElem?_drop,
    List.getElem?_eq_getElem hlt]
  rfl

/-- The loop over some positions counts their tags, when each is that of a tier. -/
theorem countTags_eq_ok {tierCount : UInt8} {ps : List UInt32} {tag : UInt32 → UInt8}
    (hread : ∀ p ∈ ps, pool.tag p = .ok (tag p)) {acc v : Vector UInt32 8} :
    pool.countTags tierCount ps acc = .ok v ↔
      (∀ t ∈ ps.map tag, t.toNat ≤ tierCount.toNat) ∧ (ps.map tag).foldlM addTag acc = .ok v := by
  induction ps generalizing acc with
  | nil =>
    show pure acc = Except.ok v ↔ _ ∧ pure acc = Except.ok v
    simp [pure, Except.pure]
  | cons p ps ih =>
    rw [countTags, hread p List.mem_cons_self, ok_bind, List.map_cons, foldlM_cons_eq_ok,
      List.forall_mem_cons]
    simp only [bind_eq_ok, failIf_eq_ok, mapErr_eq_ok, UInt8.not_lt, UInt8.le_iff_toNat_le,
      ih fun p hp => hread p (List.mem_cons_of_mem _ hp)]
    constructor
    · rintro ⟨_, hle, acc', hadd, hrest, hfold⟩
      exact ⟨⟨hle, hrest⟩, acc', hadd, hfold⟩
    · rintro ⟨⟨hle, hrest⟩, acc', hadd, hfold⟩
      exact ⟨(), hle, acc', hadd, hrest, hfold⟩

/-- The check of the tags of a complete account. -/
theorem checkTags_eq_ok {tiers : List Tier} {u : Unit} (hcount : pool.header.tierCount.toNat ≤ 8)
    (hcomplete : pool.data.length = poolLen + inventorySpace pool.header.inventoryVersion)
    (htiers : pool.header.tierSlice = .ok tiers) : pool.checkTags tiers = .ok u ↔
      TagsAccepted pool.header (pool.header.tags (pool.data.drop poolLen)) := by
  have htags : (positions pool.header.inventoryVersion).map
      (fun p => tagAt (pool.data.drop poolLen) p.toNat) = pool.header.tags (pool.data.drop poolLen) := by
    unfold positions Pool.tags
    rw [List.map_map]
    refine List.map_congr_left fun p hp => ?_
    have hlt := (List.mem_range.mp hp).trans pool.header.inventoryVersion.toNat_lt
    simp only [Function.comp_apply, UInt32.toNat_ofNat_of_lt' hlt]
  have hread : ∀ p ∈ positions pool.header.inventoryVersion,
      pool.tag p = .ok (tagAt (pool.data.drop poolLen) p.toNat) := by
    intro p hp
    obtain ⟨q, hq, rfl⟩ := List.mem_map.mp hp
    have hlt := List.mem_range.mp hq
    rw [UInt32.toNat_ofNat_of_lt' (hlt.trans pool.header.inventoryVersion.toNat_lt)]
    exact tag_eq_tagAt hcomplete hlt
  have hsmall : (pool.header.tags (pool.data.drop poolLen)).length < 2 ^ 32 := by
    rw [Pool.tags, List.length_map, List.length_range]
    exact pool.header.inventoryVersion.toNat_lt
  obtain ⟨-, rfl⟩ := Pool.tierSlice_eq_ok.mp htiers
  unfold checkTags
  simp only [bind_eq_ok, failIf_eq_ok, countTags_eq_ok hread, htags]
  generalize pool.header.tags (pool.data.drop poolLen) = tags at hsmall
  -- The counters that are compared are those of the tiers in use.
  have hcompare : ∀ v : Vector UInt32 8, (∀ t (h : t < 8), v[t].toNat = tags.count (tierTag t)) →
      ((¬∃ x ∈ (pool.header.tiers.toList.take pool.header.tierCount.toNat).zip v.toList,
        x.1.remaining ≠ x.2) ↔ ∀ t (_ : t < 8), t < pool.header.tierCount.toNat →
          pool.header.tiers[t].remaining.toNat = tags.count (tierTag t)) := by
    intro v hv
    push Not
    constructor
    · intro h t ht hlt
      have hx := h (pool.header.tiers[t], v[t]) (List.mem_iff_getElem.mpr ⟨t, by simp; omega, by simp⟩)
      rw [← hv t ht]
      exact congrArg UInt32.toNat hx
    · intro h x hx
      obtain ⟨t, ht, rfl⟩ := List.mem_iff_getElem.mp hx
      simp only [List.length_zip, List.length_take, Vector.length_toList] at ht
      have heq := h t (by omega) (by omega)
      rw [← hv t (by omega)] at heq
      simpa using UInt32.toNat_inj.mp heq
  constructor
  · rintro ⟨v, ⟨hle, hfold⟩, hsame⟩
    obtain ⟨v', hfold', hv⟩ := foldlM_addTag_eq_ok tags (fun tag h => (hle tag h).trans hcount)
      (.replicate 8 0) fun t ht => by
        have := List.count_le_length (l := tags) (a := tierTag t)
        simp only [Vector.getElem_replicate, UInt32.toNat_zero]
        omega
    obtain rfl := Except.ok.inj (hfold.symm.trans hfold')
    exact ⟨hle, (hcompare v fun t ht => by simpa using hv t ht).mp hsame⟩
  · rintro ⟨hle, hremaining⟩
    obtain ⟨v, hfold, hv⟩ := foldlM_addTag_eq_ok tags (fun tag h => (hle tag h).trans hcount)
      (.replicate 8 0) fun t ht => by
        have := List.count_le_length (l := tags) (a := tierTag t)
        simp only [Vector.getElem_replicate, UInt32.toNat_zero]
        omega
    exact ⟨v, ⟨hle, hfold⟩, (hcompare v fun t ht => by simpa using hv t ht).mpr hremaining⟩

/-- A pool account is accepted under its condition, and the snapshot holds its bytes. -/
theorem fromAccount_eq_ok : fromAccount rt address owner data = .ok pool ↔
    PoolAccepted rt address owner data (SolanaGacha.Pool.layout.decode data) ∧ ⟨address, data⟩ = pool := by
  unfold fromAccount
  simp only [bind_eq_ok, check_eq_ok, failIf_eq_ok, pure_eq_ok, mapErr_eq_ok, not_or, not_and_or, not_lt,
    not_not]
  generalize hsnapshot : (⟨address, data⟩ : Pool) = snapshot
  have hheader : SolanaGacha.Pool.layout.decode data = snapshot.header := hsnapshot ▸ rfl
  have hdata : snapshot.data = data := hsnapshot ▸ rfl
  -- The tags are checked in an account that has them.
  have htags : ∀ {tiers : List Tier} {u : Unit}, snapshot.header.tierCount.toNat ≤ 8 →
      (data.length = poolLen ∨ data.length = poolLen + inventorySpace snapshot.header.inventoryVersion) →
      snapshot.header.tierSlice = .ok tiers →
        ((if data.length > poolLen then snapshot.checkTags tiers else .ok ()) = .ok u ↔
          (poolLen < data.length → TagsAccepted snapshot.header
            (snapshot.header.tags (data.drop poolLen)))) := by
    intro tiers u hcount hcomplete htiers
    split_ifs with hlong
    · have hlen := hcomplete.resolve_left (by omega)
      rw [checkTags_eq_ok hcount (hdata ▸ hlen) htiers, hdata]
      exact ⟨fun h _ => h, fun h => h hlong⟩
    · exact ⟨fun _ h => absurd h hlong, fun _ => rfl⟩
  rw [hheader]
  constructor
  · rintro ⟨_, ⟨howner, hlength, hversion⟩, _, ⟨hone, height, hstatus, hcomplete⟩, derived, hderived, _, rfl,
      vault, hvault, _, ⟨rfl, hprice, hbond, hdeadline⟩, amount, hrefund, tiers, htiers, _, hweights, _,
      hchecked, rfl⟩
    refine ⟨?_, rfl⟩
    constructor
    case owner => exact howner
    case length => exact hlength
    case version => exact hversion
    case tierCount => exact ⟨hone, height⟩
    case status => exact UInt8.not_lt.mp hstatus
    case complete => exact hcomplete
    case derived => exact findProgramAddress_eq_ok.mp hderived
    case vault => exact okOr_eq_ok.mp hvault
    case price => exact hprice
    case bondPerDraw => exact hbond
    case deadlineSlots => exact hdeadline
    case refund => exact refundAmount_isOk.mp ⟨amount, hrefund⟩
    case weights =>
      obtain ⟨-, rfl⟩ := Pool.tierSlice_eq_ok.mp htiers
      push Not at hweights
      exact hweights
    case tags => exact (htags height hcomplete htiers).mp hchecked
  · rintro ⟨h, rfl⟩
    have htiers := Pool.tierSlice_eq_ok.mpr ⟨h.tierCount.2, rfl⟩
    obtain ⟨amount, hrefund⟩ := refundAmount_isOk.mpr h.refund
    have hweights := h.weights
    refine ⟨(), ⟨h.owner, h.length, h.version⟩, (), ⟨h.tierCount.1, h.tierCount.2,
      UInt8.not_lt.mpr h.status, h.complete⟩, _, findProgramAddress_eq_ok.mpr h.derived, (), rfl, _,
      okOr_eq_ok.mpr h.vault, (), ⟨rfl, h.price, h.bondPerDraw, h.deadlineSlots⟩, amount, hrefund, _, htiers,
      (), ?_, (), (htags h.tierCount.2 h.complete htiers).mpr h.tags, rfl⟩
    push Not
    exact hweights

end Pool

/-! ## Pulls and Items -/

/-- What `Pull::from_account` checks of an account with this header. -/
structure PullAccepted (rt : Runtime) (address owner : Pubkey) (data : List UInt8)
    (pull : SolanaGacha.Pull) : Prop where
  owner : owner = programId
  length : data.length = pullLen
  version : data[0]? = some pullVersion
  status : pull.status ≤ statusSettled
  count : 1 ≤ pull.count.toNat ∧ pull.count.toNat ≤ 10
  derived : rt.findProgramAddress [pullSeed, pull.pool.val, pull.clientSeed.val] programId =
    some (address, pull.bump)
  outcomes : pull.status ≠ statusPending → ∀ outcome ∈ pull.outcomes.toList.take pull.count.toNat,
    outcome.tier = delivered ∨ outcome.tier.toNat < 8

/-- A pull account is accepted under its condition, and the snapshot holds its bytes. -/
theorem Pull.fromAccount_eq_ok {pull : Pull} : Pull.fromAccount rt address owner data = .ok pull ↔
    PullAccepted rt address owner data (SolanaGacha.Pull.layout.decode data) ∧ ⟨address, data⟩ = pull := by
  unfold Pull.fromAccount
  simp only [bind_eq_ok, check_eq_ok, failIf_eq_ok, pure_eq_ok, not_or, not_lt, not_not]
  generalize hsnapshot : (⟨address, data⟩ : Pull) = snapshot
  have hheader : SolanaGacha.Pull.layout.decode data = snapshot.header := hsnapshot ▸ rfl
  have houtcomes : ¬(snapshot.status = .settled ∧ snapshot.badOutcome) ↔
      (snapshot.header.status ≠ statusPending →
        ∀ outcome ∈ snapshot.header.outcomes.toList.take snapshot.header.count.toNat,
          outcome.tier = delivered ∨ outcome.tier.toNat < 8) := by
    unfold Pull.status Pull.badOutcome maxTiers
    by_cases hpending : snapshot.header.status = statusPending
    · simp [hpending]
    · rw [if_neg hpending]
      push Not
      constructor
      · intro h _ outcome hmem
        by_cases hdelivered : outcome.tier = delivered
        · exact .inl hdelivered
        · exact .inr (h rfl outcome hmem hdelivered)
      · intro h _ outcome hmem hdelivered
        exact (h hpending outcome hmem).resolve_left hdelivered
  rw [hheader]
  constructor
  · rintro ⟨_, ⟨howner, -, hversion⟩, _, ⟨hlength, hstatus, hone, hten⟩, derived, hderived, _, rfl, _, hbad,
      rfl⟩
    exact ⟨⟨howner, hlength, hversion, UInt8.not_lt.mp hstatus, ⟨hone, hten⟩,
      findProgramAddress_eq_ok.mp hderived, houtcomes.mp hbad⟩, rfl⟩
  · rintro ⟨h, rfl⟩
    exact ⟨(), ⟨h.owner, h.length.ge, h.version⟩, (), ⟨h.length, UInt8.not_lt.mpr h.status, h.count.1,
      h.count.2⟩, _, findProgramAddress_eq_ok.mpr h.derived, (), rfl, (), houtcomes.mpr h.outcomes, rfl⟩

/-- What `Item::from_account` checks of an account with this header. -/
structure ItemAccepted (rt : Runtime) (address owner : Pubkey) (data : List UInt8)
    (item : SolanaGacha.Item) : Prop where
  owner : owner = programId
  length : data.length = itemLen
  version : data[0]? = some itemVersion
  tier : item.tier.toNat < 8
  derived : rt.findProgramAddress [itemSeed, item.pool.val, [item.tier], u32.encode item.position] programId =
    some (address, item.bump)

/-- An item account is accepted under its condition, and the snapshot holds its bytes. -/
theorem Item.fromAccount_eq_ok {item : Item} : Item.fromAccount rt address owner data = .ok item ↔
    ItemAccepted rt address owner data (SolanaGacha.Item.layout.decode data) ∧ ⟨address, data⟩ = item := by
  unfold Item.fromAccount
  simp only [bind_eq_ok, check_eq_ok, failIf_eq_ok, pure_eq_ok, not_or, not_le, not_not]
  constructor
  · rintro ⟨_, ⟨howner, -, hversion⟩, _, ⟨hlength, htier⟩, derived, hderived, _, rfl, rfl⟩
    exact ⟨⟨howner, hlength, hversion, htier, findProgramAddress_eq_ok.mp hderived⟩, rfl⟩
  · rintro ⟨h, rfl⟩
    exact ⟨(), ⟨h.owner, h.length.ge, h.version⟩, (), ⟨h.length, h.tier⟩, _,
      findProgramAddress_eq_ok.mpr h.derived, (), rfl, rfl⟩

end GachaRust

end SolanaGacha
