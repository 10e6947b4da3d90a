import SolanaGacha.Sdk.Agreement
import SolanaGacha.Sdk.KitInstructions
import SolanaGacha.Sdk.Recovery
import SolanaGacha.Sdk.Wire

/-!
# The two SDKs build the same instructions

An application passes numbers and bytes to the TypeScript builders, and fixed-width values to the Rust ones
(`toU8`, `toU32`, `toU64`, `toI64`, `toBytes`). On every accepted snapshot a TypeScript builder returns what the
Rust builder returns on the narrowed arguments, and fails where an argument does not fit or the Rust builder
fails (`GachaRust.Pool.SameInstructions`). Both failures need not have the same code, since the SDKs do not make
their checks in the same order, so results are compared without errors.
-/

namespace SolanaGacha

open Except Layout

/-! ## Narrowing -/

/-- A number as a value of a type that holds `size` of them. -/
def narrow {α : Type} (size : ℕ) (ofNat : ℕ → α) (n : ℤ) : Option α :=
  if 0 ≤ n ∧ n < size then some (ofNat n.toNat) else none

def toU8 : ℤ → Option UInt8 := narrow (2 ^ 8) UInt8.ofNat
def toU32 : ℤ → Option UInt32 := narrow (2 ^ 32) UInt32.ofNat
def toU64 : ℤ → Option UInt64 := narrow (2 ^ 64) UInt64.ofNat

def toI64 (n : ℤ) : Option Int64 := if -2 ^ 63 ≤ n ∧ n < 2 ^ 63 then some (Int64.ofInt n) else none

/-- Bytes as an array of a fixed length. -/
def toBytes (n : ℕ) (data : List UInt8) : Option (FixedBytes n) :=
  if h : data.length = n then some ⟨data, h⟩ else none

/-- A number is out of range, or is that of a value. -/
theorem narrow_cases {α : Type} {size : ℕ} {ofNat : ℕ → α} {toNat : α → ℕ} (h : ∀ n < size, toNat (ofNat n) = n)
    (n : ℤ) : ((n < 0 ∨ size ≤ n) ∧ narrow size ofNat n = none) ∨
      ∃ a, n = toNat a ∧ narrow size ofNat n = some a := by
  unfold narrow
  split_ifs with hrange
  · obtain ⟨hpos, hlt⟩ := hrange
    exact .inr ⟨ofNat n.toNat, by rw [h n.toNat (by omega), Int.toNat_of_nonneg hpos], rfl⟩
  · exact .inl ⟨by omega, rfl⟩

theorem toU8_cases (n : ℤ) : ((n < 0 ∨ 2 ^ 8 ≤ n) ∧ toU8 n = none) ∨ ∃ a : UInt8, n = a.toNat ∧ toU8 n = some a :=
  narrow_cases (fun _ h => UInt8.toNat_ofNat_of_lt' h) n

theorem toU32_cases (n : ℤ) :
    ((n < 0 ∨ 2 ^ 32 ≤ n) ∧ toU32 n = none) ∨ ∃ a : UInt32, n = a.toNat ∧ toU32 n = some a :=
  narrow_cases (fun _ h => UInt32.toNat_ofNat_of_lt' h) n

theorem toU64_cases (n : ℤ) :
    ((n < 0 ∨ 2 ^ 64 ≤ n) ∧ toU64 n = none) ∨ ∃ a : UInt64, n = a.toNat ∧ toU64 n = some a :=
  narrow_cases (fun _ h => UInt64.toNat_ofNat_of_lt' h) n

theorem toI64_cases (n : ℤ) :
    ((n < -2 ^ 63 ∨ 2 ^ 63 ≤ n) ∧ toI64 n = none) ∨ ∃ a : Int64, n = a.toInt ∧ toI64 n = some a := by
  unfold toI64
  split_ifs with h
  · exact .inr ⟨Int64.ofInt n, (Int64.toInt_ofInt_of_le h.1 h.2).symm, rfl⟩
  · exact .inl ⟨by omega, rfl⟩

theorem toBytes_cases (n : ℕ) (data : List UInt8) : (data.length ≠ n ∧ toBytes n data = none) ∨
    ∃ a : FixedBytes n, data = a.val ∧ toBytes n data = some a := by
  unfold toBytes
  split_ifs with h
  · exact .inr ⟨⟨data, h⟩, rfl, rfl⟩
  · exact .inl ⟨h, rfl⟩

/-! ## Arguments -/

namespace GachaKit

theorem u64Argument_toOption (n : ℤ) : (u64Argument n).toOption = (toU64 n).map Layout.u64.encode := by
  unfold u64Argument maxU64
  rw [toOption_failIf_bind]
  obtain ⟨hrange, hnone⟩ | ⟨a, rfl, hsome⟩ := toU64_cases n
  · rw [hnone, if_pos (by omega)]
    rfl
  · have := a.toNat_lt
    rw [hsome, if_neg (by omega)]
    rfl

theorem bytesArgument_toOption (data : List UInt8) (n : ℕ) :
    (bytesArgument data n).toOption = (toBytes n data).map Subtype.val := by
  unfold bytesArgument
  rw [toOption_failIf_bind]
  obtain ⟨hne, hnone⟩ | ⟨a, rfl, hsome⟩ := toBytes_cases n data
  · rw [hnone, if_pos hne]
    rfl
  · rw [hsome, if_neg (not_not.mpr a.property)]
    rfl

theorem u64Argument_toNat (n : UInt64) : u64Argument n.toNat = .ok (Layout.u64.encode n) := by
  have hlt := n.toNat_lt
  unfold u64Argument maxU64
  rw [failIf_neg (by omega), ok_bind, Int.toNat_natCast]
  rfl

/-- A positive expiry is written as the bits of an `i64`. -/
theorem u64Argument_toInt {n : Int64} (h : 0 < n.toInt) : u64Argument n.toInt = .ok (encodeI64 n) := by
  have hlt := n.toInt_lt
  unfold u64Argument maxU64
  have hbits : n.toUInt64.toNat = n.toInt.toNat := Int64.toNat_toUInt64_of_le (Int64.le_iff_toInt_le.mpr h.le)
  rw [failIf_neg (by omega), ok_bind, ← hbits]
  rfl

theorem pda_toOption (rt : Runtime) (seeds : List (List UInt8)) : (pda rt seeds).toOption =
    (GachaRust.findProgramAddress rt seeds).toOption.map fun x => (x.1, x.2.toNat) := by
  unfold pda GachaRust.findProgramAddress
  cases rt.findProgramAddress seeds programId <;> rfl

theorem ata_toOption (rt : Runtime) (owner mint : Pubkey) :
    (ata rt owner mint).toOption = (GachaRust.ata rt owner mint).toOption := by
  unfold ata GachaRust.ata
  rw [toOption_okOr, toOption_okOr]

theorem createAta_toOption (rt : Runtime) (payer owner mint : Pubkey) :
    (createAta rt payer owner mint).toOption = (GachaRust.createAta rt payer owner mint).toOption := by
  unfold createAta GachaRust.createAta
  rw [toOption_bind, toOption_bind, ata_toOption]
  rfl

end GachaKit

/-! ## Snapshots -/

namespace GachaRust

def PoolStatus.toKit : PoolStatus → GachaKit.PoolStatus
  | .paused => .paused
  | .active => .active
  | .retired => .retired

def Outcome.toKit (outcome : Outcome) : GachaKit.Outcome := ⟨outcome.asset, outcome.tier.map UInt8.toNat⟩

theorem PoolStatus.toKit_injective {s s' : PoolStatus} (h : s.toKit = s'.toKit) : s = s' := by
  cases s <;> cases s' <;> simp_all [toKit]

theorem PoolStatus.tag_toKit (status : PoolStatus) : status.toKit.tag = status.toByte := by
  cases status <;> rfl

/-- Both SDKs read the same status. -/
theorem Pool.status_agrees {pool : Pool} (h : pool.header.status ≤ poolRetired) :
    pool.toKit.status = some pool.status.toKit := by
  unfold GachaKit.Pool.status status
  rw [GachaKit.Pool.status_eq]
  show [GachaKit.PoolStatus.paused, .active, .retired][pool.header.status.toNat]? = _
  have hle : pool.header.status.toNat ≤ 2 := UInt8.le_iff_toNat_le.mp h
  obtain h | h | h : pool.header.status = 0 ∨ pool.header.status = 1 ∨ pool.header.status = 2 := by
    simp only [← UInt8.toNat_inj]
    show _ = 0 ∨ _ = 1 ∨ _ = 2
    omega
  all_goals
    rw [h]
    rfl

theorem Pool.status_iff {pool : Pool} (h : pool.header.status ≤ poolRetired) (status : PoolStatus) :
    pool.toKit.status = some status.toKit ↔ pool.status = status := by
  rw [Pool.status_agrees h, Option.some_inj]
  exact ⟨PoolStatus.toKit_injective, congrArg PoolStatus.toKit⟩

end GachaRust

namespace GachaKit

variable {rt : Runtime}

theorem Item.addressFor_toOption (pool : Pubkey) {tier : UInt8} (htier : tier.toNat < 8) (position : UInt32) :
    (Item.addressFor rt pool tier.toNat position.toNat).toOption =
      (GachaRust.Item.addressFor rt pool tier position).toOption.map fun x => (x.1, x.2.toNat) := by
  rw [Item.addressFor_eq pool htier, pda_toOption]
  rfl

section ItemFields

variable {item : Item}

theorem Item.tier_eq : item.tier = item.header.tier.toNat := by
  rw [Item.header, Item.decode_eq, Item.tier, byteAt_eq]

theorem Item.pool_eq : item.pool = item.header.pool := by rw [Item.header, Item.decode_eq]; rfl
theorem Item.asset_eq : item.asset = item.header.asset := by rw [Item.header, Item.decode_eq]; rfl

theorem Item.position_eq (hlen : itemLen ≤ item.data.length) : item.position = item.header.position.toNat := by
  rw [Item.header, Item.decode_eq]
  exact readU32_eq (hlen.trans' (by decide))

end ItemFields

theorem Pull.addressFor_toOption (pool : Pubkey) (seed : FixedBytes 32) :
    (Pull.addressFor rt pool seed.val).toOption =
      (GachaRust.Pull.addressFor rt pool seed).toOption.map fun x => (x.1, x.2.toNat) := by
  unfold Pull.addressFor
  rw [failIf_neg (not_not.mpr seed.property), ok_bind, pda_toOption]
  rfl

theorem Pool.addressFor_toOption (authority : Pubkey) (id : UInt64) :
    (Pool.addressFor rt authority id.toNat).toOption =
      (GachaRust.Pool.addressFor rt authority id).toOption.map fun x => (x.1, x.2.toNat) := by
  unfold Pool.addressFor
  rw [u64_eq_ok, ok_bind, pda_toOption]
  rfl

end GachaKit

/-! ## Builders of a pool -/

namespace GachaRust.Pool

section Builders

variable {rt : Runtime} {pool : Pool} {owner : Pubkey}
  (hpool : PoolAccepted rt pool.address owner pool.data pool.header)

include hpool

theorem setStatus_agrees (status : PoolStatus) :
    (pool.toKit.setStatus status.toKit).toOption = (pool.setStatus status).toOption := by
  unfold setStatus GachaKit.Pool.setStatus
  apply toOption_guard
  · rw [show GachaKit.PoolStatus.retired = PoolStatus.retired.toKit from rfl, status_iff hpool.status]
    exact and_congr_right fun _ => not_congr ⟨PoolStatus.toKit_injective, congrArg PoolStatus.toKit⟩
  · intro _
    rw [PoolStatus.tag_toKit, GachaKit.Pool.authority_eq]
    rfl

omit hpool in
theorem withdraw_agrees (destination : Pubkey) (amount : ℤ) : (pool.toKit.withdraw destination amount).toOption =
    (toU64 amount).map fun amount => pool.withdraw destination amount := by
  unfold withdraw GachaKit.Pool.withdraw
  rw [toOption_bind, GachaKit.u64Argument_toOption, GachaKit.Pool.authority_eq, GachaKit.Pool.vault_eq]
  cases toU64 amount <;> rfl

/-- The tier of a deposit is one of the pool's. -/
theorem deposit_agrees (tier : ℤ) (asset : Asset) : (pool.toKit.deposit rt tier asset.toKit).toOption =
    (toU8 tier).bind fun tier => (pool.deposit rt tier asset).toOption := by
  have hcount := hpool.tierCount.2
  have hversion := GachaKit.Pool.inventoryVersion_eq (show poolLen ≤ pool.toKit.data.length from hpool.length)
  unfold GachaKit.Pool.deposit
  rw [GachaKit.Pool.tierCount_eq, show pool.toKit.header = pool.header from rfl]
  obtain ⟨hrange, hnone⟩ | ⟨tier, rfl, hsome⟩ := toU8_cases tier
  · have hout : ¬GachaKit.integerArgument tier 0 (pool.header.tierCount.toNat - 1) := by
      have := pool.header.tierCount.toNat_lt
      omega
    rw [hnone, toOption_failIf_bind, toOption_failIf_bind, if_pos hout, ite_self]
    rfl
  rw [hsome, Option.bind_some]
  unfold deposit
  apply toOption_guard
  · exact status_iff hpool.status .retired
  intro _
  apply toOption_guard
  · rw [UInt8.le_iff_toNat_le]
    omega
  intro htier
  apply toOption_guard
  · rw [GachaKit.Pool.authority_eq]
    rfl
  intro _
  rw [Int.toNat_natCast, hversion]
  have haddress : (GachaKit.Item.addressFor rt pool.toKit.address tier.toNat
      pool.toKit.header.inventoryVersion.toNat).toOption = _ :=
    GachaKit.Item.addressFor_toOption pool.address (by omega) pool.header.inventoryVersion
  apply toOption_bind_congr haddress
  rintro ⟨item, bump⟩ _
  dsimp only
  rw [UInt8.ofNat_toNat, UInt8.ofNat_toNat, GachaKit.Pool.authority_eq]
  rfl

/-- The numbers of the Item are within its account. -/
theorem reclaim_agrees {item : Item} (hitem : itemLen ≤ item.data.length) (asset : Asset) :
    (pool.toKit.reclaim item.toKit asset.toKit).toOption = (pool.reclaim item asset).toOption := by
  have hlen : poolLen ≤ pool.toKit.data.length := hpool.length
  have hversion := GachaKit.Pool.inventoryVersion_eq hlen
  have hposition := GachaKit.Item.position_eq (show itemLen ≤ item.toKit.data.length from hitem)
  unfold reclaim GachaKit.Pool.reclaim
  apply toOption_guard
  · exact not_congr (status_iff hpool.status .retired)
  intro _
  apply toOption_guard
  · rw [GachaKit.Pool.pendingDraws_eq hlen, Ne, Ne, ← UInt64.toNat_inj]
    rfl
  intro _
  apply toOption_guard
  · rw [GachaKit.Pool.tierCount_eq, hversion, hposition, GachaKit.Item.tier_eq, GachaKit.Item.pool_eq,
      GachaKit.Item.asset_eq, ← UInt8.le_iff_toNat_le, ← UInt32.le_iff_toNat_le]
    rfl
  intro _
  apply toOption_guard Iff.rfl
  intro _
  rw [GachaKit.Pool.authority_eq]
  rfl

/-- The pool pays attention to a number of draws that fits a byte and to a seed of 32 bytes. -/
theorem buy_agrees (buyer : Pubkey) (count : ℤ) (clientSeed : List UInt8) :
    (pool.toKit.buy rt ⟨buyer, count, clientSeed⟩).toOption =
      (toU8 count).bind fun count => (toBytes 32 clientSeed).bind fun seed =>
        (pool.buy rt ⟨buyer, count, seed⟩).toOption := by
  have hversion := GachaKit.Pool.inventoryVersion_eq (show poolLen ≤ pool.toKit.data.length from hpool.length)
  unfold GachaKit.Pool.buy
  obtain ⟨hrange, hnone⟩ | ⟨count, rfl, hsome⟩ := toU8_cases count
  · have hout : ¬GachaKit.integerArgument count 1 10 := by omega
    rw [hnone, toOption_failIf_bind, toOption_failIf_bind, if_pos hout, ite_self]
    rfl
  rw [hsome, Option.bind_some]
  obtain ⟨hne, hnone⟩ | ⟨seed, rfl, hsome⟩ := toBytes_cases 32 clientSeed
  · rw [hnone, toOption_failIf_bind, toOption_failIf_bind, toOption_bind, GachaKit.bytesArgument_toOption, hnone]
    simp only [Option.map_none, Option.bind_none, ite_self]
  rw [hsome, Option.bind_some]
  unfold buy
  apply toOption_guard
  · exact not_congr (status_iff hpool.status .active)
  intro _
  apply toOption_guard
  · show ¬(1 ≤ (count.toNat : ℤ) ∧ (count.toNat : ℤ) ≤ 10) ↔ count.toNat < 1 ∨ 10 < count.toNat
    omega
  intro _
  have hseed : GachaKit.bytesArgument seed.val 32 = .ok seed.val := by
    rw [← toOption_eq_some, GachaKit.bytesArgument_toOption, hsome]
    rfl
  rw [hseed, ok_bind]
  apply toOption_bind_congr (GachaKit.Pull.addressFor_toOption pool.address seed)
  rintro ⟨pull, bump⟩ _
  dsimp only
  rw [hversion, GachaKit.u32_eq_ok, ok_bind, Int.toNat_natCast, UInt8.ofNat_toNat, UInt8.ofNat_toNat,
    GachaKit.Pool.paymentMint_eq, GachaKit.Pool.vault_eq, toOption_bind, toOption_bind, GachaKit.ata_toOption]
  rfl

/-- The check of the queue. -/
theorem pending_agrees {pull : Pull} (hpull : pull.data.length = pullLen) :
    (pool.toKit.pending pull.toKit).toOption = (pool.pending pull).toOption := by
  have hlen : poolLen ≤ pool.toKit.data.length := hpool.length
  have hlen' : pullLen ≤ pull.toKit.data.length := hpull.ge
  have hheader : pull.toKit.header = pull.header := rfl
  unfold pending GachaKit.Pool.pending
  apply toOption_guard
  · rw [GachaKit.Pull.pool_eq]
    rfl
  intro _
  apply toOption_guard
  · rw [Ne, Ne, GachaKit.Pull.status_eq_pending, hheader, Pull.status]
    split_ifs with h <;> simp [h]
  intro _
  apply toOption_guard
  · rw [GachaKit.Pull.index_eq hlen', GachaKit.Pool.nextSettle_eq hlen, Ne, Ne, UInt64.toNat_inj]
    rfl
  intro _
  have hissued : pool.toKit.inventoryVersion < pull.toKit.inventoryVersion ↔
      pool.header.inventoryVersion < pull.header.inventoryVersion := by
    rw [GachaKit.Pool.inventoryVersion_eq hlen, GachaKit.Pull.inventoryVersion_eq hlen',
      UInt32.lt_iff_toNat_lt]
    rfl
  unfold failIf
  rw [if_congr hissued rfl rfl]
  split_ifs <;> rfl

theorem refund_agrees {pull : Pull} (hpull : pull.data.length = pullLen) (payer : Pubkey) :
    (pool.toKit.refund rt pull.toKit payer).toOption = (pool.refund rt pull payer).toOption := by
  unfold refund GachaKit.Pool.refund
  rw [GachaKit.Pull.buyer_eq, GachaKit.Pool.paymentMint_eq, GachaKit.Pool.vault_eq]
  simp only [toOption_bind, pending_agrees hpool hpull, GachaKit.ata_toOption, GachaKit.createAta_toOption]
  -- The two addresses are derived in another order.
  show (pool.pending pull).toOption.bind _ = (pool.pending pull).toOption.bind _
  refine congrArg _ (funext fun _ => ?_)
  exact Option.bind_comm _ _

omit hpool in
/-- The price and the expiry stand behind the domain and three keys. -/
theorem message_terms (poolKey assetKey : Pubkey) (price : UInt64) (expiresAt : Int64) (tier : UInt8) :
    ((SolanaGacha.buybackMessage poolKey assetKey price expiresAt tier).drop 112).take 16 =
      Layout.u64.encode price ++ encodeI64 expiresAt := by
  have hfront : (buybackDomain ++ programId.val ++ poolKey.val ++ assetKey.val).length = 112 := by
    simp only [List.length_append, programId.property, poolKey.property, assetKey.property]
    rfl
  have hterms : (Layout.u64.encode price ++ encodeI64 expiresAt).length = 16 := by
    rw [List.length_append, encodeI64, Layout.encode_length, Layout.encode_length]
    rfl
  unfold SolanaGacha.buybackMessage
  rw [show ∀ a b c d : List UInt8, a ++ b ++ c ++ d = a ++ (b ++ c ++ d) by simp, List.drop_left' hfront,
    List.take_left' hterms]

omit hpool in
/-- The message that the pool authority signs, for terms that both accept. -/
theorem buybackMessage_agrees (poolKey assetKey : Pubkey) {price : UInt64} {expiresAt : Int64} {tier : UInt8}
    (htier : tier.toNat < 8) (hprice : price ≠ 0) (hexpiry : 0 < expiresAt) :
    GachaKit.buybackMessage ⟨poolKey, assetKey, price.toNat, expiresAt.toInt, tier.toNat⟩ =
      .ok (SolanaGacha.buybackMessage poolKey assetKey price expiresAt tier) := by
  have hlt := expiresAt.toInt_lt
  have hpos : 0 < expiresAt.toInt := Int64.lt_iff_toInt_lt.mp hexpiry
  have hprice' : 0 < price.toNat := Nat.pos_of_ne_zero fun h => hprice (UInt64.toNat_inj.mp h)
  unfold GachaKit.buybackMessage
  rw [failIf_neg (by dsimp only; omega), ok_bind, GachaKit.u64Argument_toNat, ok_bind,
    GachaKit.u64Argument_toInt hpos, ok_bind, Int.toNat_natCast, UInt8.ofNat_toNat]
  rfl

/-- An offer whose numbers fit is checked alike, and its terms are cut out of the message in the same bytes. -/
theorem buyback_agrees (poolKey assetKey : Pubkey) (price expiresAt tier : ℤ) (signature : List UInt8)
    (asset : Asset) (payer : Option Pubkey) :
    (pool.toKit.buyback rt ⟨poolKey, assetKey, price, expiresAt, tier⟩ signature asset.toKit payer).toOption =
      (toU64 price).bind fun price => (toI64 expiresAt).bind fun expiresAt => (toU8 tier).bind fun tier =>
        (toBytes 64 signature).bind fun signature =>
          (pool.buyback rt ⟨poolKey, assetKey, price, expiresAt, tier⟩ signature asset
            (payer.getD asset.owner)).toOption := by
  have hcount := hpool.tierCount.2
  have hversion := GachaKit.Pool.inventoryVersion_eq (show poolLen ≤ pool.toKit.data.length from hpool.length)
  unfold GachaKit.Pool.buyback
  rw [GachaKit.Pool.tierCount_eq, show pool.toKit.header = pool.header from rfl]
  -- Terms that do not fit fail a check, of the offer or of its message.
  have hmessage : ∀ {β : Type} {f : List UInt8 → Except GachaKit.Thrown β}, (price ≤ 0 ∨ 2 ^ 64 ≤ price ∨
      expiresAt ≤ 0 ∨ 2 ^ 63 ≤ expiresAt) →
      (GachaKit.buybackMessage ⟨poolKey, assetKey, price, expiresAt, tier⟩ >>= f).toOption = none := by
    intro β f hout
    unfold GachaKit.buybackMessage
    rw [toOption_bind, toOption_failIf_bind]
    split_ifs with hterms
    · rfl
    rw [toOption_bind, GachaKit.u64Argument_toOption]
    obtain ⟨-, hnone⟩ | ⟨price, rfl, -⟩ := toU64_cases price
    · rw [hnone]
      rfl
    · have := price.toNat_lt
      dsimp only at hterms
      omega
  obtain ⟨hrange, hnone⟩ | ⟨price, rfl, hprice⟩ := toU64_cases price
  · simp only [toOption_failIf_bind, hmessage (show _ by omega), ite_self, hnone, Option.bind_none]
  obtain ⟨hrange, hnone⟩ | ⟨expiresAt, rfl, hexpiry⟩ := toI64_cases expiresAt
  · simp only [toOption_failIf_bind, hmessage (show _ by omega), ite_self, hnone, hprice, Option.bind_none,
      Option.bind_some]
  obtain ⟨hrange, hnone⟩ | ⟨tier, rfl, htier⟩ := toU8_cases tier
  · have hout : ¬GachaKit.integerArgument tier 0 (pool.header.tierCount.toNat - 1) := by
      have := pool.header.tierCount.toNat_lt
      omega
    simp only [toOption_failIf_bind, if_pos hout, ite_self, hnone, hprice, hexpiry, Option.bind_none,
      Option.bind_some]
  obtain ⟨hne, hnone⟩ | ⟨signature, rfl, hsignature⟩ := toBytes_cases 64 signature
  · have hbytes : (GachaKit.bytesArgument signature 64).toOption = none := by
      rw [GachaKit.bytesArgument_toOption, hnone]
      rfl
    simp only [toOption_bind, hbytes, hnone, hprice, hexpiry, htier, Option.bind_none, Option.bind_fun_none]
  rw [hprice, hexpiry, htier, hsignature]
  simp only [Option.bind_some]
  by_cases hterms : price = 0 ∨ expiresAt ≤ 0
  · have hout : (price.toNat : ℤ) ≤ 0 ∨ 2 ^ 64 ≤ (price.toNat : ℤ) ∨ expiresAt.toInt ≤ 0 ∨
        2 ^ 63 ≤ expiresAt.toInt := by
      rcases hterms with rfl | hle
      · exact .inl (by decide)
      · exact .inr (.inr (.inl (Int64.le_iff_toInt_le.mp hle)))
    unfold buyback
    simp only [toOption_failIf_bind, hmessage hout, ite_self, if_pos (show _ ∨ _ from .inr hterms)]
  rw [not_or, Int64.not_le] at hterms
  unfold buyback
  apply toOption_guard
  · exact not_congr (status_iff hpool.status .active)
  intro _
  apply toOption_guard Iff.rfl
  intro hkey
  obtain rfl : poolKey = pool.address := not_not.mp hkey
  have hlt := tier.toNat_lt
  apply toOption_guard
  · show ¬(0 ≤ (tier.toNat : ℤ) ∧ (tier.toNat : ℤ) ≤ pool.header.tierCount.toNat - 1) ↔
      pool.header.tierCount ≤ tier ∨ price = 0 ∨ expiresAt ≤ 0
    rw [or_iff_left (not_or.mpr ⟨hterms.1, Int64.not_le.mpr hterms.2⟩), UInt8.le_iff_toNat_le]
    omega
  intro hvalid
  have htier : tier.toNat < 8 := by
    have : ¬pool.header.tierCount.toNat ≤ tier.toNat := fun hle => hvalid (by omega)
    omega
  apply toOption_guard Iff.rfl
  intro _
  have hsigned : GachaKit.bytesArgument signature.val 64 = .ok signature.val := by
    rw [← toOption_eq_some, GachaKit.bytesArgument_toOption, hsignature]
    rfl
  rw [buybackMessage_agrees pool.address assetKey htier hterms.1 hterms.2, ok_bind, Int.toNat_natCast, hversion]
  apply toOption_bind_congr (GachaKit.Item.addressFor_toOption pool.address htier pool.header.inventoryVersion)
  rintro ⟨item, bump⟩ _
  dsimp only
  rw [hsigned, ok_bind, message_terms, UInt8.ofNat_toNat, UInt8.ofNat_toNat, GachaKit.Pool.paymentMint_eq,
    GachaKit.Pool.vault_eq]
  simp only [toOption_bind, GachaKit.ata_toOption, GachaKit.createAta_toOption]
  exact Option.bind_comm _ _

end Builders

end GachaRust.Pool

/-! ## Creation -/

/-- Every number of a list fits, or one is out of range. -/
theorem mapM_toU32_cases (l : List ℤ) : ((∃ w ∈ l, w < 0 ∨ 2 ^ 32 ≤ w) ∧ l.mapM toU32 = none) ∨
    ∃ ws : List UInt32, l = ws.map (fun w => (w.toNat : ℤ)) ∧ l.mapM toU32 = some ws := by
  induction l with
  | nil => exact .inr ⟨[], rfl, rfl⟩
  | cons n l ih =>
    rw [List.mapM_cons]
    obtain ⟨hrange, hnone⟩ | ⟨a, rfl, hsome⟩ := toU32_cases n
    · rw [hnone]
      exact .inl ⟨⟨n, List.mem_cons_self, hrange⟩, rfl⟩
    rw [hsome]
    obtain ⟨⟨w, hmem, hrange⟩, hnone⟩ | ⟨ws, rfl, hsome⟩ := ih
    · rw [hnone]
      exact .inl ⟨⟨w, List.mem_cons_of_mem _ hmem, hrange⟩, rfl⟩
    · rw [hsome]
      exact .inr ⟨a :: ws, rfl, rfl⟩

namespace GachaRust.CreatePool

/-- The terms of a pool are checked alike. -/
theorem terms_iff (p : CreatePool) (valid : Bool) :
    (¬GachaKit.integer p.weights.length 1 8 ∨
      (∃ w ∈ p.weights.map fun w => (w.toNat : ℤ), ¬GachaKit.integerArgument w 1 0xffffffff) ∨
      (p.price.toNat : ℤ) = 0 ∨ (p.deadlineSlots.toNat : ℤ) = 0 ∨ (p.bondPerDraw.toNat : ℤ) = 0 ∨
      (GachaKit.maxU64 : ℤ) < (p.price.toNat + p.bondPerDraw.toNat) * 10 ∨ ¬valid) ↔
    (p.weights.length < 1 ∨ maxTiers < p.weights.length ∨ 0 ∈ p.weights ∨ p.price = 0 ∨
      p.deadlineSlots = 0 ∨ p.bondPerDraw = 0 ∨
      ((p.price.checkedAdd p.bondPerDraw).bind fun n => n.checkedMul (UInt64.ofNat maxCount)) = none ∨
      ¬valid) := by
  have hzero : ∀ n : UInt64, (n.toNat : ℤ) = 0 ↔ n = 0 := fun n => by
    rw [← UInt64.toNat_inj, Int.natCast_eq_zero]
    rfl
  have hweights : (∃ w ∈ p.weights.map fun w => (w.toNat : ℤ), ¬GachaKit.integerArgument w 1 0xffffffff) ↔
      0 ∈ p.weights := by
    constructor
    · intro ⟨w, hmem, hout⟩
      obtain ⟨weight, hweight, rfl⟩ := List.mem_map.mp hmem
      have := weight.toNat_lt
      obtain rfl : weight = 0 := UInt32.toNat_inj.mp (show _ = 0 by omega)
      exact hweight
    · intro hmem
      exact ⟨0, List.mem_map.mpr ⟨0, hmem, rfl⟩, by decide⟩
  have hamount : (GachaKit.maxU64 : ℤ) < (p.price.toNat + p.bondPerDraw.toNat) * 10 ↔
      ((p.price.checkedAdd p.bondPerDraw).bind fun n => n.checkedMul (UInt64.ofNat maxCount)) = none := by
    have hten : (UInt64.ofNat maxCount).toNat = 10 := rfl
    unfold GachaKit.maxU64 UInt64.checkedAdd
    split_ifs with hfits
    · rw [Option.bind_some, UInt64.checkedMul, UInt64.toNat_add, Nat.mod_eq_of_lt hfits, hten]
      split_ifs with hsmall
      · simp only [iff_false]
        omega
      · simp only [iff_true]
        omega
    · simp only [Option.bind_none, iff_true]
      omega
  rw [hweights, hzero, hzero, hzero, hamount]
  show ¬(1 ≤ p.weights.length ∧ p.weights.length ≤ 8) ∨ _ ↔ p.weights.length < 1 ∨ 8 < p.weights.length ∨ _
  rw [not_and_or, not_le, not_le, or_assoc]

/-- The weights of all eight tiers, as both write them. -/
theorem weights_agree (weights : List UInt32) :
    (List.range 8).mapM (fun i => GachaKit.u32 ((weights.map fun w => (w.toNat : ℤ)).getD i 0).toNat) =
      .ok ((List.range maxTiers).map fun i => u32.encode (weights.getD i 0)) := by
  have hget : ∀ i, ((weights.map fun w => (w.toNat : ℤ)).getD i 0).toNat = (weights.getD i 0).toNat := by
    intro i
    rw [List.getD_eq_getElem?_getD, List.getD_eq_getElem?_getD, List.getElem?_map]
    cases weights[i]? <;> rfl
  simp only [hget, GachaKit.u32_eq_ok]
  exact List.mapM_pure

/-- Without a positive bond there is no transfer, whatever the number is. -/
theorem instructions_agree (rt : Runtime) (isValid : Pubkey → Bool) (config : GachaKit.CreatePool)
    (authority operator paymentMint : Pubkey) :
    (GachaKit.createPoolInstructions rt isValid config authority operator paymentMint).toOption =
      (toU64 config.id).bind fun id => (toU64 config.price).bind fun price =>
        (toU64 config.deadlineSlots).bind fun deadlineSlots => (toU64 config.bondPerDraw).bind fun bondPerDraw =>
          (config.weights.mapM toU32).bind fun weights => (toU64 (max config.bond 0)).bind fun bond =>
            (CreatePool.instructions rt isValid ⟨id, price, deadlineSlots, bondPerDraw, bond, weights⟩ authority
              operator paymentMint).toOption := by
  obtain ⟨id, price, deadlineSlots, bondPerDraw, bond, weights⟩ := config
  unfold GachaKit.createPoolInstructions
  dsimp only
  rw [toOption_bind, GachaKit.u64Argument_toOption]
  obtain ⟨-, hnone⟩ | ⟨id, rfl, hsome⟩ := toU64_cases id
  · rw [hnone]
    rfl
  rw [hsome, Option.map_some, Option.bind_some, Option.bind_some, toOption_bind, GachaKit.u64Argument_toOption]
  obtain ⟨-, hnone⟩ | ⟨price, rfl, hsome⟩ := toU64_cases price
  · rw [hnone]
    rfl
  rw [hsome, Option.map_some, Option.bind_some, Option.bind_some, toOption_bind, GachaKit.u64Argument_toOption]
  obtain ⟨-, hnone⟩ | ⟨deadlineSlots, rfl, hsome⟩ := toU64_cases deadlineSlots
  · rw [hnone]
    rfl
  rw [hsome, Option.map_some, Option.bind_some, Option.bind_some, toOption_bind, GachaKit.u64Argument_toOption]
  obtain ⟨-, hnone⟩ | ⟨bondPerDraw, rfl, hsome⟩ := toU64_cases bondPerDraw
  · rw [hnone]
    rfl
  rw [hsome, Option.map_some, Option.bind_some, Option.bind_some]
  obtain ⟨⟨w, hmem, hrange⟩, hnone⟩ | ⟨weights, rfl, hsome⟩ := mapM_toU32_cases weights
  · have hout : ∃ w ∈ weights, ¬GachaKit.integerArgument w 1 0xffffffff := ⟨w, hmem, by omega⟩
    rw [hnone, toOption_failIf_bind, if_pos (.inr (.inl hout))]
    rfl
  rw [hsome, Option.bind_some]
  -- The transfer is the last step of both.
  obtain ⟨hrange, hnone⟩ | ⟨amount, hamount, hsome⟩ := toU64_cases (max bond 0)
  · have hpos : 0 < bond := by omega
    have hfail : (GachaKit.u64Argument bond).toOption = none := by
      rw [GachaKit.u64Argument_toOption, ← max_eq_left hpos.le, hnone]
      rfl
    have htransfer : ∀ source destination, (GachaKit.tokenTransfer source destination authority bond).toOption =
        none := by
      intro source destination
      unfold GachaKit.tokenTransfer
      rw [toOption_bind, hfail]
      rfl
    rw [hnone]
    simp only [toOption_bind, if_pos hpos, htransfer, Option.bind_none, Option.bind_fun_none]
  rw [hsome, Option.bind_some]
  unfold instructions
  apply toOption_guard
  · rw [List.length_map]
    exact terms_iff ⟨id, price, deadlineSlots, bondPerDraw, amount, weights⟩ (isValid operator)
  intro _
  rw [Int.toNat_natCast]
  apply toOption_bind_congr (GachaKit.Pool.addressFor_toOption authority id)
  rintro ⟨pool, bump⟩ _
  dsimp only
  rw [weights_agree, ok_bind, List.length_map, UInt8.ofNat_toNat]
  simp only [toOption_bind, GachaKit.ata_toOption, GachaKit.createAta_toOption]
  have hpays : amount > 0 ↔ 0 < bond := by
    rw [gt_iff_lt, UInt64.lt_iff_toNat_lt]
    show 0 < amount.toNat ↔ _
    omega
  by_cases hpos : 0 < bond
  · obtain rfl : bond = amount.toNat := by omega
    have htransfer : ∀ source destination, GachaKit.tokenTransfer source destination authority amount.toNat =
        .ok (tokenTransfer source destination authority amount) := by
      intro source destination
      unfold GachaKit.tokenTransfer
      rw [GachaKit.u64Argument_toNat]
      rfl
    simp only [if_pos hpos, if_pos (hpays.mpr hpos), htransfer, ok_bind, toOption_bind, GachaKit.ata_toOption]
    exact Option.bind_comm _ _
  · simp only [if_neg hpos, if_neg fun h => hpos (hpays.mp h)]
    exact Option.bind_comm _ _

end GachaRust.CreatePool

/-! ## Deliveries -/

/-- The packing does not depend on the errors. -/
theorem batchesOf_toOption {ι ε δ : Type} (size : List ι → ℕ) (missing tooLarge : ε) (missing' tooLarge' : δ)
    (initial instructions : List ι) :
    (GachaRust.batchesOf size missing tooLarge initial instructions).toOption =
      (GachaRust.batchesOf size missing' tooLarge' initial instructions).toOption := by
  have hloop : ∀ groups, (GachaRust.batchLoop size missing tooLarge groups instructions).toOption =
      (GachaRust.batchLoop size missing' tooLarge' groups instructions).toOption := by
    induction instructions with
    | nil => exact fun _ => rfl
    | cons ix instructions ih =>
      intro groups
      unfold GachaRust.batchLoop
      rw [toOption_bind, toOption_bind, toOption_okOr, toOption_okOr]
      refine congrArg _ (funext fun last => ?_)
      dsimp only
      split_ifs
      · exact toOption_guard Iff.rfl fun _ => ih _
      · exact ih _
  unfold GachaRust.batchesOf
  refine toOption_guard Iff.rfl fun _ => ?_
  rw [toOption_bind, toOption_bind, hloop]
  rfl

namespace GachaRust

variable (transactionSize : List Instruction → Pubkey → ℕ)

theorem batches_agree (initial instructions : List Instruction) (payer : Pubkey) :
    (GachaKit.batches transactionSize initial instructions payer).toOption =
      (batches transactionSize initial instructions payer).toOption :=
  batchesOf_toOption _ _ _ _ _ _ _

theorem collect_toOption {α : Type} (l : List (Except Fault α)) : (collect l).toOption = l.mapM Except.toOption := by
  induction l with
  | nil => rfl
  | cons x l ih =>
    unfold collect
    rw [List.mapM_cons, toOption_bind]
    refine congrArg _ (funext fun a => ?_)
    rw [toOption_bind, ih]
    rfl

/-- Instructions that are built one by one, and then packed. -/
theorem packed_agree {σ τ : Type} {same : σ → τ} {f : σ → Except Fault Instruction}
    {g : τ → Except GachaKit.Thrown Instruction} (h : ∀ a, (g (same a)).toOption = (f a).toOption) (l : List σ)
    (initial : List Instruction) (payer : Pubkey) :
    ((l.map same).mapM g >>= fun built => GachaKit.batches transactionSize initial built payer).toOption =
      (collect (l.map f) >>= fun built => batches transactionSize initial built payer).toOption := by
  have hresults : (fun a => (g (same a)).toOption) = fun a => (f a).toOption := funext h
  rw [toOption_bind, toOption_bind, toOption_mapM, collect_toOption, List.mapM_map, List.mapM_map]
  unfold Function.comp
  simp only [hresults, batches_agree]

theorem deliver_agrees (pool pull buyer : Pubkey) (asset : Asset) (outcome : ℕ) (payer : Pubkey) :
    (GachaKit.deliver pool pull buyer asset.toKit outcome payer).toOption =
      (deliver pool pull buyer asset (UInt8.ofNat outcome) payer).toOption := by
  unfold deliver GachaKit.deliver
  exact toOption_guard Iff.rfl fun _ => rfl

/-- The asset of an award, where the outcome records it. -/
theorem Pull.award_eq {pull : Pull} {i : ℕ} (hi : i < 10) :
    GachaKit.keyAt pull.data (120 + i * 33 + 1) = pull.header.outcomes[i].asset := by
  have hrecorded := SolanaGacha.Outcome.layout.getElem_readAt_vector 120 pull.data hi
  unfold Pull.header GachaKit.keyAt readAt
  rw [Pull.decode_eq, hrecorded, ← List.drop_drop]
  rfl

section Pulls

variable {rt : Runtime} {pull : Pull} {owner : Pubkey}
  (hpull : PullAccepted rt pull.address owner pull.data pull.header)

include hpull

/-- The awards of a Pull, from the same bytes. -/
theorem Pull.outcomes_agree : pull.toKit.outcomes.toOption = pull.outcomes.toOption.map (List.map Outcome.toKit) := by
  have hle : pull.header.status.toNat ≤ 1 := UInt8.le_iff_toNat_le.mp hpull.status
  have hpending := @GachaKit.Pull.status_eq_pending pull.toKit
  rw [show pull.toKit.header = pull.header from rfl] at hpending
  unfold GachaKit.Pull.outcomes
  rw [toOption_failIf_bind]
  by_cases hsettled : pull.header.status = statusPending
  · unfold Pull.outcomes
    rw [toOption_failIf_bind, if_pos (by rw [hpending.mpr hsettled]; simp),
      if_pos (by unfold Pull.status; rw [if_pos hsettled]; simp)]
    rfl
  have hone : pull.header.status = statusSettled := by
    rw [← UInt8.toNat_inj] at hsettled ⊢
    show _ = 1
    have : pull.header.status.toNat ≠ 0 := hsettled
    omega
  have hkit : pull.toKit.status = .settled := by
    cases hstatus : pull.toKit.status with
    | pending => exact absurd (hpending.mp hstatus) hsettled
    | settled => rfl
  rw [if_neg (not_not.mpr hkit), Pull.outcomes_eq rfl hone hpull.count.2, toOption_pure, toOption_ok, Option.map_some,
    List.map_map, GachaKit.Pull.count_eq]
  refine congrArg some (List.map_congr_left fun i hi => ?_)
  have hlt : i < 10 := (List.mem_range.mp hi).trans_le hpull.count.2
  have htier := @GachaKit.Pull.outcome_eq pull.toKit i hlt
  rw [show pull.toKit.header = pull.header from rfl] at htier
  have hdelivered : pull.header.outcomes[i].tier.toNat = 255 ↔ pull.header.outcomes[i].tier = delivered := by
    rw [← UInt8.toNat_inj]
    rfl
  have hrecorded : pull.header.recorded i = pull.header.outcomes[i] := by
    unfold SolanaGacha.Pull.recorded
    rw [Vector.getElem?_eq_getElem hlt]
    rfl
  show (⟨GachaKit.keyAt pull.data (120 + i * 33 + 1), if GachaKit.byteAt pull.toKit.data (120 + i * 33) = 255 then none
    else some (GachaKit.byteAt pull.toKit.data (120 + i * 33))⟩ : GachaKit.Outcome) = _
  rw [Pull.award_eq hlt, htier]
  unfold Function.comp SolanaGacha.Outcome.toClient Outcome.toKit
  dsimp only
  rw [hrecorded]
  simp only [hdelivered, ne_eq, ite_not]
  split_ifs <;> rfl

/-- The awards that are not delivered keep their numbers. -/
theorem Pull.deliver_agrees (assets : List Asset) (payer : Pubkey) :
    (pull.toKit.deliver transactionSize (assets.map Asset.toKit) payer).toOption =
      (pull.deliver transactionSize assets payer).toOption := by
  unfold Pull.deliver GachaKit.Pull.deliver
  apply toOption_bind_congr (Pull.outcomes_agree hpull)
  intro outcomes _
  have hpending : ((outcomes.map Outcome.toKit).zipIdx.filter fun x => x.1.tier.isSome) =
      (outcomes.zipIdx.filter fun x => x.1.tier.isSome).map (Prod.map Outcome.toKit id) := by
    rw [List.zipIdx_map, List.filter_map]
    refine congrArg _ (List.filter_congr fun x _ => ?_)
    show (x.1.tier.map UInt8.toNat).isSome = x.1.tier.isSome
    rw [Option.isSome_map]
  rw [hpending]
  generalize (outcomes.zipIdx.filter fun x => x.1.tier.isSome) = pending
  dsimp only
  apply toOption_guard
  · rw [List.length_map, List.length_map]
  intro _
  rw [List.zip_map, GachaKit.Pull.pool_eq, GachaKit.Pull.buyer_eq]
  refine packed_agree transactionSize (fun x => ?_) (pending.zip assets) [] payer
  exact toOption_guard Iff.rfl fun _ =>
    GachaRust.deliver_agrees pull.header.pool pull.address pull.header.buyer x.2 x.1.2 payer

end Pulls

/-- The settlement itself names the Items of the plan. -/
theorem Settlement.instruction_agrees (plan : Settlement) : plan.toKit.instruction = plan.instruction := by
  unfold Settlement.instruction GachaKit.Settlement.instruction
  rw [show plan.toKit.draws = plan.draws.map Draw.toKit from rfl, List.map_map]
  rfl

theorem Settlement.instructions_agree (plan : Settlement) (items : List Item) (assets : List Asset)
    (payer : Pubkey) :
    (plan.toKit.instructions transactionSize (items.map Item.toKit) (assets.map Asset.toKit) payer).toOption =
      (plan.instructions transactionSize items assets payer).toOption := by
  unfold Settlement.instructions GachaKit.Settlement.instructions
  rw [Settlement.instruction_agrees]
  apply toOption_guard
  · rw [show plan.toKit.draws = plan.draws.map Draw.toKit from rfl, List.zip_map, List.length_map, List.length_map]
    refine or_congr Iff.rfl ?_
    simp only [List.mem_map, exists_exists_and_eq_and]
    rfl
  intro _
  apply toOption_guard
  · rw [List.length_map, List.length_map]
  intro _
  rw [List.zip_map, List.zipIdx_map]
  refine packed_agree transactionSize (fun x => ?_) (items.zip assets).zipIdx [plan.instruction] payer
  refine toOption_guard ?_ fun _ => deliver_agrees plan.pool plan.pull plan.buyer x.1.2 x.2 payer
  show x.1.1.toKit.asset ≠ _ ↔ _
  rw [GachaKit.Item.asset_eq]
  rfl

/-! ## Both SDKs -/

/-- What both SDKs build from one pool: the TypeScript builder's result is the Rust builder's on the narrowed
arguments. -/
structure Pool.SameInstructions (rt : Runtime) (pool : Pool) : Prop where
  setStatus : ∀ status, (pool.toKit.setStatus status.toKit).toOption = (pool.setStatus status).toOption
  withdraw : ∀ destination amount, (pool.toKit.withdraw destination amount).toOption =
    (toU64 amount).map fun amount => pool.withdraw destination amount
  deposit : ∀ tier asset, (pool.toKit.deposit rt tier (Asset.toKit asset)).toOption =
    (toU8 tier).bind fun tier => (pool.deposit rt tier asset).toOption
  reclaim : ∀ address owner data item asset, Item.fromAccount rt address owner data = .ok item →
    (pool.toKit.reclaim item.toKit (Asset.toKit asset)).toOption = (pool.reclaim item asset).toOption
  buy : ∀ buyer count clientSeed, (pool.toKit.buy rt ⟨buyer, count, clientSeed⟩).toOption =
    (toU8 count).bind fun count => (toBytes 32 clientSeed).bind fun seed =>
      (pool.buy rt ⟨buyer, count, seed⟩).toOption
  refund : ∀ address owner data pull payer, Pull.fromAccount rt address owner data = .ok pull →
    (pool.toKit.refund rt pull.toKit payer).toOption = (pool.refund rt pull payer).toOption
  buyback : ∀ poolKey assetKey price expiresAt tier signature asset payer,
    (pool.toKit.buyback rt ⟨poolKey, assetKey, price, expiresAt, tier⟩ signature (Asset.toKit asset)
      payer).toOption =
    (toU64 price).bind fun price => (toI64 expiresAt).bind fun expiresAt => (toU8 tier).bind fun tier =>
      (toBytes 64 signature).bind fun signature =>
        (pool.buyback rt ⟨poolKey, assetKey, price, expiresAt, tier⟩ signature asset
          (payer.getD asset.owner)).toOption

theorem Pool.sameInstructions {rt : Runtime} {pool : Pool} {owner : Pubkey}
    (hpool : PoolAccepted rt pool.address owner pool.data pool.header) : pool.SameInstructions rt where
  setStatus := setStatus_agrees hpool
  withdraw := withdraw_agrees
  deposit := deposit_agrees hpool
  reclaim _ _ _ _ asset h := by
    obtain ⟨hitem, rfl⟩ := Item.fromAccount_eq_ok.mp h
    exact reclaim_agrees hpool hitem.length.ge asset
  buy := buy_agrees hpool
  refund _ _ _ _ payer h := by
    obtain ⟨hpull, rfl⟩ := Pull.fromAccount_eq_ok.mp h
    exact refund_agrees hpool hpull.length payer
  buyback := buyback_agrees hpool

end GachaRust

end SolanaGacha
