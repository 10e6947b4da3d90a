import SolanaGacha.Core.State

/-!
# Core assets and buyback quotes

`gacha-core`'s `asset.rs`, the header of a Core asset that a transfer needs, and `buyback_message` of
its `lib.rs`.
-/

namespace SolanaGacha

open Except Layout

/-- The owner and the collection of a Core `AssetV1`. -/
structure CoreAsset where
  owner : Pubkey
  collection : Option Pubkey
  deriving DecidableEq

/-- The collection of an asset, from the kind of its update authority and the key that follows. -/
def CoreAsset.collectionOf (data : List UInt8) : Except GachaError (Option Pubkey) :=
  match (data[33]? : Option UInt8) with
  | some 0 => .ok none
  | some 1 => if data.length < 66 then .error .invalidAsset else .ok none
  | some 2 => if data.length < 66 then .error .invalidAsset else .ok (some ((bytes 32).readAt 34 data))
  | _ => .error .invalidAsset

/-- `CoreAsset::from_account`. -/
def CoreAsset.fromAccount (owner : Pubkey) (data : List UInt8) : Except GachaError CoreAsset := do
  failIf (owner ≠ coreId ∨ data.length < 34 ∨ data[0]? ≠ some 1) .invalidAsset
  let collection ← collectionOf data
  return ⟨(bytes 32).readAt 1 data, collection⟩

/-- `b"gacha:buyback:v1"`. -/
def buybackDomain : List UInt8 :=
  [103, 97, 99, 104, 97, 58, 98, 117, 121, 98, 97, 99, 107, 58, 118, 49]

/-- An `i64` in little-endian order, as the bits of a `u64`. -/
def encodeI64 (n : Int64) : List UInt8 := u64.encode n.toUInt64

/-- The canonical reusable buyback quote, signed by the pool authority. -/
def buybackMessage (pool asset : Pubkey) (price : UInt64) (expiresAt : Int64) (tier : UInt8) :
    List UInt8 :=
  buybackDomain ++ programId.val ++ pool.val ++ asset.val ++ u64.encode price ++
    encodeI64 expiresAt ++ [tier]

end SolanaGacha
