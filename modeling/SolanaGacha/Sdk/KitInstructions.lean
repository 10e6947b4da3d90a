import SolanaGacha.Sdk.Batches

/-!
# Instructions of the TypeScript SDK

The instruction builders of `gacha-kit`'s `index.ts`. A number that an application passes is an integer here, and
bytes that it passes are a list: the builders check their ranges and their lengths themselves. An `AccountRole`
is its two flags. What a builder reads of a snapshot comes from the snapshot's own getters.
-/

namespace SolanaGacha.GachaKit

open Except Layout

/-! ## Arguments -/

structure CreatePool where
  id : ℤ
  price : ℤ
  deadlineSlots : ℤ
  bondPerDraw : ℤ
  bond : ℤ
  weights : List ℤ

structure Buy where
  buyer : Pubkey
  count : ℤ
  clientSeed : List UInt8

structure BuybackQuote where
  pool : Pubkey
  asset : Pubkey
  price : ℤ
  expiresAt : ℤ
  tier : ℤ

/-- A null tier means the outcome has already been delivered. -/
structure Outcome where
  asset : Pubkey
  tier : Option ℕ
  deriving DecidableEq

/-- `integer` of an argument. -/
abbrev integerArgument (n min max : ℤ) : Prop := min ≤ n ∧ n ≤ max

/-- `u64` of an argument. -/
def u64Argument (n : ℤ) : Except Thrown (List UInt8) := do
  failIf (n < 0 ∨ (maxU64 : ℤ) < n) ErrorCode.invalidArgument
  return leBytes 8 n.toNat

/-- `bytes`: data of an exact length. -/
def bytesArgument (data : List UInt8) (length : ℕ) : Except Thrown (List UInt8) := do
  failIf (data.length ≠ length) ErrorCode.invalidArgument
  return data

/-! ## Instructions -/

abbrev Instruction := GachaRust.Instruction
abbrev Purchase := GachaRust.Purchase

def rw (key : Pubkey) (signer : Bool) : AccountInfo := ⟨key, signer, true⟩
def ro (key : Pubkey) (signer : Bool) : AccountInfo := ⟨key, signer, false⟩

/-- `ix`: every instruction ends with the event authority and the program. -/
def ix (data : List UInt8) (accounts : List AccountInfo) : Instruction :=
  ⟨programId, accounts ++ [ro eventAuthority false, ro programId false], data⟩

def tokenTransfer (source destination authority : Pubkey) (amount : ℤ) : Except Thrown Instruction := do
  let amount ← u64Argument amount
  return ⟨tokenId, [rw source false, rw destination false, ro authority true], 3 :: amount⟩

def createAta (rt : Runtime) (payer owner mint : Pubkey) : Except Thrown Instruction := do
  let address ← ata rt owner mint
  return ⟨associatedTokenId, [rw payer true, rw address false, ro owner false, ro mint false,
    ro systemId false, ro tokenId false], [1]⟩

/-- `createPoolInstructions`. -/
def createPoolInstructions (rt : Runtime) (isValid : Pubkey → Bool) (config : CreatePool)
    (authority operator paymentMint : Pubkey) : Except Thrown (List Instruction) := do
  let id ← u64Argument config.id
  let price ← u64Argument config.price
  let deadlineSlots ← u64Argument config.deadlineSlots
  let bondPerDraw ← u64Argument config.bondPerDraw
  failIf (¬integer config.weights.length 1 8 ∨ (∃ w ∈ config.weights, ¬integerArgument w 1 0xffffffff) ∨
    config.price = 0 ∨ config.deadlineSlots = 0 ∨ config.bondPerDraw = 0 ∨
    (maxU64 : ℤ) < (config.price + config.bondPerDraw) * 10 ∨ ¬isValid operator) ErrorCode.invalidArgument
  let (pool, bump) ← Pool.addressFor rt authority config.id.toNat
  let weights ← (List.range 8).mapM fun i => u32 (config.weights.getD i 0).toNat
  let data := 0 :: id ++ price ++ deadlineSlots ++ bondPerDraw ++ [UInt8.ofNat config.weights.length] ++
    weights.flatten ++ [UInt8.ofNat bump]
  let vault ← ata rt pool paymentMint
  let createVault ← createAta rt authority pool paymentMint
  let create := ix data
    [rw authority true, rw pool false, ro operator false, ro paymentMint false, ro vault false,
      ro systemId false]
  if 0 < config.bond then do
    let source ← ata rt authority paymentMint
    let transfer ← tokenTransfer source vault authority config.bond
    return [createVault, create, transfer]
  else return [createVault, create]

/-- `buybackMessage`: the bytes that the pool authority signs. -/
def buybackMessage (quote : BuybackQuote) : Except Thrown (List UInt8) := do
  failIf (¬integerArgument quote.tier 0 7 ∨ quote.price ≤ 0 ∨ quote.expiresAt ≤ 0 ∨
    2 ^ 63 - 1 < quote.expiresAt) ErrorCode.invalidArgument
  let price ← u64Argument quote.price
  let expiresAt ← u64Argument quote.expiresAt
  return buybackDomain ++ programId.val ++ quote.pool.val ++ quote.asset.val ++ price ++ expiresAt ++
    [UInt8.ofNat quote.tier.toNat]

/-- `POOL_STATUSES.indexOf(status)`. -/
def PoolStatus.tag : PoolStatus → UInt8
  | .paused => 0
  | .active => 1
  | .retired => 2

def Item.asset (item : Item) : Pubkey := keyAt item.data 40

namespace Pool

variable (rt : Runtime) (pool : Pool)

/-- `setStatus`. -/
def setStatus (status : PoolStatus) : Except Thrown Instruction := do
  failIf (pool.status = some .retired ∧ status ≠ .retired) ErrorCode.invalidPoolStatus
  return ix [3, status.tag] [ro pool.authority true, rw pool.address false]

/-- `buy`. -/
def buy (buy : Buy) : Except Thrown Purchase := do
  failIf (pool.status ≠ some .active) ErrorCode.invalidPoolStatus
  failIf (¬integerArgument buy.count 1 10) ErrorCode.invalidArgument
  let seed ← bytesArgument buy.clientSeed 32
  let (pull, bump) ← Pull.addressFor rt pool.address seed
  let version ← u32 pool.inventoryVersion
  let data := 10 :: UInt8.ofNat buy.count.toNat :: seed ++ version ++ [UInt8.ofNat bump]
  let buyerAta ← ata rt buy.buyer pool.paymentMint
  return {
    pull
    instruction := ix data
      [rw buy.buyer true, rw pool.address false, rw pull false, rw buyerAta false, rw pool.vault false,
        ro tokenId false, ro systemId false] }

/-- `deposit`. -/
def deposit (tier : ℤ) (asset : Asset) : Except Thrown Instruction := do
  failIf (pool.status = some .retired) ErrorCode.invalidPoolStatus
  failIf (¬integerArgument tier 0 (byteAt pool.data 2 - 1)) ErrorCode.invalidArgument
  failIf (asset.owner ≠ pool.authority) ErrorCode.invalidAsset
  let (item, bump) ← Item.addressFor rt pool.address tier.toNat pool.inventoryVersion
  return ix [1, UInt8.ofNat tier.toNat, UInt8.ofNat bump]
    [rw pool.authority true, rw pool.address false, rw item false, rw asset.address false,
      ro (asset.collection.getD coreId) false, ro coreId false, ro systemId false]

/-- `buyback`. The price and the expiry are cut out of the message; the holder pays unless someone else does. -/
def buyback (quote : BuybackQuote) (signature : List UInt8) (asset : Asset) (payer : Option Pubkey) :
    Except Thrown (List Instruction) := do
  let payer := payer.getD asset.owner
  failIf (pool.status ≠ some .active) ErrorCode.invalidPoolStatus
  failIf (quote.pool ≠ pool.address) ErrorCode.wrongPool
  failIf (¬integerArgument quote.tier 0 (byteAt pool.data 2 - 1)) ErrorCode.invalidArgument
  failIf (quote.asset ≠ asset.address ∨ asset.owner = quote.pool) ErrorCode.invalidAsset
  let message ← buybackMessage quote
  let (item, bump) ← Item.addressFor rt quote.pool quote.tier.toNat pool.inventoryVersion
  let signature ← bytesArgument signature 64
  let data := 12 :: UInt8.ofNat quote.tier.toNat :: (message.drop 112).take 16 ++ signature ++
    [UInt8.ofNat bump]
  let destination ← ata rt asset.owner pool.paymentMint
  let createDestination ← createAta rt payer asset.owner pool.paymentMint
  return [createDestination, ix data
    [rw payer true, ro asset.owner true, rw quote.pool false, rw item false, rw asset.address false,
      ro (asset.collection.getD coreId) false, rw pool.vault false, rw destination false,
      ro coreId false, ro tokenId false, ro systemId false]]

/-- `reclaim`. -/
def reclaim (item : Item) (asset : Asset) : Except Thrown Instruction := do
  failIf (pool.status ≠ some .retired) ErrorCode.invalidPoolStatus
  failIf (pool.pendingDraws ≠ 0) ErrorCode.pendingPurchases
  failIf (item.pool ≠ pool.address ∨ byteAt pool.data 2 ≤ item.tier ∨
    pool.inventoryVersion ≤ item.position ∨ item.asset ≠ asset.address) ErrorCode.invalidItem
  failIf (asset.owner ≠ pool.address) ErrorCode.invalidAsset
  return ix [4]
    [rw pool.authority true, rw pool.address false, rw item.address false, rw asset.address false,
      ro (asset.collection.getD coreId) false, ro coreId false, ro systemId false]

/-- `withdraw`. -/
def withdraw (destination : Pubkey) (amount : ℤ) : Except Thrown Instruction := do
  let amount ← u64Argument amount
  return ix (2 :: amount)
    [ro pool.authority true, ro pool.address false, rw pool.vault false, rw destination false,
      ro tokenId false]

/-- `refund`. -/
def refund (pull : Pull) (payer : Pubkey) : Except Thrown (List Instruction) := do
  pool.pending pull
  let buyerAta ← ata rt pull.buyer pool.paymentMint
  let createBuyerAta ← createAta rt payer pull.buyer pool.paymentMint
  return [createBuyerAta, ix [11]
    [rw pool.address false, rw pull.address false, rw pull.buyer false, rw pool.vault false,
      rw buyerAta false, ro tokenId false]]

end Pool

/-! ## Delivery -/

/-- `deliver`. -/
def deliver (pool pull buyer : Pubkey) (asset : Asset) (outcome : ℕ) (payer : Pubkey) :
    Except Thrown Instruction := do
  failIf (asset.owner ≠ pool) ErrorCode.invalidAsset
  return ix [21, UInt8.ofNat outcome]
    [rw payer true, ro pool false, rw pull false, rw buyer false, rw asset.address false,
      ro (asset.collection.getD coreId) false, ro coreId false, ro systemId false]

namespace Pull

variable (pull : Pull)

/-- `outcomes` of a settled pull. -/
def outcomes : Except Thrown (List Outcome) := do
  failIf (pull.status ≠ .settled) ErrorCode.notSettled
  return (List.range pull.count).map fun i =>
    ⟨keyAt pull.data (120 + i * 33 + 1),
      if byteAt pull.data (120 + i * 33) = 255 then none else some (byteAt pull.data (120 + i * 33))⟩

/-- `deliver`: recovery only includes outcomes that remain undelivered. -/
def deliver (transactionSize : List Instruction → Pubkey → ℕ) (assets : List Asset) (payer : Pubkey) :
    Except Thrown (List (List Instruction)) := do
  let outcomes ← pull.outcomes
  let pending := outcomes.zipIdx.filter fun x => x.1.tier.isSome
  failIf (pending.length ≠ assets.length) ErrorCode.invalidAsset
  let instructions ← (pending.zip assets).mapM fun x => do
    failIf (x.1.1.asset ≠ x.2.address) ErrorCode.invalidAsset
    GachaKit.deliver pull.pool pull.address pull.buyer x.2 x.1.2 payer
  batches transactionSize [] instructions payer

end Pull

namespace Settlement

variable (plan : Settlement)

/-- `instruction`: the settlement, with the Items of the plan. -/
def instruction : Instruction :=
  ix (20 :: plan.proof.val) ([rw plan.operator false, rw plan.pool false, rw plan.pull false] ++
    plan.draws.map fun draw => rw draw.item false)

/-- `instructions`: settle, and deliver every award. -/
def instructions (transactionSize : List Instruction → Pubkey → ℕ) (items : List Item) (assets : List Asset)
    (payer : Pubkey) : Except Thrown (List (List Instruction)) := do
  failIf (items.length ≠ plan.draws.length ∨ ∃ x ∈ items.zip plan.draws, x.1.address ≠ x.2.item)
    ErrorCode.invalidItem
  failIf (assets.length ≠ items.length) ErrorCode.invalidAsset
  let instructions ← (items.zip assets).zipIdx.mapM fun x => do
    failIf (x.1.1.asset ≠ x.1.2.address) ErrorCode.invalidAsset
    deliver plan.pool plan.pull plan.buyer x.1.2 x.2 payer
  batches transactionSize [plan.instruction] instructions payer

end Settlement

end SolanaGacha.GachaKit
