import SolanaGacha.Sdk.Snapshot

/-!
# Instructions of the Rust SDK

The instruction builders of `gacha-rust`'s `lib.rs`. A builder checks its arguments against the snapshots and
lays out the accounts and the data that the program's handler expects; every instruction ends with the two
accounts of the event CPI. Deliveries are packed into transactions (`batches`). The check of an operator's key
and the size of a transaction are those of other libraries, and parameters here.
-/

namespace SolanaGacha.GachaRust

open Except Layout

/-! ## Instructions -/

/-- An instruction for any program. An account is its address, whether it signs and whether it is writable. -/
structure Instruction where
  programId : Pubkey
  accounts : List AccountInfo
  data : List UInt8
  deriving DecidableEq

def rw (key : Pubkey) (signer : Bool) : AccountInfo := ⟨key, signer, true⟩
def ro (key : Pubkey) (signer : Bool) : AccountInfo := ⟨key, signer, false⟩

/-- `instruction`: every instruction ends with the event authority and the program, for the event CPI. -/
def instruction (data : List UInt8) (accounts : List AccountInfo) : Instruction :=
  ⟨programId, accounts ++ [ro eventAuthority false, ro programId false], data⟩

/-- SPL Token `Transfer`. -/
def tokenTransfer (source destination authority : Pubkey) (amount : UInt64) : Instruction :=
  ⟨tokenId, [rw source false, rw destination false, ro authority true], 3 :: u64.encode amount⟩

/-- `create_associated_token_account_idempotent`. -/
def createAta (rt : Runtime) (payer owner mint : Pubkey) : Except Fault Instruction := do
  let address ← ata rt owner mint
  return ⟨associatedTokenId, [rw payer true, rw address false, ro owner false, ro mint false,
    ro systemId false, ro tokenId false], [1]⟩

/-! ## Arguments -/

/-- Fixed economic parameters; no defaults for price, odds, or penalties. -/
structure CreatePool where
  id : UInt64
  price : UInt64
  deadlineSlots : UInt64
  bondPerDraw : UInt64
  bond : UInt64
  weights : List UInt32

structure Buy where
  buyer : Pubkey
  count : UInt8
  clientSeed : FixedBytes 32

/-- An offer from the pool authority, reusable by any holder until expiry. -/
structure BuybackQuote where
  pool : Pubkey
  asset : Pubkey
  price : UInt64
  expiresAt : Int64
  tier : UInt8

/-- A prepared purchase. -/
structure Purchase where
  pull : Pubkey
  instruction : Instruction
  deriving DecidableEq

/-- An award of a settled pull; one without a tier has been delivered. -/
structure Outcome where
  asset : Pubkey
  tier : Option UInt8
  deriving DecidableEq

/-- `status as u8`. -/
def PoolStatus.toByte : PoolStatus → UInt8
  | .paused => poolPaused
  | .active => poolActive
  | .retired => poolRetired

/-! ## Admin instructions -/

/-- `CreatePool::instructions`: create the vault and the paused pool, then fund the vault. -/
def CreatePool.instructions (rt : Runtime) (validate : Pubkey → Bool) (p : CreatePool)
    (authority operator paymentMint : Pubkey) : Except Fault (List Instruction) := do
  failIf (p.weights.length < 1 ∨ maxTiers < p.weights.length ∨ 0 ∈ p.weights ∨ p.price = 0 ∨
    p.deadlineSlots = 0 ∨ p.bondPerDraw = 0 ∨
    ((p.price.checkedAdd p.bondPerDraw).bind fun n => n.checkedMul (UInt64.ofNat maxCount)) = none ∨
    ¬validate operator) Error.invalidArgument
  let (pool, bump) ← Pool.addressFor rt authority p.id
  let data := 0 :: u64.encode p.id ++ u64.encode p.price ++ u64.encode p.deadlineSlots ++
    u64.encode p.bondPerDraw ++ [UInt8.ofNat p.weights.length] ++
    ((List.range maxTiers).map fun i => u32.encode (p.weights.getD i 0)).flatten ++ [bump]
  let createVault ← createAta rt authority pool paymentMint
  let vault ← ata rt pool paymentMint
  let create := instruction data
    [rw authority true, rw pool false, ro operator false, ro paymentMint false, ro vault false,
      ro systemId false]
  if p.bond > 0 then do
    let source ← ata rt authority paymentMint
    return [createVault, create, tokenTransfer source vault authority p.bond]
  else return [createVault, create]

namespace Pool

variable (rt : Runtime) (pool : Pool)

/-- `set_status`. Retirement is terminal. -/
def setStatus (status : PoolStatus) : Except Fault Instruction := do
  failIf (pool.status = .retired ∧ status ≠ .retired) Error.invalidPoolStatus
  return instruction [3, status.toByte] [ro pool.header.authority true, rw pool.address false]

/-- `deposit`: an owned Core asset; its collection comes from the snapshot. -/
def deposit (tier : UInt8) (asset : Asset) : Except Fault Instruction := do
  failIf (pool.status = .retired) Error.invalidPoolStatus
  failIf (pool.header.tierCount ≤ tier) Error.invalidArgument
  failIf (asset.owner ≠ pool.header.authority) Error.invalidAsset
  let (item, bump) ← Item.addressFor rt pool.address tier pool.header.inventoryVersion
  return instruction [1, tier, bump]
    [rw pool.header.authority true, rw pool.address false, rw item false, rw asset.address false,
      ro (asset.collection.getD coreId) false, ro coreId false, ro systemId false]

/-- `withdraw`. -/
def withdraw (destination : Pubkey) (amount : UInt64) : Instruction :=
  instruction (2 :: u64.encode amount)
    [ro pool.header.authority true, ro pool.address false, rw pool.header.vault false, rw destination false,
      ro tokenId false]

/-- `reclaim`: an unsold asset and its Item rent, after retirement. -/
def reclaim (item : Item) (asset : Asset) : Except Fault Instruction := do
  failIf (pool.status ≠ .retired) Error.invalidPoolStatus
  failIf (pool.header.pendingDraws ≠ 0) Error.pendingPurchases
  failIf (item.header.pool ≠ pool.address ∨ pool.header.tierCount ≤ item.header.tier ∨
    pool.header.inventoryVersion ≤ item.header.position ∨ item.header.asset ≠ asset.address)
    Error.invalidItem
  failIf (asset.owner ≠ pool.address) Error.invalidAsset
  return instruction [4]
    [rw pool.header.authority true, rw pool.address false, rw item.address false, rw asset.address false,
      ro (asset.collection.getD coreId) false, ro coreId false, ro systemId false]

/-! ## Player instructions -/

/-- `buy`, with a fresh seed. -/
def buy (buy : Buy) : Except Fault Purchase := do
  failIf (pool.status ≠ .active) Error.invalidPoolStatus
  failIf (buy.count.toNat < 1 ∨ maxCount < buy.count.toNat) Error.invalidArgument
  let (pull, bump) ← Pull.addressFor rt pool.address buy.clientSeed
  let buyerAta ← ata rt buy.buyer pool.header.paymentMint
  return {
    pull
    instruction := instruction
      (10 :: buy.count :: buy.clientSeed.val ++ u32.encode pool.header.inventoryVersion ++ [bump])
      [rw buy.buyer true, rw pool.address false, rw pull false, rw buyerAta false,
        rw pool.header.vault false, ro tokenId false, ro systemId false] }

/-- `refund`: recreate the buyer's payment account if needed, and refund. -/
def refund (pull : Pull) (payer : Pubkey) : Except Fault (List Instruction) := do
  pool.pending pull
  let createBuyerAta ← createAta rt payer pull.header.buyer pool.header.paymentMint
  let buyerAta ← ata rt pull.header.buyer pool.header.paymentMint
  return [createBuyerAta, instruction [11]
    [rw pool.address false, rw pull.address false, rw pull.header.buyer false, rw pool.header.vault false,
      rw buyerAta false, ro tokenId false]]

/-- `buyback`: return the prize, pay the seller, and restock. -/
def buyback (quote : BuybackQuote) (signature : FixedBytes 64) (asset : Asset) (payer : Pubkey) :
    Except Fault (List Instruction) := do
  failIf (pool.status ≠ .active) Error.invalidPoolStatus
  failIf (quote.pool ≠ pool.address) Error.wrongPool
  failIf (pool.header.tierCount ≤ quote.tier ∨ quote.price = 0 ∨ quote.expiresAt ≤ 0) Error.invalidArgument
  failIf (quote.asset ≠ asset.address ∨ asset.owner = pool.address) Error.invalidAsset
  let (item, bump) ← Item.addressFor rt pool.address quote.tier pool.header.inventoryVersion
  let createDestination ← createAta rt payer asset.owner pool.header.paymentMint
  let destination ← ata rt asset.owner pool.header.paymentMint
  return [createDestination, instruction
    (12 :: quote.tier :: u64.encode quote.price ++ encodeI64 quote.expiresAt ++ signature.val ++ [bump])
    [rw payer true, ro asset.owner true, rw pool.address false, rw item false, rw asset.address false,
      ro (asset.collection.getD coreId) false, rw pool.header.vault false, rw destination false,
      ro coreId false, ro tokenId false, ro systemId false]]

end Pool

/-! ## Transactions -/

section Batches

variable {ι ε : Type} (size : List ι → ℕ) (missing tooLarge : ε)

/-- The loop of `batches`: an instruction joins the last group, or opens the next one. -/
def batchLoop : List (List ι) → List ι → Except ε (List (List ι))
  | groups, [] => return groups
  | groups, instruction :: instructions => do
    let last ← okOr missing groups.getLast?
    let current := last ++ [instruction]
    if 1232 < size current then do
      let next := current.drop (current.length - 1)
      failIf (1232 < size next) tooLarge
      batchLoop (groups.dropLast ++ [current.take (current.length - 1), next]) instructions
    else batchLoop (groups.dropLast ++ [current]) instructions

/-- `batches`, with the errors of its language. -/
def batchesOf (initial instructions : List ι) : Except ε (List (List ι)) := do
  failIf (1232 < size initial) tooLarge
  let groups ← batchLoop size missing tooLarge [initial] instructions
  return groups.filter fun group => !group.isEmpty

end Batches

/-- `batches`: groups that fit legacy transactions with this payer. -/
def batches (transactionSize : List Instruction → Pubkey → ℕ) (initial instructions : List Instruction)
    (payer : Pubkey) : Except Fault (List (List Instruction)) :=
  batchesOf (fun group => transactionSize group payer) .panicked (.error .transactionTooLarge) initial
    instructions

/-! ## Operator instructions -/

/-- `deliver`: one award, to the buyer of its pull. -/
def deliver (pool pull buyer : Pubkey) (asset : Asset) (outcome : UInt8) (payer : Pubkey) :
    Except Fault Instruction := do
  failIf (asset.owner ≠ pool) Error.invalidAsset
  return instruction [21, outcome]
    [rw payer true, ro pool false, rw pull false, rw buyer false, rw asset.address false,
      ro (asset.collection.getD coreId) false, ro coreId false, ro systemId false]

/-- Collect the results of a list of calls, or the first failure. -/
def collect {α : Type} : List (Except Fault α) → Except Fault (List α)
  | [] => return []
  | x :: xs => do
    let a ← x
    let rest ← collect xs
    return a :: rest

namespace Pull

variable (pull : Pull)

/-- `outcomes` of a settled pull. -/
def outcomes : Except Fault (List Outcome) := do
  failIf (pull.status ≠ .settled) Error.notSettled
  collect <| (List.range pull.header.count.toNat).map fun i => do
    let outcome ← mapErr .invalidAccount (pull.header.outcome i)
    return ⟨outcome.asset, if outcome.tier ≠ delivered then some outcome.tier else none⟩

/-- `deliver`: recovery after partial delivery; only undelivered outcomes are included. -/
def deliver (transactionSize : List Instruction → Pubkey → ℕ) (assets : List Asset) (payer : Pubkey) :
    Except Fault (List (List Instruction)) := do
  let outcomes ← pull.outcomes
  let pending := outcomes.zipIdx.filter fun x => x.1.tier.isSome
  failIf (pending.length ≠ assets.length) Error.invalidAsset
  let instructions ← collect <| (pending.zip assets).map fun x => do
    failIf (x.1.1.asset ≠ x.2.address) Error.invalidAsset
    GachaRust.deliver pull.header.pool pull.address pull.header.buyer x.2 (UInt8.ofNat x.1.2) payer
  batches transactionSize [] instructions payer

end Pull

namespace Settlement

variable (plan : Settlement)

/-- `instruction`: the settlement, with the Items of the plan. -/
def instruction : Instruction :=
  GachaRust.instruction (20 :: plan.proof.val) ([rw plan.operator false, rw plan.pool false, rw plan.pull false] ++
    plan.draws.map fun d => rw d.item false)

/-- `instructions`: settle, and deliver every award. -/
def instructions (transactionSize : List Instruction → Pubkey → ℕ) (items : List Item) (assets : List Asset)
    (payer : Pubkey) : Except Fault (List (List Instruction)) := do
  failIf (items.length ≠ plan.draws.length ∨ ∃ x ∈ items.zip plan.draws, x.1.address ≠ x.2.item)
    Error.invalidItem
  failIf (assets.length ≠ items.length) Error.invalidAsset
  let deliveries ← collect <| (items.zip assets).zipIdx.map fun x => do
    failIf (x.1.1.header.asset ≠ x.1.2.address) Error.invalidAsset
    deliver plan.pool plan.pull plan.buyer x.1.2 (UInt8.ofNat x.2) payer
  batches transactionSize [plan.instruction] deliveries payer

end Settlement

end SolanaGacha.GachaRust
