import SolanaGacha.Core.Asset
import SolanaGacha.Program.Inventory
import SolanaGacha.Program.Runtime

/-!
# Snapshots of the Rust SDK

`gacha-rust`'s `lib.rs`, without its instruction builders: an account's bytes are decoded and checked once
(`fromAccount`), and the snapshot answers from them. `Pool.settle` verifies a proof and computes the plan of
the settlement: it scans the tags of the pinned positions, with one list of candidates for each tier.
-/

namespace SolanaGacha.GachaRust

open Except Layout

/-! ## Errors -/

/-- The SDK's error codes. -/
inductive Error
  | invalidAccount
  | invalidArgument
  | invalidProof
  | wrongPool
  | notPending
  | notSettled
  | notNextInQueue
  | missingInventory
  | invalidItem
  | invalidAsset
  | invalidPoolStatus
  | pendingPurchases
  | transactionTooLarge
  deriving DecidableEq, Repr

/-- How a call fails: with an error, or with a panic. -/
inductive Fault
  | error (e : Error)
  | panicked
  deriving DecidableEq, Repr

instance : Coe Error Fault := ⟨Fault.error⟩

/-- `.map_err(|_| e)` on a function of `gacha-core`; a panic stays one. -/
def mapErr {α : Type} (e : Error) : Except SolanaGacha.Fault α → Except Fault α
  | .ok a => .ok a
  | .error .panicked => .error .panicked
  | .error _ => .error e

/-- `Pubkey::find_program_address` for the program, which panics when no bump derives an address. -/
def findProgramAddress (rt : Runtime) (seeds : List (List UInt8)) : Except Fault (Pubkey × UInt8) :=
  okOr .panicked (rt.findProgramAddress seeds programId)

/-- `ata`: the payment token account of `owner`. -/
def ata (rt : Runtime) (owner mint : Pubkey) : Except Fault Pubkey := okOr .panicked (rt.ata owner mint)

/-- `check`: the owner, the least length and the version of an account. -/
def check (owner : Pubkey) (data : List UInt8) (minimum : ℕ) (version : UInt8) : Except Fault Unit :=
  failIf (owner ≠ programId ∨ data.length < minimum ∨ data[0]? ≠ some version) Error.invalidAccount

/-- `0..version`. -/
def positions (version : UInt32) : List UInt32 := (List.range version.toNat).map UInt32.ofNat

/-! ## Snapshots -/

/-- Owned bytes of a pool account. -/
structure Pool where
  address : Pubkey
  data : List UInt8
  deriving DecidableEq

structure Pull where
  address : Pubkey
  data : List UInt8
  deriving DecidableEq

structure Item where
  address : Pubkey
  data : List UInt8
  deriving DecidableEq

/-- Core ownership and collection of an asset. -/
structure Asset where
  address : Pubkey
  owner : Pubkey
  collection : Option Pubkey
  deriving DecidableEq

inductive Status
  | pending
  | settled
  deriving DecidableEq, Repr

inductive PoolStatus
  | paused
  | active
  | retired
  deriving DecidableEq, Repr

/-- One draw of a settlement plan. -/
structure Draw where
  tier : UInt8
  position : UInt32
  item : Pubkey
  deriving DecidableEq

/-- A plan that `Pool.settle` computed from a verified proof. -/
structure Settlement where
  pool : Pubkey
  pull : Pubkey
  buyer : Pubkey
  operator : Pubkey
  proof : FixedBytes 80
  draws : List Draw
  deriving DecidableEq

def Asset.fromAccount (address owner : Pubkey) (data : List UInt8) : Except Fault Asset :=
  match CoreAsset.fromAccount owner data with
  | .ok header => .ok { address, owner := header.owner, collection := header.collection }
  | .error _ => .error Error.invalidAsset

/-! ## Pool -/

namespace Pool

variable (rt : Runtime) (pool : Pool)

/-- `Pool::address_for`: address and bump. -/
def addressFor (authority : Pubkey) (id : UInt64) : Except Fault (Pubkey × UInt8) :=
  findProgramAddress rt [poolSeed, authority.val, u64.encode id]

def header : SolanaGacha.Pool := SolanaGacha.Pool.layout.decode pool.data

/-- The tag of a position. -/
def tag (position : UInt32) : Except Fault UInt8 :=
  okOr .panicked pool.data[poolLen + position.toNat / inventoryTagsPerBlock * inventoryBlockLen +
    inventoryCountsLen + position.toNat % inventoryTagsPerBlock]?

/-- The available positions of each tier, counted tag by tag. -/
def countTags (tierCount : UInt8) : List UInt32 → Vector UInt32 8 → Except Fault (Vector UInt32 8)
  | [], remaining => return remaining
  | position :: rest, remaining => do
    let tag ← pool.tag position
    failIf (tierCount < tag) Error.invalidAccount
    let remaining ← mapErr .invalidAccount (Inventory.addTag remaining tag)
    countTags tierCount rest remaining

/-- The checks of a complete account: every tag is that of a tier, and the tags agree with the header. -/
def checkTags (tiers : List Tier) : Except Fault Unit := do
  let remaining ← pool.countTags pool.header.tierCount (positions pool.header.inventoryVersion)
    (Vector.replicate 8 0)
  failIf (∃ x ∈ tiers.zip remaining.toList, x.1.remaining ≠ x.2) Error.invalidAccount

/-- `Pool::from_account`. A header alone is accepted too, without its tags. -/
def fromAccount (address owner : Pubkey) (data : List UInt8) : Except Fault Pool := do
  check owner data poolLen poolVersion
  let pool : Pool := { address, data }
  let h := pool.header
  failIf (h.tierCount.toNat < 1 ∨ maxTiers < h.tierCount.toNat ∨ poolRetired < h.status ∨
    (data.length ≠ poolLen ∧ data.length ≠ poolLen + inventorySpace h.inventoryVersion))
    Error.invalidAccount
  let derived ← addressFor rt h.authority h.id
  failIf (derived ≠ (address, h.bump)) Error.invalidAccount
  let vault ← ata rt address h.paymentMint
  failIf (h.vault ≠ vault ∨ h.price = 0 ∨ h.bondPerDraw = 0 ∨ h.deadlineSlots = 0) Error.invalidAccount
  let _ ← mapErr .invalidAccount (h.refundAmount (UInt64.ofNat maxCount))
  let tiers ← mapErr .invalidAccount h.tierSlice
  failIf (∃ tier ∈ tiers, tier.weight = 0) Error.invalidAccount
  let _ ← (if data.length > poolLen then pool.checkTags tiers else .ok ())
  return pool

def status : PoolStatus :=
  if pool.header.status = poolPaused then .paused
  else if pool.header.status = poolActive then .active
  else .retired

/-- Surplus after reserving all pending refunds. -/
def spendableBalance (vaultBalance : UInt64) : Except Fault UInt64 := do
  let reserved ← mapErr .invalidAccount (pool.header.refundAmount pool.header.pendingDraws)
  return if reserved ≤ vaultBalance then vaultBalance - reserved else 0

/-- Maximum draws given stock and collateral; zero unless the pool is active. -/
def availableDraws (vaultBalance : UInt64) : Except Fault UInt8 :=
  if pool.status ≠ .active then return 0
  else do
    let remaining ← mapErr .invalidAccount pool.header.remaining
    let stock ← okOr Error.invalidAccount
      ((UInt64.ofNat remaining).checkedSub pool.header.pendingDraws)
    let spendable ← pool.spendableBalance vaultBalance
    failIf (pool.header.bondPerDraw = 0) .panicked
    let funded := spendable / pool.header.bondPerDraw
    return (min (min stock funded) (UInt64.ofNat maxCount)).toUInt8

end Pool

/-! ## Pull and Item -/

namespace Pull

variable (rt : Runtime) (pull : Pull)

/-- `Pull::address_for`: address and bump. -/
def addressFor (pool : Pubkey) (clientSeed : FixedBytes 32) : Except Fault (Pubkey × UInt8) :=
  findProgramAddress rt [pullSeed, pool.val, clientSeed.val]

def header : SolanaGacha.Pull := SolanaGacha.Pull.layout.decode pull.data

def status : Status := if pull.header.status = statusPending then .pending else .settled

/-- Some recorded outcome has no tier and is not delivered. -/
def badOutcome : Prop := ∃ outcome ∈ pull.header.outcomes.toList.take pull.header.count.toNat,
  outcome.tier ≠ delivered ∧ maxTiers ≤ outcome.tier.toNat

instance : Decidable pull.badOutcome := inferInstanceAs (Decidable (∃ _ ∈ _, _))

/-- `Pull::from_account`. -/
def fromAccount (address owner : Pubkey) (data : List UInt8) : Except Fault Pull := do
  check owner data pullLen pullVersion
  let pull : Pull := { address, data }
  let h := pull.header
  failIf (data.length ≠ pullLen ∨ statusSettled < h.status ∨ h.count.toNat < 1 ∨
    maxCount < h.count.toNat) Error.invalidAccount
  -- SDK-built accounts always carry the canonical bump.
  let derived ← addressFor rt h.pool h.clientSeed
  failIf (derived ≠ (address, h.bump)) Error.invalidAccount
  failIf (pull.status = .settled ∧ pull.badOutcome) Error.invalidAccount
  return pull

/-- The VRF input. -/
def alpha : FixedBytes 32 := rt.sha256 (pull.address.val ++ pull.header.clientSeed.val)

end Pull

namespace Item

variable (rt : Runtime) (item : Item)

/-- `Item::address_for`: address and bump. -/
def addressFor (pool : Pubkey) (tier : UInt8) (position : UInt32) : Except Fault (Pubkey × UInt8) :=
  findProgramAddress rt [itemSeed, pool.val, [tier], u32.encode position]

def header : SolanaGacha.Item := SolanaGacha.Item.layout.decode item.data

/-- `Item::from_account`. -/
def fromAccount (address owner : Pubkey) (data : List UInt8) : Except Fault Item := do
  check owner data itemLen itemVersion
  let item : Item := { address, data }
  let h := item.header
  failIf (data.length ≠ itemLen ∨ maxTiers ≤ h.tier.toNat) Error.invalidAccount
  let derived ← addressFor rt h.pool h.tier h.position
  failIf (derived ≠ (address, h.bump)) Error.invalidAccount
  return item

end Item

/-! ## Settlement -/

namespace Pool

variable (rt : Runtime) (pool : Pool)

/-- `pending`: the pull is the pool's next one. -/
def pending (pull : Pull) : Except Fault Unit := do
  failIf (pull.header.pool ≠ pool.address) Error.wrongPool
  failIf (pull.status ≠ .pending) Error.notPending
  failIf (pull.header.index ≠ pool.header.nextSettle) Error.notNextInQueue
  failIf (pool.header.inventoryVersion < pull.header.inventoryVersion) Error.invalidAccount

/-- The scan of `settle`: each available position is pushed to the candidates of its tier. -/
def scan : List UInt32 → List (List UInt32) → Except Fault (List (List UInt32))
  | [], candidates => return candidates
  | position :: rest, candidates => do
    let tag ← pool.tag position
    if tag = 0 then scan rest candidates
    else do
      let entries ← okOr .panicked candidates[tag.toNat - 1]?
      scan rest (candidates.set (tag.toNat - 1) (entries ++ [position]))

/-- The number of candidates of each tier, as the array that a draw reads. -/
def candidateCounts (candidates : List (List UInt32)) : Except Fault (Vector UInt32 8) := do
  failIf (maxTiers < candidates.length) .panicked
  return .ofFn fun tier => UInt32.ofNat (candidates.getD tier []).length

/-- The draws from draw number `i` on; each removes its position from the candidates. -/
def drawLoop (beta : FixedBytes 64) : List (List UInt32) → ℕ → ℕ → Except Fault (List Draw)
  | _, _, 0 => return []
  | candidates, i, n + 1 => do
    let hash := rt.sha256 (beta.val ++ [UInt8.ofNat i])
    let counts ← candidateCounts candidates
    let (tier, rank) ← mapErr .invalidAccount (pool.header.draw hash counts)
    let entries ← okOr .panicked candidates[tier.toNat]?
    let position ← okOr .panicked entries[rank.toNat]?
    let (item, _) ← Item.addressFor rt pool.address tier position
    let draws ← drawLoop beta (candidates.set tier.toNat (entries.eraseIdx rank.toNat)) (i + 1) n
    return { tier, position, item } :: draws

/-- `Pool::settle`: verify first, then derive the exact item accounts. -/
def settle (pull : Pull) (proof : FixedBytes 80) : Except Fault Settlement := do
  pool.pending pull
  failIf (pool.data.length ≠ poolLen + inventorySpace pool.header.inventoryVersion)
    Error.missingInventory
  let beta ← okOr Error.invalidProof (rt.verifyProof pool.header.operator (pull.alpha rt) proof)
  let candidates ← pool.scan (positions pull.header.inventoryVersion)
    (List.replicate pool.header.tierCount.toNat [])
  let draws ← pool.drawLoop rt beta candidates 0 pull.header.count.toNat
  return {
    pool := pool.address
    pull := pull.address
    buyer := pull.header.buyer
    operator := pool.header.operator
    proof
    draws }

end Pool

end SolanaGacha.GachaRust
