import SolanaGacha.Program.Runtime

/-!
# The TypeScript SDK

`gacha-kit`'s `index.ts`, as far as it reads accounts: `fromAccount` of the four snapshots, `Pool.settle`
and the two balances. It decodes from offsets of its own and draws with its own loop. A `number` and a
`bigint` are natural numbers here, except where the code can go below zero, and an `Address` is its bytes.
What the code reads by index is within the data, whose length `fromAccount` has checked.
-/

namespace SolanaGacha.GachaKit

open Except Layout

/-! ## Errors -/

inductive ErrorCode
  | invalidAccount
  | invalidArgument
  | invalidProof
  | wrongPool
  | notPending
  | notSettled
  | notNextInQueue
  | missingInventory
  | invalidItem
  | invalidAsset
  | invalidPoolStatus
  | pendingPurchases
  | transactionTooLarge
  | missingAccount
  deriving DecidableEq, Repr

/-- What a call throws: a `GachaClientError`, or an exception of the language or of a library. -/
inductive Thrown
  | client (code : ErrorCode)
  | other
  deriving DecidableEq, Repr

instance : Coe ErrorCode Thrown := ⟨Thrown.client⟩

/-! ## Reading -/

/-- `MAX_U64`. -/
def maxU64 : ℕ := 2 ^ 64 - 1

/-- `data[i]!`. -/
def byteAt (data : List UInt8) (i : ℕ) : ℕ := (data.getD i 0).toNat

def readU64 (data : List UInt8) (offset : ℕ) : ℕ := leNat ((data.drop offset).take 8)

def readU32 (data : List UInt8) (offset : ℕ) : ℕ := leNat ((data.drop offset).take 4)

def keyAt (data : List UInt8) (offset : ℕ) : Pubkey := (bytes 32).readAt offset data

/-- `integer`: whether a number is between two others. -/
abbrev integer (n min max : ℕ) : Prop := min ≤ n ∧ n ≤ max

def inventorySpace (version : ℕ) : ℕ := (version + 63) / 64 * 96

/-- `Number(n)`: the nearest double, ties to even. -/
def number (n : ℕ) : ℕ :=
  if n < 2 ^ 53 then n
  else
    let unit := 2 ^ (Nat.log2 n - 52)
    let q := n / unit
    let r := n % unit
    if 2 * r < unit ∨ (2 * r = unit ∧ q % 2 = 0) then q * unit else (q + 1) * unit

/-- `u64`: the bytes of a `bigint`. -/
def u64 (n : ℕ) : Except Thrown (List UInt8) := do
  failIf (maxU64 < n) ErrorCode.invalidArgument
  return leBytes 8 n

/-- `u32`: the bytes of a `number`. -/
def u32 (n : ℕ) : Except Thrown (List UInt8) := do
  failIf (¬integer n 0 0xffffffff) ErrorCode.invalidArgument
  return leBytes 4 n

/-- `check`: the owner, the least length and the version of an account. -/
def check (owner : Pubkey) (data : List UInt8) (min : ℕ) : Except Thrown Unit :=
  failIf (owner ≠ programId ∨ data.length < min ∨ byteAt data 0 ≠ 1) ErrorCode.invalidAccount

/-- `pda`: address and bump, with an exception of the library when no bump derives an address. -/
def pda (rt : Runtime) (seeds : List (List UInt8)) : Except Thrown (Pubkey × ℕ) := do
  let (key, bump) ← okOr .other (rt.findProgramAddress seeds programId)
  return (key, bump.toNat)

/-- `ata`: the payment token account of `owner`. -/
def ata (rt : Runtime) (owner mint : Pubkey) : Except Thrown Pubkey := okOr .other (rt.ata owner mint)

/-! ## Snapshots -/

structure Pool where
  address : Pubkey
  data : List UInt8
  deriving DecidableEq

structure Pull where
  address : Pubkey
  data : List UInt8
  deriving DecidableEq

structure Item where
  address : Pubkey
  data : List UInt8
  deriving DecidableEq

structure Asset where
  address : Pubkey
  owner : Pubkey
  collection : Option Pubkey
  deriving DecidableEq

structure Tier where
  weight : ℕ
  remaining : ℕ
  deriving DecidableEq

inductive PoolStatus
  | paused
  | active
  | retired
  deriving DecidableEq, Repr

inductive Status
  | pending
  | settled
  deriving DecidableEq, Repr

structure Draw where
  tier : ℕ
  position : ℕ
  item : Pubkey
  deriving DecidableEq

structure Settlement where
  pool : Pubkey
  pull : Pubkey
  buyer : Pubkey
  operator : Pubkey
  proof : FixedBytes 80
  draws : List Draw
  deriving DecidableEq

def Asset.fromAccount (key owner : Pubkey) (data : List UInt8) : Except Thrown Asset := do
  failIf (owner ≠ coreId ∨ data.length < 34 ∨ byteAt data 0 ≠ 1) ErrorCode.invalidAsset
  let kind := byteAt data 33
  failIf (2 < kind ∨ (kind ≠ 0 ∧ data.length < 66)) ErrorCode.invalidAsset
  return ⟨key, keyAt data 1, if kind = 2 then some (keyAt data 34) else none⟩

/-! ## Pool -/

namespace Pool

variable (rt : Runtime) (pool : Pool)

def authority : Pubkey := keyAt pool.data 8
def operator : Pubkey := keyAt pool.data 40
def paymentMint : Pubkey := keyAt pool.data 72
def vault : Pubkey := keyAt pool.data 104
def id : ℕ := readU64 pool.data 136
def price : ℕ := readU64 pool.data 144
def deadlineSlots : ℕ := readU64 pool.data 152
def bondPerDraw : ℕ := readU64 pool.data 160
def pendingDraws : ℕ := readU64 pool.data 168
def nextSettle : ℕ := readU64 pool.data 184
def inventoryVersion : ℕ := readU32 pool.data 4

/-- `POOL_STATUSES[data[3]]`. -/
def status : Option PoolStatus := [.paused, .active, .retired][byteAt pool.data 3]?

def tiers : List Tier := (List.range (byteAt pool.data 2)).map fun i =>
  ⟨readU32 pool.data (192 + 8 * i), readU32 pool.data (196 + 8 * i)⟩

/-- `#tag`. -/
def tag (position : ℕ) : ℕ := byteAt pool.data (256 + position / 64 * 96 + 32 + position % 64)

/-- `Pool.addressFor`. -/
def addressFor (authority : Pubkey) (id : ℕ) : Except Thrown (Pubkey × ℕ) := do
  let bytes ← u64 id
  pda rt [poolSeed, authority.val, bytes]

/-- The loop of `fromAccount` over the tags. -/
def countTags (tierCount : ℕ) : List ℕ → List ℕ → Except Thrown (List ℕ)
  | [], counts => return counts
  | position :: rest, counts => do
    let tag := pool.tag position
    failIf (tierCount < tag) ErrorCode.invalidAccount
    countTags tierCount rest
      (if 0 < tag then counts.set (tag - 1) (counts.getD (tag - 1) 0 + 1) else counts)

/-- The checks of a complete account. -/
def checkTags (tierCount : ℕ) : Except Thrown Unit := do
  let counts ← pool.countTags tierCount (List.range pool.inventoryVersion) (List.replicate tierCount 0)
  failIf (∃ x ∈ pool.tiers.zip counts, x.1.remaining ≠ x.2) ErrorCode.invalidAccount

/-- `Pool.fromAccount`. -/
def fromAccount (key owner : Pubkey) (data : List UInt8) : Except Thrown Pool := do
  check owner data 256
  let pool : Pool := { address := key, data }
  let tierCount := byteAt data 2
  failIf (¬integer tierCount 1 8 ∨ 3 ≤ byteAt data 3 ∨
    (data.length ≠ 256 ∧ data.length ≠ 256 + inventorySpace pool.inventoryVersion) ∨ pool.price = 0 ∨
    pool.bondPerDraw = 0 ∨ pool.deadlineSlots = 0 ∨ maxU64 < (pool.price + pool.bondPerDraw) * 10 ∨
    ∃ tier ∈ pool.tiers, tier.weight = 0) ErrorCode.invalidAccount
  let _ ← (if 256 < data.length then pool.checkTags tierCount else .ok ())
  let (derived, bump) ← addressFor rt pool.authority pool.id
  failIf (derived ≠ key ∨ bump ≠ byteAt data 1) ErrorCode.invalidAccount
  let vault ← ata rt key pool.paymentMint
  failIf (vault ≠ pool.vault) ErrorCode.invalidAccount
  return pool

/-- `spendableBalance`. -/
def spendableBalance (vaultBalance : ℤ) : Except Thrown ℕ := do
  failIf (vaultBalance < 0 ∨ (maxU64 : ℤ) < vaultBalance) ErrorCode.invalidArgument
  let reserved := pool.pendingDraws * (pool.price + pool.bondPerDraw)
  failIf (maxU64 < reserved) ErrorCode.invalidAccount
  return if (reserved : ℤ) < vaultBalance then (vaultBalance - reserved).toNat else 0

/-- `availableDraws`. -/
def availableDraws (vaultBalance : ℤ) : Except Thrown ℕ :=
  if pool.status ≠ some .active then return 0
  else do
    let stock : ℤ := ((pool.tiers.map Tier.remaining).sum : ℤ) - pool.pendingDraws
    failIf (stock < 0) ErrorCode.invalidAccount
    let spendable ← pool.spendableBalance vaultBalance
    failIf (pool.bondPerDraw = 0) .other
    let funded := spendable / pool.bondPerDraw
    return min 10 (min (number stock.toNat) (number funded))

end Pool

/-! ## Pull and Item -/

namespace Pull

variable (rt : Runtime) (pull : Pull)

def pool : Pubkey := keyAt pull.data 24
def buyer : Pubkey := keyAt pull.data 56
def count : ℕ := byteAt pull.data 3
def inventoryVersion : ℕ := readU32 pull.data 4
def index : ℕ := readU64 pull.data 8
def status : Status := if byteAt pull.data 2 = 0 then .pending else .settled
def clientSeed : List UInt8 := (pull.data.drop 88).take 32

/-- `Pull.addressFor`. -/
def addressFor (pool : Pubkey) (clientSeed : List UInt8) : Except Thrown (Pubkey × ℕ) := do
  failIf (clientSeed.length ≠ 32) ErrorCode.invalidArgument
  pda rt [pullSeed, pool.val, clientSeed]

/-- `Pull.fromAccount`. -/
def fromAccount (key owner : Pubkey) (data : List UInt8) : Except Thrown Pull := do
  check owner data 450
  let pull : Pull := { address := key, data }
  failIf (data.length ≠ 450 ∨ 1 < byteAt data 2 ∨ ¬integer (byteAt data 3) 1 10) ErrorCode.invalidAccount
  failIf (pull.status = .settled ∧ ∃ i ∈ List.range pull.count,
    byteAt data (120 + i * 33) ≠ 255 ∧ 8 ≤ byteAt data (120 + i * 33)) ErrorCode.invalidAccount
  let (derived, bump) ← addressFor rt pull.pool pull.clientSeed
  failIf (derived ≠ key ∨ bump ≠ byteAt data 1) ErrorCode.invalidAccount
  return pull

def alpha : FixedBytes 32 := rt.sha256 (pull.address.val ++ pull.clientSeed)

end Pull

namespace Item

variable (rt : Runtime) (item : Item)

def tier : ℕ := byteAt item.data 2
def position : ℕ := readU32 item.data 4
def pool : Pubkey := keyAt item.data 8

/-- `Item.addressFor`. -/
def addressFor (pool : Pubkey) (tier position : ℕ) : Except Thrown (Pubkey × ℕ) := do
  failIf (¬integer tier 0 7) ErrorCode.invalidArgument
  let bytes ← u32 position
  pda rt [itemSeed, pool.val, [UInt8.ofNat tier], bytes]

/-- `Item.fromAccount`. -/
def fromAccount (key owner : Pubkey) (data : List UInt8) : Except Thrown Item := do
  check owner data 72
  let item : Item := { address := key, data }
  failIf (data.length ≠ 72 ∨ 8 ≤ item.tier) ErrorCode.invalidAccount
  let (derived, bump) ← addressFor rt item.pool item.tier item.position
  failIf (derived ≠ key ∨ bump ≠ byteAt data 1) ErrorCode.invalidAccount
  return item

end Item

/-! ## Settlement -/

namespace Pool

variable (rt : Runtime) (pool : Pool)

/-- `#pending`. -/
def pending (pull : Pull) : Except Thrown Unit := do
  failIf (pull.pool ≠ pool.address) ErrorCode.wrongPool
  failIf (pull.status ≠ .pending) ErrorCode.notPending
  failIf (pull.index ≠ pool.nextSettle) ErrorCode.notNextInQueue
  failIf (pool.inventoryVersion < pull.inventoryVersion) ErrorCode.invalidAccount

/-- The scan of `settle`. -/
def scan : List ℕ → List (List ℕ) → Except Thrown (List (List ℕ))
  | [], candidates => return candidates
  | position :: rest, candidates => do
    let tag := pool.tag position
    if 0 < tag then do
      let list ← okOr .other candidates[tag - 1]?
      scan rest (candidates.set (tag - 1) (list ++ [position]))
    else scan rest candidates

/-- The walk over the tiers from number `tier` on, with what is left of the roll. -/
def walk : List (ℕ × List ℕ) → ℕ → ℕ → ℕ
  | [], tier, _ => tier
  | (weight, list) :: rest, tier, roll =>
    if list.length = 0 then walk rest (tier + 1) roll
    else if roll < weight then tier
    else walk rest (tier + 1) (roll - weight)

/-- The loop of `settle` from draw number `i` on. -/
def select (beta : FixedBytes 64) (weights : List ℕ) :
    List (List ℕ) → ℕ → ℕ → Except Thrown (List (ℕ × ℕ))
  | _, _, 0 => return []
  | candidates, i, n + 1 => do
    let hash := rt.sha256 (beta.val ++ [UInt8.ofNat i])
    let total := ((weights.zip candidates).map fun x => if x.2.length = 0 then 0 else x.1).sum
    failIf (total = 0) ErrorCode.invalidAccount
    let tier := walk (weights.zip candidates) 0 (readU64 hash.val 0 % total)
    let list ← okOr .other candidates[tier]?
    failIf (list.length = 0) .other
    let rank := number (readU64 hash.val 8 % list.length)
    let position ← okOr .other list[rank]?
    let rest ← select beta weights (candidates.set tier (list.eraseIdx rank)) (i + 1) n
    return (tier, position) :: rest

/-- The draws with the addresses of their Items. -/
def locate : List (ℕ × ℕ) → Except Thrown (List Draw)
  | [] => return []
  | (tier, position) :: rest => do
    let (item, _) ← Item.addressFor rt pool.address tier position
    let draws ← locate rest
    return ⟨tier, position, item⟩ :: draws

/-- `Pool.settle`. -/
def settle (pull : Pull) (proof : FixedBytes 80) : Except Thrown Settlement := do
  pool.pending pull
  failIf (pool.data.length ≠ 256 + inventorySpace pool.inventoryVersion) ErrorCode.missingInventory
  let beta ← okOr ErrorCode.invalidProof (rt.verifyProof pool.operator (pull.alpha rt) proof)
  let candidates ← pool.scan (List.range pull.inventoryVersion) (pool.tiers.map fun _ => [])
  let selected ← select rt beta (pool.tiers.map Tier.weight) candidates 0 pull.count
  let draws ← pool.locate rt selected
  return {
    pool := pool.address
    pull := pull.address
    buyer := pull.buyer
    operator := pool.operator
    proof
    draws }

end Pool

end SolanaGacha.GachaKit
