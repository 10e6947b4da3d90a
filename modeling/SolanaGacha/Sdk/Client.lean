import SolanaGacha.Sdk.Instructions

/-!
# The RPC client of the Rust SDK

`gacha-rust`'s `rpc.rs`: each call of the client sends a few read requests to a node, decodes the accounts
that it answers with, and builds instructions from the snapshots. The node is a parameter that answers request
number `n` of a call; base64 and the transport are its own. `World.answer` is the answer of an honest node whose
state is a given one. The chain moves on between two requests, so one call may read in different states.
-/

namespace SolanaGacha

namespace GachaRust

open Except

/-! ## Requests -/

/-- `RpcError`. -/
inductive RpcError
  | transport
  | account (fault : Fault)
  | missingAccount (key : Pubkey)
  deriving DecidableEq

/-- `getMultipleAccounts`, with its `min_context_slot` and the length of its data slice. -/
structure Request where
  keys : List Pubkey
  minimum : Option UInt64
  length : Option ℕ

/-- An account of an answer; an owner that does not parse, or data that does not decode, is missing. -/
structure UiAccount where
  owner : Option Pubkey
  data : Option (List UInt8)

structure Response where
  slot : UInt64
  accounts : List (Option UiAccount)

/-- What a node answers to the requests of a call, by their number. -/
abbrev Rpc := ℕ → Request → Except RpcError Response

/-- `?` on a result of the snapshots. -/
def lift {α : Type} : Except Fault α → Except RpcError α
  | .ok a => .ok a
  | .error fault => .error (.account fault)

def readAccount (x : Pubkey × Option UiAccount) : Except RpcError (Pubkey × List UInt8) := do
  let account ← okOr (.missingAccount x.1) x.2
  let owner ← okOr (.account (.error .invalidAccount)) account.owner
  let data ← okOr (.account (.error .invalidAccount)) account.data
  return (owner, data)

namespace Client

variable (rt : Runtime) (transactionSize : List Instruction → Pubkey → ℕ) (rpc : Rpc)

/-- `read`, as request number `n`. -/
def read (n : ℕ) (keys : List Pubkey) (minimum : Option UInt64) (length : Option ℕ) :
    Except RpcError (UInt64 × List (Pubkey × List UInt8)) := do
  let response ← rpc n ⟨keys, minimum, length⟩
  failIf (response.accounts.length ≠ keys.length ∨ ∃ slot ∈ minimum, response.slot < slot)
    (.account (.error .invalidAccount))
  let accounts ← (keys.zip response.accounts).mapM readAccount
  return (response.slot, accounts)

/-- `accounts[i]`. -/
def nth (accounts : List (Pubkey × List UInt8)) (i : ℕ) : Except RpcError (Pubkey × List UInt8) :=
  okOr (.account .panicked) accounts[i]?

/-! ## Fetching -/

def fetchPool (address : Pubkey) : Except RpcError Pool := do
  let (_, accounts) ← read rpc 0 [address] none none
  let (owner, data) ← nth accounts 0
  lift (Pool.fromAccount rt address owner data)

def fetchPull (address : Pubkey) : Except RpcError Pull := do
  let (_, accounts) ← read rpc 0 [address] none none
  let (owner, data) ← nth accounts 0
  lift (Pull.fromAccount rt address owner data)

def fetchItem (address : Pubkey) : Except RpcError Item := do
  let (_, accounts) ← read rpc 0 [address] none none
  let (owner, data) ← nth accounts 0
  lift (Item.fromAccount rt address owner data)

/-- `assets`: the headers of some Core assets; none are fetched for no keys. -/
def assets (n : ℕ) (keys : List Pubkey) (minimum : Option UInt64) : Except RpcError (List Asset) :=
  if keys.isEmpty then return []
  else do
    let (_, accounts) ← read rpc n keys minimum (some 66)
    (keys.zip accounts).mapM fun x => lift (Asset.fromAccount x.1 x.2.1 x.2.2)

def fetchAsset (address : Pubkey) : Except RpcError Asset := do
  let assets ← assets rpc 0 [address] none
  okOr (.account .panicked) assets[0]?

/-- `snapshot`: find the pool of a Pull, then read both accounts at once. Without the inventory, both slices
have the length of a Pull, and the pool is decoded from its header. -/
def snapshot (address : Pubkey) (inventory : Bool) : Except RpcError (Pool × Pull × UInt64) := do
  let (slot, accounts) ← read rpc 0 [address] none none
  let (owner, data) ← nth accounts 0
  let discovered ← lift (Pull.fromAccount rt address owner data)
  let length := if inventory then none else some pullLen
  let (slot, accounts) ← read rpc 1 [discovered.header.pool, address] (some slot) length
  let (owner, data) ← nth accounts 0
  failIf (inventory = false ∧ data.length < poolLen) (.account (.error .invalidAccount))
  let poolData := if inventory then data else data.take poolLen
  let pool ← lift (Pool.fromAccount rt discovered.header.pool owner poolData)
  let (owner, data) ← nth accounts 1
  let pull ← lift (Pull.fromAccount rt address owner data)
  return (pool, pull, slot)

/-! ## Preparing -/

def buy (address : Pubkey) (buy : Buy) : Except RpcError Purchase := do
  let (_, accounts) ← read rpc 0 [address] none (some poolLen)
  let (owner, data) ← nth accounts 0
  let pool ← lift (Pool.fromAccount rt address owner data)
  lift (pool.buy rt buy)

/-- Return, payment and restock from one read of the pool and the asset. -/
def buyback (quote : BuybackQuote) (signature : FixedBytes 64) (payer : Pubkey) :
    Except RpcError (List Instruction) := do
  let (_, accounts) ← read rpc 0 [quote.pool, quote.asset] none (some poolLen)
  let (owner, data) ← nth accounts 0
  let pool ← lift (Pool.fromAccount rt quote.pool owner data)
  let (owner, data) ← nth accounts 1
  let asset ← lift (Asset.fromAccount quote.asset owner data)
  lift (pool.buyback rt quote signature asset payer)

def refund (address payer : Pubkey) : Except RpcError (List Instruction) := do
  let (pool, pull, _) ← snapshot rt rpc address false
  lift (pool.refund rt pull payer)

/-- Resume the recorded outcomes. -/
def deliver (address payer : Pubkey) : Except RpcError (List (List Instruction)) := do
  let (slot, accounts) ← read rpc 0 [address] none none
  let (owner, data) ← nth accounts 0
  let pull ← lift (Pull.fromAccount rt address owner data)
  let outcomes ← lift pull.outcomes
  let keys := (outcomes.filter fun o => o.tier.isSome).map Outcome.asset
  let assets ← assets rpc 1 keys (some slot)
  lift (pull.deliver transactionSize assets payer)

/-- One snapshot of the pool and the pull, then the Items of the plan, then their assets. -/
def settle (address : Pubkey) (proof : FixedBytes 80) (payer : Pubkey) :
    Except RpcError (List (List Instruction)) := do
  let (pool, pull, slot) ← snapshot rt rpc address true
  let plan ← lift (pool.settle rt pull proof)
  let keys := plan.draws.map Draw.item
  let (slot, accounts) ← read rpc 2 keys (some slot) none
  let items ← (keys.zip accounts).mapM fun x => lift (Item.fromAccount rt x.1 x.2.1 x.2.2)
  let assets ← assets rpc 3 (items.map fun item => item.header.asset) (some slot)
  lift (plan.instructions transactionSize items assets payer)

end Client

/-! ## Honest nodes -/

/-- An account as a node reports it: an address that holds nothing has none, and a slice cuts the data. -/
def uiAccount (account : Account) (length : Option ℕ) : Option UiAccount :=
  if account.owner = systemId ∧ account.lamports = 0 ∧ account.data = [] then none
  else some ⟨some account.owner, some (account.data.take (length.getD account.data.length))⟩

end GachaRust

/-- The answer of a node whose state is `w`. -/
def World.answer (w : World) (r : GachaRust.Request) : GachaRust.Response where
  slot := w.slot
  accounts := r.keys.map fun k => GachaRust.uiAccount (w.accounts k) r.length

end SolanaGacha
