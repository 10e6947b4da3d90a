import SolanaGacha.Program.Inventory
import SolanaGacha.Program.Runtime

/-!
# Helpers, events and the restock and draw of the handlers

The program's `helpers.rs`, `assets.rs` and `events.rs`, and the functions of `inventory.rs` that work
on accounts: `check_restock`, `restock` and `draw`.
-/

namespace SolanaGacha

open Except Layout

/-! ## `helpers.rs` -/

/-- `check_uninitialized`: an account about to be created must be an empty system account. -/
def checkUninitialized (account : Account) : Except Fault Unit :=
  failIf (account.owner ≠ systemId ∨ account.data.length ≠ 0) GachaError.alreadyInitialized

/-- `close`: move every lamport of `account` to `receiver`, and close `account`. -/
def close (accounts : Accounts) (account receiver : Pubkey) : Except Fault Accounts := do
  let lamports ← okOr .arithmeticOverflow
    ((accounts receiver).lamports.checkedAdd (accounts account).lamports)
  let accounts := Function.update accounts receiver { accounts receiver with lamports }
  return Function.update accounts account ⟨systemId, 0, []⟩

/-- `spendable`: the vault balance left after reserving every pending refund and penalty. -/
def spendable (pool : Pool) (vault : Account) : Except Fault UInt64 := do
  let token ← TokenAccount.load vault
  let reserved ← pool.refundAmount pool.pendingDraws
  okOr GachaError.insufficientBalance (token.amount.checkedSub reserved)

namespace Runtime

variable (rt : Runtime)

/-- The `Transfer` of the lamports that are missing for rent, if any are. -/
def fund (w : World) (payer account : AccountInfo) (missing : ℕ) : Except Fault World :=
  if missing > 0 then
    rt.invokeSigned w [⟨payer, true, true⟩, ⟨account, false, true⟩] [] fun accounts =>
      rt.transferLamports accounts payer.key account.key (UInt64.ofNat missing)
  else .ok w

/-- `create_pda`: create a program-owned PDA, rent paid by `payer`. Anyone can send lamports to the
address before, and then the account is funded, allocated and assigned instead. -/
def createPda (w : World) (payer account : AccountInfo) (space : ℕ) (seeds : List (List UInt8)) :
    Except Fault World := do
  let lamports := rt.minimumBalance space
  if (w.account account).lamports = 0 then
    rt.invokeSigned w [⟨payer, true, true⟩, ⟨account, true, true⟩] [seeds] fun accounts =>
      rt.createAccount accounts payer.key account.key lamports space programId
  else do
    let missing := lamports.toNat - (w.account account).lamports.toNat
    let w ← rt.fund w payer account missing
    let w ← rt.invokeSigned w [⟨account, true, true⟩] [seeds] fun accounts =>
      rt.allocate accounts account.key space
    rt.invokeSigned w [⟨account, true, true⟩] [seeds] fun accounts =>
      rt.assign accounts account.key programId

/-- SPL `Transfer` with the signers of the call. -/
def transferTokens (w : World) (source destination authority : AccountInfo) (amount : UInt64)
    (signers : List (List (List UInt8))) : Except Fault World :=
  rt.invokeSigned w [⟨source, false, true⟩, ⟨destination, false, true⟩, ⟨authority, true, false⟩]
    signers fun accounts =>
      rt.tokenTransfer accounts source.key destination.key authority.key amount

/-- `pay`: pay `amount` from the vault, signed by the pool PDA. -/
def pay (w : World) (pool vault destination : AccountInfo) (amount : UInt64) : Except Fault World := do
  let header ← Pool.load (w.account pool)
  rt.transferTokens w vault destination pool amount [header.signerSeeds]

/-- The accounts of a Core transfer, `assets::Transfer`. -/
structure AssetTransfer where
  payer : AccountInfo
  authority : AccountInfo
  newOwner : AccountInfo
  asset : AccountInfo
  collection : AccountInfo
  coreProgram : AccountInfo
  systemProgram : AccountInfo

/-- Core `TransferV1` with no compression proof. Core itself validates the asset. -/
def transferAsset (w : World) (t : AssetTransfer) (signers : List (List (List UInt8))) :
    Except Fault World :=
  rt.invokeSigned w
    [⟨t.asset, false, true⟩, ⟨t.collection, false, false⟩, ⟨t.payer, true, true⟩,
      ⟨t.authority, true, false⟩, ⟨t.newOwner, false, false⟩, ⟨t.systemProgram, false, false⟩,
      ⟨t.coreProgram, false, false⟩] signers fun accounts =>
    rt.coreTransfer accounts t.asset.key t.collection.key t.payer.key t.authority.key t.newOwner.key

/-! ## `events.rs` -/

/-- `emit_event`: only the event authority PDA can sign the event instruction. -/
def emitEvent (infos : List AccountInfo) : Except Fault Unit :=
  match infos with
  | authority :: _ =>
    failIf (¬authority.isSigner ∨ authority.key ≠ eventAuthority) GachaError.invalidEventAuthority
  | [] => .error .notEnoughAccountKeys

/-- `EventData::push` of every field, behind the two discriminators. A field that does not fit the
buffer panics. -/
def eventData (size : ℕ) (discriminator : UInt8) (fields : List (List UInt8)) :
    Except Fault (List UInt8) := do
  let data := eventDiscriminator :: discriminator :: fields.flatten
  failIf (size < data.length) .panicked
  return data

/-- `EventData::emit`: the program invokes itself, signed by the event authority. The call names the
two addresses, so other accounts fail it; its instruction is `emit_event`. -/
def emit (w : World) (size : ℕ) (discriminator : UInt8) (fields : List (List UInt8))
    (authority program : AccountInfo) : Except Fault World := do
  let data ← eventData size discriminator fields
  failIf (authority.key ≠ eventAuthority ∨ program.key ≠ programId) .rejected
  rt.checkMetas [⟨authority, true, false⟩, ⟨program, false, false⟩]
    [[eventAuthoritySeed, [eventAuthorityBump]]]
  emitEvent [{ authority with isSigner := true }, program]
  return { w with events := w.events ++ [data] }

/-! ## Restocking -/

/-- `check_restock`: the pool accepts stock in `tier`, and `item` is the empty PDA for the pool's next
position. Returns the position. -/
def checkRestock (w : World) (pool : Pool) (poolKey : Pubkey) (item : AccountInfo) (tier bump : UInt8) :
    Except Fault UInt32 := do
  failIf (pool.tierCount ≤ tier) GachaError.invalidTier
  let position := pool.inventoryVersion
  let key ← okOr GachaError.invalidSeeds
    (rt.createProgramAddress (Item.seeds poolKey tier position bump) programId)
  failIf (key ≠ item.key) GachaError.invalidSeeds
  checkUninitialized (w.account item)
  return position

/-- `AccountInfo::realloc`: the data cut or zero-extended to `space` bytes. -/
def realloc (w : World) (key : Pubkey) (space : ℕ) : World :=
  let data := (w.accounts key).data
  w.setData key ((data ++ List.replicate (space - data.length) 0).take space)

/-- The index space of `restock`: grow the pool account when the next position opens a block. -/
def growIndex (w : World) (payer pool : AccountInfo) (positions : UInt32) : Except Fault World := do
  let space := poolLen + inventorySpace positions
  if space ≠ (w.account pool).data.length then do
    let missing := (rt.minimumBalance space).toNat - (w.account pool).lamports.toNat
    let w ← rt.fund w payer pool missing
    return realloc w pool.key space
  else return w

/-- `restock`: append one custody-backed prize at the pool's next position. -/
def restock (w : World) (payer pool item : AccountInfo) (asset : Pubkey) (tier bump : UInt8) :
    Except Fault World := do
  -- Take the next position and grow the index first.
  let header ← Pool.load (w.account pool)
  let position := header.inventoryVersion
  let positions ← okOr .panicked (position.checkedAdd 1)
  let w := w.store Pool.layout pool.key { header with inventoryVersion := positions }
  let w ← rt.growIndex w payer pool positions
  -- Create and populate the Item.
  let w ← rt.createPda w payer item itemLen (Item.seeds pool.key tier position bump)
  let new ← Item.loadNew (w.account item)
  let w := w.store Item.layout item.key (new.setInner bump tier position pool.key asset)
  -- Make the position available.
  let header ← Pool.load (w.account pool)
  let inventory ← Inventory.load (w.account pool)
  let ((), inventory) ← (Inventory.append position tier).run inventory
  let header ← header.updateRemaining tier (·.checkedAdd 1)
  return (w.store Pool.layout pool.key header).storeInventory pool.key inventory

/-! ## Drawing -/

end Runtime

/-- What the draw loop changes: the pool's header and index, the pull, the accounts, and the stock
that the draws left to make can choose from. -/
structure DrawState where
  pool : Pool
  inventory : Inventory
  pull : Pull
  accounts : Accounts
  available : Vector UInt32 8

namespace Runtime

variable (rt : Runtime)

/-- The body of `draw`'s loop: draw number `i` of a pull. -/
def drawOne (poolKey operator : Pubkey) (beta : FixedBytes 64) (s : DrawState) (i : ℕ)
    (itemAccount : AccountInfo) : Except Fault DrawState := do
  let hash := rt.sha256 (beta.val ++ [UInt8.ofNat i])
  let (tier, rank) ← s.pool.draw hash s.available
  let (position, inventory) ← (Inventory.take tier rank).run s.inventory
  let count ← okOr .panicked s.available[tier.toNat]?
  let left ← okOr .panicked (count.checkedSub 1)
  let available := s.available.setIfInBounds tier.toNat left
  let item ← Item.load (s.accounts itemAccount.key)
  failIf (item.pool ≠ poolKey ∨ item.tier ≠ tier ∨ item.position ≠ position) GachaError.invalidItem
  let pull ← s.pull.setOutcome i tier item.asset
  let accounts ← close s.accounts itemAccount.key operator
  let pool ← s.pool.updateRemaining tier (·.checkedSub 1)
  return { pool, inventory, pull, accounts, available }

/-- The loop of `draw` over the items from draw number `i` on. -/
def drawLoop (poolKey operator : Pubkey) (beta : FixedBytes 64) :
    DrawState → ℕ → List AccountInfo → Except Fault DrawState
  | s, _, [] => return s
  | s, i, item :: items => do
    let s ← rt.drawOne poolKey operator beta s i item
    drawLoop poolKey operator beta s (i + 1) items

/-- `draw`: pick a tier by weight and an item by rank within the pull's pinned prefix, record the
award, and close the Item to the operator, for every draw. -/
def draw (pool : Pool) (inventory : Inventory) (pull : Pull) (accounts : Accounts) (poolKey : Pubkey)
    (items : List AccountInfo) (operator : Pubkey) (beta : FixedBytes 64) : Except Fault DrawState := do
  let available ← inventory.counts pull.inventoryVersion
  rt.drawLoop poolKey operator beta ⟨pool, inventory, pull, accounts, available⟩ 0 items

end Runtime

end SolanaGacha
