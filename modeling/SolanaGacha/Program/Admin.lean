import SolanaGacha.Program.Helpers

/-!
# Admin instructions

The program's `admin/`: create a pool, stock it, withdraw its surplus, set its status and reclaim what
it did not sell. As in the source, an instruction is a pair of checked accounts and decoded data
(`tryFrom`), which `process` runs on.
-/

namespace SolanaGacha

open Except Layout

/-! ## Create Pool -/

structure CreatePoolAccounts where
  authority : AccountInfo
  pool : AccountInfo
  operator : AccountInfo
  paymentMint : AccountInfo
  vault : AccountInfo
  eventAuthority : AccountInfo
  program : AccountInfo

def CreatePoolAccounts.tryFrom (w : World) : List AccountInfo → Except Fault CreatePoolAccounts
  | [authority, pool, operator, paymentMint, vault, _systemProgram, eventAuthority, program] => do
    failIf (¬authority.isSigner) GachaError.notSigner
    failIf (¬pool.isWritable) GachaError.notMutable
    checkUninitialized (w.account pool)
    return { authority, pool, operator, paymentMint, vault, eventAuthority, program }
  | _ => .error .notEnoughAccountKeys

structure CreatePoolInstructionData where
  id : UInt64
  price : UInt64
  deadlineSlots : UInt64
  bondPerDraw : UInt64
  tierCount : UInt8
  weights : Vector UInt32 8
  bump : UInt8

/-- The parameters behind the discriminator. -/
def CreatePoolInstructionData.layout : Layout CreatePoolInstructionData :=
  (u64.pair <| u64.pair <| u64.pair <| u64.pair <| u8.pair <| (u32.vector 8).pair u8).iso
    (fun ⟨id, price, deadlineSlots, bondPerDraw, tierCount, weights, bump⟩ =>
      ⟨id, price, deadlineSlots, bondPerDraw, tierCount, weights, bump⟩)
    (fun d => (d.id, d.price, d.deadlineSlots, d.bondPerDraw, d.tierCount, d.weights, d.bump))
    (fun _ => rfl) (fun _ => rfl)

def CreatePoolInstructionData.tryFrom (data : List UInt8) : Except Fault CreatePoolInstructionData := do
  failIf (data.length ≠ layout.size) .invalidInstructionData
  let d := layout.decode data
  failIf (d.tierCount = 0 ∨ maxTiers < d.tierCount.toNat) GachaError.invalidPoolParams
  failIf (0 ∈ d.weights.toList.take d.tierCount.toNat) GachaError.invalidPoolParams
  failIf (d.price = 0 ∨ d.bondPerDraw = 0 ∨ d.deadlineSlots = 0) GachaError.invalidPoolParams
  failIf (((d.price.checkedAdd d.bondPerDraw).bind fun amount =>
    amount.checkedMul (UInt64.ofNat maxCount)) = none) GachaError.invalidPoolParams
  return d

/-- `CreatePool::process`. -/
def CreatePool.process (rt : Runtime) (w : World) (a : CreatePoolAccounts)
    (d : CreatePoolInstructionData) : Except Fault World := do
  -- The pool must be the PDA for (authority, id, bump) and the vault its ATA.
  let poolKey ← okOr GachaError.invalidSeeds
    (rt.createProgramAddress (Pool.seeds a.authority.key d.id d.bump) programId)
  failIf (poolKey ≠ a.pool.key) GachaError.invalidSeeds
  let vault ← okOr .panicked (rt.ata poolKey a.paymentMint.key)
  failIf (a.vault.key ≠ vault) GachaError.invalidTokenAddress
  -- Create the Pool account and populate it, paused.
  let w ← rt.createPda w a.authority a.pool poolLen (Pool.seeds a.authority.key d.id d.bump)
  let new ← Pool.loadNew (w.account a.pool)
  let w := w.store Pool.layout a.pool.key <| new.setInner d.bump a.authority.key a.operator.key
    a.paymentMint.key a.vault.key d.id d.price d.deadlineSlots d.bondPerDraw
    (d.weights.toList.take d.tierCount.toNat)
  rt.emit w 34 0 [a.pool.key.val] a.eventAuthority a.program

/-! ## Deposit Item -/

structure DepositItemAccounts where
  authority : AccountInfo
  pool : AccountInfo
  item : AccountInfo
  asset : AccountInfo
  collection : AccountInfo
  coreProgram : AccountInfo
  systemProgram : AccountInfo
  eventAuthority : AccountInfo
  program : AccountInfo

def DepositItemAccounts.tryFrom (w : World) : List AccountInfo → Except Fault DepositItemAccounts
  | [authority, pool, item, asset, collection, coreProgram, systemProgram, eventAuthority, program] => do
    failIf (¬authority.isSigner) GachaError.notSigner
    failIf (¬pool.isWritable ∨ ¬item.isWritable) GachaError.notMutable
    let poolData ← Pool.load (w.account pool)
    failIf (poolData.authority ≠ authority.key) GachaError.invalidAuthority
    failIf (poolData.status = poolRetired) GachaError.invalidPoolStatus
    return { authority, pool, item, asset, collection, coreProgram, systemProgram, eventAuthority,
             program }
  | _ => .error .notEnoughAccountKeys

structure DepositItemInstructionData where
  tier : UInt8
  bump : UInt8

def DepositItemInstructionData.tryFrom : List UInt8 → Except Fault DepositItemInstructionData
  | [tier, bump] => return { tier, bump }
  | _ => .error .invalidInstructionData

/-- `DepositItem::process`. -/
def DepositItem.process (rt : Runtime) (w : World) (a : DepositItemAccounts)
    (d : DepositItemInstructionData) : Except Fault World := do
  -- The tier must exist and the item must be the empty PDA for the next position.
  let pool ← Pool.load (w.account a.pool)
  let position ← rt.checkRestock w pool a.pool.key a.item d.tier d.bump
  -- Create the Item and append its position to the availability index.
  let w ← rt.restock w a.authority a.pool a.item a.asset.key d.tier d.bump
  -- Take custody of the asset.
  let w ← rt.transferAsset w
    { payer := a.authority, authority := a.authority, newOwner := a.pool, asset := a.asset,
      collection := a.collection, coreProgram := a.coreProgram, systemProgram := a.systemProgram } []
  rt.emit w 71 1 [a.pool.key.val, a.asset.key.val, [d.tier], u32.encode position]
    a.eventAuthority a.program

/-! ## Withdraw -/

structure WithdrawAccounts where
  authority : AccountInfo
  pool : AccountInfo
  vault : AccountInfo
  destination : AccountInfo
  eventAuthority : AccountInfo
  program : AccountInfo

def WithdrawAccounts.tryFrom (w : World) : List AccountInfo → Except Fault WithdrawAccounts
  | [authority, pool, vault, destination, _tokenProgram, eventAuthority, program] => do
    failIf (¬authority.isSigner) GachaError.notSigner
    let poolData ← Pool.load (w.account pool)
    failIf (poolData.authority ≠ authority.key) GachaError.invalidAuthority
    failIf (poolData.vault ≠ vault.key) GachaError.invalidTokenAddress
    return { authority, pool, vault, destination, eventAuthority, program }
  | _ => .error .notEnoughAccountKeys

structure WithdrawInstructionData where
  amount : UInt64

def WithdrawInstructionData.tryFrom (data : List UInt8) : Except Fault WithdrawInstructionData := do
  failIf (data.length ≠ u64.size) .invalidInstructionData
  return { amount := u64.decode data }

/-- `Withdraw::process`. -/
def Withdraw.process (rt : Runtime) (w : World) (a : WithdrawAccounts)
    (d : WithdrawInstructionData) : Except Fault World := do
  -- Only surplus above every pending refund is free.
  let pool ← Pool.load (w.account a.pool)
  let free ← spendable pool (w.account a.vault)
  failIf (free < d.amount) GachaError.insufficientBalance
  let w ← rt.pay w a.pool a.vault a.destination d.amount
  rt.emit w 42 2 [a.pool.key.val, u64.encode d.amount] a.eventAuthority a.program

/-! ## Set Status -/

structure SetStatusAccounts where
  authority : AccountInfo
  pool : AccountInfo
  eventAuthority : AccountInfo
  program : AccountInfo

def SetStatusAccounts.tryFrom (w : World) : List AccountInfo → Except Fault SetStatusAccounts
  | [authority, pool, eventAuthority, program] => do
    failIf (¬authority.isSigner) GachaError.notSigner
    failIf (¬pool.isWritable) GachaError.notMutable
    let poolData ← Pool.load (w.account pool)
    failIf (poolData.authority ≠ authority.key) GachaError.invalidAuthority
    return { authority, pool, eventAuthority, program }
  | _ => .error .notEnoughAccountKeys

structure SetStatusInstructionData where
  status : UInt8

def SetStatusInstructionData.tryFrom : List UInt8 → Except Fault SetStatusInstructionData
  | [status] => do
    failIf (poolRetired < status) .invalidInstructionData
    return { status }
  | _ => .error .invalidInstructionData

/-- `SetStatus::process`. -/
def SetStatus.process (rt : Runtime) (w : World) (a : SetStatusAccounts)
    (d : SetStatusInstructionData) : Except Fault World := do
  -- Retirement is terminal.
  let pool ← Pool.load (w.account a.pool)
  failIf (pool.status = poolRetired ∧ d.status ≠ poolRetired) GachaError.invalidPoolStatus
  let w := w.store Pool.layout a.pool.key { pool with status := d.status }
  rt.emit w 35 3 [a.pool.key.val, [d.status]] a.eventAuthority a.program

/-! ## Reclaim -/

structure ReclaimAccounts where
  authority : AccountInfo
  pool : AccountInfo
  item : AccountInfo
  asset : AccountInfo
  collection : AccountInfo
  coreProgram : AccountInfo
  systemProgram : AccountInfo
  eventAuthority : AccountInfo
  program : AccountInfo

/-- `tiers()[tier].remaining() == 0`, with the slice's bounds check. -/
def Pool.noneRemaining (pool : Pool) (tier : UInt8) : Except Fault Bool := do
  let tiers ← pool.tierSlice
  let selected ← okOr .panicked tiers[tier.toNat]?
  return selected.remaining = 0

def ReclaimAccounts.tryFrom (w : World) : List AccountInfo → Except Fault ReclaimAccounts
  | [authority, pool, item, asset, collection, coreProgram, systemProgram, eventAuthority, program] => do
    failIf (¬authority.isSigner) GachaError.notSigner
    failIf (¬authority.isWritable ∨ ¬pool.isWritable ∨ ¬item.isWritable) GachaError.notMutable
    let poolData ← Pool.load (w.account pool)
    failIf (poolData.authority ≠ authority.key) GachaError.invalidAuthority
    failIf (poolData.status ≠ poolRetired) GachaError.invalidPoolStatus
    failIf (poolData.pendingDraws ≠ 0) GachaError.pendingPurchases
    let itemData ← Item.load (w.account item)
    failIf (itemData.pool ≠ pool.key ∨ itemData.asset ≠ asset.key ∨
      poolData.tierCount ≤ itemData.tier ∨ poolData.inventoryVersion ≤ itemData.position)
      GachaError.invalidItem
    let empty ← poolData.noneRemaining itemData.tier
    failIf empty GachaError.invalidItem
    return { authority, pool, item, asset, collection, coreProgram, systemProgram, eventAuthority,
             program }
  | _ => .error .notEnoughAccountKeys

/-- `Reclaim::process`. -/
def Reclaim.process (rt : Runtime) (w : World) (a : ReclaimAccounts) : Except Fault World := do
  let item ← Item.load (w.account a.item)
  -- Remove the position from the availability index.
  let pool ← Pool.load (w.account a.pool)
  let inventory ← Inventory.load (w.account a.pool)
  let ((), inventory) ← (Inventory.remove item.position item.tier).run inventory
  let pool ← pool.updateRemaining item.tier (·.checkedSub 1)
  let w := (w.store Pool.layout a.pool.key pool).storeInventory a.pool.key inventory
  -- Return the asset to the authority.
  let w ← rt.transferAsset w
    { payer := a.authority, authority := a.pool, newOwner := a.authority, asset := a.asset,
      collection := a.collection, coreProgram := a.coreProgram, systemProgram := a.systemProgram }
    [pool.signerSeeds]
  -- Close the Item to the authority.
  let accounts ← close w.accounts a.item.key a.authority.key
  rt.emit { w with accounts } 70 4 [a.pool.key.val, a.asset.key.val, u32.encode item.position]
    a.eventAuthority a.program

end SolanaGacha
