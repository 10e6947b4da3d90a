import SolanaGacha.Program.Helpers

/-!
# Operator instructions

The program's `operator/`: settle the head of a pool's queue with a VRF proof, and deliver an awarded
prize. Neither needs the operator's signature.
-/

namespace SolanaGacha

open Except Layout

/-! ## Settle -/

structure SettleAccounts where
  operator : AccountInfo
  pool : AccountInfo
  pull : AccountInfo
  items : List AccountInfo
  eventAuthority : AccountInfo
  program : AccountInfo

/-- The checks of one item account of a settlement. -/
def SettleAccounts.checkItems (w : World) : List AccountInfo → Except Fault Unit
  | [] => return ()
  | item :: items => do
    failIf (¬item.isWritable) GachaError.notMutable
    let _ ← Item.load (w.account item)
    checkItems w items

/-- The accounts behind the first three are the items, then the two of the event CPI. -/
def SettleAccounts.tryFrom (w : World) (infos : List AccountInfo) : Except Fault SettleAccounts :=
  match infos with
  | operator :: pool :: pull :: rest =>
    match rest.reverse with
    | program :: eventAuthority :: reversed => do
      let items := reversed.reverse
      failIf (¬operator.isWritable ∨ ¬pool.isWritable ∨ ¬pull.isWritable) GachaError.notMutable
      let poolData ← Pool.load (w.account pool)
      let pullData ← Pull.load (w.account pull)
      failIf (poolData.operator ≠ operator.key) GachaError.invalidOperator
      failIf (pullData.pool ≠ pool.key) GachaError.poolMismatch
      failIf (pullData.status ≠ statusPending) GachaError.invalidPullStatus
      failIf (pullData.index ≠ poolData.nextSettle) GachaError.notNextInQueue
      failIf (pullData.deadlineSlot < w.slot) GachaError.deadlinePassed
      failIf (items.length ≠ pullData.count.toNat) GachaError.invalidItemCount
      checkItems w items
      return { operator, pool, pull, items, eventAuthority, program }
    | _ => .error .notEnoughAccountKeys
  | _ => .error .notEnoughAccountKeys

structure SettleInstructionData where
  proof : FixedBytes 80

def SettleInstructionData.tryFrom (data : List UInt8) : Except Fault SettleInstructionData := do
  failIf (data.length ≠ 80) .invalidInstructionData
  return { proof := (bytes 80).decode data }

/-- `Settle::process`. -/
def Settle.process (rt : Runtime) (w : World) (a : SettleAccounts) (d : SettleInstructionData) :
    Except Fault World := do
  let pool ← Pool.load (w.account a.pool)
  let inventory ← Inventory.load (w.account a.pool)
  let pull ← Pull.load (w.account a.pull)
  let count := a.items.length
  -- Only verified output reaches the draw loop.
  let alpha := rt.sha256 (a.pull.key.val ++ pull.clientSeed.val)
  let beta ← okOr GachaError.invalidProof (rt.verifyProof pool.operator alpha d.proof)
  -- Draw within the pinned prefix and record the awards.
  let s ← rt.draw pool inventory pull w.accounts a.pool.key a.items a.operator.key beta
  -- Release the reservation and advance the queue.
  let pendingDraws ← okOr .panicked (s.pool.pendingDraws.checkedSub (UInt64.ofNat count))
  let nextSettle ← okOr .panicked (s.pull.index.checkedAdd 1)
  let w := { w with accounts := s.accounts }.store Pool.layout a.pool.key
    { s.pool with pendingDraws, nextSettle }
  let w := w.storeInventory a.pool.key s.inventory
  let w := w.store Pull.layout a.pull.key { s.pull with status := statusSettled }
  let outcomes ← s.pull.outcomeBytes count
  rt.emit w 572 20 [a.pool.key.val, a.pull.key.val, alpha.val, d.proof.val, beta.val, outcomes]
    a.eventAuthority a.program

/-! ## Deliver -/

structure DeliverAccounts where
  payer : AccountInfo
  pool : AccountInfo
  pull : AccountInfo
  buyer : AccountInfo
  asset : AccountInfo
  collection : AccountInfo
  coreProgram : AccountInfo
  systemProgram : AccountInfo
  eventAuthority : AccountInfo
  program : AccountInfo

def DeliverAccounts.tryFrom (w : World) : List AccountInfo → Except Fault DeliverAccounts
  | [payer, pool, pull, buyer, asset, collection, coreProgram, systemProgram, eventAuthority,
      program] => do
    failIf (¬payer.isSigner) GachaError.notSigner
    failIf (¬pull.isWritable ∨ ¬buyer.isWritable) GachaError.notMutable
    let _ ← Pool.load (w.account pool)
    let pullData ← Pull.load (w.account pull)
    failIf (pullData.pool ≠ pool.key) GachaError.poolMismatch
    failIf (pullData.status ≠ statusSettled) GachaError.invalidPullStatus
    failIf (pullData.buyer ≠ buyer.key) GachaError.invalidBuyer
    return { payer, pool, pull, buyer, asset, collection, coreProgram, systemProgram, eventAuthority,
             program }
  | _ => .error .notEnoughAccountKeys

structure DeliverInstructionData where
  outcome : UInt8

def DeliverInstructionData.tryFrom : List UInt8 → Except Fault DeliverInstructionData
  | [outcome] => return { outcome }
  | _ => .error .invalidInstructionData

/-- `Deliver::process`. -/
def Deliver.process (rt : Runtime) (w : World) (a : DeliverAccounts) (d : DeliverInstructionData) :
    Except Fault World := do
  -- The outcome must be a recorded, undelivered award for this asset.
  let pull ← Pull.load (w.account a.pull)
  let i := d.outcome.toNat
  failIf (pull.count.toNat ≤ i) GachaError.invalidOutcome
  let outcome ← pull.outcome i
  failIf (outcome.tier = delivered) GachaError.invalidOutcome
  failIf (outcome.asset ≠ a.asset.key) GachaError.invalidAsset
  -- Transfer the award to the buyer.
  let pool ← Pool.load (w.account a.pool)
  let w ← rt.transferAsset w
    { payer := a.payer, authority := a.pool, newOwner := a.buyer, asset := a.asset,
      collection := a.collection, coreProgram := a.coreProgram, systemProgram := a.systemProgram }
    [pool.signerSeeds]
  -- Mark it delivered; the last delivery closes the Pull to the buyer.
  let pull ← pull.markDelivered i
  let w := w.store Pull.layout a.pull.key pull
  let all ← pull.allDelivered
  let accounts ← (if all then close w.accounts a.pull.key a.buyer.key else .ok w.accounts)
  rt.emit { w with accounts } 67 21 [a.pull.key.val, a.asset.key.val, [d.outcome]]
    a.eventAuthority a.program

end SolanaGacha
