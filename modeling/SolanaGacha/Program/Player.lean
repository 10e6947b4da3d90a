import SolanaGacha.Program.Helpers

/-!
# Player instructions

The program's `player/`: buy a pull, refund an expired one, and sell a prize back for a quote that the
pool's authority signed.
-/

namespace SolanaGacha

open Except Layout

/-! ## Buy -/

structure BuyAccounts where
  buyer : AccountInfo
  pool : AccountInfo
  pull : AccountInfo
  buyerAta : AccountInfo
  vault : AccountInfo
  eventAuthority : AccountInfo
  program : AccountInfo

def BuyAccounts.tryFrom (w : World) : List AccountInfo → Except Fault BuyAccounts
  | [buyer, pool, pull, buyerAta, vault, _tokenProgram, _systemProgram, eventAuthority, program] => do
    failIf (¬buyer.isSigner) GachaError.notSigner
    failIf (¬pool.isWritable ∨ ¬pull.isWritable) GachaError.notMutable
    checkUninitialized (w.account pull)
    let poolData ← Pool.load (w.account pool)
    failIf (poolData.status ≠ poolActive) GachaError.invalidPoolStatus
    failIf (poolData.vault ≠ vault.key) GachaError.invalidTokenAddress
    return { buyer, pool, pull, buyerAta, vault, eventAuthority, program }
  | _ => .error .notEnoughAccountKeys

structure BuyInstructionData where
  count : UInt8
  clientSeed : FixedBytes 32
  inventoryVersion : UInt32
  bump : UInt8

/-- The parameters behind the discriminator. -/
def BuyInstructionData.layout : Layout BuyInstructionData :=
  (u8.pair <| (bytes 32).pair <| u32.pair u8).iso
    (fun ⟨count, clientSeed, inventoryVersion, bump⟩ => ⟨count, clientSeed, inventoryVersion, bump⟩)
    (fun d => (d.count, d.clientSeed, d.inventoryVersion, d.bump)) (fun _ => rfl) (fun _ => rfl)

def BuyInstructionData.tryFrom (data : List UInt8) : Except Fault BuyInstructionData := do
  failIf (data.length ≠ layout.size) .invalidInstructionData
  let d := layout.decode data
  failIf (d.count = 0 ∨ maxCount < d.count.toNat) GachaError.invalidCount
  return d

/-- The stock and collateral checks of `Buy::process`: the draws pending once this purchase is
accepted, and its price. -/
def Buy.reserve (w : World) (a : BuyAccounts) (d : BuyInstructionData) (pool : Pool) :
    Except Fault (UInt64 × UInt64) := do
  -- The candidate list the buyer signed for must be the current one.
  failIf (d.inventoryVersion ≠ pool.inventoryVersion) GachaError.inventoryChanged
  -- Every older pending draw can consume at most one item of this prefix.
  let count := d.count.toUInt64
  let pendingDraws ← okOr .panicked (pool.pendingDraws.checkedAdd count)
  let remaining ← pool.remaining
  failIf (remaining < pendingDraws.toNat) GachaError.soldOut
  -- The vault must cover every pending refund plus penalty once this payment lands.
  let amount ← pool.payment count
  let vault ← TokenAccount.load (w.account a.vault)
  let balance ← okOr .panicked (vault.amount.checkedAdd amount)
  let reserved ← pool.refundAmount pendingDraws
  failIf (balance < reserved) GachaError.insufficientBalance
  return (pendingDraws, amount)

/-- `Buy::process`. -/
def Buy.process (rt : Runtime) (w : World) (a : BuyAccounts) (d : BuyInstructionData) :
    Except Fault World := do
  -- The pull must be the PDA for (pool, client_seed, bump).
  let pullKey ← okOr GachaError.invalidSeeds
    (rt.createProgramAddress (Pull.seeds a.pool.key d.clientSeed d.bump) programId)
  failIf (pullKey ≠ a.pull.key) GachaError.invalidSeeds
  let pool ← Pool.load (w.account a.pool)
  let (pendingDraws, amount) ← Buy.reserve w a d pool
  -- Create the Pull account, populate it and take the next FIFO index.
  let w ← rt.createPda w a.buyer a.pull pullLen (Pull.seeds a.pool.key d.clientSeed d.bump)
  let index := pool.nextIndex
  let new ← Pull.loadNew (w.account a.pull)
  let deadlineSlot ← okOr .panicked (w.slot.checkedAdd pool.deadlineSlots)
  let nextIndex ← okOr .panicked (index.checkedAdd 1)
  let w := w.store Pull.layout a.pull.key <|
    new.setInner d.bump d.count pool.inventoryVersion index deadlineSlot a.pool.key a.buyer.key
      d.clientSeed
  let w := w.store Pool.layout a.pool.key { pool with pendingDraws, nextIndex }
  -- Escrow the payment.
  let w ← rt.transferTokens w a.buyerAta a.vault a.buyer amount []
  rt.emit w 107 10 [a.pool.key.val, a.pull.key.val, a.buyer.key.val, u64.encode index, [d.count]]
    a.eventAuthority a.program

/-! ## Refund -/

structure RefundAccounts where
  pool : AccountInfo
  pull : AccountInfo
  buyer : AccountInfo
  vault : AccountInfo
  buyerAta : AccountInfo
  eventAuthority : AccountInfo
  program : AccountInfo

def RefundAccounts.tryFrom (w : World) : List AccountInfo → Except Fault RefundAccounts
  | [pool, pull, buyer, vault, buyerAta, _tokenProgram, eventAuthority, program] => do
    failIf (¬pool.isWritable ∨ ¬pull.isWritable ∨ ¬buyer.isWritable) GachaError.notMutable
    let poolData ← Pool.load (w.account pool)
    let pullData ← Pull.load (w.account pull)
    failIf (pullData.pool ≠ pool.key) GachaError.poolMismatch
    failIf (pullData.status ≠ statusPending) GachaError.invalidPullStatus
    failIf (pullData.index ≠ poolData.nextSettle) GachaError.notNextInQueue
    failIf (w.slot ≤ pullData.deadlineSlot) GachaError.deadlineNotReached
    failIf (pullData.buyer ≠ buyer.key) GachaError.invalidBuyer
    failIf (poolData.vault ≠ vault.key) GachaError.invalidTokenAddress
    let buyerAtaData ← TokenAccount.load (w.account buyerAta)
    failIf (buyerAtaData.owner ≠ pullData.buyer) GachaError.invalidTokenAddress
    return { pool, pull, buyer, vault, buyerAta, eventAuthority, program }
  | _ => .error .notEnoughAccountKeys

/-- `Refund::process`. -/
def Refund.process (rt : Runtime) (w : World) (a : RefundAccounts) : Except Fault World := do
  -- Release the reservation and advance the queue.
  let pool ← Pool.load (w.account a.pool)
  let pull ← Pull.load (w.account a.pull)
  let count := pull.count.toUInt64
  let amount ← pool.refundAmount count
  let pendingDraws ← okOr .panicked (pool.pendingDraws.checkedSub count)
  let nextSettle ← okOr .panicked (pull.index.checkedAdd 1)
  let w := w.store Pool.layout a.pool.key { pool with pendingDraws, nextSettle }
  -- Pay the buyer the price plus the penalty.
  let w ← rt.transferTokens w a.vault a.buyerAta a.pool amount [pool.signerSeeds]
  -- Close the Pull to the buyer.
  let accounts ← close w.accounts a.pull.key a.buyer.key
  rt.emit { w with accounts } 74 11 [a.pool.key.val, a.pull.key.val, u64.encode amount]
    a.eventAuthority a.program

/-! ## Buyback -/

structure BuybackAccounts where
  payer : AccountInfo
  seller : AccountInfo
  pool : AccountInfo
  item : AccountInfo
  asset : AccountInfo
  collection : AccountInfo
  vault : AccountInfo
  destination : AccountInfo
  coreProgram : AccountInfo
  systemProgram : AccountInfo
  eventAuthority : AccountInfo
  program : AccountInfo

def BuybackAccounts.tryFrom (w : World) : List AccountInfo → Except Fault BuybackAccounts
  | [payer, seller, pool, item, asset, collection, vault, destination, coreProgram, _tokenProgram,
      systemProgram, eventAuthority, program] => do
    failIf (¬payer.isSigner ∨ ¬seller.isSigner) GachaError.notSigner
    failIf (¬pool.isWritable ∨ ¬item.isWritable) GachaError.notMutable
    let poolData ← Pool.load (w.account pool)
    failIf (poolData.status ≠ poolActive) GachaError.invalidPoolStatus
    failIf (poolData.vault ≠ vault.key) GachaError.invalidTokenAddress
    let destinationData ← TokenAccount.load (w.account destination)
    failIf (destinationData.owner ≠ seller.key) GachaError.invalidTokenAddress
    return { payer, seller, pool, item, asset, collection, vault, destination, coreProgram,
             systemProgram, eventAuthority, program }
  | _ => .error .notEnoughAccountKeys

structure BuybackInstructionData where
  tier : UInt8
  price : UInt64
  expiresAt : Int64
  signature : FixedBytes 64
  bump : UInt8

/-- The parameters behind the discriminator. -/
def BuybackInstructionData.layout : Layout BuybackInstructionData :=
  (u8.pair <| u64.pair <| u64.pair <| (bytes 64).pair u8).iso
    (fun ⟨tier, price, expiresAt, signature, bump⟩ =>
      ⟨tier, price, expiresAt.toInt64, signature, bump⟩)
    (fun d => (d.tier, d.price, d.expiresAt.toUInt64, d.signature, d.bump))
    (fun _ => rfl) (fun _ => rfl)

def BuybackInstructionData.tryFrom (w : World) (data : List UInt8) :
    Except Fault BuybackInstructionData := do
  failIf (data.length ≠ layout.size) .invalidInstructionData
  let d := layout.decode data
  failIf (d.expiresAt ≤ w.unixTimestamp) GachaError.quoteExpired
  return d

/-- `Buyback::process`. -/
def Buyback.process (rt : Runtime) (w : World) (a : BuybackAccounts) (d : BuybackInstructionData) :
    Except Fault World := do
  -- The quote must be the authority's signature over these exact terms.
  let pool ← Pool.load (w.account a.pool)
  failIf (pool.tierCount ≤ d.tier) GachaError.invalidQuote
  failIf (¬rt.verifySignature pool.authority d.signature
    (buybackMessage a.pool.key a.asset.key d.price d.expiresAt d.tier)) GachaError.invalidQuote
  -- Only surplus above every pending refund pays for buybacks.
  let free ← spendable pool (w.account a.vault)
  failIf (free < d.price) GachaError.insufficientBalance
  -- The item must be the empty PDA for the next position.
  let position ← rt.checkRestock w pool a.pool.key a.item d.tier d.bump
  -- Take custody of the asset.
  let w ← rt.transferAsset w
    { payer := a.payer, authority := a.seller, newOwner := a.pool, asset := a.asset,
      collection := a.collection, coreProgram := a.coreProgram, systemProgram := a.systemProgram } []
  -- Create the Item and append its position to the availability index.
  let w ← rt.restock w a.payer a.pool a.item a.asset.key d.tier d.bump
  -- Pay the seller.
  let w ← rt.pay w a.pool a.vault a.destination d.price
  rt.emit w 110 12
    [a.pool.key.val, a.asset.key.val, a.seller.key.val, u64.encode d.price, u32.encode position]
    a.eventAuthority a.program

end SolanaGacha
