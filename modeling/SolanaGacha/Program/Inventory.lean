import SolanaGacha.Program.Account
import SolanaGacha.Lib.Fenwick

/-!
# The availability index

The program's `inventory.rs`: append-only prize positions with mutable availability. Each 96-byte
block holds eight Fenwick counts, one for each tier, and 64 tier tags, where zero means removed.
The loops are those of the source, on the bytes of the index, with the source's slice bounds and
overflow checks as `panicked`. A method that takes `&mut self` is an `InventoryM`, which keeps the
index that a failing call leaves behind.
-/

namespace SolanaGacha

open Except Layout

/-- The index bytes, behind a pool's header. -/
structure Inventory where
  data : List UInt8
  deriving DecidableEq

/-- A computation on a mutable index: its result, and the index that it leaves even when it fails. -/
def InventoryM (α : Type) := Inventory → Except Fault α × Inventory

namespace InventoryM

instance : Monad InventoryM where
  pure a inventory := (.ok a, inventory)
  bind m f inventory :=
    match m inventory with
    | (.ok a, inventory') => f a inventory'
    | (.error e, inventory') => (.error e, inventory')

/-- A computation that only reads the index. -/
def read {α : Type} (f : Inventory → Except Fault α) : InventoryM α :=
  fun inventory => (f inventory, inventory)

/-- A change of the bytes. -/
def modify (f : List UInt8 → List UInt8) : InventoryM Unit :=
  fun inventory => (.ok (), ⟨f inventory.data⟩)

/-- The result of a computation from an index, with the index that it leaves. -/
def run {α : Type} (m : InventoryM α) (inventory : Inventory) : Except Fault (α × Inventory) :=
  match m inventory with
  | (.ok a, inventory') => .ok (a, inventory')
  | (.error e, _) => .error e

theorem run_eq_ok {α : Type} {m : InventoryM α} {inventory inventory' : Inventory} {a : α} :
    m.run inventory = .ok (a, inventory') ↔ m inventory = (.ok a, inventory') := by
  unfold run
  split <;> simp_all

@[simp]
theorem pure_run {α : Type} (a : α) (inventory : Inventory) :
    (pure a : InventoryM α) inventory = (.ok a, inventory) := rfl

theorem bind_run {α β : Type} (m : InventoryM α) (f : α → InventoryM β) (inventory : Inventory) :
    (m >>= f) inventory = match m inventory with
      | (.ok a, inventory') => f a inventory'
      | (.error e, inventory') => (.error e, inventory') := rfl

/-- A first step that succeeds hands its result and its index on. -/
theorem bind_run_ok {α β : Type} {m : InventoryM α} {f : α → InventoryM β}
    {inventory inventory' : Inventory} {a : α} (h : m inventory = (.ok a, inventory')) :
    (m >>= f) inventory = f a inventory' := by
  rw [bind_run, h]

theorem bind_run_error {α β : Type} {m : InventoryM α} {f : α → InventoryM β}
    {inventory inventory' : Inventory} {e : Fault} (h : m inventory = (.error e, inventory')) :
    (m >>= f) inventory = (.error e, inventory') := by
  rw [bind_run, h]

theorem read_run_ok {α : Type} {f : Inventory → Except Fault α} {inventory : Inventory} {a : α}
    (h : f inventory = .ok a) : read f inventory = (.ok a, inventory) := by
  rw [read, h]

theorem modify_run (f : List UInt8 → List UInt8) (data : List UInt8) :
    modify f ⟨data⟩ = (.ok (), ⟨f data⟩) := rfl

end InventoryM

/-- An array with one entry for each tier, computed tier by tier. -/
def forTiers {α : Type} (f : ℕ → Except Fault α) : Except Fault (Vector α 8) := do
  let a0 ← f 0
  let a1 ← f 1
  let a2 ← f 2
  let a3 ← f 3
  let a4 ← f 4
  let a5 ← f 5
  let a6 ← f 6
  let a7 ← f 7
  return #v[a0, a1, a2, a3, a4, a5, a6, a7]

namespace Inventory

/-- The number of blocks. -/
def blocks (inventory : Inventory) : ℕ := inventory.data.length / inventoryBlockLen

theorem blocks_run (inventory : Inventory) : InventoryM.read (fun inventory => .ok inventory.blocks)
    inventory = (.ok inventory.blocks, inventory) := rfl

/-- Where the count of a tier in a node is stored. Nodes are 1-based, blocks and positions 0-based. -/
def countOffset (node tier : ℕ) : ℕ := (node - 1) * inventoryBlockLen + tier * 4

/-- Where the tag of a position is stored. -/
def tagOffset (position : ℕ) : ℕ :=
  position / inventoryTagsPerBlock * inventoryBlockLen + inventoryCountsLen +
    position % inventoryTagsPerBlock

/-- `Inventory::count`. -/
def count (inventory : Inventory) (node tier : ℕ) : Except Fault UInt32 := do
  failIf (node = 0 ∨ inventory.data.length < countOffset node tier + 4) .panicked
  return u32.readAt (countOffset node tier) inventory.data

/-- `Inventory::set_count`. -/
def setCount (node tier : ℕ) (count : UInt32) : InventoryM Unit := do
  InventoryM.read fun inventory =>
    failIf (node = 0 ∨ inventory.data.length < countOffset node tier + 4) .panicked
  InventoryM.modify (u32.writeAt (countOffset node tier) count)

/-- The loop of `prefix_counts`: while blocks are left, add the node that ends there. -/
def prefixCountsLoop (inventory : Inventory) (blocks : ℕ) (counts : Vector UInt32 8) :
    Except Fault (Vector UInt32 8) :=
  if blocks > 0 then do
    let counts ← forTiers fun tier => do
      let total ← okOr .panicked counts[tier]?
      let count ← inventory.count blocks tier
      okOr .panicked (total.checkedAdd count)
    prefixCountsLoop inventory (blocks &&& (blocks - 1)) counts
  else return counts
termination_by blocks
decreasing_by exact Fenwick.parent_lt ‹_›

/-- `Inventory::prefix_counts`: the available items of each tier in the first `blocks` blocks. -/
def prefixCounts (inventory : Inventory) (blocks : ℕ) : Except Fault (Vector UInt32 8) :=
  inventory.prefixCountsLoop blocks (Vector.replicate 8 0)

/-- `if tag != 0 { counts[tag as usize - 1] += 1 }`. -/
def addTag (counts : Vector UInt32 8) (tag : UInt8) : Except Fault (Vector UInt32 8) :=
  if tag = 0 then return counts
  else do
    let count ← okOr .panicked counts[tag.toNat - 1]?
    let count ← okOr .panicked (count.checkedAdd 1)
    return counts.setIfInBounds (tag.toNat - 1) count

/-- `Inventory::counts`: the available items of each tier at positions below `cutoff`. -/
def counts (inventory : Inventory) (cutoff : UInt32) : Except Fault (Vector UInt32 8) := do
  let blocks := cutoff.toNat / inventoryTagsPerBlock
  let tail := cutoff.toNat % inventoryTagsPerBlock
  let counts ← inventory.prefixCounts blocks
  let start := blocks * inventoryBlockLen + inventoryCountsLen
  if tail > 0 then do
    failIf (inventory.data.length < start + tail) .panicked
    ((inventory.data.drop start).take tail).foldlM addTag counts
  else return counts

/-- `node & node.wrapping_neg()` on 64-bit words. -/
def lowBit (node : ℕ) : ℕ := node &&& (2 ^ 64 - node)

/-- The walk over the nodes that cover a block, changing the count of `tier` in each by `f`, which
returns `e` when it has no result. A word whose low bit is zero would never advance; the walks start
at node `block + 1`. -/
def updateLoop (f : UInt32 → Option UInt32) (e : Fault) (tier blocks node : ℕ) : InventoryM Unit :=
  if node ≤ blocks then do
    let count ← InventoryM.read fun inventory => inventory.count node tier
    let count ← InventoryM.read fun _ => okOr e (f count)
    setCount node tier count
    if 0 < lowBit node then updateLoop f e tier blocks (node + lowBit node)
    else InventoryM.read fun _ => .error .panicked
  else return ()
termination_by blocks + 1 - node

/-- The counts of a newly appended node, which also covers some older blocks: for each tier, what the
prefix that ends at the node has more than the one that starts there. -/
def initNode (node : ℕ) (newest oldest : Vector UInt32 8) : List ℕ → InventoryM Unit
  | [] => return ()
  | tier :: tiers => do
    let count ← InventoryM.read fun _ => do
      let newer ← okOr .panicked newest[tier]?
      let older ← okOr .panicked oldest[tier]?
      okOr .panicked (newer.checkedSub older)
    setCount node tier count
    initNode node newest oldest tiers

/-- The start of `append`: a position that opens a block first computes the node of that block. -/
def openBlock (block offset : ℕ) : InventoryM Unit :=
  if offset = 0 then do
    let node := block + 1
    let newest ← InventoryM.read fun inventory => inventory.prefixCounts block
    let oldest ← InventoryM.read fun inventory => inventory.prefixCounts (node &&& (node - 1))
    initNode node newest oldest (List.range maxTiers)
  else return ()

/-- `Inventory::append`: make the next position available. A new block is already zero-extended. -/
def append (position : UInt32) (tier : UInt8) : InventoryM Unit := do
  let block := position.toNat / inventoryTagsPerBlock
  let offset := position.toNat % inventoryTagsPerBlock
  openBlock block offset
  let tag ← InventoryM.read fun _ => okOr .panicked (tier.checkedAdd 1)
  InventoryM.read fun inventory =>
    failIf (inventory.data.length ≤ tagOffset position.toNat) .panicked
  InventoryM.modify fun data => data.set (tagOffset position.toNat) tag
  let blocks ← InventoryM.read fun inventory => .ok inventory.blocks
  updateLoop (fun count => count.checkedAdd 1) .panicked tier.toNat blocks (block + 1)

/-- `usize::next_power_of_two`. -/
def nextPowerOfTwo (n : ℕ) : ℕ := if n ≤ 1 then 1 else 2 ^ (Nat.log2 (n - 1) + 1)

/-- The descent of `take` to the block of the `rank`th item of `tier`: skip whole blocks whose items
precede it, and update the nodes that contain it. Returns the block and the rank inside it. -/
def takeDescend (tier : ℕ) (blocks step node : ℕ) (rank : UInt32) : InventoryM (ℕ × UInt32) :=
  if step = 0 then return (node, rank)
  else if node + step ≤ blocks then do
    let count ← InventoryM.read fun inventory => inventory.count (node + step) tier
    if count ≤ rank then takeDescend tier blocks (step / 2) (node + step) (rank - count)
    else do
      setCount (node + step) tier (count - 1)
      takeDescend tier blocks (step / 2) node rank
  else takeDescend tier blocks (step / 2) node rank
termination_by step

/-- The scan of `take` over the tags of one block for the `rank`th one of `tier`. -/
def takeScan (tier : UInt8) : List UInt8 → ℕ → UInt32 → Except Fault (Option ℕ)
  | [], _, _ => return none
  | tag :: tags, offset, rank => do
    let wanted ← okOr .panicked (tier.checkedAdd 1)
    if tag ≠ wanted then takeScan tier tags (offset + 1) rank
    else if rank ≠ 0 then takeScan tier tags (offset + 1) (rank - 1)
    else return some offset

/-- `Inventory::take`: remove the zero-based `rank`th available item of `tier`. -/
def take (tier : UInt8) (rank : UInt32) : InventoryM UInt32 := do
  let blocks ← InventoryM.read fun inventory => .ok inventory.blocks
  let (node, rank) ← takeDescend tier.toNat blocks (nextPowerOfTwo blocks) 0 rank
  if node = blocks then InventoryM.read fun _ => .error GachaError.invalidItem
  else do
    let start := node * inventoryBlockLen + inventoryCountsLen
    let found ← InventoryM.read fun inventory => do
      failIf (inventory.data.length < start + inventoryTagsPerBlock) .panicked
      takeScan tier ((inventory.data.drop start).take inventoryTagsPerBlock) 0 rank
    match found with
    | some offset => do
      InventoryM.modify fun data => data.set (start + offset) 0
      return UInt32.ofNat (node * inventoryTagsPerBlock + offset)
    | none => InventoryM.read fun _ => .error GachaError.invalidItem

/-- The tag of `remove`'s position, when it is that of `tier`. -/
def removable (position : UInt32) (tier : UInt8) (inventory : Inventory) : Except Fault Unit :=
  match inventory.data[tagOffset position.toNat]? with
  | some tag => do
    let wanted ← okOr .panicked (tier.checkedAdd 1)
    failIf (tag ≠ wanted) GachaError.invalidItem
  | none => .error GachaError.invalidItem

/-- `Inventory::remove`: remove one known unsold position. -/
def remove (position : UInt32) (tier : UInt8) : InventoryM Unit := do
  InventoryM.read (removable position tier)
  InventoryM.modify fun data => data.set (tagOffset position.toNat) 0
  let blocks ← InventoryM.read fun inventory => .ok inventory.blocks
  updateLoop (fun count => count.checkedSub 1) GachaError.invalidItem tier.toNat blocks
    (position.toNat / inventoryTagsPerBlock + 1)

end Inventory

/-- The availability index behind a pool's header. -/
def Account.inventory (account : Account) : Inventory := ⟨account.data.drop poolLen⟩

/-- `Inventory::load`: the index of a valid pool account. -/
def Inventory.load (account : Account) : Except Fault Inventory := do
  let _ ← Pool.load account
  return account.inventory

/-- Write the index back behind the header. -/
def World.storeInventory (w : World) (key : Pubkey) (inventory : Inventory) : World :=
  w.setData key ((w.accounts key).data.take poolLen ++ inventory.data)

end SolanaGacha
