import SolanaGacha.Core.Constants
import SolanaGacha.Lib.Checked

/-!
# Account layouts and the draw

`gacha-core`'s `state.rs`. Every account is a packed structure of little-endian fields, overlaid on
the bytes of the account (`Pool.layout`, `Item.layout`, `Pull.layout`), so its fields stand in the
order of the bytes. A pool's availability index follows its header and is not part of it.
-/

namespace SolanaGacha

open Except Layout

/-! ## Layouts -/

/-- A tier's fixed weight and the number of its available items. -/
structure Tier where
  weight : UInt32
  remaining : UInt32
  deriving DecidableEq

def Tier.layout : Layout Tier :=
  (u32.pair u32).iso (fun f => ⟨f.1, f.2⟩) (fun t => (t.weight, t.remaining))
    (fun _ => rfl) (fun _ => rfl)

/-- One banner: the header of a pool account. -/
structure Pool where
  version : UInt8
  bump : UInt8
  tierCount : UInt8
  status : UInt8
  /-- The number of positions ever issued. -/
  inventoryVersion : UInt32
  authority : Pubkey
  operator : Pubkey
  paymentMint : Pubkey
  vault : Pubkey
  id : UInt64
  price : UInt64
  deadlineSlots : UInt64
  bondPerDraw : UInt64
  /-- Inventory and full timeout payments reserved for accepted purchases. -/
  pendingDraws : UInt64
  nextIndex : UInt64
  nextSettle : UInt64
  tiers : Vector Tier 8
  deriving DecidableEq

def Pool.layout : Layout Pool :=
  (u8.pair <| u8.pair <| u8.pair <| u8.pair <| u32.pair <|
    (bytes 32).pair <| (bytes 32).pair <| (bytes 32).pair <| (bytes 32).pair <|
    u64.pair <| u64.pair <| u64.pair <| u64.pair <| u64.pair <| u64.pair <| u64.pair <|
    Tier.layout.vector 8).iso
    (fun ⟨version, bump, tierCount, status, inventoryVersion, authority, operator, paymentMint,
        vault, id, price, deadlineSlots, bondPerDraw, pendingDraws, nextIndex, nextSettle, tiers⟩ =>
      ⟨version, bump, tierCount, status, inventoryVersion, authority, operator, paymentMint,
        vault, id, price, deadlineSlots, bondPerDraw, pendingDraws, nextIndex, nextSettle, tiers⟩)
    (fun p => (p.version, p.bump, p.tierCount, p.status, p.inventoryVersion, p.authority,
      p.operator, p.paymentMint, p.vault, p.id, p.price, p.deadlineSlots, p.bondPerDraw,
      p.pendingDraws, p.nextIndex, p.nextSettle, p.tiers))
    (fun _ => rfl) (fun _ => rfl)

/-- One deposited asset, whose owner is the pool PDA. -/
structure Item where
  version : UInt8
  bump : UInt8
  tier : UInt8
  padding : UInt8
  position : UInt32
  pool : Pubkey
  asset : Pubkey
  deriving DecidableEq

def Item.layout : Layout Item :=
  (u8.pair <| u8.pair <| u8.pair <| u8.pair <| u32.pair <| (bytes 32).pair (bytes 32)).iso
    (fun ⟨version, bump, tier, padding, position, pool, asset⟩ =>
      ⟨version, bump, tier, padding, position, pool, asset⟩)
    (fun i => (i.version, i.bump, i.tier, i.padding, i.position, i.pool, i.asset))
    (fun _ => rfl) (fun _ => rfl)

/-- One award; its tier becomes `DELIVERED` on delivery. -/
structure Outcome where
  tier : UInt8
  asset : Pubkey
  deriving DecidableEq

def Outcome.layout : Layout Outcome :=
  (u8.pair (bytes 32)).iso (fun f => ⟨f.1, f.2⟩) (fun o => (o.tier, o.asset))
    (fun _ => rfl) (fun _ => rfl)

/-- One purchase: `count` draws revealed together. -/
structure Pull where
  version : UInt8
  bump : UInt8
  status : UInt8
  count : UInt8
  inventoryVersion : UInt32
  index : UInt64
  deadlineSlot : UInt64
  pool : Pubkey
  buyer : Pubkey
  clientSeed : FixedBytes 32
  outcomes : Vector Outcome 10
  deriving DecidableEq

def Pull.layout : Layout Pull :=
  (u8.pair <| u8.pair <| u8.pair <| u8.pair <| u32.pair <| u64.pair <| u64.pair <|
    (bytes 32).pair <| (bytes 32).pair <| (bytes 32).pair <| Outcome.layout.vector 10).iso
    (fun ⟨version, bump, status, count, inventoryVersion, index, deadlineSlot, pool, buyer,
        clientSeed, outcomes⟩ =>
      ⟨version, bump, status, count, inventoryVersion, index, deadlineSlot, pool, buyer,
        clientSeed, outcomes⟩)
    (fun u => (u.version, u.bump, u.status, u.count, u.inventoryVersion, u.index, u.deadlineSlot,
      u.pool, u.buyer, u.clientSeed, u.outcomes))
    (fun _ => rfl) (fun _ => rfl)

/-- The sizes that the source asserts at compile time. -/
theorem layout_sizes : Pool.layout.size = poolLen ∧ Item.layout.size = itemLen ∧
    Pull.layout.size = pullLen ∧ Tier.layout.size = tierLen := ⟨rfl, rfl, rfl, rfl⟩

/-! ## Pool -/

namespace Pool

/-- Write every field of a freshly created, paused pool. The counters keep the account's zeros. -/
def setInner (pool : Pool) (bump : UInt8) (authority operator paymentMint vault : Pubkey)
    (id price deadlineSlots bondPerDraw : UInt64) (weights : List UInt32) : Pool :=
  { pool with
    version := poolVersion
    bump
    tierCount := UInt8.ofNat weights.length
    status := poolPaused
    authority
    operator
    paymentMint
    vault
    id
    price
    deadlineSlots
    bondPerDraw
    tiers := pool.tiers.mapFinIdx fun i tier _ =>
      match weights[i]? with
      | some weight => { tier with weight }
      | none => tier }

/-- `Pool::seeds`: the signer seeds `[POOL_SEED, authority, id, bump]`. -/
def seeds (authority : Pubkey) (id : UInt64) (bump : UInt8) : List (List UInt8) :=
  [poolSeed, authority.val, u64.encode id, [bump]]

/-- This pool's own signer seeds. -/
def signerSeeds (pool : Pool) : List (List UInt8) := seeds pool.authority pool.id pool.bump

/-- The price of `count` draws. -/
def payment (pool : Pool) (count : UInt64) : Except Fault UInt64 :=
  okOr .arithmeticOverflow (pool.price.checkedMul count)

/-- Full payment plus the configured penalty. -/
def refundAmount (pool : Pool) (count : UInt64) : Except Fault UInt64 :=
  okOr .arithmeticOverflow
    ((pool.price.checkedAdd pool.bondPerDraw).bind fun amount => amount.checkedMul count)

/-- `Pool::tiers`: the tiers in use, `&self.tiers[..tier_count]`. -/
def tierSlice (pool : Pool) : Except Fault (List Tier) :=
  if pool.tierCount.toNat ≤ maxTiers then .ok (pool.tiers.toList.take pool.tierCount.toNat)
  else .error .panicked

/-- Available items of all tiers. At most eight `u32` are added, so the `u64` sum cannot overflow. -/
def remaining (pool : Pool) : Except Fault ℕ := do
  let tiers ← pool.tierSlice
  return (tiers.map fun tier => tier.remaining.toNat).sum

/-- `tiers_mut()[tier]` with its `remaining` replaced by what `f` makes of it. -/
def updateRemaining (pool : Pool) (tier : UInt8) (f : UInt32 → Option UInt32) : Except Fault Pool := do
  let tiers ← pool.tierSlice
  failIf (tiers.length ≤ tier.toNat) .panicked
  let selected ← okOr .panicked pool.tiers[tier.toNat]?
  let remaining ← okOr .panicked (f selected.remaining)
  return { pool with tiers := pool.tiers.setIfInBounds tier.toNat { selected with remaining } }

theorem tierSlice_eq_ok {pool : Pool} {tiers : List Tier} : pool.tierSlice = .ok tiers ↔
    pool.tierCount.toNat ≤ 8 ∧ pool.tiers.toList.take pool.tierCount.toNat = tiers := by
  rw [tierSlice]
  split_ifs with h
  · exact ⟨fun heq => ⟨h, Except.ok.inj heq⟩, fun heq => congrArg Except.ok heq.2⟩
  · exact ⟨fun heq => (nomatch heq), fun heq => absurd heq.1 h⟩

/-- An updated counter is that of a tier in use, and nothing else changes. -/
theorem updateRemaining_eq_ok {pool pool' : Pool} {tier : UInt8} {f : UInt32 → Option UInt32} :
    pool.updateRemaining tier f = .ok pool' ↔ pool.tierCount.toNat ≤ 8 ∧
      tier.toNat < pool.tierCount.toNat ∧ ∃ selected remaining, pool.tiers[tier.toNat]? = some selected ∧
        f selected.remaining = some remaining ∧
        pool' = { pool with
          tiers := pool.tiers.setIfInBounds tier.toNat { selected with remaining } } := by
  simp only [updateRemaining, bind_eq_ok, tierSlice_eq_ok, failIf_eq_ok, okOr_eq_ok, pure_eq_ok]
  constructor
  · rintro ⟨tiers, ⟨hcount, rfl⟩, _, hlt, selected, hsel, remaining, hrem, rfl⟩
    rw [List.length_take, Vector.length_toList, min_eq_left hcount, not_le] at hlt
    exact ⟨hcount, hlt, selected, remaining, hsel, hrem, rfl⟩
  · rintro ⟨hcount, hlt, selected, remaining, hsel, hrem, rfl⟩
    refine ⟨_, ⟨hcount, rfl⟩, (), ?_, selected, hsel, remaining, hrem, rfl⟩
    rwa [List.length_take, Vector.length_toList, min_eq_left hcount, not_le]

/-- Only a counter changes: no other field of the header, and no weight. -/
theorem updateRemaining_frame {pool pool' : Pool} {tier : UInt8} {f : UInt32 → Option UInt32}
    (h : pool.updateRemaining tier f = .ok pool') : ∃ tiers, pool' = { pool with tiers } ∧
      tiers.map Tier.weight = pool.tiers.map Tier.weight := by
  obtain ⟨-, -, selected, remaining, hsel, -, rfl⟩ := updateRemaining_eq_ok.mp h
  refine ⟨_, rfl, Vector.ext fun t ht => ?_⟩
  rw [Vector.getElem_map, Vector.getElem_map, Vector.getElem_setIfInBounds]
  split_ifs with heq
  · subst heq
    rw [Vector.getElem?_eq_getElem ht, Option.some.injEq] at hsel
    rw [hsel]
  · rfl

/-- The walk of `draw_tier` over the tiers from index `i` on, with what is left of the roll. -/
def drawTierWalk (remaining : Vector UInt32 8) : List Tier → ℕ → ℕ → Except Fault UInt8
  | [], _, _ => .error GachaError.soldOut
  | tier :: tiers, i, roll => do
    let count ← okOr .panicked remaining[i]?
    if count = 0 then drawTierWalk remaining tiers (i + 1) roll
    else if roll < tier.weight.toNat then return UInt8.ofNat i
    else drawTierWalk remaining tiers (i + 1) (roll - tier.weight.toNat)

/-- The total weight of the tiers that still have candidates. -/
def drawTotal (tiers : List Tier) (remaining : Vector UInt32 8) : ℕ :=
  (((tiers.zip remaining.toList).filter fun x => 0 < x.2).map fun x => x.1.weight.toNat).sum

/-- A still-available tier by weight, from the first eight bytes of the hash. -/
def drawTier (pool : Pool) (hash : FixedBytes 32) (remaining : Vector UInt32 8) :
    Except Fault UInt8 := do
  let tiers ← pool.tierSlice
  let total := drawTotal tiers remaining
  failIf (total = 0) GachaError.soldOut
  let roll := (u64.readAt 0 hash.val).toNat % total
  drawTierWalk remaining tiers 0 roll

/-- One draw: a still-available tier by weight, then a rank within that tier's candidates. -/
def draw (pool : Pool) (hash : FixedBytes 32) (remaining : Vector UInt32 8) :
    Except Fault (UInt8 × UInt32) := do
  let tier ← pool.drawTier hash remaining
  let count ← okOr .panicked remaining[tier.toNat]?
  failIf (count = 0) .panicked
  let rank := (u64.readAt 8 hash.val).toNat % count.toNat
  return (tier, UInt32.ofNat rank)

end Pool

/-! ## Item and Pull -/

/-- Write every field of a freshly created item. -/
def Item.setInner (item : Item) (bump tier : UInt8) (position : UInt32) (pool asset : Pubkey) : Item :=
  { item with version := itemVersion, bump, tier, position, pool, asset }

/-- `Item::seeds`: the signer seeds `[ITEM_SEED, pool, tier, position, bump]`. -/
def Item.seeds (pool : Pubkey) (tier : UInt8) (position : UInt32) (bump : UInt8) : List (List UInt8) :=
  [itemSeed, pool.val, [tier], u32.encode position, [bump]]

namespace Pull

/-- Write every field of a freshly created, pending pull. -/
def setInner (pull : Pull) (bump count : UInt8) (inventoryVersion : UInt32)
    (index deadlineSlot : UInt64) (pool buyer : Pubkey) (clientSeed : FixedBytes 32) : Pull :=
  { pull with
    version := pullVersion
    bump
    status := statusPending
    count
    inventoryVersion
    index
    deadlineSlot
    pool
    buyer
    clientSeed }

/-- `Pull::seeds`: the signer seeds `[PULL_SEED, pool, client_seed, bump]`. -/
def seeds (pool : Pubkey) (clientSeed : FixedBytes 32) (bump : UInt8) : List (List UInt8) :=
  [pullSeed, pool.val, clientSeed.val, [bump]]

/-- `Pull::outcome`. -/
def outcome (pull : Pull) (i : ℕ) : Except Fault Outcome := okOr .panicked pull.outcomes[i]?

/-- `Pull::set_outcome`. -/
def setOutcome (pull : Pull) (i : ℕ) (tier : UInt8) (asset : Pubkey) : Except Fault Pull := do
  failIf (maxCount ≤ i) .panicked
  return { pull with outcomes := pull.outcomes.setIfInBounds i ⟨tier, asset⟩ }

/-- The packed entries of the first `count` outcomes, for the event. -/
def outcomeBytes (pull : Pull) (count : ℕ) : Except Fault (List UInt8) := do
  failIf (maxCount < count) .panicked
  return (pull.outcomes.toList.take count).flatMap Outcome.layout.encode

/-- `Pull::mark_delivered`. -/
def markDelivered (pull : Pull) (i : ℕ) : Except Fault Pull := do
  let outcome ← pull.outcome i
  return { pull with outcomes := pull.outcomes.setIfInBounds i { outcome with tier := delivered } }

/-- Whether every outcome has been delivered. -/
def allDelivered (pull : Pull) : Except Fault Bool := do
  failIf (maxCount < pull.count.toNat) .panicked
  return (pull.outcomes.toList.take pull.count.toNat).all fun outcome => outcome.tier = delivered

end Pull

end SolanaGacha
