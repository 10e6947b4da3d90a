import SolanaGacha.Banner.Basic

/-!
# What instructions do to a banner

`Banner.Step` is the pool as a state machine of its own: what an instruction does to everything that
belongs to the pool, with the accounts of other pools and of other programs gone. Each step is labelled
with its move in the market of the pool's positions, which `Call.move` reads off the call. Where an
instruction may also touch an asset or a balance of the pool in passing, a step says what it keeps.
-/

namespace SolanaGacha

open Except Layout Inventory

/-! ## Terms -/

/-- The parameters that a pool keeps from its creation on, and its status. -/
structure Pool.Valid (rt : Runtime) (P : Pubkey) (pool : Pool) : Prop where
  derived : rt.createProgramAddress pool.signerSeeds programId = some P
  vault : rt.ata P pool.paymentMint = some pool.vault
  tierCount : 0 < pool.tierCount.toNat ∧ pool.tierCount.toNat ≤ 8
  weights : ∀ tier ∈ pool.tiers.toList.take pool.tierCount.toNat, tier.weight ≠ 0
  price : pool.price ≠ 0
  bondPerDraw : pool.bondPerDraw ≠ 0
  deadlineSlots : pool.deadlineSlots ≠ 0
  /-- A refund of the largest pull fits `u64`. -/
  refund : (pool.price.toNat + pool.bondPerDraw.toNat) * maxCount < 2 ^ 64
  status : pool.status ≤ poolRetired

/-- A pool PDA. -/
theorem Pool.Valid.isPda {rt : Runtime} {P : Pubkey} {pool : Pool} (h : pool.Valid rt P) : rt.IsPda P :=
  ⟨_, h.derived⟩

/-- A live Pull of the pool at `P`, at its address. -/
structure Pull.Valid (rt : Runtime) (P key : Pubkey) (pull : Pull) : Prop where
  pool : pull.pool = P
  derived : rt.createProgramAddress (Pull.seeds P pull.clientSeed pull.bump) programId = some key
  count : 0 < pull.count.toNat ∧ pull.count.toNat ≤ maxCount
  status : pull.status ≤ statusSettled
  /-- Buyers sign their purchases, which no PDA does. -/
  buyer : ¬rt.IsPda pull.buyer
  outcomes : pull.status = statusSettled → ∀ i outcome, i < pull.count.toNat →
    pull.outcomes[i]? = some outcome → outcome.tier = delivered ∨ outcome.tier.toNat < 8

/-- The positions that some awards were drawn as. -/
def Award.positions (awards : List Award) : List ℕ := awards.map fun award => award.draw.2

/-- A header whose status, stock and counters may differ. -/
structure Pool.SameTerms (pool pool' : Pool) : Prop where
  signerSeeds : pool'.signerSeeds = pool.signerSeeds
  operator : pool'.operator = pool.operator
  paymentMint : pool'.paymentMint = pool.paymentMint
  vault : pool'.vault = pool.vault
  tierCount : pool'.tierCount = pool.tierCount
  weights : pool'.tiers.map Tier.weight = pool.tiers.map Tier.weight
  price : pool'.price = pool.price
  bondPerDraw : pool'.bondPerDraw = pool.bondPerDraw
  deadlineSlots : pool'.deadlineSlots = pool.deadlineSlots

theorem Pool.Valid.of_terms {rt : Runtime} {P : Pubkey} {pool pool' : Pool} (hvalid : pool.Valid rt P)
    (h : pool.SameTerms pool') (hstatus : pool'.status ≤ poolRetired) : pool'.Valid rt P where
  derived := by rw [h.signerSeeds]; exact hvalid.derived
  vault := by rw [h.paymentMint, h.vault]; exact hvalid.vault
  tierCount := by rw [h.tierCount]; exact hvalid.tierCount
  weights := by
    have hlist := congrArg Vector.toList h.weights
    rw [Vector.toList_map, Vector.toList_map] at hlist
    intro tier hmem
    have hweight := List.mem_map_of_mem (f := Tier.weight) hmem
    rw [List.map_take, hlist, h.tierCount, ← List.map_take] at hweight
    obtain ⟨tier', hmem', heq⟩ := List.mem_map.mp hweight
    rw [← heq]
    exact hvalid.weights tier' hmem'
  price := by rw [h.price]; exact hvalid.price
  bondPerDraw := by rw [h.bondPerDraw]; exact hvalid.bondPerDraw
  deadlineSlots := by rw [h.deadlineSlots]; exact hvalid.deadlineSlots
  refund := by rw [h.price, h.bondPerDraw]; exact hvalid.refund
  status := hstatus

/-- What a restock changes in the header. -/
theorem Restocked.header {pool pool' : Pool} {index index' : List UInt8} {tier : UInt8}
    (h : Restocked pool index tier pool' index') : ∃ tiers,
      pool' = { pool with inventoryVersion := pool.inventoryVersion + 1, tiers } ∧
        tiers.map Tier.weight = pool.tiers.map Tier.weight :=
  Pool.updateRemaining_frame h.counter

/-! ## Steps -/

/-- One step of a pool at a slot, and its move in the market of positions. -/
inductive Banner.Step (rt : Runtime) (slot : UInt64) (P : Pubkey) (S : Banner) :
    Market.Move UInt8 Ticket → Banner → Prop
  /-- A withdrawal, an instruction on another pool, or something outside of the program. -/
  | idle {S' : Banner} (books : S.SameBooks S') (assets : S.KeepsAssets S')
      (reserve : S.KeepsReserve S') : Step rt slot P S .idle S'
  | create {S' : Banner} {pool : Pool} (new : S.pool = none) (valid : pool.Valid rt P)
      (stock : Stock pool [] [])
      (counters : pool.pendingDraws = 0 ∧ pool.nextIndex = 0 ∧ pool.nextSettle = 0)
      (header' : S'.pool = some (pool, [])) (items : S'.items = S.items) (pulls : S'.pulls = S.pulls) :
      Step rt slot P S .idle S'
  | setStatus {S' : Banner} {pool : Pool} {index : List UInt8} {status : UInt8}
      (header : S.pool = some (pool, index)) (valid : status ≤ poolRetired)
      (terminal : pool.status = poolRetired → status = poolRetired)
      (header' : S'.pool = some ({ pool with status }, index)) (items : S'.items = S.items)
      (pulls : S'.pulls = S.pulls) (assets : S.KeepsAssets S') (reserve : S.KeepsReserve S') :
      Step rt slot P S .idle S'
  | restock {S' : Banner} {pool pool' : Pool} {index index' : List UInt8} {key asset : Pubkey}
      {tier bump : UInt8} (header : S.pool = some (pool, index))
      (restocked : Restocked pool index tier pool' index')
      (derived : rt.createProgramAddress (Item.seeds P tier pool.inventoryVersion bump) programId =
        some key)
      (vacant : S.items key = none) (given : asset ∉ S.assets)
      (header' : S'.pool = some (pool', index'))
      (items : S'.items = Function.update S.items key
        (some (Item.fresh bump tier pool.inventoryVersion P asset)))
      (pulls : S'.pulls = S.pulls) (assets : insert asset S.assets ⊆ S'.assets)
      (reserve : S.KeepsReserve S') : Step rt slot P S (.restock (tierTag tier.toNat)) S'
  | reclaim {S' : Banner} {pool : Pool} {index index' : List UInt8} {key : Pubkey} {item : Item}
      {tiers : Vector Tier 8} (header : S.pool = some (pool, index)) (settled : pool.pendingDraws = 0)
      (loaded : S.items key = some item)
      (weights : tiers.map Tier.weight = pool.tiers.map Tier.weight)
      (stock : Stock { pool with tiers } index' ((pool.tags index).set item.position.toNat 0))
      (header' : S'.pool = some ({ pool with tiers }, index'))
      (items : S'.items = Function.update S.items key none) (pulls : S'.pulls = S.pulls)
      (assets : S.assets \ {item.asset} ⊆ S'.assets) (reserve : S.KeepsReserve S') :
      Step rt slot P S (.withdraw item.position.toNat) S'
  | buy {S' : Banner} {pool : Pool} {index : List UInt8} {key : Pubkey} {pull : Pull} {left : ℕ}
      {pendingDraws nextIndex : UInt64} (header : S.pool = some (pool, index))
      (vacant : S.pulls key = none) (valid : pull.Valid rt P key)
      (pending : pull.status = statusPending) (place : pull.index = pool.nextIndex)
      (version : pull.inventoryVersion = pool.inventoryVersion)
      (deadline : slot.toNat + pool.deadlineSlots.toNat = pull.deadlineSlot.toNat)
      (draws : pool.pendingDraws.toNat + pull.count.toNat = pendingDraws.toNat)
      (next : pool.nextIndex.toNat + 1 = nextIndex.toNat) (remaining : pool.remaining = .ok left)
      (stock : pendingDraws.toNat ≤ left)
      (header' : S'.pool = some ({ pool with pendingDraws, nextIndex }, index))
      (items : S'.items = S.items) (pulls : S'.pulls = Function.update S.pulls key (some pull))
      (assets : S.KeepsAssets S') (reserve : S'.reserve ≤ S'.vault) :
      Step rt slot P S (.reserve (pull.ticket key)) S'
  | refund {S' : Banner} {pool : Pool} {index : List UInt8} {key : Pubkey} {pull : Pull}
      {pendingDraws nextSettle : UInt64} (header : S.pool = some (pool, index))
      (loaded : S.pulls key = some pull) (pending : pull.status = statusPending)
      (head : pull.index = pool.nextSettle) (expired : pull.deadlineSlot < slot)
      (draws : pool.pendingDraws.toNat = pull.count.toNat + pendingDraws.toNat)
      (next : pull.index.toNat + 1 = nextSettle.toNat)
      (header' : S'.pool = some ({ pool with pendingDraws, nextSettle }, index))
      (items : S'.items = S.items) (pulls : S'.pulls = Function.update S.pulls key none)
      (assets : S.KeepsAssets S')
      (paid : S.vault ≤ S'.vault + (pool.price.toNat + pool.bondPerDraw.toNat) * pull.count.toNat) :
      Step rt slot P S .cancel S'
  | settle {S' : Banner} {pool : Pool} {index index' : List UInt8} {key : Pubkey} {pull : Pull}
      {beta : FixedBytes 64} {awards : List Award} {tiers : Vector Tier 8}
      {pendingDraws nextSettle : UInt64} (header : S.pool = some (pool, index))
      (loaded : S.pulls key = some pull) (pending : pull.status = statusPending)
      (head : pull.index = pool.nextSettle) (inTime : slot ≤ pull.deadlineSlot)
      (draws : pool.pendingDraws.toNat = pull.count.toNat + pendingDraws.toNat)
      (next : pull.index.toNat + 1 = nextSettle.toNat)
      (item : ∀ award ∈ awards, S.items award.account = some award.item)
      (nodup : (awards.map Award.account).Nodup) (count : awards.length = pull.count.toNat)
      (selected : rt.selections pool beta ((pool.tags index).take pull.inventoryVersion.toNat) 0
        awards.length = .ok (awards.map Award.draw))
      (weights : tiers.map Tier.weight = pool.tiers.map Tier.weight)
      (stock : Stock { pool with tiers, pendingDraws, nextSettle } index'
        (Market.clear (pool.tags index) (Award.positions awards)))
      (header' : S'.pool = some ({ pool with tiers, pendingDraws, nextSettle }, index'))
      (items : S'.items = fun k => if k ∈ awards.map Award.account then none else S.items k)
      (pulls : S'.pulls = Function.update S.pulls key (some { pull with
        status := statusSettled, outcomes := recordAwards pull.outcomes 0 awards }))
      (assets : S.KeepsAssets S') (vault : S.vault ≤ S'.vault) :
      Step rt slot P S (.award (Award.positions awards)) S'
  | deliver {S' : Banner} {pool : Pool} {index : List UInt8} {key : Pubkey} {pull : Pull} {i : ℕ}
      {outcome : Outcome} {all : Bool} (header : S.pool = some (pool, index))
      (loaded : S.pulls key = some pull) (settled : pull.status = statusSettled)
      (inCount : i < pull.count.toNat) (recorded : pull.outcomes[i]? = some outcome)
      (undelivered : outcome.tier ≠ delivered)
      (closes : (pull.marked i outcome).allDelivered = .ok all) (header' : S'.pool = S.pool)
      (items : S'.items = S.items) (pulls : S'.pulls = Function.update S.pulls key
        (if all then none else some (pull.marked i outcome)))
      (assets : S.assets \ {outcome.asset} ⊆ S'.assets) (reserve : S.KeepsReserve S') :
      Step rt slot P S .idle S'

/-! ## Moves -/

/-- The position that an Item records. -/
def Ledger.position (L : Ledger) (key : Pubkey) : ℕ :=
  match L key with
  | .item item => item.position.toNat
  | _ => 0

/-- The move of a call in the market of the pool at `P`. -/
def Call.move (L : Ledger) (P : Pubkey) : Call → Market.Move UInt8 Ticket
  | .depositItem a d => if a.pool.key = P then .restock (tierTag d.tier.toNat) else .idle
  | .buyback a d => if a.pool.key = P then .restock (tierTag d.tier.toNat) else .idle
  | .reclaim a => if a.pool.key = P then .withdraw (L.position a.item.key) else .idle
  | .buy a d =>
    if a.pool.key = P then .reserve ⟨a.pull.key, d.count.toNat, d.inventoryVersion.toNat⟩ else .idle
  | .refund a => if a.pool.key = P then .cancel else .idle
  | .settle a _ =>
    if a.pool.key = P then .award (a.items.map fun item => L.position item.key) else .idle
  | .createPool _ _ => .idle
  | .withdraw _ _ => .idle
  | .setStatus _ _ => .idle
  | .deliver _ _ => .idle
  | .event => .idle

end SolanaGacha
