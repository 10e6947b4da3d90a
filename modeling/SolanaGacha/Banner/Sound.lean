import SolanaGacha.Banner.Held
import SolanaGacha.Banner.Shelved

/-!
# Banners represent markets

`Banner.Represents` ties a banner to the market of its positions: the tags are the stock, the Items are
the available positions, the pending Pulls are the queue. Every step of a banner is the move of its label
in the market (`Banner.Step.represents`), so what holds of all runs of markets holds of all pools.
-/

namespace SolanaGacha

open Except Layout Inventory

/-- The invariant of a banner whose pool was created. -/
structure Banner.Opened (rt : Runtime) (P : Pubkey) (S : Banner) (pool : Pool) (index : List UInt8)
    (m : Market UInt8 Ticket) : Prop where
  header : S.pool = some (pool, index)
  valid : pool.Valid rt P
  stock : Stock pool index m.stock
  covered : m.Covered
  shelved : Shelved rt P S.items m.stock
  queued : Queued pool S.pulls m
  pull : ∀ {k pull}, S.pulls k = some pull → pull.Valid rt P k
  held : S.Held
  /-- The vault covers every pending refund. -/
  funded : S.reserve ≤ S.vault

/-- The market of a banner; it is empty before the pool is created. -/
inductive Banner.Represents (rt : Runtime) (P : Pubkey) (S : Banner) : Market UInt8 Ticket → Prop
  | empty (pool : S.pool = none) (items : ∀ k, S.items k = none) (pulls : ∀ k, S.pulls k = none) :
      Represents rt P S ⟨[], [], 0⟩
  | opened {pool : Pool} {index : List UInt8} {m : Market UInt8 Ticket}
      (h : Opened rt P S pool index m) : Represents rt P S m

namespace Banner

variable {rt : Runtime} {slot : UInt64} {P : Pubkey} {S S' : Banner} {pool : Pool} {index : List UInt8}
  {m : Market UInt8 Ticket}

theorem reserve_eq (h : S.pool = some (pool, index)) :
    S.reserve = (pool.price.toNat + pool.bondPerDraw.toNat) * pool.pendingDraws.toNat := by
  rw [reserve, h]
  rfl

theorem KeepsReserve.funded (h : S.KeepsReserve S') (hfunded : S.reserve ≤ S.vault)
    (hle : S'.reserve ≤ S.reserve) : S'.reserve ≤ S'.vault := by
  rcases h with hvault | hreserve
  · exact hle.trans (hfunded.trans hvault)
  · exact hreserve

/-- The market of an open pool. -/
theorem Represents.of_header (h : S.Represents rt P m) (hpool : S.pool = some (pool, index)) :
    S.Opened rt P pool index m := by
  cases h with
  | empty hnone => exact absurd (hnone.symm.trans hpool) (by simp)
  | @opened pool' index' _ h =>
    obtain ⟨rfl, rfl⟩ := Prod.mk.inj (Option.some.inj (h.header.symm.trans hpool))
    exact h

namespace Opened

variable (h : S.Opened rt P pool index m)

include h

theorem tags_eq : pool.tags index = m.stock := h.stock.tags_eq

/-- The steps that no part of the invariant shows. -/
theorem idle (books : S.SameBooks S') (assets : S.KeepsAssets S') (reserve : S.KeepsReserve S') :
    S'.Opened rt P pool index m where
  header := books.pool.trans h.header
  valid := h.valid
  stock := h.stock
  covered := h.covered
  shelved := by rw [books.items]; exact h.shelved
  queued := by rw [books.pulls]; exact h.queued
  pull hk := h.pull (books.pulls ▸ hk)
  held := h.held.congr books.items books.pulls (assets (by rw [h.header]; rfl))
  funded := reserve.funded h.funded (by
    rw [reserve_eq (books.pool.trans h.header), reserve_eq h.header])

/-- No draws are pending when no purchase waits. -/
theorem queue_eq_nil (hsettled : pool.pendingDraws = 0) : m.queue = [] := by
  have hdraws := h.queued.draws
  rw [hsettled] at hdraws
  cases hq : m.queue with
  | nil => rfl
  | cons ticket rest =>
    obtain ⟨pull, hpull, -, -, hticket⟩ := h.queued.ticket (i := 0) (by rw [hq]; rfl)
    have hcount := (h.pull hpull).count.1
    rw [hq, Market.demand_cons, ← hticket] at hdraws
    have hzero : (0 : UInt64).toNat = 0 := rfl
    rw [hzero] at hdraws
    change 0 = pull.count.toNat + _ at hdraws
    omega

theorem setStatus {status : UInt8} (valid : status ≤ poolRetired)
    (header' : S'.pool = some ({ pool with status }, index)) (items : S'.items = S.items)
    (pulls : S'.pulls = S.pulls) (assets : S.KeepsAssets S') (reserve : S.KeepsReserve S') :
    S'.Opened rt P { pool with status } index m where
  header := header'
  valid := h.valid.of_terms ⟨rfl, rfl, rfl, rfl, rfl, rfl, rfl, rfl, rfl⟩ valid
  stock := ⟨h.stock.indexed, h.stock.version, h.stock.tierCount, h.stock.tier, h.stock.remaining⟩
  covered := h.covered
  shelved := by rw [items]; exact h.shelved
  queued := by rw [pulls]; exact h.queued.congr ⟨rfl, rfl, rfl⟩
  pull hk := h.pull (pulls ▸ hk)
  held := h.held.congr items pulls (assets (by rw [h.header]; rfl))
  funded := reserve.funded h.funded (by rw [reserve_eq header', reserve_eq h.header])

theorem restock {pool' : Pool} {index' : List UInt8} {key asset : Pubkey} {tier bump : UInt8}
    (restocked : Restocked pool index tier pool' index')
    (derived : rt.createProgramAddress (Item.seeds P tier pool.inventoryVersion bump) programId =
      some key)
    (vacant : S.items key = none) (given : asset ∉ S.assets) (header' : S'.pool = some (pool', index'))
    (items : S'.items = Function.update S.items key
      (some (Item.fresh bump tier pool.inventoryVersion P asset)))
    (pulls : S'.pulls = S.pulls) (assets : insert asset S.assets ⊆ S'.assets)
    (reserve : S.KeepsReserve S') :
    S'.Opened rt P pool' index' { m with stock := m.stock ++ [tierTag tier.toNat] } := by
  obtain ⟨htier, hstock⟩ := h.stock.restock restocked
  obtain ⟨tiers, hpool', hweights⟩ := restocked.header
  have hcovered := (Market.Step.restock (m := m) (tierTag tier.toNat)).covered h.covered
  refine ⟨header', ?_, hstock, hcovered, ?_, ?_, fun hk => h.pull (pulls ▸ hk),
    h.held.restock given items pulls assets, reserve.funded h.funded (Eq.le ?_)⟩
  · rw [hpool']
    exact h.valid.of_terms ⟨rfl, rfl, rfl, rfl, rfl, hweights, rfl, rfl, rfl⟩ h.valid.status
  · rw [items]
    exact h.shelved.restock (htier.trans_le h.valid.tierCount.2) h.stock.version derived vacant
  · rw [pulls, hpool']
    exact h.queued.congr ⟨rfl, rfl, rfl⟩
  · rw [reserve_eq header', reserve_eq h.header, hpool']

theorem reclaim {index' : List UInt8} {key : Pubkey} {item : Item} {tiers : Vector Tier 8}
    (settled : pool.pendingDraws = 0) (loaded : S.items key = some item)
    (weights : tiers.map Tier.weight = pool.tiers.map Tier.weight)
    (stock : Stock { pool with tiers } index' ((pool.tags index).set item.position.toNat 0))
    (header' : S'.pool = some ({ pool with tiers }, index'))
    (items : S'.items = Function.update S.items key none) (pulls : S'.pulls = S.pulls)
    (assets : S.assets \ {item.asset} ⊆ S'.assets) (reserve : S.KeepsReserve S') :
    S'.Opened rt P { pool with tiers } index'
      { m with stock := m.stock.set item.position.toNat 0 } where
  header := header'
  valid := h.valid.of_terms ⟨rfl, rfl, rfl, rfl, rfl, weights, rfl, rfl, rfl⟩ h.valid.status
  stock := by rw [← h.tags_eq]; exact stock
  covered := (Market.Step.withdraw _ (h.queue_eq_nil settled)).covered h.covered
  shelved := by rw [items]; exact h.shelved.take loaded
  queued := by rw [pulls]; exact h.queued.congr ⟨rfl, rfl, rfl⟩
  pull hk := h.pull (pulls ▸ hk)
  held := h.held.reclaim loaded items pulls assets
  funded := reserve.funded h.funded (by rw [reserve_eq header', reserve_eq h.header])

/-- A Pull that is added or rewritten is valid. -/
theorem pull_update {key : Pubkey} {left : Option Pull}
    (hleft : ∀ pull, left = some pull → pull.Valid rt P key)
    (pulls : S'.pulls = Function.update S.pulls key left) {k : Pubkey} {pull : Pull}
    (hk : S'.pulls k = some pull) : pull.Valid rt P k := by
  rw [pulls, Function.update_apply] at hk
  split_ifs at hk with hkk
  · exact hkk ▸ hleft pull hk
  · exact h.pull hk

/-- The order of a purchase is accepted. -/
theorem reserve_step {key : Pubkey} {pull : Pull} {left : ℕ} {pendingDraws : UInt64}
    (version : pull.inventoryVersion = pool.inventoryVersion)
    (draws : pool.pendingDraws.toNat + pull.count.toNat = pendingDraws.toNat)
    (remaining : pool.remaining = .ok left) (stock : pendingDraws.toNat ≤ left) :
    Market.Step m (.reserve (pull.ticket key)) { m with queue := m.queue ++ [pull.ticket key] } := by
  refine .reserve _ ?_ ?_
  · show pull.inventoryVersion.toNat = _
    rw [version, h.stock.version]
  · have hleft : (Market.candidates m.stock m.stock.length).card = left :=
      Except.ok.inj (h.stock.remaining_eq.symm.trans remaining)
    rw [hleft, ← h.queued.draws]
    exact draws.trans_le stock

theorem buy {key : Pubkey} {pull : Pull} {left : ℕ} {pendingDraws nextIndex : UInt64}
    (vacant : S.pulls key = none) (valid : pull.Valid rt P key) (pending : pull.status = statusPending)
    (place : pull.index = pool.nextIndex) (version : pull.inventoryVersion = pool.inventoryVersion)
    (draws : pool.pendingDraws.toNat + pull.count.toNat = pendingDraws.toNat)
    (next : pool.nextIndex.toNat + 1 = nextIndex.toNat) (remaining : pool.remaining = .ok left)
    (stock : pendingDraws.toNat ≤ left)
    (header' : S'.pool = some ({ pool with pendingDraws, nextIndex }, index))
    (items : S'.items = S.items) (pulls : S'.pulls = Function.update S.pulls key (some pull))
    (assets : S.KeepsAssets S') (reserve : S'.reserve ≤ S'.vault) :
    S'.Opened rt P { pool with pendingDraws, nextIndex } index
      { m with queue := m.queue ++ [pull.ticket key] } where
  header := header'
  valid := h.valid.of_terms ⟨rfl, rfl, rfl, rfl, rfl, rfl, rfl, rfl, rfl⟩ h.valid.status
  stock := ⟨h.stock.indexed, h.stock.version, h.stock.tierCount, h.stock.tier, h.stock.remaining⟩
  covered := (h.reserve_step version draws remaining stock).covered h.covered
  shelved := by rw [items]; exact h.shelved
  queued := by rw [pulls]; exact h.queued.push vacant pending place draws next
  pull hk := h.pull_update (fun pull' hp => Option.some.inj hp ▸ valid) pulls hk
  held := h.held.unpromised (fun pull' hp => Option.some.inj hp ▸ pending) items pulls
    (assets (by rw [h.header]; rfl))
  funded := reserve

theorem refund {key : Pubkey} {pull : Pull} {rest : List Ticket} {pendingDraws nextSettle : UInt64}
    (loaded : S.pulls key = some pull) (head : pull.index = pool.nextSettle)
    (queue : m.queue = pull.ticket key :: rest)
    (draws : pool.pendingDraws.toNat = pull.count.toNat + pendingDraws.toNat)
    (next : pull.index.toNat + 1 = nextSettle.toNat)
    (header' : S'.pool = some ({ pool with pendingDraws, nextSettle }, index))
    (items : S'.items = S.items) (pulls : S'.pulls = Function.update S.pulls key none)
    (assets : S.KeepsAssets S')
    (paid : S.vault ≤ S'.vault + (pool.price.toNat + pool.bondPerDraw.toNat) * pull.count.toNat) :
    S'.Opened rt P { pool with pendingDraws, nextSettle } index
      { m with queue := rest, served := m.served + 1 } where
  header := header'
  valid := h.valid.of_terms ⟨rfl, rfl, rfl, rfl, rfl, rfl, rfl, rfl, rfl⟩ h.valid.status
  stock := ⟨h.stock.indexed, h.stock.version, h.stock.tierCount, h.stock.tier, h.stock.remaining⟩
  covered := (Market.Step.cancel _ rest queue).covered h.covered
  shelved := by rw [items]; exact h.shelved
  queued := by
    rw [pulls]
    exact h.queued.pop { pool with pendingDraws, nextSettle } loaded head queue draws next (by simp)
      ⟨rfl, rfl, rfl⟩
  pull hk := h.pull_update (by simp) pulls hk
  held := h.held.unpromised (by simp) items pulls (assets (by rw [h.header]; rfl))
  funded := by
    have hfunded := h.funded
    rw [reserve_eq h.header, draws, Nat.mul_add] at hfunded
    rw [reserve_eq header']
    show (pool.price.toNat + pool.bondPerDraw.toNat) * pendingDraws.toNat ≤ _
    omega

/-- What a settlement selects can be awarded. -/
theorem award_step {key : Pubkey} {pull : Pull} {rest : List Ticket} {beta : FixedBytes 64}
    {awards : List Award} (queue : m.queue = pull.ticket key :: rest)
    (count : awards.length = pull.count.toNat)
    (selected : rt.selections pool beta ((pool.tags index).take pull.inventoryVersion.toNat) 0
      awards.length = .ok (awards.map Award.draw)) :
    Market.Step m (.award (Award.positions awards))
      ⟨Market.clear m.stock (Award.positions awards), rest, m.served + 1⟩ := by
  obtain ⟨-, hnodup, hspec⟩ := Runtime.selections_spec selected
  rw [List.map_map] at hnodup
  refine .award _ rest _ queue (by rw [Award.positions, List.length_map, count]; rfl) hnodup
    fun p hp => ?_
  obtain ⟨award, haward, rfl⟩ := List.mem_map.mp hp
  obtain ⟨-, h8, hlive⟩ := hspec award.draw (List.mem_map_of_mem haward)
  rw [h.tags_eq] at hlive
  have hlt := lt_length_of_live h8 hlive
  rw [List.length_take] at hlt
  have hversion : award.draw.2 < pull.inventoryVersion.toNat := hlt.trans_le (min_le_left _ _)
  have htag : m.stock.getD award.draw.2 0 = tierTag award.draw.1.toNat := by
    rw [Live, List.getD_eq_getElem?_getD, List.getElem?_take, if_pos hversion,
      ← List.getD_eq_getElem?_getD] at hlive
    exact hlive
  rw [Market.mem_candidates, htag]
  exact ⟨hversion, tierTag_ne_zero h8⟩

theorem settle {index' : List UInt8} {key : Pubkey} {pull : Pull} {rest : List Ticket}
    {beta : FixedBytes 64} {awards : List Award} {tiers : Vector Tier 8}
    {pendingDraws nextSettle : UInt64} (loaded : S.pulls key = some pull)
    (head : pull.index = pool.nextSettle) (queue : m.queue = pull.ticket key :: rest)
    (draws : pool.pendingDraws.toNat = pull.count.toNat + pendingDraws.toNat)
    (next : pull.index.toNat + 1 = nextSettle.toNat)
    (item : ∀ award ∈ awards, S.items award.account = some award.item)
    (nodup : (awards.map Award.account).Nodup) (count : awards.length = pull.count.toNat)
    (selected : rt.selections pool beta ((pool.tags index).take pull.inventoryVersion.toNat) 0
      awards.length = .ok (awards.map Award.draw))
    (weights : tiers.map Tier.weight = pool.tiers.map Tier.weight)
    (stock : Stock { pool with tiers, pendingDraws, nextSettle } index'
      (Market.clear (pool.tags index) (Award.positions awards)))
    (header' : S'.pool = some ({ pool with tiers, pendingDraws, nextSettle }, index'))
    (items : S'.items = fun k => if k ∈ awards.map Award.account then none else S.items k)
    (pulls : S'.pulls = Function.update S.pulls key (some { pull with
      status := statusSettled, outcomes := recordAwards pull.outcomes 0 awards }))
    (assets : S.KeepsAssets S') (vault : S.vault ≤ S'.vault) :
    S'.Opened rt P { pool with tiers, pendingDraws, nextSettle } index'
      ⟨Market.clear m.stock (Award.positions awards), rest, m.served + 1⟩ where
  header := header'
  valid := h.valid.of_terms ⟨rfl, rfl, rfl, rfl, rfl, weights, rfl, rfl, rfl⟩ h.valid.status
  stock := by rw [← h.tags_eq]; exact stock
  covered := (h.award_step queue count selected).covered h.covered
  shelved := by rw [items]; exact h.shelved.clear item nodup
  queued := by
    rw [pulls]
    refine h.queued.pop { pool with tiers, pendingDraws, nextSettle } loaded head queue draws next
      (fun pull' hp => ?_) ⟨rfl, rfl, rfl⟩
    obtain rfl := Option.some.inj hp
    exact ⟨(by decide : statusSettled ≠ statusPending), rfl⟩
  pull hk := by
    have hvalid := h.pull loaded
    refine h.pull_update (fun pull' hp => ?_) pulls hk
    obtain rfl := Option.some.inj hp
    refine ⟨hvalid.pool, hvalid.derived, hvalid.count, (by decide : statusSettled ≤ statusSettled),
      hvalid.buyer, fun _ i outcome hi ho => .inr ?_⟩
    have hlt : i < awards.length := count.symm ▸ hi
    have hcount : pull.count.toNat ≤ 10 := hvalid.count.2
    have ho' : (recordAwards pull.outcomes 0 awards)[i]? = some outcome := ho
    rw [recordAwards_getElem? _ _ _ _ (by omega), if_pos ⟨Nat.zero_le _, by omega⟩, Nat.sub_zero,
      List.getElem?_eq_getElem hlt] at ho'
    obtain rfl := Option.some.inj ho'
    exact (h.shelved.item (item _ (List.getElem_mem hlt))).2.1
  held := h.held.settle item nodup count (h.pull loaded).count.2 items pulls
    (assets (by rw [h.header]; rfl))
  funded := by
    have hfunded := h.funded
    rw [reserve_eq h.header, draws, Nat.mul_add] at hfunded
    rw [reserve_eq header']
    show (pool.price.toNat + pool.bondPerDraw.toNat) * pendingDraws.toNat ≤ _
    omega

theorem deliver {key : Pubkey} {pull : Pull} {i : ℕ} {outcome : Outcome} {all : Bool}
    (loaded : S.pulls key = some pull) (settled : pull.status = statusSettled)
    (inCount : i < pull.count.toNat) (recorded : pull.outcomes[i]? = some outcome)
    (undelivered : outcome.tier ≠ delivered) (header' : S'.pool = S.pool) (items : S'.items = S.items)
    (pulls : S'.pulls = Function.update S.pulls key
      (if all then none else some (pull.marked i outcome)))
    (assets : S.assets \ {outcome.asset} ⊆ S'.assets) (reserve : S.KeepsReserve S') :
    S'.Opened rt P pool index m := by
  have hsettled : pull.status ≠ statusPending := by
    rw [settled]
    decide
  have hleft : ∀ pull', (if all then none else some (pull.marked i outcome)) = some pull' →
      pull' = pull.marked i outcome := by
    intro pull' hp
    split_ifs at hp
    exact (Option.some.inj hp).symm
  have hvalid := h.pull loaded
  refine ⟨header'.trans h.header, h.valid, h.stock, h.covered, by rw [items]; exact h.shelved, ?_,
    fun hk => h.pull_update (fun pull' hp => ?_) pulls hk,
    h.held.deliver loaded settled inCount recorded undelivered hleft items pulls assets,
    reserve.funded h.funded (Eq.le ?_)⟩
  · rw [pulls]
    refine h.queued.deliver loaded hsettled fun pull' hp => ?_
    rw [hleft pull' hp]
    exact ⟨hsettled, rfl⟩
  · rw [hleft pull' hp]
    refine ⟨hvalid.pool, hvalid.derived, hvalid.count, hvalid.status, hvalid.buyer,
      fun _ j o hj ho => ?_⟩
    have ho' : (pull.outcomes.setIfInBounds i { outcome with tier := delivered })[j]? = some o := ho
    rcases eq_or_ne i j with rfl | hne
    · rw [Vector.getElem?_setIfInBounds_self] at ho'
      split_ifs at ho'
      exact .inl (congrArg Outcome.tier (Option.some.inj ho')).symm
    · rw [Vector.getElem?_setIfInBounds_ne hne] at ho'
      exact hvalid.outcomes settled j o hj ho'
  · rw [reserve_eq (header'.trans h.header), reserve_eq h.header]

end Opened

/-! ## Steps -/

/-- Every step of a banner is a move of its market. -/
theorem Step.represents {move : Market.Move UInt8 Ticket} (hstep : Step rt slot P S move S')
    (h : S.Represents rt P m) : ∃ m', Market.Step m move m' ∧ S'.Represents rt P m' := by
  cases hstep with
  | idle books assets reserve =>
    refine ⟨m, .idle, ?_⟩
    cases h with
    | empty hpool hitems hpulls =>
      exact .empty (books.pool.trans hpool) (fun k => by rw [books.items, hitems])
        fun k => by rw [books.pulls, hpulls]
    | opened h => exact .opened (h.idle books assets reserve)
  | @create _ pool new valid stock counters header' items pulls =>
    cases h with
    | opened h => exact absurd (new.symm.trans h.header) (by simp)
    | empty hpool hitems hpulls =>
      obtain ⟨hpending, hnext, hsettle⟩ := counters
      have hnone : ∀ k, S'.items k = none := fun k => by rw [items, hitems]
      have hnone' : ∀ k, S'.pulls k = none := fun k => by rw [pulls, hpulls]
      refine ⟨_, .idle, .opened ⟨header', valid, stock, ⟨by simp, by simp, by simp⟩, ?_, ?_, ?_, ?_, ?_⟩⟩
      · exact ⟨fun hk => by simp [hnone] at hk, by simp, fun hk => by simp [hnone] at hk⟩
      · refine ⟨by rw [hsettle]; rfl, by rw [hnext]; rfl, by rw [hpending]; rfl, by simp, ?_, ?_, ?_⟩
        · exact fun hk => by simp [hnone'] at hk
        · exact fun hk => by simp [hnone'] at hk
        · exact fun hk => by simp [hnone'] at hk
      · exact fun hk => by simp [hnone'] at hk
      · have hpromised : ∀ slot, S'.promised slot = none := by
          rintro (k | ⟨k, i⟩)
          · rw [promised, hnone]
            rfl
          · rw [promised, hnone']
            rfl
        exact ⟨fun hslot => by simp [hpromised] at hslot, fun hslot => by simp [hpromised] at hslot⟩
      · rw [reserve_eq header', hpending]
        exact Nat.zero_le _
  | setStatus header valid terminal header' items pulls assets reserve =>
    exact ⟨m, .idle, .opened ((h.of_header header).setStatus valid header' items pulls assets reserve)⟩
  | restock header restocked derived vacant given header' items pulls assets reserve =>
    exact ⟨_, .restock _, .opened ((h.of_header header).restock restocked derived vacant given header'
      items pulls assets reserve)⟩
  | reclaim header settled loaded weights stock header' items pulls assets reserve =>
    have hopen := h.of_header header
    exact ⟨_, .withdraw _ (hopen.queue_eq_nil settled), .opened (hopen.reclaim settled loaded weights
      stock header' items pulls assets reserve)⟩
  | buy header vacant valid pending place version deadline draws next remaining stock header' items pulls
      assets reserve =>
    have hopen := h.of_header header
    exact ⟨_, hopen.reserve_step version draws remaining stock, .opened (hopen.buy vacant valid pending
      place version draws next remaining stock header' items pulls assets reserve)⟩
  | refund header loaded pending head expired draws next header' items pulls assets paid =>
    have hopen := h.of_header header
    obtain ⟨rest, hqueue⟩ := hopen.queued.head loaded pending head
    exact ⟨_, .cancel _ rest hqueue, .opened (hopen.refund loaded head hqueue draws next header' items
      pulls assets paid)⟩
  | settle header loaded pending head inTime draws next item nodup count selected weights stock header'
      items pulls assets vault =>
    have hopen := h.of_header header
    obtain ⟨rest, hqueue⟩ := hopen.queued.head loaded pending head
    exact ⟨_, hopen.award_step hqueue count selected, .opened (hopen.settle loaded head hqueue draws next
      item nodup count selected weights stock header' items pulls assets vault)⟩
  | deliver header loaded settled inCount recorded undelivered closes header' items pulls assets
      reserve =>
    exact ⟨m, .idle, .opened ((h.of_header header).deliver loaded settled inCount recorded undelivered
      header' items pulls assets reserve)⟩

end Banner

end SolanaGacha
