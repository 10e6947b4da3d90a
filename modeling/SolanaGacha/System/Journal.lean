import SolanaGacha.Ledger.Events
import SolanaGacha.System.Isolation

/-!
# The events rebuild the books

Somebody who sees the events and nothing else can write down a book for every pool (`Book.replay`): its
counters, its stock and its purchases. `Book.Records` says that a book agrees with what the chain stores. Every
instruction keeps the two in step (`Call.Effect.recorded`), so the log of a run rebuilds the books of all
pools (`World.Genesis.journal`). What the log leaves out is what no event carries: the tiers of assets that
were bought back, the terms of the pool, and balances.
-/

namespace SolanaGacha

open Except Layout Inventory

/-! ## Books -/

/-- The status and the counters of a pool. -/
structure Summary where
  status : UInt8
  version : ℕ
  issued : ℕ
  served : ℕ
  pending : ℕ
  deriving DecidableEq

/-- What is known of a purchase. -/
structure Receipt where
  buyer : Pubkey
  index : UInt64
  count : UInt8
  /-- The outcomes once the purchase is settled; a delivered one is marked. -/
  outcomes : Option (List Outcome)
  deriving DecidableEq

/-- Mark an outcome; the last one closes the purchase. -/
def Receipt.deliver (r : Receipt) (i : ℕ) : Option Receipt :=
  let outcomes := (r.outcomes.getD []).modify i fun outcome => { outcome with tier := delivered }
  if outcomes.all fun outcome => outcome.tier = delivered then none
  else some { r with outcomes := some outcomes }

/-- What the events of a pool tell. -/
structure Book where
  summary : Option Summary := none
  /-- The available positions with their assets. -/
  stock : List (ℕ × Pubkey) := []
  pulls : Pubkey → Option Receipt := fun _ => none

namespace Book

/-- A position is appended. -/
def restock (B : Book) (asset : Pubkey) (position : UInt32) : Book :=
  { B with
    summary := B.summary.map fun s => { s with version := position.toNat + 1 }
    stock := B.stock ++ [(position.toNat, asset)] }

/-- A purchase leaves the queue. -/
def resolve (B : Book) (pull : Pubkey) (left : Option Receipt) : Book :=
  let draws := ((B.pulls pull).map fun r => r.count.toNat).getD 0
  { B with
    summary := B.summary.map fun s => { s with served := s.served + 1, pending := s.pending - draws }
    pulls := Function.update B.pulls pull left }

/-- What one event says about the pool at `P`. -/
def apply (P : Pubkey) (B : Book) : EmittedEvent → Book
  | .createPool pool => if pool = P then { B with summary := some ⟨poolPaused, 0, 0, 0, 0⟩ } else B
  | .depositItem pool asset _ position => if pool = P then B.restock asset position else B
  | .withdraw _ _ => B
  | .setStatus pool status =>
    if pool = P then { B with summary := B.summary.map fun s => { s with status } } else B
  | .reclaim pool _ position =>
    if pool = P then { B with stock := B.stock.filter fun x => x.1 ≠ position.toNat } else B
  | .buy pool pull buyer index count =>
    if pool = P then
      { B with
        summary := B.summary.map fun s =>
          { s with issued := index.toNat + 1, pending := s.pending + count.toNat }
        pulls := Function.update B.pulls pull (some ⟨buyer, index, count, none⟩) }
    else B
  | .refund pool pull _ => if pool = P then B.resolve pull none else B
  | .buyback pool asset _ _ position => if pool = P then B.restock asset position else B
  | .settle pool pull _ _ _ outcomes =>
    if pool = P then
      { B.resolve pull ((B.pulls pull).map fun r => { r with outcomes := some outcomes }) with
        stock := B.stock.filter fun x => x.2 ∉ outcomes.map Outcome.asset }
    else B
  -- The event names its pull only, which is in the book of one pool.
  | .deliver pull _ outcome =>
    { B with
      pulls := Function.update B.pulls pull ((B.pulls pull).bind fun r => r.deliver outcome.toNat) }

/-- The book of the pool at `P` after some events. -/
def replay (P : Pubkey) (es : List EmittedEvent) : Book := es.foldl (apply P) {}

theorem replay_snoc (P : Pubkey) (es : List EmittedEvent) (e : EmittedEvent) :
    replay P (es ++ [e]) = (replay P es).apply P e := by
  unfold replay
  rw [List.foldl_append, List.foldl_cons, List.foldl_nil]

end Book

/-! ## Agreement -/

/-- The status and the counters that a header stores. -/
def Pool.summary (pool : Pool) : Summary :=
  ⟨pool.status, pool.inventoryVersion.toNat, pool.nextIndex.toNat, pool.nextSettle.toNat,
    pool.pendingDraws.toNat⟩

/-- The purchase that a Pull stores. -/
def Pull.receipt (pull : Pull) : Receipt :=
  ⟨pull.buyer, pull.index, pull.count,
    if pull.status = statusPending then none else some (pull.outcomes.toList.take pull.count.toNat)⟩

/-- A book agrees with a banner. -/
structure Book.Records (B : Book) (S : Banner) : Prop where
  summary : B.summary = S.pool.map fun x => x.1.summary
  stock : ∀ {p asset}, (p, asset) ∈ B.stock ↔
    ∃ k item, S.items k = some item ∧ item.position.toNat = p ∧ item.asset = asset
  pulls : ∀ k, B.pulls k = (S.pulls k).map Pull.receipt

/-! ## Receipts -/

/-- Marking an outcome among the first ones. -/
theorem Pull.marked_take {pull : Pull} {i : ℕ} {outcome : Outcome} (h : pull.outcomes[i]? = some outcome)
    (n : ℕ) : (pull.marked i outcome).outcomes.toList.take n =
      (pull.outcomes.toList.take n).modify i fun outcome => { outcome with tier := delivered } := by
  apply List.ext_getElem?
  intro j
  unfold Pull.marked
  rw [List.getElem?_modify, List.getElem?_take, List.getElem?_take, Vector.getElem?_toList,
    Vector.getElem?_toList]
  by_cases hj : j < n
  · rw [if_pos hj, if_pos hj]
    rcases eq_or_ne i j with rfl | hne
    · have hi : i < 10 := (Vector.getElem?_eq_some_iff.mp h).1
      rw [Vector.getElem?_setIfInBounds_self_of_lt hi, h]
      simp
    · rw [Vector.getElem?_setIfInBounds_ne hne]
      simp [hne]
  · rw [if_neg hj, if_neg hj]
    rfl

/-- A delivery marks the outcome in the receipt, and closes the purchase with the last one. -/
theorem Pull.receipt_deliver {pull : Pull} {i : ℕ} {outcome : Outcome} {all : Bool}
    (settled : pull.status = statusSettled) (recorded : pull.outcomes[i]? = some outcome)
    (closes : (pull.marked i outcome).allDelivered = .ok all) :
    pull.receipt.deliver i = (if all then none else some (pull.marked i outcome)).map Pull.receipt := by
  have hsettled : ¬pull.status = statusPending := by
    rw [settled]
    decide
  unfold Pull.allDelivered at closes
  obtain ⟨-, -, hall⟩ := bind_eq_ok.mp closes
  have hall := pure_eq_ok.mp hall
  rw [show (pull.marked i outcome).count = pull.count from rfl, marked_take recorded] at hall
  unfold Receipt.deliver
  have hold : pull.receipt = ⟨pull.buyer, pull.index, pull.count,
      some (pull.outcomes.toList.take pull.count.toNat)⟩ := by
    unfold Pull.receipt
    rw [if_neg hsettled]
  have hnew : (pull.marked i outcome).receipt = ⟨pull.buyer, pull.index, pull.count,
      some ((pull.outcomes.toList.take pull.count.toNat).modify i fun outcome =>
        { outcome with tier := delivered })⟩ := by
    unfold Pull.receipt
    rw [if_neg (show ¬(pull.marked i outcome).status = statusPending from hsettled),
      show (pull.marked i outcome).count = pull.count from rfl, marked_take recorded]
    rfl
  rw [hold]
  simp only [Option.getD_some]
  rw [hall]
  cases all with
  | true => rfl
  | false =>
    simp only [Bool.false_eq_true, if_false, Option.map_some, hnew]

/-! ## Steps of a book -/

namespace Book.Records

variable {rt : Runtime} {B : Book} {S S' : Banner} (h : B.Records S)

include h

theorem congr (hbooks : S.SameBooks S') : B.Records S' where
  summary := by rw [hbooks.pool, h.summary]
  stock := by rw [hbooks.items]; exact h.stock
  pulls := by rw [hbooks.pulls]; exact h.pulls

theorem restock {key Q asset : Pubkey} {tier bump : UInt8} {pool pool' : Pool} {index index' : List UInt8}
    (header : S.pool = some (pool, index)) (restocked : Restocked pool index tier pool' index')
    (vacant : S.items key = none) (header' : S'.pool = some (pool', index'))
    (items : S'.items = Function.update S.items key
      (some (Item.fresh bump tier pool.inventoryVersion Q asset))) (pulls : S'.pulls = S.pulls) :
    (B.restock asset pool.inventoryVersion).Records S' where
  summary := by
    obtain ⟨tiers, rfl, -⟩ := restocked.header
    have hversion : (pool.inventoryVersion + 1).toNat = pool.inventoryVersion.toNat + 1 := by
      rw [UInt32.toNat_add]
      exact Nat.mod_eq_of_lt restocked.small
    unfold Book.restock Pool.summary
    rw [h.summary, header, header']
    simp only [Option.map_some, hversion]
    rfl
  stock {p asset'} := by
    unfold Book.restock
    rw [List.mem_append, List.mem_singleton, h.stock, items]
    constructor
    · rintro (⟨k, item, hk, hp, hasset⟩ | hnew)
      · have hne : k ≠ key := by
          rintro rfl
          rw [vacant] at hk
          cases hk
        exact ⟨k, item, by rw [Function.update_of_ne hne, hk], hp, hasset⟩
      · obtain ⟨rfl, rfl⟩ := Prod.mk.inj hnew
        exact ⟨key, _, Function.update_self _ _ _, rfl, rfl⟩
    · rintro ⟨k, item, hk, rfl, rfl⟩
      rw [Function.update_apply] at hk
      split_ifs at hk with hkey
      · obtain rfl := Option.some.inj hk
        exact .inr rfl
      · exact .inl ⟨k, item, hk, rfl, rfl⟩
  pulls k := by rw [pulls]; exact h.pulls k

/-- A position that is taken was the only one of its number. -/
theorem reclaim {P key : Pubkey} {item : Item} {tags : List UInt8} {pool : Pool} {tiers : Vector Tier 8}
    {index index' : List UInt8} (shelved : Shelved rt P S.items tags) (loaded : S.items key = some item)
    (header : S.pool = some (pool, index)) (header' : S'.pool = some ({ pool with tiers }, index'))
    (items : S'.items = Function.update S.items key none) (pulls : S'.pulls = S.pulls) :
    Records { B with stock := B.stock.filter fun x => x.1 ≠ item.position.toNat } S' where
  summary := by
    show B.summary = _
    rw [h.summary, header, header']
    rfl
  stock {p asset} := by
    simp only [List.mem_filter, h.stock, items, ne_eq, decide_not, Bool.not_eq_true', decide_eq_false_iff_not]
    constructor
    · rintro ⟨⟨k, item', hk, rfl, rfl⟩, hne⟩
      have hkey : k ≠ key := by
        rintro rfl
        rw [loaded] at hk
        exact hne (by rw [Option.some.inj hk])
      exact ⟨k, item', by rw [Function.update_of_ne hkey, hk], rfl, rfl⟩
    · rintro ⟨k, item', hk, rfl, rfl⟩
      rw [Function.update_apply] at hk
      split_ifs at hk with hkey
      refine ⟨⟨k, item', hk, rfl, rfl⟩, fun heq => hkey ?_⟩
      exact shelved.unique hk loaded (UInt32.toNat_inj.mp heq)
  pulls k := by rw [pulls]; exact h.pulls k

/-- A purchase leaves the queue; its Pull is closed or rewritten. -/
theorem resolve {key : Pubkey} {pull : Pull} {left : Option Pull} {pool : Pool} {tiers : Vector Tier 8}
    {pendingDraws nextSettle : UInt64} {index index' : List UInt8} (loaded : S.pulls key = some pull)
    (head : pull.index = pool.nextSettle)
    (draws : pool.pendingDraws.toNat = pull.count.toNat + pendingDraws.toNat)
    (next : pull.index.toNat + 1 = nextSettle.toNat) (header : S.pool = some (pool, index))
    (header' : S'.pool = some ({ pool with tiers, pendingDraws, nextSettle }, index'))
    (pulls : S'.pulls = Function.update S.pulls key left) :
    (B.resolve key (left.map Pull.receipt)).summary = S'.pool.map (fun x => x.1.summary) ∧
      ∀ k, (B.resolve key (left.map Pull.receipt)).pulls k = (S'.pulls k).map Pull.receipt := by
  have hpull : B.pulls key = some pull.receipt := by rw [h.pulls, loaded]; rfl
  unfold Book.resolve
  constructor
  · rw [h.summary, header, header', hpull]
    simp only [Option.map_some, Option.getD_some, Pool.summary, Option.some.injEq, Summary.mk.injEq, true_and]
    have hcount : pull.receipt.count = pull.count := rfl
    rw [head] at next
    rw [hcount]
    omega
  · intro k
    simp only [pulls, Function.update_apply]
    split_ifs
    · rfl
    · exact h.pulls k

theorem buy {key : Pubkey} {pull : Pull} {pool : Pool} {index : List UInt8}
    {pendingDraws nextIndex : UInt64} (pending : pull.status = statusPending)
    (place : pull.index = pool.nextIndex)
    (draws : pool.pendingDraws.toNat + pull.count.toNat = pendingDraws.toNat)
    (next : pool.nextIndex.toNat + 1 = nextIndex.toNat) (header : S.pool = some (pool, index))
    (header' : S'.pool = some ({ pool with pendingDraws, nextIndex }, index)) (items : S'.items = S.items)
    (pulls : S'.pulls = Function.update S.pulls key (some pull)) :
    Records
      { B with
        summary := B.summary.map fun s =>
          { s with issued := pull.index.toNat + 1, pending := s.pending + pull.count.toNat }
        pulls := Function.update B.pulls key (some ⟨pull.buyer, pull.index, pull.count, none⟩) } S' where
  summary := by
    rw [h.summary, header, header', place]
    simp only [Option.map_some, Pool.summary, next, draws]
  stock := by rw [items]; exact h.stock
  pulls k := by
    simp only [pulls, Function.update_apply]
    split_ifs
    · unfold Pull.receipt
      rw [Option.map_some, if_pos pending]
    · exact h.pulls k

theorem refund {key : Pubkey} {pull : Pull} {pool : Pool} {pendingDraws nextSettle : UInt64}
    {index : List UInt8} (loaded : S.pulls key = some pull) (head : pull.index = pool.nextSettle)
    (draws : pool.pendingDraws.toNat = pull.count.toNat + pendingDraws.toNat)
    (next : pull.index.toNat + 1 = nextSettle.toNat) (header : S.pool = some (pool, index))
    (header' : S'.pool = some ({ pool with pendingDraws, nextSettle }, index)) (items : S'.items = S.items)
    (pulls : S'.pulls = Function.update S.pulls key none) : (B.resolve key none).Records S' := by
  have hheader : S'.pool = some ({ pool with tiers := pool.tiers, pendingDraws, nextSettle }, index) := header'
  have hclosed : S'.pulls = Function.update S.pulls key (none : Option Pull) := pulls
  obtain ⟨hsummary, hpulls⟩ := h.resolve loaded head draws next header hheader hclosed
  refine ⟨hsummary, ?_, hpulls⟩
  rw [items]
  exact h.stock

/-- The Items of a settlement are those whose assets the outcomes name. -/
theorem settle {key : Pubkey} {pull : Pull} {pool : Pool} {tiers : Vector Tier 8} {awards : List Award}
    {pendingDraws nextSettle : UInt64} {index index' : List UInt8} (held : S.Held)
    (loaded : S.pulls key = some pull) (head : pull.index = pool.nextSettle)
    (draws : pool.pendingDraws.toNat = pull.count.toNat + pendingDraws.toNat)
    (next : pull.index.toNat + 1 = nextSettle.toNat)
    (drawn : ∀ award ∈ awards, S.items award.account = some award.item)
    (count : awards.length = pull.count.toNat) (small : awards.length ≤ 10)
    (header : S.pool = some (pool, index))
    (header' : S'.pool = some ({ pool with tiers, pendingDraws, nextSettle }, index'))
    (items : S'.items = fun k => if k ∈ awards.map Award.account then none else S.items k)
    (pulls : S'.pulls = Function.update S.pulls key (some { pull with
      status := statusSettled, outcomes := recordAwards pull.outcomes 0 awards })) :
    let outcomes := (recordAwards pull.outcomes 0 awards).toList.take awards.length
    Records { B.resolve key ((B.pulls key).map fun r => { r with outcomes := some outcomes }) with
      stock := B.stock.filter fun x => x.2 ∉ outcomes.map Outcome.asset } S' := by
  intro outcomes
  have hleft : (B.pulls key).map (fun r => { r with outcomes := some outcomes }) =
      (some { pull with status := statusSettled, outcomes := recordAwards pull.outcomes 0 awards }).map
        Pull.receipt := by
    rw [h.pulls, loaded]
    simp only [Option.map_some, Option.some.injEq, Pull.receipt]
    rw [if_neg (by decide : statusSettled ≠ statusPending), ← count]
  obtain ⟨hsummary, hpulls⟩ := h.resolve loaded head draws next header header' pulls
  rw [← hleft] at hsummary hpulls
  refine ⟨hsummary, fun {p asset} => ?_, hpulls⟩
  have hassets : outcomes.map Outcome.asset = awards.map fun award => award.item.asset := by
    show List.map Outcome.asset ((recordAwards pull.outcomes 0 awards).toList.take awards.length) = _
    rw [recordAwards_take _ _ small, List.map_map]
    rfl
  simp only [List.mem_filter, h.stock, items, hassets, decide_not, Bool.not_eq_true', decide_eq_false_iff_not]
  -- An Item is closed if its asset is awarded, since no asset is promised twice.
  have hclosed : ∀ {k item}, S.items k = some item →
      (item.asset ∈ awards.map (fun award => award.item.asset) ↔ k ∈ awards.map Award.account) := by
    intro k item hk
    constructor
    · intro hmem
      obtain ⟨award, haward, heq⟩ := List.mem_map.mp hmem
      have hfirst : S.promised (.item k) = some item.asset := congrArg (Option.map Item.asset) hk
      have hsecond : S.promised (.item award.account) = some item.asset :=
        (congrArg (Option.map Item.asset) (drawn award haward)).trans (congrArg some heq)
      rw [Slot.item.inj (held.unique hfirst hsecond)]
      exact List.mem_map_of_mem haward
    · intro hmem
      obtain ⟨award, haward, rfl⟩ := List.mem_map.mp hmem
      rw [drawn award haward] at hk
      rw [← Option.some.inj hk]
      exact List.mem_map_of_mem (f := fun award : Award => award.item.asset) haward
  constructor
  · rintro ⟨⟨k, item, hk, rfl, rfl⟩, hkept⟩
    exact ⟨k, item, by rw [if_neg fun hmem => hkept ((hclosed hk).mpr hmem), hk], rfl, rfl⟩
  · rintro ⟨k, item, hk, rfl, rfl⟩
    split_ifs at hk with hmem
    exact ⟨⟨k, item, hk, rfl, rfl⟩, fun hawarded => hmem ((hclosed hk).mp hawarded)⟩

theorem deliver {key : Pubkey} {pull : Pull} {i : ℕ} {outcome : Outcome} {all : Bool}
    (loaded : S.pulls key = some pull) (settled : pull.status = statusSettled)
    (recorded : pull.outcomes[i]? = some outcome)
    (closes : (pull.marked i outcome).allDelivered = .ok all) (header' : S'.pool = S.pool)
    (items : S'.items = S.items) (pulls : S'.pulls = Function.update S.pulls key
      (if all then none else some (pull.marked i outcome))) :
    Records { B with
      pulls := Function.update B.pulls key ((B.pulls key).bind fun r => r.deliver i) } S' where
  summary := by rw [header']; exact h.summary
  stock := by rw [items]; exact h.stock
  pulls k := by
    simp only [pulls, Function.update_apply]
    split_ifs with hk hall
    · rw [h.pulls, loaded, Option.map_some, Option.bind_some, Pull.receipt_deliver settled recorded closes,
        if_pos hall]
    · rw [h.pulls, loaded, Option.map_some, Option.bind_some, Pull.receipt_deliver settled recorded closes,
        if_neg hall]
    · exact h.pulls k

end Book.Records

/-! ## Calls -/

section Calls

variable {rt : Runtime} {slot : UInt64} {time : Int64} {L M L' : Ledger} {P : Pubkey} {B : Book}
  {m : Market UInt8 Ticket} {call : Call} {e : EmittedEvent}

/-- A new pool has no stock and no purchases. -/
theorem Pool.summary_fresh (bump : UInt8) (authority operator paymentMint vault : Pubkey)
    (id price deadlineSlots bondPerDraw : UInt64) (weights : List UInt32) :
    (Pool.fresh bump authority operator paymentMint vault id price deadlineSlots bondPerDraw
      weights).summary = ⟨poolPaused, 0, 0, 0, 0⟩ := by
  obtain ⟨hversion, hpending, hnext, hsettle⟩ := Pool.zero_counters
  unfold Pool.summary Pool.fresh Pool.setInner
  simp only [hversion, hpending, hnext, hsettle]
  rfl

/-- What a restock adds to the Items. -/
theorem Restocks.items {itemKey assetKey giver : Pubkey} {tier bump : UInt8} {pool : Pool}
    {index : List UInt8} (h : Restocks rt L P itemKey assetKey giver tier bump pool index M) :
    (M.banner P).items = Function.update (L.banner P).items itemKey
      (some (Item.fresh bump tier pool.inventoryVersion P assetKey)) := by
  obtain ⟨pool', index', asset, -, hasset, -, rfl⟩ := h.ledger
  rw [Ledger.banner_update_items, show (Entry.item (Item.fresh bump tier pool.inventoryVersion P
    assetKey)).item? P = some _ from Entry.item?_eq_some.mpr ⟨rfl, rfl⟩]
  congr 1
  exact funext (Ledger.read_update₂ (Entry.item? P) (by rw [hasset]; rfl) (by rw [h.loaded]; rfl))

/-- A restock in a book. -/
theorem Restocks.recorded {itemKey assetKey giver : Pubkey} {tier bump : UInt8} {pool : Pool}
    {index : List UInt8} (h : Restocks rt L P itemKey assetKey giver tier bump pool index M)
    (hbooks : (M.banner P).SameBooks (L'.banner P)) (hB : B.Records (L.banner P)) :
    (B.restock assetKey pool.inventoryVersion).Records (L'.banner P) := by
  have hitems := h.items
  obtain ⟨pool', index', asset, hrestocked, -, -, hQ, -⟩ := h.entries
  refine hB.restock (Ledger.banner_pool.mpr h.loaded) hrestocked ?_
    (hbooks.pool.trans (Ledger.banner_pool.mpr hQ)) (hbooks.items.trans hitems) (hbooks.pulls.trans ?_)
  · show (L itemKey).item? P = none
    rw [h.vacant]
    rfl
  · exact funext fun k => h.read (Entry.pull? P) (fun _ _ => rfl) rfl (fun _ => rfl) k

/-- The book of a pool says nothing of calls on other pools. -/
theorem Book.apply_of_ne (heffect : call.Effect rt slot time L L') (hemits : call.Emits rt L L' e)
    (hB : B.Records (L.banner P)) (hP : call.pool ≠ some P) : B.apply P e = B := by
  have hne : ∀ {Q : Pubkey}, call.pool = some Q → Q ≠ P := by
    rintro Q hQ rfl
    exact hP hQ
  cases call with
  | createPool a d =>
    obtain rfl := hemits
    exact if_neg (hne rfl)
  | depositItem a d =>
    obtain ⟨pool, index, -, rfl⟩ := hemits
    exact if_neg (hne rfl)
  | withdraw a d =>
    obtain rfl := hemits
    rfl
  | setStatus a d =>
    obtain rfl := hemits
    exact if_neg (hne rfl)
  | reclaim a =>
    obtain ⟨item, -, rfl⟩ := hemits
    exact if_neg (hne rfl)
  | buy a d =>
    obtain ⟨pool, index, -, rfl⟩ := hemits
    exact if_neg (hne rfl)
  | refund a =>
    obtain ⟨pool, index, pull, amount, -, -, -, rfl⟩ := hemits
    exact if_neg (hne rfl)
  | buyback a d =>
    obtain ⟨pool, index, -, rfl⟩ := hemits
    exact if_neg (hne rfl)
  | settle a d =>
    obtain ⟨pool, index, pull, pull', beta, -, -, -, -, rfl⟩ := hemits
    exact if_neg (hne rfl)
  | deliver a d =>
    obtain rfl := hemits
    obtain ⟨pool, index, pull, outcome, heffect⟩ := heffect
    -- The pull is one of another pool, so this book does not have it.
    have hnone : B.pulls a.pull.key = none := by
      rw [hB.pulls]
      show ((L a.pull.key).pull? P).map _ = none
      rw [heffect.loadedPull, show (Entry.pull pull).pull? P = none from
        if_neg (heffect.samePool ▸ hne rfl)]
      rfl
    rw [Book.apply, hnone, Option.bind_none, Function.update_eq_self_iff.mpr hnone.symm]
  | event => cases hemits

/-- A call keeps the book of the pool that it names in step. -/
theorem Call.Effect.recorded_own (hm : (L.banner P).Represents rt P m)
    (heffect : call.Effect rt slot time L L') (hemits : call.Emits rt L L' e)
    (hB : B.Records (L.banner P)) (hP : call.pool = some P) : (B.apply P e).Records (L'.banner P) := by
  cases call with
  | createPool a d =>
    obtain rfl := Option.some.inj hP
    obtain rfl := hemits
    have hledger := CreatePool.Effect.ledger heffect
    have hvacant := CreatePool.Effect.vacant heffect
    have hread : ∀ {β : Type} (f : Entry → β), (∀ pool index, f (.pool pool index) = f .vacant) →
        ∀ k, f (L' k) = f (L k) := by
      intro β f hf k
      rw [hledger]
      exact Ledger.read_update f (by rw [hvacant, hf]) k
    rw [Book.apply, if_pos rfl]
    refine ⟨?_, ?_, fun k => ?_⟩
    · show _ = (L' a.pool.key).pool?.map _
      rw [hledger, Function.update_self]
      show _ = some (Pool.summary _)
      rw [Pool.summary_fresh]
    · rw [show (L'.banner a.pool.key).items = (L.banner a.pool.key).items from
        funext (hread (Entry.item? a.pool.key) fun _ _ => rfl)]
      exact hB.stock
    · rw [show (L'.banner a.pool.key).pulls = (L.banner a.pool.key).pulls from
        funext (hread (Entry.pull? a.pool.key) fun _ _ => rfl)]
      exact hB.pulls k
  | depositItem a d =>
    obtain rfl := Option.some.inj hP
    obtain ⟨pool, index, hpool, rfl⟩ := hemits
    obtain ⟨pool', index', heffect⟩ := heffect
    obtain ⟨rfl, rfl⟩ := Entry.pool.inj (hpool.symm.trans heffect.restocks.loaded)
    rw [Book.apply, if_pos rfl]
    exact heffect.restocks.recorded (.refl _) hB
  | withdraw a d =>
    obtain rfl := hemits
    obtain ⟨pool, index, heffect⟩ := heffect
    exact hB.congr (heffect.paid.sameBooks P)
  | setStatus a d =>
    obtain rfl := Option.some.inj hP
    obtain rfl := hemits
    obtain ⟨pool, index, heffect⟩ := heffect
    have hledger := heffect.ledger
    have hread : ∀ {β : Type} (f : Entry → β), (∀ pool' index', f (.pool pool' index') = f (.pool pool index)) →
        ∀ k, f (L' k) = f (L k) := by
      intro β f hf k
      rw [hledger]
      exact Ledger.read_update f (by rw [heffect.loaded, hf]) k
    rw [Book.apply, if_pos rfl]
    refine ⟨?_, ?_, fun k => ?_⟩
    · show Option.map _ B.summary = (L' a.pool.key).pool?.map _
      rw [hB.summary, Ledger.banner_pool.mpr heffect.loaded, hledger, Function.update_self]
      rfl
    · rw [show (L'.banner a.pool.key).items = (L.banner a.pool.key).items from
        funext (hread (Entry.item? a.pool.key) fun _ _ => rfl)]
      exact hB.stock
    · rw [show (L'.banner a.pool.key).pulls = (L.banner a.pool.key).pulls from
        funext (hread (Entry.pull? a.pool.key) fun _ _ => rfl)]
      exact hB.pulls k
  | reclaim a =>
    obtain rfl := Option.some.inj hP
    obtain ⟨item, hitem, rfl⟩ := hemits
    obtain ⟨pool, index, item', heffect⟩ := heffect
    obtain rfl := Entry.item.inj (hitem.symm.trans heffect.loadedItem)
    obtain ⟨tiers, index', asset, -, -, hasset, -, rfl⟩ := heffect.ledger
    have h1 := Ledger.ne_of_entry heffect.loaded hasset (by simp)
    have h2 := Ledger.ne_of_entry heffect.loaded heffect.loadedItem (by simp)
    have hopen := hm.of_header (Ledger.banner_pool.mpr heffect.loaded)
    have hloaded := Ledger.banner_items.mpr ⟨heffect.loadedItem, heffect.samePool⟩
    have hpool : Function.update (Function.update (Function.update L a.pool.key
        (.pool { pool with tiers } index')) a.asset.key (.asset { asset with owner := a.authority.key }))
          a.item.key .vacant a.pool.key = .pool { pool with tiers } index' := by
      rw [Function.update_of_ne h2, Function.update_of_ne h1, Function.update_self]
    rw [Book.apply, if_pos rfl]
    refine hB.reclaim hopen.shelved hloaded (Ledger.banner_pool.mpr heffect.loaded)
      (Ledger.banner_pool.mpr hpool) ?_ ?_
    · rw [Ledger.banner_update_items, show Entry.vacant.item? a.pool.key = none from rfl]
      congr 1
      exact funext (Ledger.read_update₂ (Entry.item? a.pool.key) (by rw [heffect.loaded]; rfl)
        (by rw [hasset]; rfl))
    · exact funext (Ledger.read_update₃ (Entry.pull? a.pool.key) (by rw [heffect.loaded]; rfl)
        (by rw [hasset]; rfl) (by rw [heffect.loadedItem]; rfl))
  | buy a d =>
    obtain rfl := Option.some.inj hP
    obtain ⟨pool, index, hpool, rfl⟩ := hemits
    obtain ⟨pool', index', pull, heffect⟩ := heffect
    obtain ⟨rfl, rfl⟩ := Entry.pool.inj (hpool.symm.trans heffect.loaded)
    have hpulls := heffect.pulls
    obtain ⟨pendingDraws, nextIndex, amount, reserved, token, left, hdraws, hnext, -, -, -, -, -, -, hpaid⟩ :=
      heffect.ledger
    have hbooks := hpaid.sameBooks a.pool.key
    have hcount : pull.count = d.count := congrArg Pull.count heffect.populated
    have hindex : pull.index = pool.nextIndex := congrArg Pull.index heffect.populated
    have hbuyer : pull.buyer = a.buyer.key := congrArg Pull.buyer heffect.populated
    rw [Book.apply, if_pos rfl, ← hcount, ← hindex, ← hbuyer]
    refine hB.buy (congrArg Pull.status heffect.populated) hindex (hcount ▸ hdraws) hnext
      (Ledger.banner_pool.mpr hpool) (hbooks.pool.trans (Ledger.banner_pool.mpr (Function.update_self _ _ _)))
      (hbooks.items.trans ?_) hpulls
    exact funext (Ledger.read_update₂ (Entry.item? a.pool.key) (by rw [heffect.vacant]; rfl)
      (by rw [hpool]; rfl))
  | refund a =>
    obtain rfl := Option.some.inj hP
    obtain ⟨_, _, _, _, -, -, -, rfl⟩ := hemits
    obtain ⟨pool, index, pull, heffect⟩ := heffect
    have hpulls := heffect.pulls
    obtain ⟨amount, pendingDraws, nextSettle, M, -, hdraws, hnext, hpaid, rfl⟩ := heffect.ledger
    have hbooks := hpaid.sameBooks a.pool.key
    have hne := Ledger.ne_of_entry heffect.loadedPull heffect.loaded (by simp)
    have hM : M a.pull.key = .pull pull :=
      hpaid.of_pull (by rw [Function.update_of_ne hne, heffect.loadedPull])
    have hpool : M a.pool.key = .pool { pool with pendingDraws, nextSettle } index :=
      Ledger.banner_pool.mp (hbooks.pool.trans (Ledger.banner_pool.mpr (Function.update_self _ _ _)))
    rw [Book.apply, if_pos rfl]
    refine hB.refund (Ledger.banner_pulls.mpr ⟨heffect.loadedPull, heffect.samePool⟩) heffect.head hdraws
      hnext (Ledger.banner_pool.mpr heffect.loaded) (Ledger.banner_pool.mpr ?_) ?_ hpulls
    · rw [Function.update_of_ne hne.symm, hpool]
    · have hclosed : (Ledger.banner (Function.update M a.pull.key .vacant) a.pool.key).items =
          (M.banner a.pool.key).items :=
        funext (Ledger.read_update (Entry.item? a.pool.key) (by rw [hM]; rfl))
      rw [hclosed, hbooks.items]
      exact funext (Ledger.read_update (Entry.item? a.pool.key) (by rw [heffect.loaded]; rfl))
  | buyback a d =>
    obtain rfl := Option.some.inj hP
    obtain ⟨pool, index, hpool, rfl⟩ := hemits
    obtain ⟨pool', index', heffect⟩ := heffect
    obtain ⟨M, hr, hpaid⟩ := heffect.ledger
    obtain ⟨rfl, rfl⟩ := Entry.pool.inj (hpool.symm.trans hr.loaded)
    rw [Book.apply, if_pos rfl]
    exact hr.recorded (hpaid.sameBooks _) hB
  | settle a d =>
    obtain rfl := Option.some.inj hP
    obtain ⟨_, _, _, pull', beta', -, -, hpull', -, rfl⟩ := hemits
    obtain ⟨pool, index, pull, beta, awards, heffect⟩ := heffect
    have hpulls := heffect.pulls
    have hopen := hm.of_header (Ledger.banner_pool.mpr heffect.loaded)
    have hlen : awards.length = a.items.length := by
      rw [← List.length_map (f := Award.account), heffect.accounts, List.length_map]
    obtain ⟨tiers, index', pendingDraws, nextSettle, hdraws, hnext, -, -, rfl⟩ := heffect.ledger
    have hne := Ledger.ne_of_entry heffect.loadedPull heffect.loaded (by simp)
    rw [Function.update_self] at hpull'
    obtain rfl := Entry.pull.inj hpull'
    have hother : ∀ {k e}, L k = e → (∀ item, e ≠ .item item) → k ∉ awards.map Award.account := by
      intro k e he hitem hk
      obtain ⟨award, haward, rfl⟩ := List.mem_map.mp hk
      exact hitem _ (he.symm.trans (heffect.item award haward).1)
    rw [Book.apply, if_pos rfl, ← hlen]
    refine hB.settle hopen.held (Ledger.banner_pulls.mpr ⟨heffect.loadedPull, heffect.samePool⟩)
      heffect.head hdraws hnext (fun award haward => Ledger.banner_items.mpr (heffect.item award haward))
      (hlen.trans heffect.count) heffect.small (Ledger.banner_pool.mpr heffect.loaded)
      (Ledger.banner_pool.mpr (by rw [Function.update_of_ne hne.symm, Function.update_self])) ?_ hpulls
    funext k
    have hpool : (L.vacate (awards.map Award.account)) a.pool.key = .pool pool index :=
      (if_neg (hother heffect.loaded (by simp))).trans heffect.loaded
    have hpull : (L.vacate (awards.map Award.account)) a.pull.key = .pull pull :=
      (if_neg (hother heffect.loadedPull (by simp))).trans heffect.loadedPull
    refine (Ledger.read_update₂ (Entry.item? a.pool.key) (by rw [hpool]; rfl) (by rw [hpull]; rfl) k).trans ?_
    unfold Ledger.vacate
    split_ifs <;> rfl
  | deliver a d =>
    obtain rfl := Option.some.inj hP
    obtain rfl := hemits
    obtain ⟨pool, index, pull, outcome, heffect⟩ := heffect
    obtain ⟨all, hall, hpulls⟩ := heffect.pulls
    obtain ⟨asset, all', hasset, -, hall', rfl⟩ := heffect.ledger
    have hread : ∀ {β : Type} (f : Entry → β), (∀ owner, f (.asset { asset with owner }) = f (.asset asset)) →
        f .vacant = f (.pull pull) → f (.pull (pull.marked d.outcome.toNat outcome)) = f (.pull pull) →
          ∀ k, f (Function.update (Function.update L a.asset.key (.asset { asset with owner := a.buyer.key }))
            a.pull.key (if all' then .vacant else .pull (pull.marked d.outcome.toNat outcome)) k) = f (L k) := by
      intro β f hf1 hf2 hf3
      refine Ledger.read_update₂ f (by rw [hasset, hf1]) ?_
      rw [heffect.loadedPull]
      split_ifs
      · exact hf2
      · exact hf3
    exact hB.deliver (Ledger.banner_pulls.mpr ⟨heffect.loadedPull, heffect.samePool⟩) heffect.settled
      heffect.recorded hall (hread Entry.pool? (fun _ => rfl) rfl rfl a.pool.key)
      (funext (hread (Entry.item? a.pool.key) (fun _ => rfl) rfl rfl)) hpulls
  | event => cases hP

/-- Every call keeps every book in step. -/
theorem Call.Effect.recorded (hm : (L.banner P).Represents rt P m)
    (heffect : call.Effect rt slot time L L') (hemits : call.Emits rt L L' e)
    (hB : B.Records (L.banner P)) : (B.apply P e).Records (L'.banner P) := by
  by_cases hP : call.pool = some P
  · exact heffect.recorded_own hm hemits hB hP
  · rw [Book.apply_of_ne heffect hemits hB hP]
    exact hB.congr (heffect.sameBooks hP)

end Calls

/-! ## Runs -/

namespace World

variable {rt : Runtime} {w w' : World}

/-- A step in which only the program emits. The event authority signs every event, and nobody else signs for it. -/
def Logged (rt : Runtime) (w : World) (event : Event) (w' : World) : Prop :=
  Step rt w event w' ∧ (event = .external → w'.events = w.events)

/-- Instructions that succeed are such a run. -/
theorem logged_execute {ixs : List Instruction} (hsigners : ∀ ix ∈ ixs, ix.Unforged rt)
    (h : w.execute rt ixs = .ok w') : ∃ trace, Run (Logged rt) w trace w' := by
  induction ixs generalizing w with
  | nil =>
    obtain rfl := pure_eq_ok.mp h
    exact ⟨[], .nil⟩
  | cons ix ixs ih =>
    obtain ⟨w₁, hfirst, hrest⟩ := bind_eq_ok.mp h
    obtain ⟨call, -, hstep⟩ := step_of_process (hsigners ix List.mem_cons_self) hfirst
    obtain ⟨trace, hrun⟩ := ih (fun ix' hix => hsigners ix' (List.mem_cons_of_mem _ hix)) hrest
    exact ⟨_, (Run.single (show Logged rt w _ w₁ from ⟨hstep, by simp⟩)).append hrun⟩

/-- The log and the books of a state. -/
structure Journaled (rt : Runtime) (w : World) : Prop where
  sound : w.Sound rt
  books : ∃ es : List EmittedEvent, w.events = es.map EmittedEvent.encode ∧
    ∀ P, (Book.replay P es).Records (w.ledger.banner P)

theorem Genesis.journaled (h : w.Genesis rt) (hempty : w.events = []) : w.Journaled rt where
  sound := h.sound
  books := by
    refine ⟨[], hempty, fun P => ?_⟩
    have hnone : ∀ k, (w.ledger k).pool? = none ∧ (w.ledger k).item? P = none ∧ (w.ledger k).pull? P = none :=
      fun k => (h.foreign k).reads P
    refine ⟨?_, fun {p asset} => ?_, fun k => ?_⟩
    · show none = (w.ledger P).pool?.map _
      rw [(hnone P).1]
      rfl
    · constructor
      · intro hmem
        cases hmem
      · rintro ⟨k, item, hk, -, -⟩
        rw [show (w.ledger.banner P).items k = none from (hnone k).2.1] at hk
        cases hk
    · show none = ((w.ledger k).pull? P).map _
      rw [(hnone k).2.2]
      rfl

variable (hrt : rt.Lawful)

include hrt

/-- Every step keeps the log and the books. -/
theorem Logged.journaled {event : Event} (hstep : Logged rt w event w') (h : w.Journaled rt) :
    w'.Journaled rt := by
  obtain ⟨hsound, es, hevents, hbooks⟩ := h
  refine ⟨hstep.1.sound hrt hsound, ?_⟩
  cases event with
  | external =>
    refine ⟨es, (hstep.2 rfl).trans hevents, fun P => (hbooks P).congr ?_⟩
    cases hstep.1 with
    | external hexternal => exact Ledger.sameBooks hexternal.eq_or_foreign P
  | call c =>
    obtain ⟨-, heffect, -⟩ := hstep.1.effect hrt hsound
    cases hstep.1 with
    | call signers parse process =>
      rw [processInstruction_eq, parse, ok_bind] at process
      by_cases hc : c = .event
      · subst hc
        obtain rfl := pure_eq_ok.mp process
        exact ⟨es, hevents, hbooks⟩
      · obtain ⟨e, hemits, hlog⟩ := Call.process_emits hc heffect process
        refine ⟨es ++ [e], ?_, fun P => ?_⟩
        · rw [hlog, hevents, List.map_append]
          rfl
        · obtain ⟨m, hm⟩ := hsound.banner P
          rw [Book.replay_snoc]
          exact heffect.recorded hm hemits (hbooks P)

/-- In every run from a genesis with an empty log, the log is the encoding of one list of events, and replaying
them rebuilds the books of every pool: its status and counters, the assets that are available with their
positions, and every purchase that is not closed with its buyer, number, draws and outcomes. -/
theorem Genesis.journal (h : w.Genesis rt) (hempty : w.events = []) {trace : List (World × Event)}
    (hrun : Run (Logged rt) w trace w') : ∃ es : List EmittedEvent,
      w'.events = es.map EmittedEvent.encode ∧
      (∀ es' : List EmittedEvent, w'.events = es'.map EmittedEvent.encode → es' = es) ∧
      ∀ P, (Book.replay P es).Records (w'.ledger.banner P) := by
  obtain ⟨-, es, hevents, hbooks⟩ := hrun.preserves (P := Journaled rt)
    (fun _ _ _ hjournal hstep => hstep.journaled hrt hjournal) (h.journaled hempty)
  refine ⟨es, hevents, fun es' hevents' => ?_, hbooks⟩
  exact List.map_injective_iff.mpr EmittedEvent.encode_injective (hevents'.symm.trans hevents)

omit hrt in
/-- The log of a pool that was created, stocked and opened, and of a purchase that was settled. -/
theorem Genesis.journal_sample : ∃ trace es, Run (Logged Sample.net.runtime) Sample.start trace Sample.settled ∧
    Sample.settled.events.length = 6 ∧ Sample.settled.events = es.map EmittedEvent.encode ∧
    (∀ es' : List EmittedEvent, Sample.settled.events = es'.map EmittedEvent.encode → es' = es) ∧
    ∀ P, (Book.replay P es).Records (Sample.settled.ledger.banner P) := by
  have hlogged : ∀ (w : World) (ixs : List Instruction), Sample.succeeds w ixs = true →
      ∃ trace, Run (Logged Sample.net.runtime) w trace (Sample.after w ixs) := fun w ixs h =>
    logged_execute (Sample.unforged_of_succeeds h) (Sample.execute_after h)
  have hrun : ∃ trace, Run (Logged Sample.net.runtime) Sample.start trace Sample.settled := by
    obtain ⟨before, hbefore⟩ := hlogged Sample.start [Sample.createPool,
      Sample.depositItem Sample.item₀ Sample.asset₀ 253, Sample.depositItem Sample.item₁ Sample.asset₁ 251,
      Sample.setStatus 1] (by decide +kernel)
    obtain ⟨purchase, hpurchase⟩ := hlogged Sample.opened [Sample.buy 2] (by decide +kernel)
    obtain ⟨settlement, hsettlement⟩ := hlogged Sample.bought [Sample.settle [Sample.item₀]] (by decide +kernel)
    have hopened : Run (Logged Sample.net.runtime) Sample.start before Sample.opened := hbefore
    exact ⟨_, (hopened.append hpurchase).append hsettlement⟩
  obtain ⟨trace, hrun⟩ := hrun
  have hgenesis : Sample.start.Genesis Sample.net.runtime := Sample.net.genesis (by decide +kernel) 5 0
  have hempty : Sample.start.events = [] := by decide +kernel
  have hlength : Sample.settled.events.length = 6 := by decide +kernel
  generalize Sample.settled = w at *
  obtain ⟨es, hevents, hunique, hbooks⟩ := Genesis.journal Sample.net.runtime_lawful hgenesis hempty hrun
  exact ⟨trace, es, hrun, hlength, hevents, hunique, hbooks⟩

end World

end SolanaGacha
