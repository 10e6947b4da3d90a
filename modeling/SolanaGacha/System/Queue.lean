import SolanaGacha.Ledger.Exact
import SolanaGacha.System.Localnet

/-!
# The queue of a pool

The pending Pulls of a pool, oldest first (`Ledger.Fifo`), are numbered without gaps from `next_settle` to
`next_index` (`World.Reached.queue_exact`). Each of them is covered by the positions that were issued
before it was bought, whatever the Pulls before it draw, so a settlement finds its draws
(`World.Reached.never_oversold`).
-/

namespace SolanaGacha

open Except Layout Inventory

/-- The pending Pulls of the pool at `P` with their addresses, oldest first. -/
structure Ledger.Fifo (L : Ledger) (P : Pubkey) (queue : List (Pubkey × Pull)) : Prop where
  mem : ∀ {key pull}, (key, pull) ∈ queue ↔ L key = .pull pull ∧ pull.pool = P ∧ pull.status = statusPending
  sorted : queue.Pairwise fun first later => first.2.index < later.2.index

/-- The draws that some Pulls wait for. -/
def drawsOf (queue : List (Pubkey × Pull)) : ℕ := (queue.map fun x => x.2.count.toNat).sum

/-- The positions below a version that the index of a pool shows as live. -/
def Pool.live (pool : Pool) (index : List UInt8) (version : UInt32) : Finset ℕ :=
  Market.candidates (pool.tags index) version.toNat

/-- There is one such list. -/
theorem Ledger.Fifo.unique {L : Ledger} {P : Pubkey} {queue queue' : List (Pubkey × Pull)}
    (h : L.Fifo P queue) (h' : L.Fifo P queue') : queue = queue' := by
  have hirrefl : ∀ {q : List (Pubkey × Pull)}, L.Fifo P q → q.Nodup := fun hq =>
    hq.sorted.imp fun hlt heq => absurd (heq ▸ hlt) (UInt64.lt_irrefl _)
  refine List.Perm.eq_of_pairwise (fun x y _ _ hxy hyx => ?_) h.sorted h'.sorted ?_
  · exact absurd hyx (UInt64.not_lt.mpr (UInt64.le_of_lt hxy))
  · exact (List.perm_ext_iff_of_nodup (hirrefl h) (hirrefl h')).mpr fun x => h.mem.trans h'.mem.symm

/-! ## The queue of a sound pool -/

namespace Banner.Opened

variable {rt : Runtime} {L : Ledger} {P : Pubkey} {pool : Pool} {index : List UInt8}
  {m : Market UInt8 Ticket} (h : (L.banner P).Opened rt P pool index m)

include h

/-- The pending Pulls are the orders that wait in the market. -/
theorem fifo : ∃ queue, L.Fifo P queue ∧ queue.map (fun x => x.2.ticket x.1) = m.queue ∧
    queue.map (fun x => x.2.index.toNat) = List.range' m.served m.queue.length := by
  have hticket : ∀ ticket ∈ m.queue, ∃ pull, (L.banner P).pulls ticket.pull = some pull ∧
      pull.ticket ticket.pull = ticket := by
    intro ticket hmem
    obtain ⟨i, hi⟩ := List.mem_iff_getElem?.mp hmem
    obtain ⟨pull, hpull, -, -, heq⟩ := h.queued.ticket hi
    exact ⟨pull, hpull, heq⟩
  generalize hread : (fun ticket : Ticket =>
    (ticket.pull, ((L.banner P).pulls ticket.pull).getD Pull.zero)) = read
  have hget : ∀ {ticket pull}, (L.banner P).pulls ticket.pull = some pull →
      read ticket = (ticket.pull, pull) := by
    intro ticket pull hpull
    rw [← hread]
    simp only [hpull, Option.getD_some]
  have hindices : (m.queue.map read).map (fun x => x.2.index.toNat) =
      List.range' m.served m.queue.length := by
    refine List.ext_getElem (by simp) fun i hi hi' => ?_
    rw [List.length_range'] at hi'
    obtain ⟨pull, hpull, -, hindex, -⟩ := h.queued.ticket (List.getElem?_eq_getElem hi')
    rw [List.getElem_map, List.getElem_map, hget hpull, List.getElem_range', hindex, Nat.one_mul]
  refine ⟨m.queue.map read, ⟨fun {key pull} => ?_, ?_⟩, ?_, hindices⟩
  · rw [List.mem_map]
    constructor
    · rintro ⟨ticket, hmem, heq⟩
      obtain ⟨i, hi⟩ := List.mem_iff_getElem?.mp hmem
      obtain ⟨pull', hpull, hpending, -⟩ := h.queued.ticket hi
      rw [hget hpull] at heq
      obtain ⟨rfl, rfl⟩ := Prod.mk.inj heq
      obtain ⟨hentry, hpool⟩ := Ledger.banner_pulls.mp hpull
      exact ⟨hentry, hpool, hpending⟩
    · rintro ⟨hentry, hpool, hpending⟩
      have hpull : (L.banner P).pulls key = some pull := Ledger.banner_pulls.mpr ⟨hentry, hpool⟩
      obtain ⟨i, hi, -⟩ := h.queued.pending hpull hpending
      exact ⟨_, List.mem_of_getElem? hi, hget (show (L.banner P).pulls (pull.ticket key).pull = some pull from hpull)⟩
  · have hsorted := List.pairwise_lt_range' (s := m.served) (n := m.queue.length)
    rw [← hindices, List.pairwise_map] at hsorted
    exact hsorted.imp fun hlt => UInt64.lt_iff_toNat_lt.mpr hlt
  · rw [List.map_map, List.map_congr_left fun ticket hmem => ?_, List.map_id]
    obtain ⟨pull, hpull, heq⟩ := hticket ticket hmem
    show (read ticket).2.ticket (read ticket).1 = ticket
    rw [hget hpull, heq]

/-- The draws of the queue. -/
theorem drawsOf_eq {queue : List (Pubkey × Pull)} (hq : queue.map (fun x => x.2.ticket x.1) = m.queue) :
    drawsOf queue = Market.demand m.queue := by
  rw [← hq, Market.demand, List.map_map]
  rfl

/-- The head of the queue has as many draws as it asks for, for every output. -/
theorem head_selections {key : Pubkey} {pull : Pull} (hentry : L key = .pull pull) (hpool : pull.pool = P)
    (hpending : pull.status = statusPending) (hhead : pull.index = pool.nextSettle) (beta : FixedBytes 64) :
    ∃ draws, rt.selections pool beta ((pool.tags index).take pull.inventoryVersion.toNat) 0
      pull.count.toNat = .ok draws := by
  obtain ⟨rest, hqueue⟩ := h.queued.head (Ledger.banner_pulls.mpr ⟨hentry, hpool⟩) hpending hhead
  have hstock := h.covered.stock [] (pull.ticket key) rest hqueue
  rw [Market.card_candidates] at hstock
  refine Runtime.selections_isOk h.valid.tierCount.2 h.valid.weights ?_ (fun tag hmem => ?_) 0 ?_
  · rw [List.length_take, h.tags_eq]
    have := h.stock.indexed.small
    omega
  · rw [h.tags_eq] at hmem
    exact h.stock.tier tag (List.mem_of_mem_take hmem)
  · rw [h.tags_eq]
    exact (Nat.le_add_left _ _).trans hstock

end Banner.Opened

/-! ## The queue is exact -/

namespace World

variable {rt : Runtime} (hrt : rt.Lawful) {w : World}

include hrt in
/-- In every reachable state the pending Pulls of a pool are numbered from `next_settle` to `next_index`
without gaps, and ask for the pending draws; no other Pull of the pool has an index that waits. -/
theorem Reached.queue_exact (hw : w.Reached rt) {P : Pubkey} {pool : Pool} {index : List UInt8}
    (hpool : w.ledger P = .pool pool index) :
    pool.nextSettle ≤ pool.nextIndex ∧ ∃ queue, w.ledger.Fifo P queue ∧
      queue.map (fun x => x.2.index.toNat) =
        List.range' pool.nextSettle.toNat (pool.nextIndex.toNat - pool.nextSettle.toNat) ∧
      pool.pendingDraws.toNat = drawsOf queue ∧
      (∀ x ∈ queue, 1 ≤ x.2.count.toNat ∧ x.2.count.toNat ≤ 10) ∧
      ∀ key pull, w.ledger key = .pull pull → pull.pool = P → pull.status ≠ statusPending →
        pull.status = statusSettled ∧ pull.index < pool.nextSettle := by
  obtain ⟨m, hm⟩ := (hw.sound hrt).opened hpool
  obtain ⟨queue, hfifo, htickets, hindices⟩ := hm.fifo
  have hserved := hm.queued.served
  have hnext := hm.queued.next
  refine ⟨UInt64.le_iff_toNat_le.mpr (by omega), queue, hfifo, ?_, ?_, fun x hx => ?_,
    fun key pull hentry hP hstatus => ?_⟩
  · rw [hindices, hserved, show m.queue.length = pool.nextIndex.toNat - pool.nextSettle.toNat by omega]
  · rw [hm.queued.draws, hm.drawsOf_eq htickets]
  · obtain ⟨hentry, hP, -⟩ := hfifo.mem.mp (show (x.1, x.2) ∈ queue from hx)
    exact (hm.pull (Ledger.banner_pulls.mpr ⟨hentry, hP⟩)).count
  · have hpull := Ledger.banner_pulls.mpr ⟨hentry, hP⟩
    have hle := UInt8.le_iff_toNat_le.mp (hm.pull hpull).status
    have hlt := hm.queued.settled hpull hstatus
    have hpos : pull.status.toNat ≠ 0 := fun hzero => hstatus (UInt8.toNat_inj.mp hzero)
    exact ⟨UInt8.toNat_inj.mp (le_antisymm hle (Nat.pos_of_ne_zero hpos)),
      UInt64.lt_iff_toNat_lt.mpr (by omega)⟩

theorem Reached.queue_exact_sample : ∃ pool index,
    Sample.bought.ledger Sample.pool = .pool pool index ∧ pool.pendingDraws = 1 ∧
    pool.nextSettle ≤ pool.nextIndex ∧ ∃ queue, Sample.bought.ledger.Fifo Sample.pool queue ∧
      queue.map (fun x => x.2.index.toNat) =
        List.range' pool.nextSettle.toNat (pool.nextIndex.toNat - pool.nextSettle.toNat) ∧
      pool.pendingDraws.toNat = drawsOf queue ∧
      (∀ x ∈ queue, 1 ≤ x.2.count.toNat ∧ x.2.count.toNat ≤ 10) ∧
      ∀ key pull, Sample.bought.ledger key = .pull pull → pull.pool = Sample.pool →
        pull.status ≠ statusPending → pull.status = statusSettled ∧ pull.index < pool.nextSettle := by
  obtain ⟨pool, index, hpool, hpending⟩ := Sample.bought_pool
  exact ⟨pool, index, hpool, hpending,
    Reached.queue_exact Sample.net.runtime_lawful Sample.bought_reached hpool⟩

/-! ## Nothing is oversold -/

/-- A settlement whose accounts pass their checks, in a sound state: its Pull is the head of the queue. -/
structure Settling (rt : Runtime) (w : World) (a : SettleAccounts) (pool : Pool) (index : List UInt8)
    (pull : Pull) (m : Market UInt8 Ticket) : Prop where
  loaded : w.ledger a.pool.key = .pool pool index
  loadedPull : w.ledger a.pull.key = .pull pull
  samePool : pull.pool = a.pool.key
  pending : pull.status = statusPending
  head : pull.index = pool.nextSettle
  count : a.items.length = pull.count.toNat
  opened : (w.ledger.banner a.pool.key).Opened rt a.pool.key pool index m

theorem Sound.settling (h : w.Sound rt) {infos : List AccountInfo} {a : SettleAccounts}
    (ha : SettleAccounts.tryFrom w infos = .ok a) : ∃ pool index pull m, w.Settling rt a pool index pull m := by
  obtain ⟨pool, pull, hload, hpull, -, hsame, hstatus, hhead, -, hcount⟩ := SettleAccounts.of_tryFrom ha
  obtain ⟨m, hm⟩ := h.opened (World.pool_load hload)
  exact ⟨pool, _, pull, m, World.pool_load hload, World.pull_load hpull, hsame, hstatus, hhead, hcount, hm⟩

/-- A settlement fails for its proof, its Item accounts or its event accounts only. -/
theorem Settling.process_avoids {a : SettleAccounts} {pool : Pool} {index : List UInt8} {pull : Pull}
    {m : Market UInt8 Ticket} (h : w.Settling rt a pool index pull m) (d : SettleInstructionData) {e : Fault}
    (he : e.Internal) : (Settle.process rt w a d).Avoids e := by
  have hpull := Ledger.banner_pulls.mpr ⟨h.loadedPull, h.samePool⟩
  have hten : pull.count.toNat ≤ 10 := (h.opened.pull hpull).count.2
  obtain ⟨rest, hqueue⟩ := h.opened.queued.head hpull h.pending h.head
  have hissued := h.opened.covered.issued _ (hqueue ▸ List.mem_cons_self)
  have hdraws := h.opened.queued.draws
  rw [hqueue, Market.demand_cons] at hdraws
  have hnext := h.opened.queued.index_lt hpull
  have hsmall := pool.nextIndex.toNat_lt
  refine .bind (load_avoids he _ _ _ _ _) fun pool' hload => ?_
  obtain rfl := World.pool_load_of_entry h.loaded hload
  refine .bind (.bind (load_avoids he _ _ _ _ _) fun _ _ => avoids_ok _) fun inventory hinventory => ?_
  obtain rfl := World.inventory_load h.loaded hinventory
  refine .bind (load_avoids he _ _ _ _ _) fun pull' hload' => ?_
  obtain rfl := Entry.pull.inj (h.loadedPull.symm.trans (World.pull_load hload'))
  refine .bind (avoids_okOr fun _ => he.ne (by decide)) fun beta hbeta => ?_
  have hstock := h.opened.stock
  rw [← h.opened.tags_eq] at hstock hissued
  refine .bind ?_ fun s hdraw => ?_
  · -- The counts of the prefix are read, and then the loop draws.
    obtain ⟨v, hv, htally⟩ := counts_eq_ok hstock.indexed hissued
    obtain ⟨draws, hdraws⟩ := h.opened.head_selections h.loadedPull h.samePool h.pending h.head beta
    rw [Runtime.draw, show Inventory.counts ⟨index⟩ pull.inventoryVersion = .ok v from hv, ok_bind]
    rw [← h.count] at hdraws
    refine Runtime.drawLoop_avoids hstock (eq_tally ?_ htally) ?_ hdraws he
    · rw [List.length_take]
      have := hstock.indexed.small
      omega
    · rw [Nat.zero_add, h.count]
      exact hten
  · -- What the loop leaves in the counters is what it found there.
    obtain ⟨awards, -, drew⟩ := Runtime.draw_ok hstock hissued hdraw
    obtain ⟨tiers, htiers, -⟩ := drew.header
    have houtcomes := drew.outcomes
    simp only at htiers houtcomes
    rw [htiers, houtcomes, h.count]
    refine .bind (avoids_okOr fun hnone => ?_) fun pendingDraws _ => ?_
    · rw [UInt64.checkedSub, if_pos] at hnone
      · cases hnone
      · rw [UInt64.toNat_ofNat_of_lt' (by show _ < 2 ^ 64; omega)]
        show pull.count.toNat ≤ pool'.pendingDraws.toNat
        rw [hdraws]
        exact Nat.le_add_right _ _
    refine .bind (avoids_okOr fun hnone => ?_) fun nextSettle _ => ?_
    · rw [UInt64.checkedAdd, if_pos] at hnone
      · cases hnone
      · show pull.index.toNat + 1 < 2 ^ 64
        omega
    refine .bind ?_ fun outcomes houtcomes => Runtime.emit_avoids he _ _ _ _ _ ?_
    · rw [Pull.outcomeBytes, failIf_neg (by rw [maxCount]; omega)]
      exact avoids_ok _
    · have hlen := Pull.length_outcomeBytes houtcomes
      simp only [List.map_cons, List.map_nil, List.sum_cons, List.sum_nil, FixedBytes.length_val]
      omega

/-- In every reachable state, whatever happened before: the versions of the queue ascend, the live
positions below the version of each Pull cover its draws and those of all Pulls before it, and no draw of
the head of the queue is sold out. -/
theorem Reached.never_oversold (hrt : rt.Lawful) (hw : w.Reached rt) {P : Pubkey} {pool : Pool}
    {index : List UInt8} (hpool : w.ledger P = .pool pool index) :
    ∃ queue, w.ledger.Fifo P queue ∧
      (queue.Pairwise fun first later => first.2.inventoryVersion ≤ later.2.inventoryVersion) ∧
      (∀ x ∈ queue, x.2.inventoryVersion ≤ pool.inventoryVersion) ∧
      (∀ front x back, queue = front ++ x :: back →
        drawsOf (front ++ [x]) ≤ (pool.live index x.2.inventoryVersion).card) ∧
      (∀ x rest beta, queue = x :: rest → ∃ draws, rt.selections pool beta
        ((pool.tags index).take x.2.inventoryVersion.toNat) 0 x.2.count.toNat = .ok draws) ∧
      ∀ infos a d, a.pool.key = P → SettleAccounts.tryFrom w infos = .ok a →
        Settle.process rt w a d ≠ .error GachaError.soldOut := by
  have hsound := hw.sound hrt
  obtain ⟨m, hm⟩ := hsound.opened hpool
  obtain ⟨queue, hfifo, htickets, hindices⟩ := hm.fifo
  have hticket : ∀ x ∈ queue, x.2.ticket x.1 ∈ m.queue := fun x hx =>
    htickets ▸ List.mem_map_of_mem hx
  refine ⟨queue, hfifo, ?_, fun x hx => ?_, fun front x back hq => ?_, fun x rest beta hq => ?_,
    fun infos a d _ ha => ?_⟩
  · have hsorted := hm.covered.sorted
    rw [← htickets, List.pairwise_map] at hsorted
    exact hsorted.imp fun hle => UInt32.le_iff_toNat_le.mpr hle
  · have hissued := hm.covered.issued _ (hticket x hx)
    rw [hm.stock.version] at hissued
    exact UInt32.le_iff_toNat_le.mpr hissued
  · have hcover := hm.covered.stock (front.map fun x => x.2.ticket x.1) (x.2.ticket x.1)
      (back.map fun x => x.2.ticket x.1) (by rw [← htickets, hq, List.map_append, List.map_cons])
    rw [Pool.live, hm.tags_eq, drawsOf, List.map_append, List.sum_append]
    rw [Market.demand, List.map_map] at hcover
    exact hcover
  · obtain ⟨hentry, hP, hpending⟩ := hfifo.mem.mp
      (show (x.1, x.2) ∈ queue from hq ▸ List.mem_cons_self)
    refine hm.head_selections hentry hP hpending (UInt64.toNat_inj.mp ?_) beta
    have hfirst : (queue.map fun x => x.2.index.toNat)[0]? = some x.2.index.toNat := by
      rw [hq]
      rfl
    have hlen : 0 < m.queue.length := by
      rw [← htickets, hq]
      exact Nat.zero_lt_succ _
    rw [hindices, List.getElem?_range' hlen, Option.some.injEq] at hfirst
    rw [← hfirst, ← hm.queued.served]
    omega
  · obtain ⟨pool', index', pull, m', hsettling⟩ := hsound.settling ha
    exact hsettling.process_avoids d (.inr rfl)

theorem Reached.never_oversold_sample : ∃ pool index,
    Sample.bought.ledger Sample.pool = .pool pool index ∧ pool.pendingDraws = 1 ∧
    ∃ queue, Sample.bought.ledger.Fifo Sample.pool queue ∧
      (queue.Pairwise fun first later => first.2.inventoryVersion ≤ later.2.inventoryVersion) ∧
      (∀ x ∈ queue, x.2.inventoryVersion ≤ pool.inventoryVersion) ∧
      (∀ front x back, queue = front ++ x :: back →
        drawsOf (front ++ [x]) ≤ (pool.live index x.2.inventoryVersion).card) ∧
      (∀ x rest beta, queue = x :: rest → ∃ draws, Sample.net.runtime.selections pool beta
        ((pool.tags index).take x.2.inventoryVersion.toNat) 0 x.2.count.toNat = .ok draws) ∧
      ∀ infos a d, a.pool.key = Sample.pool → SettleAccounts.tryFrom Sample.bought infos = .ok a →
        Settle.process Sample.net.runtime Sample.bought a d ≠ .error GachaError.soldOut := by
  obtain ⟨pool, index, hpool, hpending⟩ := Sample.bought_pool
  exact ⟨pool, index, hpool, hpending,
    Reached.never_oversold Sample.net.runtime_lawful Sample.bought_reached hpool⟩

end World

end SolanaGacha
