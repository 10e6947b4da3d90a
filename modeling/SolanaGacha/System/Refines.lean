import SolanaGacha.System.Step
import SolanaGacha.System.Localnet

/-!
# Pools refine markets

The market of positions knows numbered positions, a queue of orders and nothing else: no accounts, no index, no
counters, no bytes. Every run of the chain is a run of the market of each of its pools, with the moves that the
calls spell out, and the accounts of a pool show its market: the tags are the stock, with one Item for each position
that is left, and the pending Pulls are the orders, in the order of their indices (`World.Genesis.refines`).
-/

namespace SolanaGacha

open Except Layout

/-- The accounts of a pool show a market. -/
structure Ledger.Shows (L : Ledger) (P : Pubkey) (pool : Pool) (index : List UInt8)
    (m : Market UInt8 Ticket) : Prop where
  stock : m.stock = pool.tags index
  item : ∀ p, m.stock.getD p 0 ≠ 0 ↔ ∃ key item, L key = .item item ∧ item.pool = P ∧ item.position.toNat = p
  served : m.served = pool.nextSettle.toNat
  accepted : m.accepted = pool.nextIndex.toNat
  demand : Market.demand m.queue = pool.pendingDraws.toNat
  order : ∀ i ticket, m.queue[i]? = some ticket ↔ ∃ pull, L ticket.pull = .pull pull ∧ pull.pool = P ∧
    pull.status = statusPending ∧ pull.index.toNat = m.served + i ∧ pull.ticket ticket.pull = ticket

/-- A pool without accounts shows the market without positions and orders. -/
structure Ledger.Blank (L : Ledger) (P : Pubkey) : Prop where
  pool : ∀ pool index, L P ≠ .pool pool index
  item : ∀ key item, L key = .item item → item.pool ≠ P
  pull : ∀ key pull, L key = .pull pull → pull.pool ≠ P

section Shows

variable {rt : Runtime} {L : Ledger} {P : Pubkey} {m : Market UInt8 Ticket}

/-- The market of an open pool. -/
theorem Banner.Opened.shows {pool : Pool} {index : List UInt8} (h : (L.banner P).Opened rt P pool index m) :
    L.Shows P pool index m where
  stock := h.tags_eq.symm
  item p := by
    constructor
    · intro hstocked
      obtain ⟨key, item, hitem, hposition⟩ := h.shelved.stocked hstocked
      obtain ⟨hloaded, hP⟩ := Ledger.banner_items.mp hitem
      exact ⟨key, item, hloaded, hP, hposition⟩
    · intro ⟨key, item, hloaded, hP, hposition⟩
      obtain ⟨-, htier, hlive, -⟩ := h.shelved.item (Ledger.banner_items.mpr ⟨hloaded, hP⟩)
      rw [← hposition, hlive]
      exact Inventory.tierTag_ne_zero htier
  served := h.queued.served
  accepted := h.queued.next.symm
  demand := h.queued.draws.symm
  order i ticket := by
    constructor
    · intro hticket
      obtain ⟨pull, hpull, hpending, hindex, heq⟩ := h.queued.ticket hticket
      obtain ⟨hloaded, hP⟩ := Ledger.banner_pulls.mp hpull
      exact ⟨pull, hloaded, hP, hpending, hindex, heq⟩
    · intro ⟨pull, hloaded, hP, hpending, hindex, heq⟩
      obtain ⟨j, hticket, hindex'⟩ := h.queued.pending (Ledger.banner_pulls.mpr ⟨hloaded, hP⟩) hpending
      obtain rfl : i = j := by omega
      rwa [heq] at hticket

/-- A banner shows the market that it represents. -/
theorem Banner.Represents.shows (h : (L.banner P).Represents rt P m) :
    (∀ pool index, L P = .pool pool index → L.Shows P pool index m) ∧
      ((∀ pool index, L P ≠ .pool pool index) → m = ⟨[], [], 0⟩ ∧ L.Blank P) := by
  constructor
  · intro pool index hpool
    exact (h.of_header (Ledger.banner_pool.mpr hpool)).shows
  · intro hnone
    cases h with
    | empty hpool hitems hpulls =>
      refine ⟨rfl, hnone, fun key item hitem hP => ?_, fun key pull hpull hP => ?_⟩
      · exact absurd (Ledger.banner_items.mpr ⟨hitem, hP⟩) (by rw [hitems]; simp)
      · exact absurd (Ledger.banner_pulls.mpr ⟨hpull, hP⟩) (by rw [hpulls]; simp)
    | opened hopened => exact absurd (Ledger.banner_pool.mp hopened.header) (hnone _ _)

end Shows

namespace World

variable {rt : Runtime} (hrt : rt.Lawful) {w w' : World} {trace : List (World × Event)}

include hrt

/-- Every run of the chain from a genesis is, for every pool address, a run of one market that starts empty: its
moves are those that the calls spell out, one for each event, and at the end the accounts show the market. Before the
pool is created both are empty. -/
theorem Genesis.refines (hw : w.Genesis rt) (hrun : Run (Step rt) w trace w') (P : Pubkey) :
    ∃ moves m, Run Market.Step ⟨[], [], 0⟩ moves m ∧
      moves.map Prod.snd = trace.map (fun x => x.2.move x.1 P) ∧
      (∀ pool index, w'.ledger P = .pool pool index → w'.ledger.Shows P pool index m) ∧
      ((∀ pool index, w'.ledger P ≠ .pool pool index) → m = ⟨[], [], 0⟩ ∧ w'.ledger.Blank P) := by
  have hempty : (w.ledger.banner P).Represents rt P ⟨[], [], 0⟩ := .empty ((hw.foreign P).reads P).1
    (fun k => ((hw.foreign k).reads P).2.1) fun k => ((hw.foreign k).reads P).2.2
  obtain ⟨moves, m, hmoves, hm, hall⟩ := hw.sound.run hrt hrun hempty
  refine ⟨moves, m, hmoves, ?_, hm.shows⟩
  clear hmoves hm hrun
  induction hall with
  | nil => rfl
  | cons hhead _ ih => rw [List.map_cons, List.map_cons, hhead.2, ih]

omit hrt in
/-- The sample run is a run of the market of its pool, in which one order waits at the end. -/
theorem Genesis.refines_sample : ∃ trace moves m pool index,
    Run (Step Sample.net.runtime) Sample.start trace Sample.bought ∧
    Run Market.Step ⟨[], [], 0⟩ moves m ∧
    moves.map Prod.snd = trace.map (fun x => x.2.move x.1 Sample.pool) ∧
    Sample.bought.ledger Sample.pool = .pool pool index ∧ Sample.bought.ledger.Shows Sample.pool pool index m ∧
    Market.demand m.queue = 1 := by
  have hexecutes : ∀ (w : World) (ixs : List Instruction), Sample.succeeds w ixs = true →
      ∃ trace, Run (Step Sample.net.runtime) w trace (Sample.after w ixs) := fun w ixs h =>
    run_execute (Sample.unforged_of_succeeds h) (Sample.execute_after h)
  obtain ⟨before, hbefore⟩ := hexecutes Sample.start [Sample.createPool,
    Sample.depositItem Sample.item₀ Sample.asset₀ 253, Sample.depositItem Sample.item₁ Sample.asset₁ 251,
    Sample.setStatus 1] (by decide +kernel)
  obtain ⟨after, hafter⟩ := hexecutes Sample.opened [Sample.buy 2] (by decide +kernel)
  have hrun : Run (Step Sample.net.runtime) Sample.start (before ++ after) Sample.bought :=
    (show Run _ Sample.start before Sample.opened from hbefore).append hafter
  have hgenesis : Sample.start.Genesis Sample.net.runtime := Sample.net.genesis (by decide +kernel) 5 0
  obtain ⟨pool, index, hpool, hpending⟩ := Sample.bought_pool
  generalize Sample.bought = w at *
  obtain ⟨moves, m, hmoves, hlabels, hshows, -⟩ :=
    Genesis.refines Sample.net.runtime_lawful hgenesis hrun Sample.pool
  have hshown := hshows pool index hpool
  exact ⟨_, moves, m, pool, index, hrun, hmoves, hlabels, hpool, hshown, by rw [hshown.demand, hpending]; rfl⟩

end World

end SolanaGacha
