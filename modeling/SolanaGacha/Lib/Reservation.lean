import Mathlib.Algebra.BigOperators.Group.List.Basic
import Mathlib.Data.Finset.Card
import Mathlib.Data.Finset.Range
import Mathlib.Data.List.GetD
import Mathlib.Algebra.Order.Ring.Nat
import SolanaGacha.Lib.Run

/-!
# Reservations on an append-only stock

A market issues numbered positions and never reissues one: what a position holds is zero once it is
gone. An order asks for some of the positions that were issued when it was accepted, without choosing
them, and orders are served in the order in which they were accepted, each with positions of its own
choice. An order is accepted when the stock that is left covers the demand of the whole queue.

That one comparison is enough (`Step.covered`): at any later time every order is covered by what is
left of the positions that it may choose from, together with all orders before it. Over a run, the
candidates of a waiting order change only by what the orders before it are awarded
(`candidates_of_run`), and no position is awarded twice (`nodup_awarded`). What every move adds and takes
away balances: of positions issued, orders accepted and served, demand and stock.
-/

/-- What is asked of a stock: so many positions, of those below a version. -/
class Order (ω : Type*) where
  count : ω → ℕ
  version : ω → ℕ

/-- A stock, the orders that wait for it, and how many orders have left the queue. -/
structure Market (α ω : Type*) where
  /-- What every position issued holds; zero once it is gone. -/
  stock : List α
  /-- The accepted orders, oldest first. -/
  queue : List ω
  /-- The number of orders that were served or cancelled. -/
  served : ℕ

namespace Market

/-! ## The stock -/

section Stock

variable {α : Type*} [Zero α]

/-- The stock without some positions. -/
def clear (stock : List α) (positions : List ℕ) : List α :=
  positions.foldl (fun stock p => stock.set p 0) stock

@[simp]
theorem length_clear (stock : List α) (positions : List ℕ) :
    (clear stock positions).length = stock.length := by
  induction positions generalizing stock with
  | nil => rfl
  | cons p positions ih => exact (ih (stock.set p 0)).trans List.length_set

theorem getD_set_zero (stock : List α) (p q : ℕ) :
    (stock.set p 0).getD q 0 = if q = p then 0 else stock.getD q 0 := by
  rw [List.getD_eq_getElem?_getD, List.getD_eq_getElem?_getD, List.getElem?_set]
  rcases eq_or_ne q p with rfl | hne
  · by_cases hlt : q < stock.length <;> simp [hlt]
  · rw [if_neg hne.symm, if_neg hne]

theorem getD_clear (stock : List α) (positions : List ℕ) (q : ℕ) :
    (clear stock positions).getD q 0 = if q ∈ positions then 0 else stock.getD q 0 := by
  induction positions generalizing stock with
  | nil => simp [clear]
  | cons p positions ih =>
    rw [clear, List.foldl_cons]
    refine (ih (stock.set p 0)).trans ?_
    rw [getD_set_zero]
    by_cases hq : q = p <;> simp [hq]

variable [DecidableEq α]

/-- The positions below `n` that are not gone. -/
def candidates (stock : List α) (n : ℕ) : Finset ℕ := (Finset.range n).filter fun p => stock.getD p 0 ≠ 0

@[simp]
theorem mem_candidates {stock : List α} {n p : ℕ} :
    p ∈ candidates stock n ↔ p < n ∧ stock.getD p 0 ≠ 0 := by
  simp [candidates]

/-- Counting the candidates in the list. -/
theorem card_candidates (stock : List α) (n : ℕ) :
    (candidates stock n).card = (stock.take n).countP (· ≠ 0) := by
  induction n with
  | zero => simp [candidates]
  | succ n ih =>
    rw [candidates, Finset.range_add_one, Finset.filter_insert, List.take_add_one, List.countP_append, ← ih,
      List.getD_eq_getElem?_getD]
    cases hn : stock[n]? with
    | none => simp [candidates]
    | some a => by_cases ha : a = 0 <;> simp [candidates, ha]

/-- Clearing positions takes them off the candidates. -/
theorem candidates_clear (stock : List α) (positions : List ℕ) (n : ℕ) :
    candidates (clear stock positions) n = candidates stock n \ positions.toFinset := by
  ext p
  rw [mem_candidates, getD_clear, Finset.mem_sdiff, mem_candidates, List.mem_toFinset]
  by_cases hp : p ∈ positions <;> simp [hp]

/-- A new position is no candidate of an older version. -/
theorem candidates_append {stock : List α} {n : ℕ} (h : n ≤ stock.length) (a : α) :
    candidates (stock ++ [a]) n = candidates stock n := by
  ext p
  rw [mem_candidates, mem_candidates]
  refine and_congr_right fun hp => ?_
  rw [List.getD_append _ _ _ _ (by omega)]

end Stock

/-! ## The queue -/

section Queue

variable {ω : Type*}

/-- A queue that is extended at its end: an order of it is an old one or the last. -/
theorem append_singleton_eq {orders front back : List ω} {order last : ω}
    (h : orders ++ [last] = front ++ order :: back) :
    (∃ back', orders = front ++ order :: back') ∨ (orders = front ∧ last = order) := by
  rcases List.eq_nil_or_concat back with rfl | ⟨back', last', rfl⟩
  · obtain ⟨h1, h2⟩ := List.append_inj' h rfl
    exact .inr ⟨h1, by simpa using h2⟩
  · refine .inl ⟨back', ?_⟩
    rw [List.concat_eq_append, ← List.cons_append, ← List.append_assoc] at h
    exact (List.append_inj' h rfl).1

variable [Order ω]

/-- The positions that some orders ask for. -/
def demand (orders : List ω) : ℕ := (orders.map Order.count).sum

@[simp]
theorem demand_append (orders orders' : List ω) :
    demand (orders ++ orders') = demand orders + demand orders' := by
  rw [demand, List.map_append, List.sum_append, demand, demand]

@[simp]
theorem demand_cons (order : ω) (orders : List ω) :
    demand (order :: orders) = Order.count order + demand orders := by
  rw [demand, List.map_cons, List.sum_cons, demand]

end Queue

/-! ## Moves -/

variable {α ω : Type*}

/-- What can happen in a market. -/
inductive Move (α ω : Type*)
  /-- A new position is issued. -/
  | restock (a : α)
  /-- An order is accepted. -/
  | reserve (order : ω)
  /-- The oldest order is served. -/
  | award (positions : List ℕ)
  /-- The oldest order leaves with nothing. -/
  | cancel
  /-- A position is taken back while no order waits. -/
  | withdraw (p : ℕ)
  | idle

/-- The positions that a move awards. -/
def Move.awarded : Move α ω → List ℕ
  | award positions => positions
  | _ => []

/-- The positions that the moves of a run award, in their order. -/
def awarded (trace : List (Market α ω × Move α ω)) : List ℕ := trace.flatMap fun x => x.2.awarded

theorem awarded_append (trace : List (Market α ω × Move α ω)) (x : Market α ω × Move α ω) :
    awarded (trace ++ [x]) = awarded trace ++ x.2.awarded := by
  rw [awarded, List.flatMap_append, List.flatMap_singleton, awarded]

variable [DecidableEq α] [Zero α] [Order ω]

/-- The moves of a market. An order is accepted when the stock covers the whole queue, and it may then
choose from every position issued so far. -/
inductive Step (m : Market α ω) : Move α ω → Market α ω → Prop
  | restock (a : α) : Step m (.restock a) { m with stock := m.stock ++ [a] }
  | reserve (order : ω) (version : Order.version order = m.stock.length)
      (stock : demand m.queue + Order.count order ≤ (candidates m.stock m.stock.length).card) :
      Step m (.reserve order) { m with queue := m.queue ++ [order] }
  | award (order : ω) (rest : List ω) (positions : List ℕ) (queue : m.queue = order :: rest)
      (length : positions.length = Order.count order) (nodup : positions.Nodup)
      (candidate : ∀ p ∈ positions, p ∈ candidates m.stock (Order.version order)) :
      Step m (.award positions) ⟨clear m.stock positions, rest, m.served + 1⟩
  | cancel (order : ω) (rest : List ω) (queue : m.queue = order :: rest) :
      Step m .cancel { m with queue := rest, served := m.served + 1 }
  | withdraw (p : ℕ) (queue : m.queue = []) : Step m (.withdraw p) { m with stock := m.stock.set p 0 }
  | idle : Step m .idle m

/-- Every order can be served, whatever the orders before it choose. -/
structure Covered (m : Market α ω) : Prop where
  /-- An order may choose from positions that were issued. -/
  issued : ∀ order ∈ m.queue, Order.version order ≤ m.stock.length
  /-- Later orders may choose from more. -/
  sorted : m.queue.Pairwise fun order later => Order.version order ≤ Order.version later
  stock : ∀ front order back, m.queue = front ++ order :: back →
    demand front + Order.count order ≤ (candidates m.stock (Order.version order)).card

/-- The stock covers the whole queue. -/
theorem Covered.demand_le {m : Market α ω} (h : m.Covered) :
    demand m.queue ≤ (candidates m.stock m.stock.length).card := by
  rcases List.eq_nil_or_concat m.queue with hnil | ⟨front, last, hq⟩
  · rw [hnil]
    exact Nat.zero_le _
  · -- The last order is covered after all orders before it.
    rw [List.concat_eq_append] at hq
    have hcover := h.stock front last [] hq
    have hissued := h.issued last (hq ▸ List.mem_append_right front (List.mem_singleton_self last))
    have hsub : candidates m.stock (Order.version last) ⊆ candidates m.stock m.stock.length := by
      intro p hp
      obtain ⟨hlt, hne⟩ := mem_candidates.mp hp
      exact mem_candidates.mpr ⟨hlt.trans_le hissued, hne⟩
    calc demand m.queue = demand front + Order.count last := by
          rw [hq, demand_append, demand_cons]
          rfl
      _ ≤ (candidates m.stock (Order.version last)).card := hcover
      _ ≤ (candidates m.stock m.stock.length).card := Finset.card_le_card hsub

/-- The number of orders that were accepted. -/
def accepted (m : Market α ω) : ℕ := m.served + m.queue.length

/-- The number of orders that a move accepts. -/
def Move.accepts : Move α ω → ℕ
  | reserve _ => 1
  | _ => 0

/-- Orders that leave the queue still count. -/
theorem Step.accepted {m m' : Market α ω} {move : Move α ω} (hstep : Step m move m') :
    m'.accepted = m.accepted + move.accepts := by
  cases hstep with
  | restock a => rfl
  | reserve order => simp [Market.accepted, Move.accepts, Nat.add_assoc]
  | award order rest positions queue | cancel order rest queue =>
    simp only [Market.accepted, Move.accepts, queue, List.length_cons]
    omega
  | withdraw p queue => rfl
  | idle => rfl

/-- An invariant of every market: one comparison with the whole stock, when an order is accepted,
covers each order with its own candidates for as long as it waits. -/
theorem Step.covered {m m' : Market α ω} {move : Move α ω} (hstep : Step m move m') (h : m.Covered) :
    m'.Covered := by
  cases hstep with
  | restock a =>
    refine ⟨fun order ho => ?_, h.sorted, fun front order back hq => ?_⟩
    · rw [List.length_append]
      exact (h.issued order ho).trans (Nat.le_add_right _ _)
    · have hmem : order ∈ m.queue := by
        rw [show m.queue = _ from hq]
        simp
      rw [candidates_append (h.issued order hmem)]
      exact h.stock front order back hq
  | reserve order version stock =>
    refine ⟨fun o ho => ?_, ?_, fun front o back hq => ?_⟩
    · rcases List.mem_append.mp ho with ho | ho
      · exact h.issued o ho
      · rw [List.mem_singleton.mp ho, version]
    · refine List.pairwise_append.mpr ⟨h.sorted, List.pairwise_singleton _ _, fun o ho o' ho' => ?_⟩
      rw [List.mem_singleton.mp ho', version]
      exact h.issued o ho
    · rcases append_singleton_eq hq with ⟨back', hold⟩ | ⟨rfl, rfl⟩
      · exact h.stock front o back' hold
      · rw [version]
        exact stock
  | award order rest positions queue length nodup candidate =>
    have hsorted := h.sorted
    rw [queue] at hsorted
    refine ⟨fun o ho => ?_, hsorted.of_cons, fun front o back hq => ?_⟩
    · rw [length_clear]
      exact h.issued o (queue ▸ List.mem_cons_of_mem _ ho)
    · -- What is left covers `front` and `o`, as it covered them together with the order served.
      have hold := h.stock (order :: front) o back (by rw [queue, show rest = _ from hq]; rfl)
      rw [demand_cons] at hold
      have hcard := Finset.le_card_sdiff positions.toFinset (candidates m.stock (Order.version o))
      rw [List.toFinset_card_of_nodup nodup, length] at hcard
      rw [candidates_clear]
      omega
  | cancel order rest queue =>
    have hsorted := h.sorted
    rw [queue] at hsorted
    refine ⟨fun o ho => h.issued o (queue ▸ List.mem_cons_of_mem _ ho), hsorted.of_cons,
      fun front o back hq => ?_⟩
    have hold := h.stock (order :: front) o back (by rw [queue, show rest = _ from hq]; rfl)
    rw [demand_cons] at hold
    exact (Nat.le_add_left _ _).trans ((Nat.add_assoc _ _ _).symm.trans_le hold)
  | withdraw p queue =>
    refine ⟨fun o ho => ?_, h.sorted, fun front o back hq => ?_⟩
    · rw [show m.queue = [] from queue] at ho
      exact absurd ho List.not_mem_nil
    · rw [show m.queue = [] from queue] at hq
      simp at hq
  | idle => exact h

/-! ## Runs -/

variable {m m' : Market α ω} {trace : List (Market α ω × Move α ω)}

/-- No position is reissued. -/
theorem Step.length_le {move : Move α ω} (h : Step m move m') : m.stock.length ≤ m'.stock.length := by
  cases h <;> simp

theorem Step.served_le {move : Move α ω} (h : Step m move m') : m.served ≤ m'.served := by
  cases h <;> simp

theorem length_le_of_run (h : Run Step m trace m') : m.stock.length ≤ m'.stock.length :=
  h.preserves (P := fun s => m.stock.length ≤ s.stock.length)
    (fun _ _ _ hle hstep => hle.trans hstep.length_le) le_rfl

theorem served_le_of_run (h : Run Step m trace m') : m.served ≤ m'.served :=
  h.preserves (P := fun s => m.served ≤ s.served)
    (fun _ _ _ hle hstep => hle.trans hstep.served_le) le_rfl

theorem covered_of_run (h : Run Step m trace m') (hcovered : m.Covered) : m'.Covered :=
  h.preserves (fun _ _ _ hs hstep => hstep.covered hs) hcovered

/-- What is gone stays gone. -/
theorem Step.getD_eq_zero {move : Move α ω} (h : Step m move m') {p : ℕ} (hp : p < m.stock.length)
    (hgone : m.stock.getD p 0 = 0) : m'.stock.getD p 0 = 0 := by
  cases h with
  | restock a => rwa [List.getD_append _ _ _ _ hp]
  | award order rest positions => rw [getD_clear, hgone, ite_self]
  | withdraw q => rw [getD_set_zero, hgone, ite_self]
  | reserve => exact hgone
  | cancel => exact hgone
  | idle => exact hgone

theorem getD_eq_zero_of_run (h : Run Step m trace m') {p : ℕ} (hp : p < m.stock.length)
    (hgone : m.stock.getD p 0 = 0) : m'.stock.getD p 0 = 0 :=
  (h.preserves (P := fun s => p < s.stock.length ∧ s.stock.getD p 0 = 0) (fun _ _ _ hs hstep =>
    ⟨hs.1.trans_le hstep.length_le, hstep.getD_eq_zero hs.1 hs.2⟩) ⟨hp, hgone⟩).2

/-- No position is awarded twice. -/
theorem nodup_awarded (h : Run Step m trace m') (hcovered : m.Covered) :
    (awarded trace).Nodup ∧ ∀ p ∈ awarded trace, p < m'.stock.length ∧ m'.stock.getD p 0 = 0 := by
  induction h with
  | nil => simp [awarded]
  | @snoc s' s'' move trace run last ih =>
    obtain ⟨hnodup, hgone⟩ := ih
    have hissued := (covered_of_run run hcovered).issued
    have hold : ∀ p ∈ awarded trace, p < s''.stock.length ∧ s''.stock.getD p 0 = 0 := fun p hp =>
      ⟨(hgone p hp).1.trans_le last.length_le, last.getD_eq_zero (hgone p hp).1 (hgone p hp).2⟩
    rw [awarded_append]
    have hquiet : move.awarded = [] → (awarded trace ++ move.awarded).Nodup ∧
        ∀ p ∈ awarded trace ++ move.awarded, p < s''.stock.length ∧ s''.stock.getD p 0 = 0 := by
      intro hnone
      rw [hnone, List.append_nil]
      exact ⟨hnodup, hold⟩
    cases last with
    | award order rest positions queue length nodup candidate =>
      simp only [Move.awarded]
      have hissued := hissued order (queue ▸ List.mem_cons_self)
      refine ⟨List.nodup_append.mpr ⟨hnodup, nodup, fun p hp q hq => ?_⟩, fun p hp => ?_⟩
      · -- A position of the trace is gone, and a new one is not.
        rintro rfl
        exact (mem_candidates.mp (candidate p hq)).2 (hgone p hp).2
      · rcases List.mem_append.mp hp with hp | hp
        · exact hold p hp
        · have hlt := (mem_candidates.mp (candidate p hp)).1
          exact ⟨by rw [length_clear]; omega, by rw [getD_clear, if_pos hp]⟩
    | restock a => exact hquiet rfl
    | reserve order => exact hquiet rfl
    | cancel order => exact hquiet rfl
    | withdraw p => exact hquiet rfl
    | idle => exact hquiet rfl

/-- While an order waits, its candidates lose what is awarded to the orders before it, and nothing
else; it keeps its place in the queue. -/
theorem candidates_of_run (h : Run Step m trace m') {front back : List ω} {order : ω}
    (hqueue : m.queue = front ++ order :: back) (hissued : Order.version order ≤ m.stock.length)
    (hwaits : m'.served ≤ m.served + front.length) :
    (∃ front' back', m'.queue = front' ++ order :: back' ∧
      m'.served + front'.length = m.served + front.length) ∧
    candidates m'.stock (Order.version order) =
      candidates m.stock (Order.version order) \ (awarded trace).toFinset := by
  induction h with
  | nil => exact ⟨⟨front, back, hqueue, rfl⟩, by simp [awarded]⟩
  | @snoc s' s'' move trace run last ih =>
    obtain ⟨⟨front', back', hq', hplace⟩, hcandidates⟩ := ih (last.served_le.trans hwaits)
    have hlen := length_le_of_run run
    -- Whoever is served or cancelled is before the order, so the order stays.
    have hpop : ∀ first rest, s'.queue = first :: rest → s'.served + 1 ≤ m.served + front.length →
        ∃ front'' back', rest = front'' ++ order :: back' ∧
          s'.served + 1 + front''.length = m.served + front.length := by
      intro first rest hfirst hle
      cases front' with
      | nil =>
        rw [List.length_nil] at hplace
        omega
      | cons first' front'' =>
        rw [hfirst, List.cons_append, List.cons.injEq] at hq'
        rw [List.length_cons] at hplace
        exact ⟨front'', back', hq'.2, by omega⟩
    rw [awarded_append]
    cases last with
    | restock a =>
      refine ⟨⟨front', back', hq', hplace⟩, ?_⟩
      rw [candidates_append (by omega), hcandidates]
      simp [Move.awarded]
    | reserve later =>
      refine ⟨⟨front', back' ++ [later], ?_, hplace⟩, by simpa [Move.awarded] using hcandidates⟩
      rw [hq', List.append_assoc, List.cons_append]
    | award first rest positions queue =>
      refine ⟨hpop first rest queue hwaits, ?_⟩
      rw [candidates_clear, hcandidates, Move.awarded, List.toFinset_append, sdiff_sdiff,
        Finset.sup_eq_union]
    | cancel first rest queue =>
      exact ⟨hpop first rest queue hwaits, by simpa [Move.awarded] using hcandidates⟩
    | withdraw p queue =>
      rw [queue] at hq'
      simp at hq'
    | idle => exact ⟨⟨front', back', hq', hplace⟩, by simpa [Move.awarded] using hcandidates⟩

/-! ## Conservation -/

/-- The number of positions that a move issues. -/
def Move.issues : Move α ω → ℕ
  | restock _ => 1
  | _ => 0

/-- The number of orders that leave the queue with a move. -/
def Move.resolves : Move α ω → ℕ
  | award _ => 1
  | cancel => 1
  | _ => 0

/-- What a move asks for. -/
def Move.reserves : Move α ω → ℕ
  | reserve order => Order.count order
  | _ => 0

/-- What the oldest order asks for. -/
def headCount (m : Market α ω) : ℕ := (m.queue.head?.map Order.count).getD 0

/-- What is not asked for any more after a move. -/
def released (m : Market α ω) : Move α ω → ℕ
  | .award _ => m.headCount
  | .cancel => m.headCount
  | _ => 0

/-- The number of positions that are left. -/
def left (m : Market α ω) : ℕ := (candidates m.stock m.stock.length).card

/-- The number of positions that a move takes away. -/
def taken (m : Market α ω) : Move α ω → ℕ
  | .award positions => positions.length
  | .withdraw p => if p ∈ candidates m.stock m.stock.length then 1 else 0
  | _ => 0

/-- The number of positions that a move adds. -/
def Move.adds : Move α ω → ℕ
  | restock a => if a = 0 then 0 else 1
  | _ => 0

variable {move : Move α ω}

theorem Step.length_stock (h : Step m move m') : m'.stock.length = m.stock.length + move.issues := by
  cases h <;> simp [Move.issues]

theorem Step.served_eq (h : Step m move m') : m'.served = m.served + move.resolves := by
  cases h <;> rfl

/-- The demand of the queue. -/
theorem Step.demand (h : Step m move m') :
    Market.demand m'.queue + m.released move = Market.demand m.queue + move.reserves := by
  cases h with
  | reserve order => simp [released, Move.reserves, Market.demand]
  | award order rest positions queue | cancel order rest queue =>
    simp only [released, headCount, Move.reserves, queue, List.head?_cons, Option.map_some, Option.getD_some,
      demand_cons]
    omega
  | restock a | withdraw p queue | idle => rfl

/-- What is left of the stock. -/
theorem Step.left (h : Step m move m') (hcovered : m.Covered) :
    m'.left + m.taken move = m.left + move.adds := by
  cases h with
  | restock a =>
    unfold Market.left taken Move.adds
    rw [card_candidates, card_candidates, List.take_length, List.take_length, List.countP_append]
    by_cases ha : a = 0 <;> simp [ha]
  | award order rest positions queue length nodup candidate =>
    have hissued := hcovered.issued order (queue ▸ List.mem_cons_self)
    have hsub : positions.toFinset ⊆ candidates m.stock m.stock.length := by
      intro p hp
      obtain ⟨hlt, hne⟩ := mem_candidates.mp (candidate p (List.mem_toFinset.mp hp))
      exact mem_candidates.mpr ⟨hlt.trans_le hissued, hne⟩
    have hcard := Finset.card_sdiff_add_card_eq_card hsub
    rw [List.toFinset_card_of_nodup nodup] at hcard
    unfold Market.left taken Move.adds
    rw [length_clear, candidates_clear]
    exact hcard
  | withdraw p queue =>
    have hset : candidates (m.stock.set p 0) m.stock.length = candidates m.stock m.stock.length \ {p} :=
      candidates_clear m.stock [p] m.stock.length
    unfold Market.left taken Move.adds
    dsimp only
    rw [List.length_set, hset, Nat.add_zero]
    split_ifs with hp
    · exact Finset.card_sdiff_add_card_eq_card (Finset.singleton_subset_iff.mpr hp)
    · rw [Finset.sdiff_singleton_eq_erase, Finset.erase_eq_of_notMem hp, Nat.add_zero]
  | reserve order | cancel order rest queue | idle => rfl

end Market
