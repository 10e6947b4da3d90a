import Mathlib.Algebra.Order.Ring.Nat
import Mathlib.Data.List.Forall2
import Mathlib.Data.Set.Card

/-!
# Runs of a labelled transition system

A run is the list of steps taken from one state to another, each with the state that it started
in, so that a statement about a run can read off what every step did. The rules are the usual ones:
a property that every step preserves holds at the end of a run (`Run.preserves`), a run can be cut at
any of its steps (`Run.of_append`, `Run.split`), what a run loses is lost at one of its steps
(`Run.exists_exit`), credits and debits add up (`Run.balance`), and a simulation of the steps takes a run to a run (`Run.simulate`). Finitely many
tasks that can be taken off one by one can all be done (`exists_drained`). `Reachable` are the states at the
end of the runs from an initial state, and an invariant of the steps holds of all of them
(`Reachable.induct`).
-/

/-- The steps of a run from a first to a last state, each with the state that it started in. -/
inductive Run {σ α : Type*} (step : σ → α → σ → Prop) (s : σ) : List (σ × α) → σ → Prop
  | nil : Run step s [] s
  | snoc {s' s'' : σ} {a : α} {trace : List (σ × α)} (run : Run step s trace s')
      (last : step s' a s'') : Run step s (trace ++ [(s', a)]) s''

/-- The states at the end of a run from an initial state. -/
def Reachable {σ α : Type*} (init : σ → Prop) (step : σ → α → σ → Prop) (s : σ) : Prop :=
  ∃ s₀ trace, init s₀ ∧ Run step s₀ trace s

/-- What one more step adds to a record of the steps. -/
theorem List.filterMap_snoc {α β : Type*} (f : α → Option β) (l : List α) (x : α) :
    (l ++ [x]).filterMap f = l.filterMap f ++ (f x).toList := by
  rw [List.filterMap_append, List.filterMap_cons, List.filterMap_nil]
  cases f x <;> rfl

variable {σ α : Type*} {step : σ → α → σ → Prop} {s s' s'' : σ} {trace trace' : List (σ × α)}

namespace Run

/-- One step is a run. -/
theorem single {a : α} (h : step s a s') : Run step s [(s, a)] s' := nil.snoc h

/-- Two runs in a row. -/
theorem append (h : Run step s trace s') (h' : Run step s' trace' s'') :
    Run step s (trace ++ trace') s'' := by
  induction h' with
  | nil => simpa using h
  | snoc _ last ih =>
    rw [← List.append_assoc]
    exact ih.snoc last

/-- A run cut in two. -/
theorem of_append (h : Run step s (trace ++ trace') s'') :
    ∃ s', Run step s trace s' ∧ Run step s' trace' s'' := by
  generalize hfull : trace ++ trace' = full at h
  induction h generalizing trace' with
  | nil =>
    obtain ⟨rfl, rfl⟩ := List.append_eq_nil_iff.mp hfull
    exact ⟨s, nil, nil⟩
  | @snoc t u a steps run last ih =>
    rcases List.eq_nil_or_concat trace' with rfl | ⟨front, x, rfl⟩
    · rw [List.append_nil] at hfull
      subst hfull
      exact ⟨u, run.snoc last, nil⟩
    · rw [List.concat_eq_append, ← List.append_assoc] at hfull
      obtain ⟨hsteps, hx⟩ := List.append_inj' hfull rfl
      obtain ⟨s', h1, h2⟩ := ih hsteps
      obtain rfl : x = (t, a) := by simpa using hx
      exact ⟨s', h1, by simpa using h2.snoc last⟩

/-- A run of one step. -/
theorem of_singleton {x : σ × α} (h : Run step s [x] s') : x.1 = s ∧ step s x.2 s' := by
  generalize hone : [x] = one at h
  cases h with
  | nil => simp at hone
  | @snoc t u a steps run last =>
    have happ : [] ++ [x] = steps ++ [(t, a)] := hone
    obtain ⟨hsteps, hx⟩ := List.append_inj' happ rfl
    obtain rfl : x = (t, a) := by simpa using hx
    rw [← hsteps] at run
    generalize hnil : ([] : List (σ × α)) = empty at run
    cases run with
    | nil => exact ⟨rfl, last⟩
    | snoc => simp at hnil

/-- A run cut at one of its steps. -/
theorem split {x : σ × α} (h : Run step s (trace ++ x :: trace') s'') :
    ∃ s', Run step s trace x.1 ∧ step x.1 x.2 s' ∧ Run step s' trace' s'' := by
  obtain ⟨t, h1, h2⟩ := h.of_append
  have hcons : Run step t ([x] ++ trace') s'' := h2
  obtain ⟨s', h3, h4⟩ := hcons.of_append
  obtain ⟨hx, h5⟩ := h3.of_singleton
  exact ⟨s', hx ▸ h1, hx ▸ h5, h4⟩

/-- A property that every step preserves holds at the end of a run. -/
theorem preserves {P : σ → Prop} (hstep : ∀ s a s', P s → step s a s' → P s')
    (h : Run step s trace s') (h0 : P s) : P s' := by
  induction h with
  | nil => exact h0
  | snoc _ last ih => exact hstep _ _ _ ih last

/-- A property that a run loses is lost at one of its steps. -/
theorem exists_exit {P : σ → Prop} (h : Run step s trace s') (h0 : P s) (hlost : ¬P s') :
    ∃ before x after t, trace = before ++ x :: after ∧ Run step s before x.1 ∧ P x.1 ∧ step x.1 x.2 t ∧
      ¬P t ∧ Run step t after s' := by
  induction h with
  | nil => exact absurd h0 hlost
  | @snoc t u a steps run last ih =>
    by_cases ht : P t
    · exact ⟨steps, (t, a), [], u, rfl, run, ht, last, hlost, .nil⟩
    · obtain ⟨before, x, after, v, rfl, hbefore, hx, hstep, hv, hafter⟩ := ih ht
      exact ⟨before, x, after ++ [(t, a)], v, by simp, hbefore, hx, hstep, hv, hafter.snoc last⟩

/-- The books of a run balance when those of every step do. -/
theorem balance {P : σ → Prop} {amount : σ → ℕ} {credit debit : σ → α → ℕ}
    (hinv : ∀ s a s', P s → step s a s' → P s')
    (hstep : ∀ s a s', P s → step s a s' → amount s' + debit s a = amount s + credit s a)
    (h : Run step s trace s') (h0 : P s) :
    amount s' + (trace.map fun x => debit x.1 x.2).sum = amount s + (trace.map fun x => credit x.1 x.2).sum := by
  induction h with
  | nil => rfl
  | @snoc t u a steps run last ih =>
    have hlast := hstep t a u (run.preserves hinv h0) last
    rw [List.map_append, List.sum_append, List.map_append, List.sum_append]
    simp only [List.map_cons, List.map_nil, List.sum_cons, List.sum_nil]
    omega

/-- A relation that the steps keep takes a run to a run of the labels of its steps. -/
theorem simulate {τ β : Type*} (step' : τ → β → τ → Prop) (R : σ → τ → Prop) (label : σ → α → β)
    (hstep : ∀ s a s' t, R s t → step s a s' → ∃ t', step' t (label s a) t' ∧ R s' t')
    (h : Run step s trace s') {t : τ} (ht : R s t) :
    ∃ trace' t', Run step' t trace' t' ∧ R s' t' ∧
      List.Forall₂ (fun x y => R x.1 y.1 ∧ y.2 = label x.1 x.2) trace trace' := by
  induction h with
  | nil => exact ⟨[], t, .nil, ht, .nil⟩
  | @snoc s₁ s₂ a steps run last ih =>
    obtain ⟨trace', t₁, hrun, hR, hall⟩ := ih
    obtain ⟨t₂, hlast, hR'⟩ := hstep _ _ _ _ hR last
    exact ⟨trace' ++ [(t₁, label s₁ a)], t₂, hrun.snoc hlast, hR',
      List.rel_append hall (.cons ⟨hR, rfl⟩ .nil)⟩

end Run

/-- What is left to do gets done, when from every state that keeps an invariant one task can be taken off. -/
theorem exists_drained {τ : Type*} {R : σ → σ → Prop} {inv : σ → Prop} {left : σ → Set τ}
    (refl : ∀ s, R s s) (trans : ∀ {s s' s''}, R s s' → R s' s'' → R s s'')
    (next : ∀ s, inv s → (left s).Nonempty →
      ∃ x ∈ left s, ∃ s', R s s' ∧ inv s' ∧ left s' = left s \ {x})
    (hs : inv s) (hfinite : (left s).Finite) : ∃ s', R s s' ∧ inv s' ∧ left s' = ∅ := by
  induction hn : (left s).ncard generalizing s with
  | zero => exact ⟨s, refl s, hs, (Set.ncard_eq_zero hfinite).mp hn⟩
  | succ n ih =>
    have hsome : (left s).Nonempty := by
      apply Set.nonempty_of_ncard_ne_zero
      omega
    obtain ⟨x, hx, s₁, hfirst, hs₁, hleft⟩ := next s hs hsome
    have hcount : (left s₁).ncard = n := by
      have htaken := Set.ncard_sdiff_singleton_add_one hx hfinite
      rw [← hleft] at htaken
      omega
    obtain ⟨s', hrest, hs', hdone⟩ := ih hs₁ (hleft ▸ hfinite.subset Set.sdiff_subset) hcount
    exact ⟨s', trans hfirst hrest, hs', hdone⟩

namespace Reachable

variable {init : σ → Prop}

theorem of_init (h : init s) : Reachable init step s := ⟨s, [], h, .nil⟩

/-- What a run reaches from a reachable state is reachable. -/
theorem run (h : Reachable init step s) (h' : Run step s trace s') : Reachable init step s' := by
  obtain ⟨s₀, first, h0, h1⟩ := h
  exact ⟨s₀, first ++ trace, h0, h1.append h'⟩

theorem next {a : α} (h : Reachable init step s) (h' : step s a s') : Reachable init step s' :=
  h.run (.single h')

/-- An invariant: it holds initially, and every step from a reachable state preserves it. -/
theorem induct {P : σ → Prop} (hinit : ∀ s, init s → P s)
    (hstep : ∀ s a s', Reachable init step s → P s → step s a s' → P s')
    (h : Reachable init step s) : P s := by
  obtain ⟨s₀, trace, h0, hrun⟩ := h
  induction hrun with
  | nil => exact hinit _ h0
  | snoc run last ih => exact hstep _ _ _ ⟨s₀, _, h0, run⟩ ih last

end Reachable
