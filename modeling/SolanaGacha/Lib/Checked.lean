import Mathlib.Algebra.Order.Ring.Nat
import Mathlib.Data.UInt

/-!
# Early return and checked machine arithmetic

`Except` for code that returns early: `failIf` is a guard that returns an error, `okOr` turns an
absent value into one, and the lemmas here take a computation that succeeded apart, step by step. Two
computations with different errors are compared by their results (`toOption_guard`, `toOption_bind_congr`).
Machine integers are added, subtracted and multiplied with an overflow check (`checkedAdd`,
`checkedSub`, `checkedMul`); a checked operation that has a result computes the natural number.
-/

namespace Except

universe u

variable {ε : Type*} {α β : Type u}

/-- A sequence succeeds when both of its steps do. -/
theorem bind_eq_ok {x : Except ε α} {f : α → Except ε β} {b : β} :
    (x >>= f) = .ok b ↔ ∃ a, x = .ok a ∧ f a = .ok b := by
  cases x with
  | error e => simp [bind, Except.bind]
  | ok a => simp [bind, Except.bind]

@[simp]
theorem ok_bind (a : α) (f : α → Except ε β) : (Except.ok a >>= f) = f a := rfl

@[simp]
theorem error_bind (e : ε) (f : α → Except ε β) : (Except.error e >>= f) = .error e := rfl

theorem pure_eq_ok {a b : α} : (pure a : Except ε α) = .ok b ↔ a = b := by
  simp [pure, Except.pure]

theorem ite_bind {c : Prop} [Decidable c] (x y : Except ε α) (f : α → Except ε β) :
    (if c then x else y) >>= f = if c then x >>= f else y >>= f := by
  split_ifs <;> rfl

theorem ite_eq_ok {c : Prop} [Decidable c] {x y : Except ε α} {a : α} :
    (if c then x else y) = .ok a ↔ (c ∧ x = .ok a) ∨ (¬c ∧ y = .ok a) := by
  split_ifs with h <;> simp [h]

/-- Two sequences with the same first step agree when what follows its results does. -/
theorem bind_congr_ok {x y : Except ε α} {f g : α → Except ε β} (hx : x = y)
    (hf : ∀ a, y = .ok a → f a = g a) : x >>= f = y >>= g := by
  subst hx
  cases x with
  | error e => rfl
  | ok a => exact hf a rfl

/-- Building a result from a computation. -/
theorem build_eq_ok {x : Except ε α} {f : α → β} {b : β} :
    (do return f (← x)) = Except.ok b ↔ ∃ a, x = .ok a ∧ f a = b := by
  simp only [bind_eq_ok, pure_eq_ok]

theorem build_bind {γ : Type u} (x : Except ε α) (f : α → β) (g : β → Except ε γ) :
    (do return f (← x)) >>= g = (do g (f (← x))) := by
  simp only [bind_assoc, pure_bind]

/-- Building a result from two computations. -/
theorem build₂_eq_ok {γ : Type u} {x : Except ε α} {y : Except ε β} {f : α → β → γ} {c : γ} :
    (do return f (← x) (← y)) = Except.ok c ↔ ∃ a, x = .ok a ∧ ∃ b, y = .ok b ∧ f a b = c := by
  simp only [bind_eq_ok, pure_eq_ok]

theorem build₂_bind {γ δ : Type u} (x : Except ε α) (y : Except ε β) (f : α → β → γ)
    (g : γ → Except ε δ) : (do return f (← x) (← y)) >>= g = (do g (f (← x) (← y))) := by
  simp only [bind_assoc, pure_bind]

/-- `if c { return Err(e) }`. -/
def failIf (c : Prop) [Decidable c] (e : ε) : Except ε Unit := if c then .error e else .ok ()

theorem failIf_eq_ok {c : Prop} [Decidable c] {e : ε} {u : Unit} : failIf c e = .ok u ↔ ¬c := by
  unfold failIf
  split_ifs with h <;> simp [h]

theorem failIf_neg {c : Prop} [Decidable c] (h : ¬c) (e : ε) : failIf c e = .ok () := if_neg h

/-- `x.ok_or(e)`. -/
def okOr (e : ε) : Option α → Except ε α
  | some a => .ok a
  | none => .error e

theorem okOr_eq_ok {e : ε} {x : Option α} {a : α} : okOr e x = .ok a ↔ x = some a := by
  cases x <;> simp [okOr]

/-- Each step of a fold that succeeds does. -/
theorem foldlM_cons_eq_ok {f : β → α → Except ε β} {a : α} {as : List α} {b c : β} :
    (a :: as).foldlM f b = .ok c ↔ ∃ b', f b a = .ok b' ∧ as.foldlM f b' = .ok c := by
  rw [List.foldlM_cons, bind_eq_ok]

/-- A list of computations succeeds when each of them does. -/
theorem mapM_eq_ok {f : α → Except ε β} {as : List α} {bs : List β} :
    as.mapM f = .ok bs ↔ as.map f = bs.map Except.ok := by
  induction as generalizing bs with
  | nil =>
    rw [List.mapM_nil, pure_eq_ok, List.map_nil, eq_comm, eq_comm (a := []), List.map_eq_nil_iff]
  | cons a as ih =>
    rw [List.mapM_cons, List.map_cons]
    simp only [bind_eq_ok, pure_eq_ok, ih]
    constructor
    · rintro ⟨b, hb, rest, hrest, rfl⟩
      rw [hb, hrest, List.map_cons]
    · intro h
      cases bs with
      | nil => cases h
      | cons b bs =>
        obtain ⟨hb, hrest⟩ := List.cons.inj h
        exact ⟨b, hb, bs, hrest, rfl⟩

/-! ### Computations that do not fail in a given way -/

/-- The computation does not fail with `e`. -/
def Avoids (x : Except ε α) (e : ε) : Prop := x ≠ .error e

variable {x : Except ε α} {f : α → Except ε β} {e e' : ε}

theorem avoids_ok (a : α) : (ok a : Except ε α).Avoids e := nofun

theorem avoids_error (h : e' ≠ e) : (error e' : Except ε α).Avoids e := fun heq => h (error.inj heq)

/-- A sequence avoids what both of its steps avoid, the second one on results of the first. -/
theorem Avoids.bind (hx : x.Avoids e) (hf : ∀ a, x = .ok a → (f a).Avoids e) : (x >>= f).Avoids e := by
  cases x with
  | error e' => exact fun heq => hx (congrArg error (error.inj heq))
  | ok a => exact hf a rfl

theorem Avoids.of_ok {a : α} (h : x = .ok a) : x.Avoids e := h ▸ avoids_ok a

theorem avoids_failIf {c : Prop} [Decidable c] (h : c → e' ≠ e) : (failIf c e').Avoids e := by
  unfold failIf
  split_ifs with hc
  · exact avoids_error (h hc)
  · exact avoids_ok ()

/-- A branch avoids what both of its sides avoid. -/
theorem avoids_ite {c : Prop} [Decidable c] {y : Except ε α} (hx : x.Avoids e) (hy : y.Avoids e) :
    (if c then x else y).Avoids e := by
  split_ifs
  · exact hx
  · exact hy

theorem avoids_okOr {o : Option α} (h : o = none → e' ≠ e) : (okOr e' o).Avoids e := by
  cases o with
  | none => exact avoids_error (h rfl)
  | some a => exact avoids_ok a

/-! ### Results without their errors

Two computations with errors of different types are compared by their results. -/

section ToOption

variable {x : Except ε α} {f : α → Except ε β} {δ : Type*}

@[simp]
theorem toOption_ok (a : α) : (ok a : Except ε α).toOption = some a := rfl

@[simp]
theorem toOption_error (e : ε) : (error e : Except ε α).toOption = none := rfl

@[simp]
theorem toOption_pure (a : α) : (pure a : Except ε α).toOption = some a := rfl

theorem toOption_eq_some {a : α} : x.toOption = some a ↔ x = .ok a := by
  cases x <;> simp

/-- The result of a sequence. -/
theorem toOption_bind (x : Except ε α) (f : α → Except ε β) :
    (x >>= f).toOption = x.toOption.bind fun a => (f a).toOption := by
  cases x <;> rfl

/-- A guard that stops a computation leaves it without a result. -/
theorem toOption_failIf_bind {γ : Type} {c : Prop} [Decidable c] (e : ε) (f : Unit → Except ε γ) :
    (failIf c e >>= f).toOption = if c then none else (f ()).toOption := by
  unfold failIf
  split_ifs <;> rfl

theorem toOption_okOr (e : ε) (o : Option α) : (okOr e o).toOption = o := by
  cases o <;> rfl

/-- Two guards under the same condition, with what they guard. -/
theorem toOption_guard {γ : Type} {c c' : Prop} [Decidable c] [Decidable c'] (hc : c ↔ c') {e : ε} {e' : δ}
    {f : Unit → Except ε γ} {g : Unit → Except δ γ} (h : ¬c → (f ()).toOption = (g ()).toOption) :
    (failIf c e >>= f).toOption = (failIf c' e' >>= g).toOption := by
  rw [toOption_failIf_bind, toOption_failIf_bind]
  by_cases hcase : c
  · rw [if_pos hcase, if_pos (hc.mp hcase)]
  · rw [if_neg hcase, if_neg fun hcase' => hcase (hc.mpr hcase')]
    exact h hcase

/-- Two first steps with the same result, and what follows it. -/
theorem toOption_bind_congr {γ : Type u} {y : Except δ γ} {g : γ → Except δ β} {same : α → γ}
    (hxy : y.toOption = x.toOption.map same)
    (h : ∀ a, x = .ok a → (g (same a)).toOption = (f a).toOption) :
    (y >>= g).toOption = (x >>= f).toOption := by
  rw [toOption_bind, toOption_bind, hxy]
  cases x with
  | error e => rfl
  | ok a => exact h a rfl

/-- The results of a list of computations. -/
theorem toOption_mapM (l : List α) (f : α → Except ε β) :
    (l.mapM f).toOption = l.mapM fun a => (f a).toOption := by
  induction l with
  | nil => rfl
  | cons a l ih =>
    rw [List.mapM_cons, List.mapM_cons, toOption_bind]
    refine congrArg _ (funext fun b => ?_)
    rw [toOption_bind, ih]
    rfl

end ToOption

end Except

/-! ### Lists of computations that may have no result -/

namespace List

universe u

variable {α : Type*} {β γ : Type u} {f f' : α → Option β} {l : List α}

theorem mapM_option_congr (h : ∀ a ∈ l, f a = f' a) : l.mapM f = l.mapM f' := by
  induction l with
  | nil => rfl
  | cons a l ih =>
    rw [mapM_cons, mapM_cons, h a mem_cons_self, ih fun b hb => h b (mem_cons_of_mem a hb)]

/-- There is no list of results when one of them is missing. -/
theorem mapM_eq_none {a : α} (ha : a ∈ l) (h : f a = none) : l.mapM f = none := by
  induction l with
  | nil => cases ha
  | cons b l ih =>
    rw [mapM_cons]
    rcases mem_cons.mp ha with rfl | ha
    · rw [h]
      rfl
    · rw [ih ha]
      cases f b <;> rfl

/-- Every computation of a list has its result in the list of results. -/
theorem exists_mem_of_mapM {bs : List β} (h : l.mapM f = some bs) {a : α} (ha : a ∈ l) : ∃ b ∈ bs, f a = some b := by
  induction l generalizing bs with
  | nil => cases ha
  | cons c l ih =>
    rw [mapM_cons] at h
    obtain ⟨b, hb, h⟩ := Option.bind_eq_some_iff.mp h
    obtain ⟨rest, hrest, h⟩ := Option.bind_eq_some_iff.mp h
    obtain rfl := Option.some.inj h
    rcases mem_cons.mp ha with rfl | ha
    · exact ⟨b, mem_cons_self, hb⟩
    · obtain ⟨b', hmem, heq⟩ := ih hrest ha
      exact ⟨b', mem_cons_of_mem b hmem, heq⟩

/-- What is made of every result. -/
theorem mapM_map_option (f : α → Option β) (g : β → γ) (l : List α) :
    l.mapM (fun a => (f a).map g) = (l.mapM f).map (map g) := by
  induction l with
  | nil => rfl
  | cons a l ih =>
    rw [mapM_cons, mapM_cons, ih]
    cases f a with
    | none => rfl
    | some b => cases l.mapM f <;> rfl

end List

namespace UInt64

/-- The sum, unless it is `2^64` or more. -/
def checkedAdd (a b : UInt64) : Option UInt64 := if a.toNat + b.toNat < 2 ^ 64 then some (a + b) else none

/-- The difference, unless it is negative. -/
def checkedSub (a b : UInt64) : Option UInt64 := if b.toNat ≤ a.toNat then some (a - b) else none

/-- The product, unless it is `2^64` or more. -/
def checkedMul (a b : UInt64) : Option UInt64 := if a.toNat * b.toNat < 2 ^ 64 then some (a * b) else none

theorem checkedAdd_eq_some {a b c : UInt64} : a.checkedAdd b = some c ↔ a.toNat + b.toNat = c.toNat := by
  have hc := c.toNat_lt
  unfold checkedAdd
  split_ifs with h
  · rw [Option.some.injEq, ← UInt64.toNat_inj, UInt64.toNat_add, Nat.mod_eq_of_lt h]
  · simp only [false_iff]
    omega

theorem checkedSub_eq_some {a b c : UInt64} : a.checkedSub b = some c ↔ a.toNat = b.toNat + c.toNat := by
  unfold checkedSub
  split_ifs with h
  · rw [Option.some.injEq, ← UInt64.toNat_inj, UInt64.toNat_sub_of_le _ _ h]
    omega
  · simp only [false_iff]
    omega

theorem checkedMul_eq_some {a b c : UInt64} : a.checkedMul b = some c ↔ a.toNat * b.toNat = c.toNat := by
  have hc := c.toNat_lt
  unfold checkedMul
  split_ifs with h
  · rw [Option.some.injEq, ← UInt64.toNat_inj, UInt64.toNat_mul, Nat.mod_eq_of_lt h]
  · simp only [false_iff]
    omega

end UInt64

namespace UInt32

/-- The sum, unless it is `2^32` or more. -/
def checkedAdd (a b : UInt32) : Option UInt32 := if a.toNat + b.toNat < 2 ^ 32 then some (a + b) else none

/-- The difference, unless it is negative. -/
def checkedSub (a b : UInt32) : Option UInt32 := if b.toNat ≤ a.toNat then some (a - b) else none

theorem checkedAdd_eq_some {a b c : UInt32} : a.checkedAdd b = some c ↔ a.toNat + b.toNat = c.toNat := by
  have hc := c.toNat_lt
  unfold checkedAdd
  split_ifs with h
  · rw [Option.some.injEq, ← UInt32.toNat_inj, UInt32.toNat_add, Nat.mod_eq_of_lt h]
  · simp only [false_iff]
    omega

theorem checkedSub_eq_some {a b c : UInt32} : a.checkedSub b = some c ↔ a.toNat = b.toNat + c.toNat := by
  unfold checkedSub
  split_ifs with h
  · rw [Option.some.injEq, ← UInt32.toNat_inj, UInt32.toNat_sub_of_le _ _ h]
    omega
  · simp only [false_iff]
    omega

theorem checkedSub_isSome {a b : UInt32} (h : b.toNat ≤ a.toNat) : ∃ c, a.checkedSub b = some c :=
  ⟨_, if_pos h⟩

end UInt32

namespace UInt8

/-- The sum, unless it is `2^8` or more. -/
def checkedAdd (a b : UInt8) : Option UInt8 := if a.toNat + b.toNat < 2 ^ 8 then some (a + b) else none

theorem checkedAdd_eq_some {a b c : UInt8} : a.checkedAdd b = some c ↔ a.toNat + b.toNat = c.toNat := by
  have hc := c.toNat_lt
  unfold checkedAdd
  split_ifs with h
  · rw [Option.some.injEq, ← UInt8.toNat_inj, UInt8.toNat_add, Nat.mod_eq_of_lt h]
  · simp only [false_iff]
    omega

end UInt8
