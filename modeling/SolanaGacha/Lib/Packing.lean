import Mathlib.Data.List.Chain

/-!
# Packing a list into groups

A list is packed greedily into groups of bounded size: an element joins the last group when the group still
fits, and opens the next one otherwise. `Packed` is what such a packing keeps, and `Packed.join` and
`Packed.opens` are the two things that happen to it. When no group outgrows its parts, the packing has no
empty groups but for an empty start (`Packed.filter`).
-/

namespace SolanaGacha

variable {α : Type*}

/-- A size that does not decrease when an element is added at either end. -/
structure Monotonic (size : List α → ℕ) : Prop where
  append : ∀ group a, size group ≤ size (group ++ [a])
  prepend : ∀ group a, size group ≤ size (a :: group)

/-- Groups that fit, from a first one that extends `initial`; the first element of each other group would not
have fitted in the group before it. -/
structure Packed (size : List α → ℕ) (limit : ℕ) (initial : List α) (groups : List (List α)) : Prop where
  starts : ∃ first rest, groups = first :: rest ∧ initial <+: first
  fits : ∀ group ∈ groups, size group ≤ limit
  full : groups.IsChain fun group next => ∃ a rest, next = a :: rest ∧ limit < size (group ++ [a])

namespace Monotonic

variable {size : List α → ℕ} (h : Monotonic size)
include h

/-- An element is no larger than a group that ends with it. -/
theorem last_le (group : List α) (a : α) : size [a] ≤ size (group ++ [a]) := by
  induction group with
  | nil => exact le_rfl
  | cons b group ih => exact ih.trans (h.prepend _ b)

/-- An element is no larger than a group that starts with it. -/
theorem head_le (a : α) (group : List α) : size [a] ≤ size (a :: group) := by
  induction group using List.reverseRecOn with
  | nil => exact le_rfl
  | append_singleton group b ih => exact ih.trans (h.append (a :: group) b)

end Monotonic

namespace Packed

variable {size : List α → ℕ} {limit : ℕ} {initial : List α} {groups : List (List α)} {last : List α}

/-- One group. -/
theorem single (h : size initial ≤ limit) : Packed size limit initial [initial] where
  starts := ⟨initial, [], rfl, List.prefix_rfl⟩
  fits _ hmem := List.mem_singleton.mp hmem ▸ h
  full := List.isChain_singleton _

/-- An element joins the last group. -/
theorem join (h : Packed size limit initial (groups ++ [last])) {a : α} (hfits : size (last ++ [a]) ≤ limit) :
    Packed size limit initial (groups ++ [last ++ [a]]) where
  starts := by
    obtain ⟨first, rest, heq, hstart⟩ := h.starts
    cases groups with
    | nil =>
      obtain ⟨rfl, rfl⟩ := List.cons.inj heq
      exact ⟨_, [], rfl, hstart.trans (List.prefix_append _ _)⟩
    | cons group groups =>
      obtain ⟨rfl, -⟩ := List.cons.inj heq
      exact ⟨group, _, rfl, hstart⟩
  fits group hmem := by
    rcases List.mem_append.mp hmem with hmem | hmem
    · exact h.fits group (List.mem_append_left _ hmem)
    · exact List.mem_singleton.mp hmem ▸ hfits
  full := by
    have hfull := h.full
    rw [List.isChain_append] at hfull ⊢
    refine ⟨hfull.1, List.isChain_singleton _, fun group hgroup next hnext => ?_⟩
    obtain rfl := Option.some.inj hnext
    obtain ⟨b, rest, rfl, hlt⟩ := hfull.2.2 group hgroup last rfl
    exact ⟨b, rest ++ [a], rfl, hlt⟩

/-- An element opens the next group. -/
theorem opens (h : Packed size limit initial (groups ++ [last])) {a : α} (hlast : limit < size (last ++ [a]))
    (hfits : size [a] ≤ limit) : Packed size limit initial (groups ++ [last, [a]]) where
  starts := by
    obtain ⟨first, rest, heq, hstart⟩ := h.starts
    exact ⟨first, rest ++ [[a]], by rw [← List.cons_append, ← heq, List.append_assoc]; rfl, hstart⟩
  fits group hmem := by
    rw [show groups ++ [last, [a]] = groups ++ [last] ++ [[a]] by simp] at hmem
    rcases List.mem_append.mp hmem with hmem | hmem
    · exact h.fits group hmem
    · exact List.mem_singleton.mp hmem ▸ hfits
  full := by
    rw [show groups ++ [last, [a]] = groups ++ [last] ++ [[a]] by simp, List.isChain_append]
    refine ⟨h.full, List.isChain_singleton _, fun group hgroup next hnext => ?_⟩
    obtain rfl := Option.some.inj hnext
    rw [List.getLast?_concat] at hgroup
    obtain rfl := Option.some.inj hgroup
    exact ⟨a, [], rfl, hlast⟩

/-- Without the empty groups it is still packed: only an empty start, with nothing after it, is dropped. -/
theorem filter (h : Packed size limit initial groups) (hsize : Monotonic size) :
    (groups.filter fun group => !group.isEmpty) = groups ∨ groups = [[]] := by
  obtain ⟨first, rest, rfl, -⟩ := h.starts
  have hrest : ∀ group ∈ rest, group ≠ [] := by
    have hfull := h.full
    clear h
    induction rest generalizing first with
    | nil => exact fun _ hmem => absurd hmem List.not_mem_nil
    | cons next rest ih =>
      rw [List.isChain_cons_cons] at hfull
      obtain ⟨⟨a, tail, rfl, -⟩, hchain⟩ := hfull
      intro group hmem
      rcases List.mem_cons.mp hmem with rfl | hmem
      · exact List.cons_ne_nil a tail
      · exact ih _ hchain group hmem
  by_cases hfirst : first = []
  · right
    subst hfirst
    cases rest with
    | nil => rfl
    | cons next rest =>
      -- The element that opened the next group would have fitted alone.
      have hfull := h.full
      rw [List.isChain_cons_cons] at hfull
      obtain ⟨a, tail, rfl, hlt⟩ := hfull.1
      have hle := h.fits (a :: tail) (by simp)
      have := hsize.head_le a tail
      rw [List.nil_append] at hlt
      omega
  · left
    apply List.filter_eq_self.mpr
    intro group hmem
    have hne : group ≠ [] := by
      rcases List.mem_cons.mp hmem with rfl | hmem
      · exact hfirst
      · exact hrest group hmem
    simpa using hne

end Packed

end SolanaGacha
