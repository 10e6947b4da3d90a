import SolanaGacha.Lib.Packing
import SolanaGacha.Sdk.Instructions
import SolanaGacha.Sdk.Kit

/-!
# Transactions of the SDKs

`batches` of both SDKs is a greedy packing (`Packed`) of the initial group and the instructions after it. It
fails when a part is too large on its own, and only then; otherwise its groups are the instructions in order,
each as full as the next instruction allows (`batches_pack`).
-/

namespace SolanaGacha

open Except

/-- `batches` of the TypeScript SDK, for any type of instructions. -/
def GachaKit.batches {ι : Type} (transactionSize : List ι → Pubkey → ℕ) (initial instructions : List ι)
    (payer : Pubkey) : Except GachaKit.Thrown (List (List ι)) :=
  GachaRust.batchesOf (fun group => transactionSize group payer) .other (.client .transactionTooLarge) initial
    instructions

section Packing

variable {ι ε : Type} {size : List ι → ℕ} (missing tooLarge : ε) {initial : List ι}

/-- The loop from groups that are packed: it fails when an instruction is too large on its own, and otherwise
packs them all. -/
theorem batchLoop_packed (hsize : Monotonic size) {groups : List (List ι)} {last : List ι}
    (h : Packed size 1232 initial (groups ++ [last])) (instructions : List ι) :
    (GachaRust.batchLoop size missing tooLarge (groups ++ [last]) instructions = .error tooLarge ∧
        ∃ ix ∈ instructions, 1232 < size [ix]) ∨
      ∃ packed, GachaRust.batchLoop size missing tooLarge (groups ++ [last]) instructions = .ok packed ∧
        (∀ ix ∈ instructions, size [ix] ≤ 1232) ∧ Packed size 1232 initial packed ∧
        packed.flatten = (groups ++ [last]).flatten ++ instructions := by
  induction instructions generalizing groups last with
  | nil => exact .inr ⟨_, rfl, fun _ hmem => absurd hmem List.not_mem_nil, h, (List.append_nil _).symm⟩
  | cons ix instructions ih =>
    have hsplit : (last ++ [ix]).length - 1 = last.length := by simp
    unfold GachaRust.batchLoop
    rw [List.getLast?_concat]
    simp only [okOr, ok_bind, List.dropLast_concat, hsplit, List.drop_left, List.take_left]
    by_cases hlast : 1232 < size (last ++ [ix])
    · rw [if_pos hlast]
      by_cases hlarge : 1232 < size [ix]
      · have hfail : failIf (1232 < size [ix]) tooLarge = .error tooLarge := if_pos hlarge
        rw [hfail]
        exact .inl ⟨rfl, ix, List.mem_cons_self, hlarge⟩
      rw [failIf_neg hlarge, ok_bind]
      have hopens := h.opens hlast (Nat.not_lt.mp hlarge)
      rw [show groups ++ [last, [ix]] = groups ++ [last] ++ [[ix]] by simp] at hopens ⊢
      obtain ⟨herror, ix', hmem, hlt⟩ | ⟨packed, hok, hall, hpacked, hflatten⟩ := ih hopens
      · exact .inl ⟨herror, ix', List.mem_cons_of_mem _ hmem, hlt⟩
      · refine .inr ⟨packed, hok, ?_, hpacked, by simp [hflatten]⟩
        intro ix' hmem
        rcases List.mem_cons.mp hmem with rfl | hmem
        · exact Nat.not_lt.mp hlarge
        · exact hall ix' hmem
    · rw [if_neg hlast]
      have hjoin := h.join (Nat.not_lt.mp hlast)
      obtain ⟨herror, ix', hmem, hlt⟩ | ⟨packed, hok, hall, hpacked, hflatten⟩ := ih hjoin
      · exact .inl ⟨herror, ix', List.mem_cons_of_mem _ hmem, hlt⟩
      · refine .inr ⟨packed, hok, ?_, hpacked, by simp [hflatten]⟩
        intro ix' hmem
        rcases List.mem_cons.mp hmem with rfl | hmem
        · exact (hsize.last_le last ix').trans (Nat.not_lt.mp hlast)
        · exact hall ix' hmem

/-- The groups of `batches`: the initial group and the instructions in order, in groups that are not empty and
fit, from one that extends the initial group, and none with room for the first instruction of the next. -/
structure Batched (size : List ι → ℕ) (initial instructions : List ι) (groups : List (List ι)) : Prop where
  flatten : groups.flatten = initial ++ instructions
  nonempty : ∀ group ∈ groups, group ≠ []
  fits : ∀ group ∈ groups, size group ≤ 1232
  starts : ∀ first, groups.head? = some first → initial <+: first
  full : ∀ i group next, groups[i]? = some group → groups[i + 1]? = some next →
    ∃ ix, next.head? = some ix ∧ 1232 < size (group ++ [ix])

theorem Packed.batched (hsize : Monotonic size) {instructions : List ι} {groups : List (List ι)}
    (h : Packed size 1232 initial groups) (hflatten : groups.flatten = initial ++ instructions) :
    Batched size initial instructions (groups.filter fun group => !group.isEmpty) := by
  obtain hfilter | rfl := h.filter hsize
  · rw [hfilter]
    refine ⟨hflatten, fun group hmem => ?_, h.fits, fun first hfirst => ?_, fun i group next hi hnext => ?_⟩
    · rw [← hfilter] at hmem
      simpa using (List.mem_filter.mp hmem).2
    · obtain ⟨first', rest, rfl, hstart⟩ := h.starts
      obtain rfl := Option.some.inj hfirst
      exact hstart
    · obtain ⟨hlt, rfl⟩ := List.getElem?_eq_some_iff.mp hi
      obtain ⟨hlt', rfl⟩ := List.getElem?_eq_some_iff.mp hnext
      obtain ⟨ix, rest, hcons, hfull⟩ := h.full.getElem i hlt'
      exact ⟨ix, by rw [hcons]; rfl, hfull⟩
  · obtain ⟨rfl, rfl⟩ := List.append_eq_nil_iff.mp hflatten.symm
    refine ⟨rfl, ?_, ?_, ?_, ?_⟩
    all_goals simp

/-- `batches` fails when a part is too large on its own, and packs the instructions otherwise. -/
theorem batchesOf_eq (hsize : Monotonic size) (initial instructions : List ι) :
    ((1232 < size initial ∨ ∃ ix ∈ instructions, 1232 < size [ix]) ∧
        GachaRust.batchesOf size missing tooLarge initial instructions = .error tooLarge) ∨
      ¬(1232 < size initial ∨ ∃ ix ∈ instructions, 1232 < size [ix]) ∧
        ∃ groups, GachaRust.batchesOf size missing tooLarge initial instructions = .ok groups ∧
          Batched size initial instructions groups := by
  unfold GachaRust.batchesOf
  by_cases hinitial : 1232 < size initial
  · have hfail : failIf (1232 < size initial) tooLarge = .error tooLarge := if_pos hinitial
    rw [hfail]
    exact .inl ⟨.inl hinitial, rfl⟩
  rw [failIf_neg hinitial, ok_bind]
  obtain ⟨herror, hlarge⟩ | ⟨packed, hok, hall, hpacked, hflatten⟩ := batchLoop_packed missing tooLarge hsize
    (show Packed size 1232 initial ([] ++ [initial]) from .single (Nat.not_lt.mp hinitial)) instructions
  · rw [List.nil_append] at herror
    rw [herror]
    exact .inl ⟨.inr hlarge, rfl⟩
  · rw [List.nil_append] at hok hflatten
    rw [hok]
    refine .inr ⟨?_, _, rfl, hpacked.batched hsize (by simpa using hflatten)⟩
    rintro (hlt | ⟨ix, hmem, hlt⟩)
    · exact hinitial hlt
    · have := hall ix hmem
      omega

end Packing

/-- For any initial group, instructions and payer, and sizes that do not decrease when an instruction is added
at either end of a group: `batches` of both SDKs fails with `TransactionTooLarge` exactly when the initial group
or some instruction alone is too large, and otherwise loses, reorders and oversizes nothing. -/
theorem batches_pack {ι : Type} (transactionSize : List GachaRust.Instruction → Pubkey → ℕ)
    (kitTransactionSize : List ι → Pubkey → ℕ) (payer : Pubkey)
    (hsize : Monotonic fun group => transactionSize group payer)
    (hkit : Monotonic fun group => kitTransactionSize group payer) :
    (∀ initial instructions,
      (GachaRust.batches transactionSize initial instructions payer = .error (.error .transactionTooLarge) ↔
        1232 < transactionSize initial payer ∨ ∃ ix ∈ instructions, 1232 < transactionSize [ix] payer) ∧
      (¬(1232 < transactionSize initial payer ∨ ∃ ix ∈ instructions, 1232 < transactionSize [ix] payer) →
        ∃ groups, GachaRust.batches transactionSize initial instructions payer = .ok groups ∧
          Batched (fun group => transactionSize group payer) initial instructions groups)) ∧
    ∀ initial instructions,
      (GachaKit.batches kitTransactionSize initial instructions payer = .error (.client .transactionTooLarge) ↔
        1232 < kitTransactionSize initial payer ∨ ∃ ix ∈ instructions, 1232 < kitTransactionSize [ix] payer) ∧
      (¬(1232 < kitTransactionSize initial payer ∨ ∃ ix ∈ instructions, 1232 < kitTransactionSize [ix] payer) →
        ∃ groups, GachaKit.batches kitTransactionSize initial instructions payer = .ok groups ∧
          Batched (fun group => kitTransactionSize group payer) initial instructions groups) := by
  constructor
  · intro initial instructions
    unfold GachaRust.batches
    obtain ⟨hlarge, herror⟩ | ⟨hsmall, groups, hok, hbatched⟩ := batchesOf_eq GachaRust.Fault.panicked
      (GachaRust.Fault.error .transactionTooLarge) hsize initial instructions
    · exact ⟨iff_of_true herror hlarge, fun hsmall => absurd hlarge hsmall⟩
    · rw [hok]
      exact ⟨iff_of_false (fun h => nomatch h) hsmall, fun _ => ⟨groups, rfl, hbatched⟩⟩
  · intro initial instructions
    unfold GachaKit.batches
    obtain ⟨hlarge, herror⟩ | ⟨hsmall, groups, hok, hbatched⟩ := batchesOf_eq GachaKit.Thrown.other
      (GachaKit.Thrown.client .transactionTooLarge) hkit initial instructions
    · exact ⟨iff_of_true herror hlarge, fun hsmall => absurd hlarge hsmall⟩
    · rw [hok]
      exact ⟨iff_of_false (fun h => nomatch h) hsmall, fun _ => ⟨groups, rfl, hbatched⟩⟩

/-- Three instructions of 500 bytes each, behind an empty initial group: two fit in a transaction. -/
theorem batches_pack_sample :
    GachaKit.batches (fun group _ => 500 * group.length) [] [1, 2, 3] systemId = .ok [[1, 2], [3]] ∧
      Batched (fun group => 500 * group.length) [] [1, 2, 3] [[1, 2], [3]] := by
  have hsize : ∀ ι : Type, Monotonic fun group : List ι => 500 * group.length := fun ι =>
    ⟨fun group a => by simp, fun group a => by simp⟩
  have hpack := (batches_pack (fun group _ => 500 * group.length) (fun group _ => 500 * group.length) systemId
    (hsize GachaRust.Instruction) (hsize ℕ)).2 [] [1, 2, 3]
  have hrun : GachaKit.batches (fun group _ => 500 * group.length) [] [1, 2, 3] systemId =
    .ok [[1, 2], [3]] := by decide
  obtain ⟨groups, hok, hbatched⟩ := hpack.2 (by decide)
  obtain rfl := Except.ok.inj (hrun.symm.trans hok)
  exact ⟨hrun, hbatched⟩

end SolanaGacha
