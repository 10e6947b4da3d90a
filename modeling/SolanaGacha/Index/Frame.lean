import SolanaGacha.Program.Inventory

/-!
# The methods of the index keep its length

Every method writes inside of the data that it is given, whatever that holds, and whether it succeeds
or fails. So a handler that stores the index back leaves a pool account as long as it was.
-/

namespace SolanaGacha

open Except Layout

namespace InventoryM

/-- The computation leaves an index of the same length, also when it fails. -/
def KeepsLength {α : Type} (m : InventoryM α) : Prop :=
  ∀ inventory, (m inventory).2.data.length = inventory.data.length

theorem keepsLength_pure {α : Type} (a : α) : KeepsLength (pure a : InventoryM α) := fun _ => rfl

theorem keepsLength_read {α : Type} (f : Inventory → Except Fault α) : KeepsLength (read f) :=
  fun _ => rfl

theorem keepsLength_set (i : ℕ) (b : UInt8) : KeepsLength (modify fun data => data.set i b) :=
  fun _ => List.length_set

theorem KeepsLength.bind {α β : Type} {m : InventoryM α} {f : α → InventoryM β} (hm : KeepsLength m)
    (hf : ∀ a, KeepsLength (f a)) : KeepsLength (m >>= f) := by
  intro inventory
  rw [bind_run]
  have hlen := hm inventory
  cases hrun : m inventory with
  | mk result inventory' =>
    rw [hrun] at hlen
    cases result with
    | ok a => exact (hf a inventory').trans hlen
    | error e => exact hlen

theorem KeepsLength.run {α : Type} {m : InventoryM α} (hm : KeepsLength m) {inventory inventory' : Inventory}
    {a : α} (h : m.run inventory = .ok (a, inventory')) :
    inventory'.data.length = inventory.data.length := by
  rw [← hm inventory, run_eq_ok.mp h]

end InventoryM

namespace Inventory

open InventoryM

theorem keepsLength_setCount (node tier : ℕ) (c : UInt32) : KeepsLength (setCount node tier c) := by
  intro inventory
  rw [setCount, bind_run, InventoryM.read]
  simp only [failIf]
  by_cases h : node = 0 ∨ inventory.data.length < countOffset node tier + 4
  · rw [if_pos h]
  · rw [if_neg h]
    exact u32.writeAt_length c inventory.data (by rw [u32_size]; omega)

theorem keepsLength_updateLoop (f : UInt32 → Option UInt32) (e : Fault) (tier blocks node : ℕ) :
    KeepsLength (updateLoop f e tier blocks node) := by
  generalize hgap : blocks + 1 - node = gap
  induction gap using Nat.strong_induction_on generalizing node with
  | _ gap ih =>
    rw [updateLoop]
    split_ifs with hle hbit
    · exact (keepsLength_read _).bind fun c => (keepsLength_read _).bind fun c' =>
        (keepsLength_setCount _ _ _).bind fun _ => ih _ (by omega) _ rfl
    · exact (keepsLength_read _).bind fun c => (keepsLength_read _).bind fun c' =>
        (keepsLength_setCount _ _ _).bind fun _ => keepsLength_read _
    · exact keepsLength_pure _

theorem keepsLength_initNode (node : ℕ) (newest oldest : Vector UInt32 8) (tiers : List ℕ) :
    KeepsLength (initNode node newest oldest tiers) := by
  induction tiers with
  | nil => exact keepsLength_pure _
  | cons tier tiers ih =>
    exact (keepsLength_read _).bind fun c => (keepsLength_setCount _ _ _).bind fun _ => ih

theorem keepsLength_openBlock (block offset : ℕ) : KeepsLength (openBlock block offset) := by
  rw [openBlock]
  split_ifs
  · exact (keepsLength_read _).bind fun newest => (keepsLength_read _).bind fun oldest =>
      keepsLength_initNode _ _ _ _
  · exact keepsLength_pure _

theorem keepsLength_append (position : UInt32) (tier : UInt8) : KeepsLength (append position tier) :=
  (keepsLength_openBlock _ _).bind fun _ => (keepsLength_read _).bind fun _ =>
    (keepsLength_read _).bind fun _ => (keepsLength_set _ _).bind fun _ =>
      (keepsLength_read _).bind fun _ => keepsLength_updateLoop _ _ _ _ _

theorem keepsLength_takeDescend (tier blocks step node : ℕ) (rank : UInt32) :
    KeepsLength (takeDescend tier blocks step node rank) := by
  induction step using Nat.strong_induction_on generalizing node rank with
  | _ step ih =>
    rw [takeDescend]
    split_ifs with hzero hnext
    · exact keepsLength_pure _
    · refine (keepsLength_read _).bind fun c => ?_
      split_ifs
      · exact ih _ (by omega) _ _
      · exact (keepsLength_setCount _ _ _).bind fun _ => ih _ (by omega) _ _
    · exact ih _ (by omega) _ _

theorem keepsLength_take (tier : UInt8) (rank : UInt32) : KeepsLength (take tier rank) := by
  refine (keepsLength_read _).bind fun blocks => (keepsLength_takeDescend _ _ _ _ _).bind fun found => ?_
  obtain ⟨node, left⟩ := found
  simp only
  split_ifs
  · exact keepsLength_read _
  · refine (keepsLength_read _).bind fun offset => ?_
    cases offset with
    | none => exact keepsLength_read _
    | some offset => exact (keepsLength_set _ _).bind fun _ => keepsLength_pure _

theorem keepsLength_remove (position : UInt32) (tier : UInt8) : KeepsLength (remove position tier) :=
  (keepsLength_read _).bind fun _ => (keepsLength_set _ _).bind fun _ =>
    (keepsLength_read _).bind fun _ => keepsLength_updateLoop _ _ _ _ _

end Inventory

end SolanaGacha
