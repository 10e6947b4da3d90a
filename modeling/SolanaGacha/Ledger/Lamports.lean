import SolanaGacha.Ledger.Call
import Mathlib.Algebra.BigOperators.Group.Finset.Basic
import Mathlib.Algebra.Order.BigOperators.Group.Finset

/-!
# Lamports

A supply below `2^64` backs all lamports (`Accounts.Backed`), so the sums that `close` checks fit. The
called programs move lamports and create none (`Runtime.Conserves`), and neither does the program: it
writes data, calls them, and closes accounts (`Call.process_backed`).
-/

namespace SolanaGacha

open Except Layout

/-- A supply of lamports below `2^64`: no set of accounts holds more. -/
def Accounts.Backed (accounts : Accounts) : Prop :=
  ∀ keys : Finset Pubkey, ∑ key ∈ keys, (accounts key).lamports.toNat < 2 ^ 64

namespace Accounts.Backed

variable {a a' : Accounts} (h : Accounts.Backed a)

include h

/-- Some accounts hold no more than before, and no other account does. -/
theorem of_sum (keys : Finset Pubkey)
    (hkeys : ∑ key ∈ keys, (a' key).lamports.toNat ≤ ∑ key ∈ keys, (a key).lamports.toNat)
    (hrest : ∀ key, key ∉ keys → (a' key).lamports = (a key).lamports) : Accounts.Backed a' := by
  intro s
  have hsub : keys ⊆ s ∪ keys := Finset.subset_union_right
  calc ∑ key ∈ s, (a' key).lamports.toNat
      ≤ ∑ key ∈ s ∪ keys, (a' key).lamports.toNat :=
        Finset.sum_le_sum_of_subset Finset.subset_union_left
    _ = ∑ key ∈ (s ∪ keys) \ keys, (a' key).lamports.toNat + ∑ key ∈ keys, (a' key).lamports.toNat :=
        (Finset.sum_sdiff hsub).symm
    _ ≤ ∑ key ∈ (s ∪ keys) \ keys, (a key).lamports.toNat + ∑ key ∈ keys, (a key).lamports.toNat := by
        refine Nat.add_le_add (Finset.sum_le_sum fun key hkey => ?_) hkeys
        rw [hrest key (Finset.mem_sdiff.mp hkey).2]
    _ = ∑ key ∈ s ∪ keys, (a key).lamports.toNat := Finset.sum_sdiff hsub
    _ < 2 ^ 64 := h _

/-- The lamports of every account stay the same. -/
theorem congr (hsame : ∀ key, (a' key).lamports = (a key).lamports) : Accounts.Backed a' :=
  h.of_sum ∅ le_rfl fun key _ => hsame key

/-- Two accounts together. -/
theorem pair {k k' : Pubkey} (hne : k ≠ k') :
    (a k).lamports.toNat + (a k').lamports.toNat < 2 ^ 64 := by
  have hsum := h {k, k'}
  rwa [Finset.sum_pair hne] at hsum

/-- One account beside some others. -/
theorem list {k : Pubkey} {keys : List Pubkey} (hk : k ∉ keys) (hnodup : keys.Nodup) :
    (a k).lamports.toNat + (keys.map fun key => (a key).lamports.toNat).sum < 2 ^ 64 := by
  have hsum := h (insert k keys.toFinset)
  rwa [Finset.sum_insert (by simpa using hk), List.sum_toFinset _ hnodup] at hsum

/-- A close moves all lamports of an account to its receiver. -/
theorem close {account receiver : Pubkey} (hclose : close a account receiver = .ok a') :
    Accounts.Backed a' := by
  simp only [SolanaGacha.close, bind_eq_ok, okOr_eq_ok, pure_eq_ok, UInt64.checkedAdd_eq_some] at hclose
  obtain ⟨lamports, hsum, rfl⟩ := hclose
  refine h.of_sum {account, receiver} ?_ fun key hkey => ?_
  · rcases eq_or_ne account receiver with rfl | hne
    · simp only [Finset.pair_eq_singleton, Finset.sum_singleton, Function.update_self]
      exact Nat.zero_le _
    · rw [Finset.sum_pair hne, Finset.sum_pair hne, Function.update_self, Function.update_of_ne hne.symm,
        Function.update_self, ← hsum]
      show 0 + _ ≤ _
      omega
  · rw [Finset.mem_insert, Finset.mem_singleton, not_or] at hkey
    rw [Function.update_of_ne hkey.1, Function.update_of_ne hkey.2]

end Accounts.Backed

/-! ## Writing data -/

namespace World

variable {w : World} {key : Pubkey}

theorem lamports_setData (data : List UInt8) (k : Pubkey) :
    ((w.setData key data).accounts k).lamports = (w.accounts k).lamports := by
  show (w.accounts.setData key data k).lamports = _
  rcases eq_or_ne k key with rfl | hk
  · rw [Accounts.setData_self]
  · rw [Accounts.setData_of_ne data hk]

/-- The lamports of a world are backed. -/
def Backed (w : World) : Prop := Accounts.Backed w.accounts

theorem Backed.setData (h : w.Backed) (data : List UInt8) : (w.setData key data).Backed :=
  Accounts.Backed.congr h (lamports_setData data)

theorem Backed.wait (h : w.Backed) (slot : UInt64) : World.Backed { w with slot } := h

theorem Backed.store {α : Type} (h : w.Backed) (layout : Layout α) (a : α) :
    (w.store layout key a).Backed :=
  h.setData _

theorem Backed.storeInventory (h : w.Backed) (inventory : Inventory) :
    (w.storeInventory key inventory).Backed :=
  h.setData _

end World

/-! ## Calls -/

/-- No called program creates lamports. -/
structure Runtime.Conserves (rt : Runtime) : Prop where
  createAccount : ∀ {a a' payer key lamports space owner},
    rt.createAccount a payer key lamports space owner = some a' → Accounts.Backed a → Accounts.Backed a'
  transferLamports : ∀ {a a' sender receiver lamports},
    rt.transferLamports a sender receiver lamports = some a' → Accounts.Backed a → Accounts.Backed a'
  allocate : ∀ {a a' key space}, rt.allocate a key space = some a' → Accounts.Backed a → Accounts.Backed a'
  assign : ∀ {a a' key owner}, rt.assign a key owner = some a' → Accounts.Backed a → Accounts.Backed a'
  tokenTransfer : ∀ {a a' source destination authority amount},
    rt.tokenTransfer a source destination authority amount = some a' → Accounts.Backed a → Accounts.Backed a'
  coreTransfer : ∀ {a a' asset collection payer authority newOwner},
    rt.coreTransfer a asset collection payer authority newOwner = some a' →
      Accounts.Backed a → Accounts.Backed a'

section Conserves

variable {rt : Runtime} (hrt : rt.Conserves) {w w' : World}

namespace Runtime

theorem invokeSigned_backed {metas : List AccountMeta} {signers : List (List (List UInt8))}
    {call : Accounts → Option Accounts}
    (hcall : ∀ {a'}, call w.accounts = some a' → w.Backed → Accounts.Backed a')
    (h : rt.invokeSigned w metas signers call = .ok w') (hw : w.Backed) : w'.Backed := by
  obtain ⟨-, accounts, haccounts, rfl⟩ := invokeSigned_eq_ok.mp h
  exact hcall haccounts hw

include hrt in
theorem fund_backed {payer account : AccountInfo} {missing : ℕ}
    (h : rt.fund w payer account missing = .ok w') (hw : w.Backed) : w'.Backed := by
  unfold fund at h
  split_ifs at h with hmissing
  · exact invokeSigned_backed hrt.transferLamports h hw
  · obtain rfl := Except.ok.inj h
    exact hw

include hrt in
theorem createPda_backed {payer account : AccountInfo} {space : ℕ} {seeds : List (List UInt8)}
    (h : rt.createPda w payer account space seeds = .ok w') (hw : w.Backed) : w'.Backed := by
  unfold createPda at h
  simp only at h
  split_ifs at h with hempty
  · exact invokeSigned_backed hrt.createAccount h hw
  · simp only [bind_eq_ok] at h
    obtain ⟨funded, hfund, allocated, hallocate, hassign⟩ := h
    have hfunded := fund_backed hrt hfund hw
    have hallocated := invokeSigned_backed hrt.allocate hallocate hfunded
    exact invokeSigned_backed hrt.assign hassign hallocated

include hrt in
theorem transferTokens_backed {source destination authority : AccountInfo} {amount : UInt64}
    {signers : List (List (List UInt8))}
    (h : rt.transferTokens w source destination authority amount signers = .ok w') (hw : w.Backed) :
    w'.Backed :=
  invokeSigned_backed hrt.tokenTransfer h hw

include hrt in
theorem transferAsset_backed {t : AssetTransfer} {signers : List (List (List UInt8))}
    (h : rt.transferAsset w t signers = .ok w') (hw : w.Backed) : w'.Backed :=
  invokeSigned_backed hrt.coreTransfer h hw

theorem emit_backed {size : ℕ} {discriminator : UInt8} {fields : List (List UInt8)}
    {authority program : AccountInfo}
    (h : rt.emit w size discriminator fields authority program = .ok w') (hw : w.Backed) : w'.Backed := by
  simp only [emit, bind_eq_ok, failIf_eq_ok, pure_eq_ok] at h
  obtain ⟨data, -, -, -, -, -, -, -, rfl⟩ := h
  exact hw

include hrt in
theorem pay_backed {pool vault destination : AccountInfo} {amount : UInt64}
    (h : rt.pay w pool vault destination amount = .ok w') (hw : w.Backed) : w'.Backed := by
  obtain ⟨header, -, htransfer⟩ := bind_eq_ok.mp h
  exact transferTokens_backed hrt htransfer hw

include hrt in
theorem growIndex_backed {payer pool : AccountInfo} {positions : UInt32}
    (h : rt.growIndex w payer pool positions = .ok w') (hw : w.Backed) : w'.Backed := by
  unfold growIndex at h
  simp only at h
  split_ifs at h with hspace
  · simp only [bind_eq_ok, pure_eq_ok] at h
    obtain ⟨funded, hfund, rfl⟩ := h
    exact (fund_backed hrt hfund hw).setData _
  · obtain rfl := pure_eq_ok.mp h
    exact hw

include hrt in
theorem restock_backed {payer pool item : AccountInfo} {asset : Pubkey} {tier bump : UInt8}
    (h : rt.restock w payer pool item asset tier bump = .ok w') (hw : w.Backed) : w'.Backed := by
  simp only [restock, bind_eq_ok, pure_eq_ok, Prod.exists] at h
  obtain ⟨header, -, positions, -, grown, hgrow, created, hcreate, new, -, header', -, inventory, -, _,
    inventory', -, header'', -, rfl⟩ := h
  have hgrown := growIndex_backed hrt hgrow (hw.store _ _)
  have hcreated := createPda_backed hrt hcreate hgrown
  exact ((hcreated.store _ _).store _ _).storeInventory _

theorem drawOne_backed {poolKey operator : Pubkey} {beta : FixedBytes 64} {s s' : DrawState} {i : ℕ}
    {info : AccountInfo} (h : rt.drawOne poolKey operator beta s i info = .ok s')
    (hs : Accounts.Backed s.accounts) : Accounts.Backed s'.accounts := by
  simp only [drawOne, bind_eq_ok, pure_eq_ok, Prod.exists] at h
  obtain ⟨tier, rank, -, position, inventory, -, count, -, left, -, item, -, _, -, pull, -, accounts,
    hclose, pool, -, rfl⟩ := h
  exact hs.close hclose

theorem drawLoop_backed {poolKey operator : Pubkey} {beta : FixedBytes 64} {items : List AccountInfo}
    {s s' : DrawState} {i : ℕ} (h : rt.drawLoop poolKey operator beta s i items = .ok s')
    (hs : Accounts.Backed s.accounts) : Accounts.Backed s'.accounts := by
  induction items generalizing s i with
  | nil =>
    obtain rfl := pure_eq_ok.mp h
    exact hs
  | cons info items ih =>
    obtain ⟨next, hone, hrest⟩ := bind_eq_ok.mp h
    exact ih hrest (drawOne_backed hone hs)

end Runtime

open Runtime

include hrt in
/-- No instruction of the program creates lamports. -/
theorem Call.process_backed {call : Call} (h : call.process rt w = .ok w') (hw : w.Backed) :
    w'.Backed := by
  cases call with
  | createPool a d =>
    simp only [process, CreatePool.process, bind_eq_ok] at h
    obtain ⟨key, -, _, -, vault, -, _, -, created, hcreate, new, -, hemit⟩ := h
    exact emit_backed hemit ((createPda_backed hrt hcreate hw).store _ _)
  | depositItem a d =>
    simp only [process, DepositItem.process, bind_eq_ok] at h
    obtain ⟨pool, -, position, -, stocked, hrestock, moved, htransfer, hemit⟩ := h
    exact emit_backed hemit (transferAsset_backed hrt htransfer (restock_backed hrt hrestock hw))
  | withdraw a d =>
    simp only [process, Withdraw.process, bind_eq_ok] at h
    obtain ⟨pool, -, free, -, _, -, paid, hpay, hemit⟩ := h
    exact emit_backed hemit (pay_backed hrt hpay hw)
  | setStatus a d =>
    simp only [process, SetStatus.process, bind_eq_ok] at h
    obtain ⟨pool, -, _, -, hemit⟩ := h
    exact emit_backed hemit (hw.store _ _)
  | reclaim a =>
    simp only [process, Reclaim.process, bind_eq_ok, Prod.exists] at h
    obtain ⟨item, -, pool, -, inventory, -, _, inventory', -, pool', -, moved, htransfer, accounts, hclose,
      hemit⟩ := h
    have hmoved := transferAsset_backed hrt htransfer ((hw.store _ _).storeInventory _)
    exact emit_backed hemit (Accounts.Backed.close hmoved hclose)
  | buy a d =>
    simp only [process, Buy.process, bind_eq_ok, Prod.exists] at h
    obtain ⟨key, -, _, -, pool, -, draws, amount, -, created, hcreate, new, -, deadline, -, next, -, paid,
      htransfer, hemit⟩ := h
    have hcreated := createPda_backed hrt hcreate hw
    exact emit_backed hemit (transferTokens_backed hrt htransfer ((hcreated.store _ _).store _ _))
  | refund a =>
    simp only [process, Refund.process, bind_eq_ok] at h
    obtain ⟨pool, -, pull, -, amount, -, draws, -, next, -, paid, htransfer, accounts, hclose, hemit⟩ := h
    have hpaid := transferTokens_backed hrt htransfer (hw.store _ _)
    exact emit_backed hemit (Accounts.Backed.close hpaid hclose)
  | buyback a d =>
    simp only [process, Buyback.process, bind_eq_ok] at h
    obtain ⟨pool, -, _, -, _, -, free, -, _, -, position, -, moved, htransfer, stocked, hrestock, paid, hpay,
      hemit⟩ := h
    have hmoved := transferAsset_backed hrt htransfer hw
    exact emit_backed hemit (pay_backed hrt hpay (restock_backed hrt hrestock hmoved))
  | settle a d =>
    simp only [process, Settle.process, bind_eq_ok] at h
    obtain ⟨pool, -, inventory, -, pull, -, beta, -, s, hdraw, draws, -, next, -, outcomes, -, hemit⟩ := h
    obtain ⟨available, -, hloop⟩ := bind_eq_ok.mp hdraw
    have hdrawn : World.Backed { w with accounts := s.accounts } := drawLoop_backed hloop hw
    exact emit_backed hemit (((hdrawn.store _ _).storeInventory _).store _ _)
  | deliver a d =>
    simp only [process, Deliver.process, bind_eq_ok] at h
    obtain ⟨pull, -, _, -, outcome, -, _, -, _, -, pool, -, moved, htransfer, marked, -, all, -, accounts,
      hclose, hemit⟩ := h
    have hmoved := transferAsset_backed hrt htransfer hw
    have hstored : (moved.store Pull.layout a.pull.key marked).Backed := hmoved.store Pull.layout marked
    split_ifs at hclose with hall
    · exact emit_backed hemit (Accounts.Backed.close hstored hclose)
    · obtain rfl := Except.ok.inj hclose
      exact emit_backed hemit hstored
  | event =>
    obtain rfl := pure_eq_ok.mp h
    exact hw

include hrt in
theorem processInstruction_backed {ix : Instruction} (h : processInstruction rt w ix = .ok w')
    (hw : w.Backed) : w'.Backed := by
  rw [processInstruction_eq] at h
  obtain ⟨call, -, hprocess⟩ := bind_eq_ok.mp h
  exact Call.process_backed hrt hprocess hw

end Conserves

end SolanaGacha
