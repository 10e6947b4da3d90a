import SolanaGacha.Ledger.Exact
import SolanaGacha.Ledger.Lamports

/-!
# Calls that succeed

When a cross-program invocation succeeds: its accounts have the privileges that it needs, and the called
program accepts it. The two transfers that the program signs for a pool, and the events, are such calls.
-/

namespace SolanaGacha

open Except Layout Inventory

@[simp]
theorem length_encode_u64 (n : UInt64) : (u64.encode n).length = 8 := u64.encode_length n

@[simp]
theorem length_encode_u32 (n : UInt32) : (u32.encode n).length = 4 := u32.encode_length n

/-- The index of a pool is loaded. -/
theorem Inventory.load_of_entry {accounts : Accounts} {P : Pubkey} {pool : Pool} {index : List UInt8}
    (h : accounts.ledger P = .pool pool index) : Inventory.load (accounts P) = .ok ⟨index⟩ := by
  obtain ⟨hload, hindex⟩ := Account.entry_eq_pool.mp h
  unfold Inventory.load
  rw [hload, ok_bind]
  exact congrArg (fun data => Except.ok (Inventory.mk data)) hindex

namespace Runtime

variable {rt : Runtime} {w : World}

/-- A signature of the program. -/
theorem signerKeys_single {seeds : List (List UInt8)} {key : Pubkey}
    (h : rt.createProgramAddress seeds programId = some key) : rt.signerKeys [seeds] = .ok [key] := by
  simp only [signerKeys, h, okOr, ok_bind, pure_bind]
  rfl

/-- A call that the program signs for one address. -/
theorem invokeSigned_isOk {metas : List AccountMeta} {seeds : List (List UInt8)} {key : Pubkey}
    {call : Accounts → Option Accounts} {accounts : Accounts}
    (hkey : rt.createProgramAddress seeds programId = some key)
    (hsigner : ∀ m ∈ metas, m.isSigner = true → m.info.isSigner = true ∨ m.info.key = key)
    (hwritable : ∀ m ∈ metas, m.isWritable = true → m.info.isWritable = true)
    (hcall : call w.accounts = some accounts) :
    rt.invokeSigned w metas [seeds] call = .ok { w with accounts } := by
  refine invokeSigned_eq_ok.mpr ⟨checkMetas_eq_ok.mpr ⟨[key], signerKeys_single hkey, ?_⟩, accounts,
    hcall, rfl⟩
  intro m hm
  exact ⟨fun hs => (hsigner m hm hs).imp_right List.mem_singleton.mpr, hwritable m hm⟩

/-- A payment that the program signs for the owner of the source. -/
theorem transferTokens_isOk (htokens : rt.TransfersTokens) {source destination authority : AccountInfo}
    {amount : UInt64} {seeds : List (List UInt8)} {s d : TokenAccount}
    (hseeds : rt.createProgramAddress seeds programId = some authority.key)
    (hs : w.ledger source.key = .token s) (hd : w.ledger destination.key = .token d)
    (howner : s.owner = authority.key) (hmint : s.mint = d.mint) (hamount : amount.toNat ≤ s.amount.toNat)
    (hfits : source.key ≠ destination.key → d.amount.toNat + amount.toNat < 2 ^ 64)
    (hsource : source.isWritable = true) (hdestination : destination.isWritable = true) :
    ∃ w', rt.transferTokens w source destination authority amount [seeds] = .ok w' := by
  obtain ⟨accounts, htransfer⟩ := htokens w.accounts source.key destination.key amount s d hs hd hmint
    (UInt64.le_iff_toNat_le.mpr hamount) hfits
  rw [howner] at htransfer
  exact ⟨_, invokeSigned_isOk hseeds (by simp) (by simp [hsource, hdestination]) htransfer⟩

/-- A transfer of an asset that the program signs for its owner. -/
theorem transferAsset_isOk (hassets : rt.TransfersAssets) {t : AssetTransfer} {seeds : List (List UInt8)}
    {asset : CoreAsset} (hseeds : rt.createProgramAddress seeds programId = some t.authority.key)
    (hasset : w.ledger t.asset.key = .asset asset) (howner : asset.owner = t.authority.key)
    (hcollection : t.collection.key = asset.collection.getD coreId)
    (hpayer : t.payer.isSigner = true ∧ t.payer.isWritable = true) (hwritable : t.asset.isWritable = true) :
    ∃ w', rt.transferAsset w t [seeds] = .ok w' := by
  obtain ⟨accounts, htransfer⟩ := hassets w.accounts t.asset.key t.payer.key t.newOwner.key asset hasset
  rw [howner, ← hcollection] at htransfer
  exact ⟨_, invokeSigned_isOk hseeds (by simp [hpayer.1]) (by simp [hpayer.2, hwritable]) htransfer⟩

/-- An event that fits its buffer is emitted, given the accounts of the event call. -/
theorem emit_eq (hrt : rt.Lawful) {size : ℕ} (discriminator : UInt8) {fields : List (List UInt8)}
    {authority program : AccountInfo} (hsize : (fields.map List.length).sum + 2 ≤ size)
    (hauthority : authority.key = eventAuthority) (hprogram : program.key = programId) :
    rt.emit w size discriminator fields authority program =
      .ok { w with events := w.events ++ [eventDiscriminator :: discriminator :: fields.flatten] } := by
  have hfits : ¬size < (eventDiscriminator :: discriminator :: fields.flatten).length := by
    rw [List.length_cons, List.length_cons, List.length_flatten]
    omega
  have hkeys : ¬(authority.key ≠ eventAuthority ∨ program.key ≠ programId) := by
    rw [not_or, not_not, not_not]
    exact ⟨hauthority, hprogram⟩
  have hmetas : rt.checkMetas [⟨authority, true, false⟩, ⟨program, false, false⟩]
      [[eventAuthoritySeed, [eventAuthorityBump]]] = .ok () := by
    refine checkMetas_eq_ok.mpr ⟨_, signerKeys_single hrt.eventAuthority_derived, ?_⟩
    simp [hauthority]
  have hevent : emitEvent [{ authority with isSigner := true }, program] = .ok () := by
    simp [emitEvent, failIf, hauthority]
  simp only [emit, eventData, failIf_neg hfits, failIf_neg hkeys, hmetas, hevent, ok_bind, pure_bind]
  rfl

end Runtime

end SolanaGacha
