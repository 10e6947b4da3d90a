import SolanaGacha.Program.Entrypoint

/-!
# A concrete runtime

A runtime to run the program on: the system, SPL Token and Core programs do what their documentation
says, and address derivation, SHA-256 and the two signature schemes are given by tables of known values.
`Localnet.runtime_lawful` shows that it obeys the laws of `Runtime.Lawful`, so the laws are consistent
and every result that assumes them applies to the runs of this runtime.
-/

namespace SolanaGacha

open Except Layout

/-- The known values of the functions that a run evaluates. Outside of the tables, no seeds derive an
address, every hash is zero, and no proof and no signature verifies. -/
structure Localnet where
  addresses : List ((List (List UInt8) × Pubkey) × Pubkey)
  hashes : List (List UInt8 × FixedBytes 32)
  proofs : List ((Pubkey × FixedBytes 32 × FixedBytes 80) × FixedBytes 64)
  signatures : List (Pubkey × FixedBytes 64 × List UInt8)
  /-- The address of the event authority is among the known ones. -/
  eventAuthority_known :
    addresses.lookup ([eventAuthoritySeed, [eventAuthorityBump]], programId) = some eventAuthority

namespace Localnet

/-- Move lamports, when the sender is a system account that has them. -/
def moveLamports (a : Accounts) (sender receiver : Pubkey) (lamports : UInt64) : Option Accounts := do
  guard ((a sender).owner = systemId)
  let left ← (a sender).lamports.checkedSub lamports
  let a := Function.update a sender { a sender with lamports := left }
  let sum ← (a receiver).lamports.checkedAdd lamports
  return Function.update a receiver { a receiver with lamports := sum }

/-- System `CreateAccount`, at an address that holds nothing. -/
def createAccount (a : Accounts) (payer key : Pubkey) (lamports : UInt64) (space : ℕ) (owner : Pubkey) :
    Option Accounts := do
  guard ((a key).lamports = 0 ∧ (a key).owner = systemId ∧ (a key).data = [])
  let a ← moveLamports a payer key lamports
  return Function.update a key ⟨owner, (a key).lamports, List.replicate space 0⟩

/-- System `Allocate`, of an empty system account. -/
def allocate (a : Accounts) (key : Pubkey) (space : ℕ) : Option Accounts := do
  guard ((a key).owner = systemId ∧ (a key).data = [])
  return a.setData key (List.replicate space 0)

/-- System `Assign`, of a system account. -/
def assign (a : Accounts) (key owner : Pubkey) : Option Accounts := do
  guard ((a key).owner = systemId)
  return Function.update a key { a key with owner }

/-- The account with another balance in its token data. -/
def setAmount (a : Accounts) (key : Pubkey) (amount : UInt64) : Accounts :=
  a.setData key (u64.writeAt 64 amount (a key).data)

/-- SPL `Transfer` by the owner of the source. -/
def tokenTransfer (a : Accounts) (source destination authority : Pubkey) (amount : UInt64) :
    Option Accounts := do
  let s ← (TokenAccount.load (a source)).toOption
  let d ← (TokenAccount.load (a destination)).toOption
  guard (s.mint = d.mint ∧ s.owner = authority)
  let left ← s.amount.checkedSub amount
  if source = destination then return a
  else do
    let sum ← d.amount.checkedAdd amount
    return setAmount (setAmount a source left) destination sum

/-- Core `TransferV1` by the owner of the asset. -/
def coreTransfer (a : Accounts) (asset _collection _payer authority newOwner : Pubkey) :
    Option Accounts := do
  let c ← (CoreAsset.fromAccount (a asset).owner (a asset).data).toOption
  guard (c.owner = authority)
  return a.setData asset ((bytes 32).writeAt 1 newOwner (a asset).data)

/-- The runtime with these known values. -/
def runtime (net : Localnet) : Runtime where
  createProgramAddress seeds program := net.addresses.lookup (seeds, program)
  sha256 message := (net.hashes.lookup message).getD default
  verifyProof key alpha proof := net.proofs.lookup (key, alpha, proof)
  verifySignature key signature message := net.signatures.elem (key, signature, message)
  minimumBalance space := UInt64.ofNat ((128 + space) * 6960)
  createAccount := createAccount
  transferLamports := moveLamports
  allocate := allocate
  assign := assign
  tokenTransfer := tokenTransfer
  coreTransfer := coreTransfer

/-! ## The laws -/

theorem moveLamports_some {a a' : Accounts} {sender receiver : Pubkey} {lamports : UInt64}
    (h : moveLamports a sender receiver lamports = some a') (k : Pubkey) : (a' k).SameState (a k) := by
  simp only [moveLamports, Option.bind_eq_bind, Option.bind_eq_some_iff, Option.guard_eq_some',
    Option.pure_def, Option.some.injEq] at h
  obtain ⟨-, -, left, -, sum, -, rfl⟩ := h
  simp only [Function.update_apply]
  split_ifs with hr hs hs
  · exact ⟨hr ▸ hs ▸ rfl, hr ▸ hs ▸ rfl⟩
  · exact ⟨hr ▸ rfl, hr ▸ rfl⟩
  · exact ⟨hs ▸ rfl, hs ▸ rfl⟩
  · exact .refl _

theorem load_setAmount {a : Accounts} {key : Pubkey} {token : TokenAccount} (amount : UInt64)
    (h : TokenAccount.load (a key) = .ok token) :
    TokenAccount.load (setAmount a key amount key) = .ok { token with amount } := by
  obtain ⟨hown, hlen, rfl⟩ := TokenAccount.load_eq_ok.mp h
  have hfits : 64 + u64.size ≤ (a key).data.length := by rw [hlen]; decide
  have hself := Accounts.setData_self a key (u64.writeAt 64 amount (a key).data)
  rw [setAmount, hself]
  refine TokenAccount.load_eq_ok.mpr ⟨hown, ?_, ?_⟩
  · rw [u64.writeAt_length _ _ hfits, hlen]
  · rw [u64.readAt_writeAt _ _ hfits, u64.readAt_writeAt_of_disjoint (bytes 32) _ _ hfits (.inl (by decide)),
      u64.readAt_writeAt_of_disjoint (bytes 32) _ _ hfits (.inl (by decide))]

theorem setAmount_of_ne {a : Accounts} {key k : Pubkey} (amount : UInt64) (h : k ≠ key) :
    setAmount a key amount k = a k := Accounts.setData_of_ne _ h

theorem load_toOption {account : Account} {token : TokenAccount} :
    (TokenAccount.load account).toOption = some token ↔ TokenAccount.load account = .ok token := by
  cases TokenAccount.load account <;> simp [Except.toOption]

theorem tokenTransfer_some {a a' : Accounts} {source destination authority : Pubkey} {amount : UInt64}
    (h : tokenTransfer a source destination authority amount = some a') :
    ∃ s d, TokenAccount.load (a source) = .ok s ∧ TokenAccount.load (a destination) = .ok d ∧
      s.mint = d.mint ∧ s.owner = authority ∧ amount.toNat ≤ s.amount.toNat ∧
      (source = destination → TokenAccount.load (a' source) = .ok s) ∧
      (source ≠ destination → d.amount.toNat + amount.toNat < 2 ^ 64 ∧
        TokenAccount.load (a' source) = .ok { s with amount := s.amount - amount } ∧
        TokenAccount.load (a' destination) = .ok { d with amount := d.amount + amount }) ∧
      ∀ k, k ≠ source → k ≠ destination → (a' k).SameState (a k) := by
  simp only [tokenTransfer, Option.bind_eq_bind, Option.bind_eq_some_iff, load_toOption,
    Option.guard_eq_some', Option.pure_def] at h
  obtain ⟨s, hs, d, hd, -, ⟨hmint, hauthority⟩, left, hleft, h⟩ := h
  have hle : amount.toNat ≤ s.amount.toNat := by
    have := UInt64.checkedSub_eq_some.mp hleft
    omega
  refine ⟨s, d, hs, hd, hmint, hauthority, hle, ?_⟩
  split_ifs at h with heq
  · obtain rfl := Option.some.inj h
    exact ⟨fun _ => hs, fun hne => absurd heq hne, fun k _ _ => .refl _⟩
  · obtain ⟨sum, hsum, hmoved⟩ := Option.bind_eq_some_iff.mp h
    obtain rfl := Option.some.inj hmoved
    obtain rfl : s.amount - amount = left := Option.some.inj ((if_pos hle).symm.trans hleft)
    have hfits : d.amount.toNat + amount.toNat < 2 ^ 64 := by
      rw [UInt64.checkedAdd_eq_some.mp hsum]
      exact sum.toNat_lt
    obtain rfl : d.amount + amount = sum := Option.some.inj ((if_pos hfits).symm.trans hsum)
    refine ⟨fun hself => absurd hself heq, fun _ => ⟨hfits, ?_, ?_⟩, fun k hk hk' => .of_eq ?_⟩
    · rw [setAmount_of_ne _ heq]
      exact load_setAmount _ hs
    · refine load_setAmount (a := setAmount a source (s.amount - amount)) _ ?_
      rw [setAmount_of_ne _ (Ne.symm heq)]
      exact hd
    · rw [setAmount_of_ne _ hk', setAmount_of_ne _ hk]

/-- An asset's data with another owner. -/
theorem fromAccount_writeAt {owner newOwner : Pubkey} {data : List UInt8} {c : CoreAsset}
    (h : CoreAsset.fromAccount owner data = .ok c) :
    CoreAsset.fromAccount owner ((bytes 32).writeAt 1 newOwner data) = .ok { c with owner := newOwner } := by
  simp only [CoreAsset.fromAccount, bind_eq_ok, failIf_eq_ok, pure_eq_ok, not_or, not_not, not_lt] at h ⊢
  obtain ⟨_, ⟨hown, hlen, hfirst⟩, collection, hcollection, rfl⟩ := h
  have hfits : 1 + (bytes 32).size ≤ data.length := (by decide : 1 + (bytes 32).size ≤ 34).trans hlen
  have hlen' := (bytes 32).writeAt_length newOwner data hfits
  have hbyte : ∀ i, i < 1 ∨ 33 ≤ i → ((bytes 32).writeAt 1 newOwner data)[i]? = data[i]? :=
    fun i hi => (bytes 32).getElem?_writeAt newOwner data hfits i hi
  have hkey : (bytes 32).readAt 34 ((bytes 32).writeAt 1 newOwner data) = (bytes 32).readAt 34 data :=
    (bytes 32).readAt_writeAt_of_disjoint (bytes 32) newOwner data hfits (.inr (by decide))
  refine ⟨(), ⟨hown, hlen'.symm ▸ hlen, by rw [hbyte 0 (.inl (by decide)), hfirst]⟩, collection, ?_, ?_⟩
  · rw [CoreAsset.collectionOf, hbyte 33 (.inr le_rfl), hlen', hkey]
    exact hcollection
  · rw [(bytes 32).readAt_writeAt newOwner data hfits]

theorem coreTransfer_some {a a' : Accounts} (asset collection payer : Pubkey) {authority newOwner : Pubkey}
    (h : coreTransfer a asset collection payer authority newOwner = some a') :
    ∃ c, CoreAsset.fromAccount (a asset).owner (a asset).data = .ok c ∧ c.owner = authority ∧
      CoreAsset.fromAccount (a' asset).owner (a' asset).data = .ok { c with owner := newOwner } ∧
      ∀ k, k ≠ asset → (a' k).SameState (a k) := by
  simp only [coreTransfer, Option.bind_eq_bind, Option.bind_eq_some_iff, Option.guard_eq_some',
    Option.pure_def, Option.some.injEq] at h
  obtain ⟨c, hc, -, hauthority, rfl⟩ := h
  have hc : CoreAsset.fromAccount (a asset).owner (a asset).data = .ok c := by
    revert hc
    cases CoreAsset.fromAccount (a asset).owner (a asset).data <;> simp [Except.toOption]
  refine ⟨c, hc, hauthority, ?_, fun k hk => .of_eq (Accounts.setData_of_ne _ hk)⟩
  rw [Accounts.setData_self]
  exact fromAccount_writeAt hc

theorem runtime_lawful (net : Localnet) : net.runtime.Lawful where
  eventAuthority_derived := net.eventAuthority_known
  createAccount_some {a a' payer key lamports space owner} h := by
    obtain ⟨-, -, h⟩ := Option.bind_eq_some_iff.mp h
    obtain ⟨moved, hmoved, h⟩ := Option.bind_eq_some_iff.mp h
    obtain rfl := Option.some.inj h
    refine ⟨by rw [Function.update_self], by rw [Function.update_self], fun k hk => ?_⟩
    rw [Function.update_of_ne hk]
    exact moveLamports_some hmoved k
  transferLamports_some := moveLamports_some
  allocate_some {a a' key space} h := by
    obtain ⟨-, -, h⟩ := Option.bind_eq_some_iff.mp h
    obtain rfl := Option.some.inj h
    refine ⟨congrArg Account.data (Accounts.setData_self _ _ _), fun k hk => ?_⟩
    exact .of_eq (Accounts.setData_of_ne _ hk)
  assign_some {a a' key owner} h := by
    obtain ⟨-, -, h⟩ := Option.bind_eq_some_iff.mp h
    obtain rfl := Option.some.inj h
    refine ⟨by rw [Function.update_self], by rw [Function.update_self], fun k hk => ?_⟩
    exact .of_eq (Function.update_of_ne hk _ _)
  tokenTransfer_some h := by
    obtain ⟨s, d, hs, hd, hmint, hauthority, hrest⟩ := tokenTransfer_some h
    exact ⟨s, d, hs, hd, hmint, fun _ => hauthority.symm, hrest⟩
  coreTransfer_some {_ _ asset collection payer _ _} h := coreTransfer_some asset collection payer h

end Localnet

end SolanaGacha
