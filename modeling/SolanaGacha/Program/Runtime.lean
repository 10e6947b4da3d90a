import SolanaGacha.Program.Account

/-!
# The runtime and the programs that are called

`Runtime` is what the program uses and does not define: address derivation, SHA-256, the two
signature schemes, rent, and the system, SPL Token and Metaplex Core programs. A called program takes
the accounts to new ones, or fails. `Runtime.Lawful` is the documented behaviour that the results of
this development rest on; each law says what a call that succeeds does, and that it changes no other
account's owner or data.

`checkMetas` is the privilege check of a cross-program invocation: an account is writable in the call
only when the caller's instruction has it writable, and it signs only when it signed the
instruction or is derived from the seeds that the program signs with.
-/

namespace SolanaGacha

open Except

/-- What the program calls and does not define. -/
structure Runtime where
  /-- `create_program_address`: the address that the seeds derive, unless it is a public key. -/
  createProgramAddress : List (List UInt8) → Pubkey → Option Pubkey
  /-- SHA-256 of the concatenation of the parts that the program hashes. -/
  sha256 : List UInt8 → FixedBytes 32
  /-- `Proof::verify`: the VRF output of an operator's proof for an input. -/
  verifyProof : Pubkey → FixedBytes 32 → FixedBytes 80 → Option (FixedBytes 64)
  /-- `verify_strict`: whether a key's Ed25519 signature of a message is valid. -/
  verifySignature : Pubkey → FixedBytes 64 → List UInt8 → Bool
  /-- `Rent::minimum_balance`. -/
  minimumBalance : ℕ → UInt64
  /-- System `CreateAccount`: payer, new account, lamports, space and owner. -/
  createAccount : Accounts → Pubkey → Pubkey → UInt64 → ℕ → Pubkey → Option Accounts
  /-- System `Transfer`: sender, receiver and lamports. -/
  transferLamports : Accounts → Pubkey → Pubkey → UInt64 → Option Accounts
  /-- System `Allocate`: account and space. -/
  allocate : Accounts → Pubkey → ℕ → Option Accounts
  /-- System `Assign`: account and owner. -/
  assign : Accounts → Pubkey → Pubkey → Option Accounts
  /-- SPL `Transfer`: source, destination, authority and amount. -/
  tokenTransfer : Accounts → Pubkey → Pubkey → Pubkey → UInt64 → Option Accounts
  /-- Core `TransferV1`: asset, collection, payer, authority and new owner. -/
  coreTransfer : Accounts → Pubkey → Pubkey → Pubkey → Pubkey → Pubkey → Option Accounts

namespace Runtime

variable (rt : Runtime)

/-- An address that only the program can sign for. -/
def IsPda (key : Pubkey) : Prop := ∃ seeds, rt.createProgramAddress seeds programId = some key

/-- `find_program_address`: the first bump from 255 down to 1 whose seeds derive an address. -/
def findProgramAddress (seeds : List (List UInt8)) (program : Pubkey) : Option (Pubkey × UInt8) :=
  (List.range 255).findSome? fun i =>
    let bump := UInt8.ofNat (255 - i)
    (rt.createProgramAddress (seeds ++ [[bump]]) program).map fun key => (key, bump)

/-- The address of the payment token account of `owner` for `mint`. -/
def ata (owner mint : Pubkey) : Option Pubkey :=
  (rt.findProgramAddress [owner.val, tokenId.val, mint.val] associatedTokenId).map Prod.fst

/-- The documented behaviour of the runtime and of the called programs. -/
structure Lawful : Prop where
  /-- The address that the source's constant holds. -/
  eventAuthority_derived :
    rt.createProgramAddress [eventAuthoritySeed, [eventAuthorityBump]] programId = some eventAuthority
  /-- A created account has the requested owner and space, and zero bytes. -/
  createAccount_some : ∀ {a a' payer key lamports space owner},
    rt.createAccount a payer key lamports space owner = some a' →
      (a' key).owner = owner ∧ (a' key).data = List.replicate space 0 ∧
        ∀ k, k ≠ key → (a' k).SameState (a k)
  transferLamports_some : ∀ {a a' sender receiver lamports},
    rt.transferLamports a sender receiver lamports = some a' → ∀ k, (a' k).SameState (a k)
  /-- Allocated space holds zero bytes. -/
  allocate_some : ∀ {a a' key space}, rt.allocate a key space = some a' →
    (a' key).data = List.replicate space 0 ∧ ∀ k, k ≠ key → (a' k).SameState (a k)
  assign_some : ∀ {a a' key owner}, rt.assign a key owner = some a' →
    (a' key).owner = owner ∧ (a' key).data = (a key).data ∧ ∀ k, k ≠ key → (a' k).SameState (a k)
  /-- A token transfer is between accounts of one mint and moves exactly its amount. A PDA has no
  delegate, so from its token account only the PDA itself transfers. -/
  tokenTransfer_some : ∀ {a a' source destination authority amount},
    rt.tokenTransfer a source destination authority amount = some a' →
      ∃ s d, TokenAccount.load (a source) = .ok s ∧ TokenAccount.load (a destination) = .ok d ∧
        s.mint = d.mint ∧ (rt.IsPda s.owner → authority = s.owner) ∧
        amount.toNat ≤ s.amount.toNat ∧
        (source = destination → TokenAccount.load (a' source) = .ok s) ∧
        (source ≠ destination → d.amount.toNat + amount.toNat < 2 ^ 64 ∧
          TokenAccount.load (a' source) = .ok { s with amount := s.amount - amount } ∧
          TokenAccount.load (a' destination) = .ok { d with amount := d.amount + amount }) ∧
        ∀ k, k ≠ source → k ≠ destination → (a' k).SameState (a k)
  /-- A Core transfer needs the authority of the asset's owner, and changes the owner only. -/
  coreTransfer_some : ∀ {a a' asset collection payer authority newOwner},
    rt.coreTransfer a asset collection payer authority newOwner = some a' →
      ∃ c, CoreAsset.fromAccount (a asset).owner (a asset).data = .ok c ∧ c.owner = authority ∧
        CoreAsset.fromAccount (a' asset).owner (a' asset).data = .ok { c with owner := newOwner } ∧
        ∀ k, k ≠ asset → (a' k).SameState (a k)

/-! ## Cross-program invocations -/

/-- An account of a cross-program invocation, and the privileges it is passed with. -/
structure AccountMeta where
  info : AccountInfo
  isSigner : Bool
  isWritable : Bool

/-- The addresses that the program signs for. A signer whose seeds derive none fails the call. -/
def signerKeys : List (List (List UInt8)) → Except Fault (List Pubkey)
  | [] => return []
  | seeds :: signers => do
    let key ← okOr .rejected (rt.createProgramAddress seeds programId)
    let keys ← signerKeys signers
    return key :: keys

/-- Whether the instruction and the program's signatures grant the privileges of a call. -/
def checkMetas (metas : List AccountMeta) (signers : List (List (List UInt8))) : Except Fault Unit := do
  let keys ← rt.signerKeys signers
  failIf (∃ m ∈ metas, (m.isSigner ∧ ¬m.info.isSigner ∧ m.info.key ∉ keys) ∨
    (m.isWritable ∧ ¬m.info.isWritable)) .rejected

/-- `invoke_signed`: the privilege check, then the called program. -/
def invokeSigned (w : World) (metas : List AccountMeta) (signers : List (List (List UInt8)))
    (call : Accounts → Option Accounts) : Except Fault World := do
  rt.checkMetas metas signers
  let accounts ← okOr .rejected (call w.accounts)
  return { w with accounts }

variable {rt}

theorem mem_of_signerKeys {signers : List (List (List UInt8))} {keys : List Pubkey} {key : Pubkey}
    (h : rt.signerKeys signers = .ok keys) (hk : key ∈ keys) :
    ∃ seeds ∈ signers, rt.createProgramAddress seeds programId = some key := by
  induction signers generalizing keys with
  | nil =>
    obtain rfl := pure_eq_ok.mp h
    simp at hk
  | cons seeds signers ih =>
    simp only [signerKeys, bind_eq_ok, okOr_eq_ok, pure_eq_ok] at h
    obtain ⟨key', hkey', keys', hkeys', rfl⟩ := h
    rcases List.mem_cons.mp hk with rfl | hk
    · exact ⟨seeds, List.mem_cons_self, hkey'⟩
    · obtain ⟨seeds', hs, hd⟩ := ih hkeys' hk
      exact ⟨seeds', List.mem_cons_of_mem _ hs, hd⟩

theorem checkMetas_eq_ok {metas : List AccountMeta} {signers : List (List (List UInt8))} {u : Unit} :
    rt.checkMetas metas signers = .ok u ↔ ∃ keys, rt.signerKeys signers = .ok keys ∧
      ∀ m ∈ metas, (m.isSigner → m.info.isSigner ∨ m.info.key ∈ keys) ∧
        (m.isWritable → m.info.isWritable) := by
  simp only [checkMetas, bind_eq_ok, failIf_eq_ok]
  grind

theorem invokeSigned_eq_ok {w w' : World} {metas : List AccountMeta}
    {signers : List (List (List UInt8))} {call : Accounts → Option Accounts} :
    rt.invokeSigned w metas signers call = .ok w' ↔ rt.checkMetas metas signers = .ok () ∧
      ∃ accounts, call w.accounts = some accounts ∧ w' = { w with accounts } := by
  simp only [invokeSigned, bind_eq_ok, okOr_eq_ok, pure_eq_ok]
  grind

/-- An account that signs a call signed the instruction, or the program signed for it. -/
theorem signed_of_checkMetas {metas : List AccountMeta} {signers : List (List (List UInt8))}
    {m : AccountMeta} (h : rt.checkMetas metas signers = .ok ()) (hm : m ∈ metas)
    (hs : m.isSigner = true) : m.info.isSigner = true ∨ ∃ seeds ∈ signers,
      rt.createProgramAddress seeds programId = some m.info.key := by
  obtain ⟨keys, hkeys, hmetas⟩ := checkMetas_eq_ok.mp h
  refine (hmetas m hm).1 hs |>.imp_right fun hkey => ?_
  exact mem_of_signerKeys hkeys hkey

end Runtime

end SolanaGacha
