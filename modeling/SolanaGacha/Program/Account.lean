import SolanaGacha.Core.Asset

/-!
# Accounts and their views

The state that an instruction runs on, and the checked views of an account's bytes: the program's
`state.rs`, and `TokenAccount` of its `helpers.rs`. A view decodes the layout at the start of the
data; a mutable view is written back over the same bytes (`World.store`), so the bytes behind a
pool's header, its availability index, are not touched by it.
-/

namespace SolanaGacha

open Except Layout

/-! ## State -/

/-- What the chain stores at an address. -/
structure Account where
  owner : Pubkey
  lamports : UInt64
  data : List UInt8
  deriving DecidableEq

/-- Every address with its account; an address where nothing was created is an empty system account. -/
abbrev Accounts := Pubkey → Account

/-- An account as an instruction passes it. -/
structure AccountInfo where
  key : Pubkey
  isSigner : Bool
  isWritable : Bool
  deriving DecidableEq

/-- The accounts, the clock, and the events emitted so far. -/
structure World where
  accounts : Accounts
  slot : UInt64
  unixTimestamp : Int64
  events : List (List UInt8)

/-- The same owner and data; only lamports may differ. -/
def Account.SameState (a b : Account) : Prop := a.owner = b.owner ∧ a.data = b.data

theorem Account.SameState.refl (a : Account) : a.SameState a := ⟨rfl, rfl⟩

theorem Account.SameState.of_eq {a b : Account} (h : a = b) : a.SameState b := h ▸ .refl a

theorem Account.SameState.trans {a b c : Account} (h : a.SameState b) (h' : b.SameState c) :
    a.SameState c := ⟨h.1.trans h'.1, h.2.trans h'.2⟩

/-- The account behind an account info. -/
def World.account (w : World) (info : AccountInfo) : Account := w.accounts info.key

/-- The accounts with the data of one of them replaced. -/
def Accounts.setData (accounts : Accounts) (key : Pubkey) (data : List UInt8) : Accounts :=
  Function.update accounts key { accounts key with data }

theorem Accounts.setData_self (accounts : Accounts) (key : Pubkey) (data : List UInt8) :
    accounts.setData key data key = { accounts key with data } :=
  Function.update_self key _ accounts

theorem Accounts.setData_of_ne {accounts : Accounts} {key k : Pubkey} (data : List UInt8) (h : k ≠ key) :
    accounts.setData key data k = accounts k :=
  Function.update_of_ne h _ accounts

/-- The world with the data of one account replaced. -/
def World.setData (w : World) (key : Pubkey) (data : List UInt8) : World :=
  { w with accounts := w.accounts.setData key data }

/-- Write a view back over the start of an account's data. -/
def World.store {α : Type} (w : World) (layout : Layout α) (key : Pubkey) (a : α) : World :=
  w.setData key (layout.writeAt 0 a (w.accounts key).data)

/-! ## Views -/

section Load

variable {α : Type} (layout : Layout α) (len : ℕ) (versionOf : α → UInt8) (account : Account)

/-- `Load::load`: view the account after checking owner, length and version. -/
def load (version : UInt8) (validLen : α → ℕ → Bool) : Except Fault α := do
  failIf (account.owner ≠ programId) GachaError.invalidAccountOwner
  failIf (account.data.length < len) GachaError.invalidAccountLength
  let this := layout.decode account.data
  failIf (versionOf this ≠ version) GachaError.invalidVersion
  failIf (!validLen this account.data.length) GachaError.invalidAccountLength
  return this

/-- `Load::load_new`: view an account that this instruction just created. -/
def loadNew : Except Fault α := do
  failIf (account.owner ≠ programId) GachaError.invalidAccountOwner
  failIf (account.data.length ≠ len) GachaError.invalidAccountLength
  let this := layout.decode account.data
  failIf (versionOf this ≠ 0) GachaError.alreadyInitialized
  return this

theorem load_eq_ok {version : UInt8} {validLen : α → ℕ → Bool} {a : α} :
    load layout len versionOf account version validLen = .ok a ↔
      account.owner = programId ∧ len ≤ account.data.length ∧ layout.decode account.data = a ∧
        versionOf a = version ∧ validLen a account.data.length := by
  simp only [load, bind_eq_ok, failIf_eq_ok, pure_eq_ok, exists_and_left, exists_const, not_not,
    not_lt, Bool.not_eq_true', Bool.not_eq_false]
  grind

theorem loadNew_eq_ok {a : α} :
    loadNew layout len versionOf account = .ok a ↔
      account.owner = programId ∧ account.data.length = len ∧ layout.decode account.data = a ∧
        versionOf a = 0 := by
  simp only [loadNew, bind_eq_ok, failIf_eq_ok, pure_eq_ok, exists_and_left, exists_const, not_not]
  grind

end Load

/-- `Pool::load`. -/
def Pool.load (account : Account) : Except Fault Pool :=
  SolanaGacha.load Pool.layout poolLen Pool.version account poolVersion
    fun pool len => len = poolLen + inventorySpace pool.inventoryVersion

/-- `Item::load`. -/
def Item.load (account : Account) : Except Fault Item :=
  SolanaGacha.load Item.layout itemLen Item.version account itemVersion fun _ len => len = itemLen

/-- `Pull::load`. -/
def Pull.load (account : Account) : Except Fault Pull :=
  SolanaGacha.load Pull.layout pullLen Pull.version account pullVersion fun _ len => len = pullLen

/-- `Pool::load_new`. -/
def Pool.loadNew (account : Account) : Except Fault Pool :=
  SolanaGacha.loadNew Pool.layout poolLen Pool.version account

/-- `Item::load_new`. -/
def Item.loadNew (account : Account) : Except Fault Item :=
  SolanaGacha.loadNew Item.layout itemLen Item.version account

/-- `Pull::load_new`. -/
def Pull.loadNew (account : Account) : Except Fault Pull :=
  SolanaGacha.loadNew Pull.layout pullLen Pull.version account

theorem Pool.load_eq_ok {account : Account} {pool : Pool} :
    Pool.load account = .ok pool ↔
      account.owner = programId ∧ Pool.layout.decode account.data = pool ∧
        pool.version = poolVersion ∧
        account.data.length = poolLen + inventorySpace pool.inventoryVersion := by
  rw [Pool.load, SolanaGacha.load_eq_ok]
  simp only [decide_eq_true_eq]
  grind

theorem Item.load_eq_ok {account : Account} {item : Item} :
    Item.load account = .ok item ↔
      account.owner = programId ∧ Item.layout.decode account.data = item ∧
        item.version = itemVersion ∧ account.data.length = itemLen := by
  rw [Item.load, SolanaGacha.load_eq_ok]
  simp only [decide_eq_true_eq]
  grind

theorem Pull.load_eq_ok {account : Account} {pull : Pull} :
    Pull.load account = .ok pull ↔
      account.owner = programId ∧ Pull.layout.decode account.data = pull ∧
        pull.version = pullVersion ∧ account.data.length = pullLen := by
  rw [Pull.load, SolanaGacha.load_eq_ok]
  simp only [decide_eq_true_eq]
  grind

/-- The fields of a legacy SPL token account that the program reads. -/
structure TokenAccount where
  mint : Pubkey
  owner : Pubkey
  amount : UInt64
  deriving DecidableEq

/-- `TokenAccount::load`. -/
def TokenAccount.load (account : Account) : Except Fault TokenAccount := do
  failIf (account.owner ≠ tokenId ∨ account.data.length ≠ 165) GachaError.invalidTokenAddress
  return ⟨(bytes 32).readAt 0 account.data, (bytes 32).readAt 32 account.data,
    u64.readAt 64 account.data⟩

theorem TokenAccount.load_eq_ok {account : Account} {token : TokenAccount} :
    TokenAccount.load account = .ok token ↔
      account.owner = tokenId ∧ account.data.length = 165 ∧
        (⟨(bytes 32).readAt 0 account.data, (bytes 32).readAt 32 account.data,
          u64.readAt 64 account.data⟩ : TokenAccount) = token := by
  simp only [TokenAccount.load, bind_eq_ok, failIf_eq_ok, pure_eq_ok]
  grind

end SolanaGacha
