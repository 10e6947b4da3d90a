import SolanaGacha.Program.Inventory

/-!
# The ledger: accounts as typed entries

An account is what its checked loader makes of it: a pool with its index, an item, a pull, a token
account or an asset. `Account.entry` is that reading, and it is unambiguous: the owners tell the kinds
of different programs apart, and the lengths those of the gacha (`Pool.load_item_exclusive` and its
companions). The ledger of a state is the entry at every address; instructions are described by what
they do to it.
-/

namespace SolanaGacha

open Except Layout

/-- What an account holds. -/
inductive Entry
  /-- An address where nothing was created. -/
  | vacant
  | pool (pool : Pool) (index : List UInt8)
  | item (item : Item)
  | pull (pull : Pull)
  | token (token : TokenAccount)
  | asset (asset : CoreAsset)
  | other
  deriving DecidableEq

/-- The reading of an account. -/
def Account.entry (account : Account) : Entry :=
  if account.owner = systemId then if account.data = [] then .vacant else .other
  else if account.owner = programId then
    match Pool.load account, Item.load account, Pull.load account with
    | .ok pool, _, _ => .pool pool (account.data.drop poolLen)
    | _, .ok item, _ => .item item
    | _, _, .ok pull => .pull pull
    | _, _, _ => .other
  else if account.owner = tokenId then
    match TokenAccount.load account with
    | .ok token => .token token
    | .error _ => .other
  else
    match CoreAsset.fromAccount account.owner account.data with
    | .ok asset => .asset asset
    | .error _ => .other

/-- The entry at every address. -/
abbrev Ledger := Pubkey → Entry

/-- The ledger of a state. -/
def Accounts.ledger (accounts : Accounts) : Ledger := fun key => (accounts key).entry

/-- The ledger of a world. -/
abbrev World.ledger (w : World) : Ledger := Accounts.ledger w.accounts

/-! ## The kinds exclude each other -/

/-- The index of a pool takes whole blocks, which the other two lengths are not. -/
theorem inventorySpace_ne (positions : UInt32) :
    poolLen + inventorySpace positions ≠ itemLen ∧ poolLen + inventorySpace positions ≠ pullLen := by
  show 256 + (positions.toNat + 63) / 64 * 96 ≠ 72 ∧ 256 + (positions.toNat + 63) / 64 * 96 ≠ 450
  omega

theorem Pool.load_item_exclusive {account : Account} {pool : Pool} {item : Item}
    (h : Pool.load account = .ok pool) (h' : Item.load account = .ok item) : False := by
  obtain ⟨-, -, -, hlen⟩ := Pool.load_eq_ok.mp h
  obtain ⟨-, -, -, hlen'⟩ := Item.load_eq_ok.mp h'
  exact (inventorySpace_ne _).1 (hlen.symm.trans hlen')

theorem Pool.load_pull_exclusive {account : Account} {pool : Pool} {pull : Pull}
    (h : Pool.load account = .ok pool) (h' : Pull.load account = .ok pull) : False := by
  obtain ⟨-, -, -, hlen⟩ := Pool.load_eq_ok.mp h
  obtain ⟨-, -, -, hlen'⟩ := Pull.load_eq_ok.mp h'
  exact (inventorySpace_ne _).2 (hlen.symm.trans hlen')

theorem Item.load_pull_exclusive {account : Account} {item : Item} {pull : Pull}
    (h : Item.load account = .ok item) (h' : Pull.load account = .ok pull) : False := by
  obtain ⟨-, -, -, hlen⟩ := Item.load_eq_ok.mp h
  obtain ⟨-, -, -, hlen'⟩ := Pull.load_eq_ok.mp h'
  exact absurd (hlen.symm.trans hlen') (by decide)

/-! ## Loading and entries -/

namespace Account

variable {account : Account}

theorem entry_of_program (h : account.owner = programId) : account.entry =
    match Pool.load account, Item.load account, Pull.load account with
    | .ok pool, _, _ => .pool pool (account.data.drop poolLen)
    | _, .ok item, _ => .item item
    | _, _, .ok pull => .pull pull
    | _, _, _ => .other := by
  rw [entry, if_neg (by rw [h]; exact systemId_ne_programId.symm), if_pos h]

theorem entry_of_token (h : account.owner = tokenId) : account.entry =
    match TokenAccount.load account with
    | .ok token => .token token
    | .error _ => .other := by
  rw [entry, if_neg (by rw [h]; exact systemId_ne_tokenId.symm),
    if_neg (by rw [h]; exact tokenId_ne_programId), if_pos h]

/-- An entry is what the loader of its kind returned. -/
theorem entry_spec : match account.entry with
    | .vacant => account.owner = systemId ∧ account.data = []
    | .pool pool index => Pool.load account = .ok pool ∧ account.data.drop poolLen = index
    | .item item => Item.load account = .ok item
    | .pull pull => Pull.load account = .ok pull
    | .token token => TokenAccount.load account = .ok token
    | .asset asset => CoreAsset.fromAccount account.owner account.data = .ok asset
    | .other => True := by
  rw [entry]
  split_ifs with h1 h2 h3 h4
  · exact ⟨h1, h2⟩
  · trivial
  · cases Pool.load account with
    | ok pool => exact ⟨rfl, rfl⟩
    | error e =>
      cases Item.load account with
      | ok item => rfl
      | error e =>
        cases Pull.load account with
        | ok pull => rfl
        | error e => trivial
  · cases TokenAccount.load account with
    | ok token => rfl
    | error e => trivial
  · cases CoreAsset.fromAccount account.owner account.data with
    | ok asset => rfl
    | error e => trivial

theorem entry_eq_pool {pool : Pool} {index : List UInt8} :
    account.entry = .pool pool index ↔
      Pool.load account = .ok pool ∧ account.data.drop poolLen = index := by
  constructor
  · intro h
    have hspec := @entry_spec account
    rwa [h] at hspec
  · rintro ⟨h, rfl⟩
    rw [entry_of_program (Pool.load_eq_ok.mp h).1, h]

theorem entry_eq_item {item : Item} : account.entry = .item item ↔ Item.load account = .ok item := by
  constructor
  · intro h
    have hspec := @entry_spec account
    rwa [h] at hspec
  · intro h
    rw [entry_of_program (Item.load_eq_ok.mp h).1, h]
    cases hp : Pool.load account with
    | ok pool => exact (Pool.load_item_exclusive hp h).elim
    | error e => rfl

theorem entry_eq_pull {pull : Pull} : account.entry = .pull pull ↔ Pull.load account = .ok pull := by
  constructor
  · intro h
    have hspec := @entry_spec account
    rwa [h] at hspec
  · intro h
    rw [entry_of_program (Pull.load_eq_ok.mp h).1, h]
    cases hp : Pool.load account with
    | ok pool => exact (Pool.load_pull_exclusive hp h).elim
    | error e =>
      cases hi : Item.load account with
      | ok item => exact (Item.load_pull_exclusive hi h).elim
      | error e => rfl

theorem entry_eq_token {token : TokenAccount} :
    account.entry = .token token ↔ TokenAccount.load account = .ok token := by
  constructor
  · intro h
    have hspec := @entry_spec account
    rwa [h] at hspec
  · intro h
    rw [entry_of_token (TokenAccount.load_eq_ok.mp h).1, h]

theorem owner_of_fromAccount {owner : Pubkey} {data : List UInt8} {asset : CoreAsset}
    (h : CoreAsset.fromAccount owner data = .ok asset) : owner = coreId := by
  simp only [CoreAsset.fromAccount, bind_eq_ok, failIf_eq_ok] at h
  obtain ⟨_, hcheck, -⟩ := h
  tauto

theorem entry_eq_asset {asset : CoreAsset} : account.entry = .asset asset ↔
    CoreAsset.fromAccount account.owner account.data = .ok asset := by
  constructor
  · intro h
    have hspec := @entry_spec account
    rwa [h] at hspec
  · intro h
    have hown := owner_of_fromAccount h
    rw [entry, if_neg (by rw [hown]; exact systemId_ne_coreId.symm),
      if_neg (by rw [hown]; exact coreId_ne_programId), if_neg (by rw [hown]; exact coreId_ne_tokenId), h]

theorem entry_eq_vacant : account.entry = .vacant ↔ account.owner = systemId ∧ account.data = [] := by
  constructor
  · intro h
    have hspec := @entry_spec account
    rwa [h] at hspec
  · rintro ⟨h1, h2⟩
    rw [entry, if_pos h1, if_pos h2]

/-- The entry depends on the owner and the data only. -/
theorem SameState.entry_eq {a b : Account} (h : a.SameState b) : a.entry = b.entry := by
  obtain ⟨howner, hdata⟩ := h
  cases a
  cases b
  simp only at howner hdata
  subst howner hdata
  rfl

end Account

/-! ## Changing one account -/

/-- The ledger of accounts that differ from others at one address. -/
theorem Accounts.ledger_eq_update {a a' : Accounts} {key : Pubkey} {e : Entry}
    (hkey : (a' key).entry = e) (hrest : ∀ k, k ≠ key → (a' k).SameState (a k)) :
    Accounts.ledger a' = Function.update (Accounts.ledger a) key e := by
  funext k
  rcases eq_or_ne k key with rfl | hk
  · rw [Function.update_self, ← hkey, Accounts.ledger]
  · rw [Function.update_of_ne hk, Accounts.ledger, Accounts.ledger, (hrest k hk).entry_eq]

theorem Accounts.ledger_congr {a a' : Accounts} (h : ∀ k, (a' k).SameState (a k)) :
    Accounts.ledger a' = Accounts.ledger a :=
  funext fun k => (h k).entry_eq

/-- The bytes of a pool account: the header and the index behind it. -/
theorem Pool.data_eq {account : Account} {pool : Pool} {index : List UInt8}
    (h : account.entry = .pool pool index) :
    account.owner = programId ∧ account.data = Pool.layout.encode pool ++ index ∧
      pool.version = poolVersion ∧ index.length = inventorySpace pool.inventoryVersion := by
  obtain ⟨hload, rfl⟩ := Account.entry_eq_pool.mp h
  obtain ⟨hown, hdecode, hversion, hlen⟩ := Pool.load_eq_ok.mp hload
  have henc := Pool.layout.encode_decode account.data (by
    show 256 ≤ _
    rw [hlen]
    show 256 ≤ 256 + _
    omega)
  rw [hdecode] at henc
  refine ⟨hown, ?_, hversion, by rw [List.length_drop, hlen, Nat.add_sub_cancel_left]⟩
  rw [henc]
  exact (List.take_append_drop poolLen account.data).symm

/-- A pool account, from its bytes. -/
theorem Pool.entry_eq {account : Account} {pool : Pool} {index : List UInt8}
    (hown : account.owner = programId) (hdata : account.data = Pool.layout.encode pool ++ index)
    (hversion : pool.version = poolVersion)
    (hlen : index.length = inventorySpace pool.inventoryVersion) :
    account.entry = .pool pool index := by
  have hsize : (Pool.layout.encode pool).length = poolLen := Pool.layout.encode_length pool
  refine Account.entry_eq_pool.mpr ⟨Pool.load_eq_ok.mpr ⟨hown, ?_, hversion, ?_⟩, ?_⟩
  · rw [hdata, Pool.layout.decode_append]
  · rw [hdata, List.length_append, hsize, hlen]
  · rw [hdata, List.drop_left' hsize]

/-- An item account, from its bytes. -/
theorem Item.entry_eq {account : Account} {item : Item} (hown : account.owner = programId)
    (hdata : account.data = Item.layout.encode item) (hversion : item.version = itemVersion) :
    account.entry = .item item :=
  Account.entry_eq_item.mpr <| Item.load_eq_ok.mpr
    ⟨hown, by rw [hdata, Item.layout.decode_encode], hversion, by
      rw [hdata, Item.layout.encode_length]; rfl⟩

/-- A pull account, from its bytes. -/
theorem Pull.entry_eq {account : Account} {pull : Pull} (hown : account.owner = programId)
    (hdata : account.data = Pull.layout.encode pull) (hversion : pull.version = pullVersion) :
    account.entry = .pull pull :=
  Account.entry_eq_pull.mpr <| Pull.load_eq_ok.mpr
    ⟨hown, by rw [hdata, Pull.layout.decode_encode], hversion, by
      rw [hdata, Pull.layout.encode_length]; rfl⟩

end SolanaGacha
