import SolanaGacha.Index.Frame
import SolanaGacha.Index.Stock
import SolanaGacha.Ledger.Entry
import SolanaGacha.Program.Helpers

/-!
# What the helpers do to the ledger

One theorem for each helper that changes accounts: from a call that succeeds, the entries that it
changed. The called programs enter through `Runtime.Lawful`. A payment is the relation `Paid` between
two ledgers; creating an account and writing views of it replaces one entry.
-/

namespace SolanaGacha

open Except Layout SolanaGacha.Runtime

/-- An SPL transfer between two ledgers: it moves exactly its amount between token accounts of one
mint, and from the account of a PDA only with the authority of the PDA. -/
def Ledger.Paid (rt : Runtime) (L : Ledger) (source destination authority : Pubkey) (amount : UInt64)
    (L' : Ledger) : Prop :=
  ∃ s d, L source = .token s ∧ L destination = .token d ∧ s.mint = d.mint ∧
    (rt.IsPda s.owner → authority = s.owner) ∧ amount.toNat ≤ s.amount.toNat ∧
    ((source = destination ∧ L' = L) ∨
      (source ≠ destination ∧ d.amount.toNat + amount.toNat < 2 ^ 64 ∧
        L' = Function.update (Function.update L source (.token { s with amount := s.amount - amount }))
          destination (.token { d with amount := d.amount + amount })))

/-- An account that signs a call: it signed the instruction, or the program derived it. -/
def Signs (rt : Runtime) (info : AccountInfo) (signers : List (List (List UInt8))) : Prop :=
  info.isSigner = true ∨ ∃ seeds ∈ signers, rt.createProgramAddress seeds programId = some info.key

/-- The item that a restock creates. -/
def Item.fresh (bump tier : UInt8) (position : UInt32) (pool asset : Pubkey) : Item :=
  ⟨itemVersion, bump, tier, 0, position, pool, asset⟩

/-! ## Views -/

theorem checkUninitialized_eq_ok {account : Account} {u : Unit} :
    checkUninitialized account = .ok u ↔ account.entry = .vacant := by
  rw [checkUninitialized, failIf_eq_ok, Account.entry_eq_vacant, not_or, not_not, not_not,
    List.length_eq_zero_iff]

namespace World

variable {w : World} {key : Pubkey}

theorem pool_load {info : AccountInfo} {pool : Pool} (h : Pool.load (w.account info) = .ok pool) :
    w.ledger info.key = .pool pool ((w.accounts info.key).data.drop poolLen) :=
  Account.entry_eq_pool.mpr ⟨h, rfl⟩

theorem item_load {info : AccountInfo} {item : Item} (h : Item.load (w.account info) = .ok item) :
    w.ledger info.key = .item item :=
  Account.entry_eq_item.mpr h

theorem pull_load {info : AccountInfo} {pull : Pull} (h : Pull.load (w.account info) = .ok pull) :
    w.ledger info.key = .pull pull :=
  Account.entry_eq_pull.mpr h

theorem token_load {info : AccountInfo} {token : TokenAccount}
    (h : TokenAccount.load (w.account info) = .ok token) : w.ledger info.key = .token token :=
  Account.entry_eq_token.mpr h

/-- Loading the pool that an entry shows. -/
theorem pool_load_of_entry {pool pool' : Pool} {index : List UInt8} {info : AccountInfo}
    (h : w.ledger info.key = .pool pool index) (h' : Pool.load (w.account info) = .ok pool') :
    pool' = pool := by
  have h1 := (Account.entry_eq_pool.mp h).1
  rw [account, h1] at h'
  exact (Except.ok.inj h').symm

theorem inventory_load {inventory : Inventory} {pool : Pool} {index : List UInt8} {info : AccountInfo}
    (h : w.ledger info.key = .pool pool index)
    (h' : Inventory.load (w.account info) = .ok inventory) : inventory = ⟨index⟩ := by
  simp only [Inventory.load, bind_eq_ok, pure_eq_ok] at h'
  obtain ⟨-, -, rfl⟩ := h'
  exact congrArg Inventory.mk (Account.entry_eq_pool.mp h).2

/-- Replacing the data of one account replaces one entry. -/
theorem ledger_setData {data : List UInt8} {e : Entry}
    (h : Account.entry { w.accounts key with data } = e) :
    (w.setData key data).ledger = Function.update w.ledger key e := by
  show Accounts.ledger (w.accounts.setData key data) = _
  refine Accounts.ledger_eq_update ?_ fun k hk => ?_
  · rw [Accounts.setData_self, ← h]
  · rw [Accounts.setData_of_ne data hk]
    exact .refl _

/-- Writing a pool's header back. -/
theorem ledger_store_pool {pool : Pool} (pool' : Pool) {index : List UInt8}
    (h : w.ledger key = .pool pool index) (hversion : pool'.version = pool.version)
    (hinventory : pool'.inventoryVersion = pool.inventoryVersion) :
    (w.store Pool.layout key pool').ledger = Function.update w.ledger key (.pool pool' index) := by
  obtain ⟨hown, hdata, hv, hlen⟩ := Pool.data_eq h
  refine ledger_setData (Pool.entry_eq hown ?_ (hversion.trans hv) (by rw [hlen, hinventory]))
  show Pool.layout.writeAt 0 pool' (w.accounts key).data = _
  rw [hdata, writeAt_zero_append]

/-- Writing a pool's index back. -/
theorem ledger_storeInventory {pool : Pool} {index : List UInt8} {inventory : Inventory}
    (h : w.ledger key = .pool pool index) (hlen : inventory.data.length = index.length) :
    (w.storeInventory key inventory).ledger =
      Function.update w.ledger key (.pool pool inventory.data) := by
  obtain ⟨hown, hdata, hv, hl⟩ := Pool.data_eq h
  refine ledger_setData (Pool.entry_eq hown ?_ hv (hlen.trans hl))
  show (w.accounts key).data.take poolLen ++ inventory.data = _
  rw [hdata, List.take_left' (show (Pool.layout.encode pool).length = poolLen from
    Pool.layout.encode_length pool)]

/-- Writing a pool's header and then its index back. -/
theorem ledger_store_both {pool : Pool} (pool' : Pool) {index : List UInt8} {inventory : Inventory}
    (h : w.ledger key = .pool pool index) (hversion : pool'.version = pool.version)
    (hinventory : pool'.inventoryVersion = pool.inventoryVersion)
    (hlen : inventory.data.length = index.length) :
    ((w.store Pool.layout key pool').storeInventory key inventory).ledger =
      Function.update w.ledger key (.pool pool' inventory.data) := by
  have hstore := ledger_store_pool pool' h hversion hinventory
  have hpool : (w.store Pool.layout key pool').ledger key = .pool pool' index := by
    rw [hstore, Function.update_self]
  rw [ledger_storeInventory hpool hlen, hstore, Function.update_idem]

/-- Writing a pull back. -/
theorem ledger_store_pull {pull : Pull} (pull' : Pull) (h : w.ledger key = .pull pull)
    (hversion : pull'.version = pull.version) :
    (w.store Pull.layout key pull').ledger = Function.update w.ledger key (.pull pull') := by
  obtain ⟨hown, -, hv, hlen⟩ := Pull.load_eq_ok.mp (Account.entry_eq_pull.mp h)
  refine ledger_setData (Pull.entry_eq hown ?_ (hversion.trans hv))
  exact Pull.layout.writeAt_zero_of_length pull' _ hlen

end World

/-! ## Called programs -/

/-- The clock of both worlds is the same. -/
def World.SameClock (w w' : World) : Prop := w'.slot = w.slot ∧ w'.unixTimestamp = w.unixTimestamp

theorem World.SameClock.refl (w : World) : w.SameClock w := ⟨rfl, rfl⟩

theorem World.SameClock.trans {w w' w'' : World} (h : w.SameClock w') (h' : w'.SameClock w'') :
    w.SameClock w'' := ⟨h'.1.trans h.1, h'.2.trans h.2⟩

section Calls

variable {rt : Runtime} (hrt : rt.Lawful) {w w' : World}

theorem Runtime.invokeSigned_ok {metas : List AccountMeta} {signers : List (List (List UInt8))}
    {call : Accounts → Option Accounts} (h : rt.invokeSigned w metas signers call = .ok w') :
    w.SameClock w' ∧ call w.accounts = some w'.accounts := by
  obtain ⟨-, accounts, hcall, rfl⟩ := invokeSigned_eq_ok.mp h
  exact ⟨⟨rfl, rfl⟩, hcall⟩

include hrt in
/-- Paying rent changes lamports only. -/
theorem Runtime.fund_ok {payer account : AccountInfo} {missing : ℕ}
    (h : rt.fund w payer account missing = .ok w') :
    w.SameClock w' ∧ ∀ k, (w'.accounts k).SameState (w.accounts k) := by
  rw [fund] at h
  split_ifs at h with hmissing
  · obtain ⟨hclock, hcall⟩ := invokeSigned_ok h
    exact ⟨hclock, hrt.transferLamports_some hcall⟩
  · obtain rfl := Except.ok.inj h
    exact ⟨.refl w, fun k => .refl _⟩

include hrt in
/-- A created account is the program's, and its bytes are zero. -/
theorem Runtime.createPda_ok {payer account : AccountInfo} {space : ℕ} {seeds : List (List UInt8)}
    (h : rt.createPda w payer account space seeds = .ok w') :
    w.SameClock w' ∧ (w'.accounts account.key).owner = programId ∧
      (w'.accounts account.key).data = List.replicate space 0 ∧
      ∀ k, k ≠ account.key → (w'.accounts k).SameState (w.accounts k) := by
  rw [createPda] at h
  simp only at h
  split_ifs at h with hempty
  · obtain ⟨hclock, hcall⟩ := invokeSigned_ok h
    exact ⟨hclock, hrt.createAccount_some hcall⟩
  · simp only [bind_eq_ok] at h
    obtain ⟨funded, hfund, allocated, hallocate, hassign⟩ := h
    obtain ⟨hclock1, hsame⟩ := fund_ok hrt hfund
    obtain ⟨hclock2, hcall2⟩ := invokeSigned_ok hallocate
    obtain ⟨hclock3, hcall3⟩ := invokeSigned_ok hassign
    obtain ⟨hdata2, hrest2⟩ := hrt.allocate_some hcall2
    obtain ⟨hown3, hdata3, hrest3⟩ := hrt.assign_some hcall3
    exact ⟨(hclock1.trans hclock2).trans hclock3, hown3, hdata3.trans hdata2,
      fun k hk => ((hrest3 k hk).trans (hrest2 k hk)).trans (hsame k)⟩

include hrt in
/-- A created account is zero, and populating it replaces one entry. -/
theorem Runtime.createPda_store {α : Type} {l : Layout α} {payer account : AccountInfo}
    {seeds : List (List UInt8)} (h : rt.createPda w payer account l.size seeds = .ok w') :
    w.SameClock w' ∧ (w'.accounts account.key).data = List.replicate l.size 0 ∧ ∀ a e,
      (∀ account : Account, account.owner = programId → account.data = l.encode a → account.entry = e) →
        (w'.store l account.key a).ledger = Function.update w.ledger account.key e := by
  obtain ⟨hclock, hown, hdata, hrest⟩ := createPda_ok hrt h
  refine ⟨hclock, hdata, fun a e he => ?_⟩
  have hentry : Account.entry { w'.accounts account.key with
      data := l.writeAt 0 a (w'.accounts account.key).data } = e := by
    refine he _ hown ?_
    exact l.writeAt_zero_of_length a _ (by rw [hdata, List.length_replicate])
  rw [World.store, World.ledger_setData hentry]
  funext k
  rcases eq_or_ne k account.key with rfl | hk
  · rw [Function.update_self, Function.update_self]
  · rw [Function.update_of_ne hk, Function.update_of_ne hk]
    exact (hrest k hk).entry_eq

include hrt in
theorem Runtime.transferTokens_ok {source destination authority : AccountInfo} {amount : UInt64}
    {signers : List (List (List UInt8))}
    (h : rt.transferTokens w source destination authority amount signers = .ok w') :
    w.SameClock w' ∧
      w.ledger.Paid rt source.key destination.key authority.key amount w'.ledger ∧
      Signs rt authority signers := by
  have hmetas := (invokeSigned_eq_ok.mp h).1
  obtain ⟨hclock, hcall⟩ := invokeSigned_ok h
  obtain ⟨s, d, hs, hd, hmint, hauth, hamount, hself, hother, hrest⟩ := hrt.tokenTransfer_some hcall
  refine ⟨hclock, ⟨s, d, Account.entry_eq_token.mpr hs, Account.entry_eq_token.mpr hd, hmint,
    hauth, hamount, ?_⟩, signed_of_checkMetas (m := ⟨authority, true, false⟩) hmetas (by simp) rfl⟩
  rcases eq_or_ne source.key destination.key with heq | hne
  · refine .inl ⟨heq, ?_⟩
    funext k
    rcases eq_or_ne k source.key with rfl | hk
    · have h1 := Account.entry_eq_token.mpr (hself heq)
      have h2 := Account.entry_eq_token.mpr hs
      exact h1.trans h2.symm
    · exact (hrest k hk (heq ▸ hk)).entry_eq
  · obtain ⟨hfits, hs', hd'⟩ := hother hne
    refine .inr ⟨hne, hfits, ?_⟩
    funext k
    rcases eq_or_ne k destination.key with rfl | hk
    · rw [Function.update_self]
      exact Account.entry_eq_token.mpr hd'
    · rw [Function.update_of_ne hk]
      rcases eq_or_ne k source.key with rfl | hk'
      · rw [Function.update_self]
        exact Account.entry_eq_token.mpr hs'
      · rw [Function.update_of_ne hk']
        exact (hrest k hk' hk).entry_eq

include hrt in
theorem Runtime.transferAsset_ok {t : AssetTransfer} {signers : List (List (List UInt8))}
    (h : rt.transferAsset w t signers = .ok w') :
    ∃ asset, w.SameClock w' ∧ w.ledger t.asset.key = .asset asset ∧ asset.owner = t.authority.key ∧
      w'.ledger = Function.update w.ledger t.asset.key (.asset { asset with owner := t.newOwner.key }) ∧
      Signs rt t.authority signers := by
  have hmetas := (invokeSigned_eq_ok.mp h).1
  obtain ⟨hclock, hcall⟩ := invokeSigned_ok h
  obtain ⟨c, hc, hown, hc', hrest⟩ := hrt.coreTransfer_some hcall
  exact ⟨c, hclock, Account.entry_eq_asset.mpr hc, hown,
    Accounts.ledger_eq_update (Account.entry_eq_asset.mpr hc') hrest,
    signed_of_checkMetas (m := ⟨t.authority, true, false⟩) hmetas (by simp) rfl⟩

/-- An event changes no account. -/
theorem Runtime.emit_ok {size : ℕ} {discriminator : UInt8} {fields : List (List UInt8)}
    {authority program : AccountInfo}
    (h : rt.emit w size discriminator fields authority program = .ok w') :
    w.SameClock w' ∧ w'.ledger = w.ledger := by
  simp only [emit, bind_eq_ok, failIf_eq_ok, pure_eq_ok] at h
  obtain ⟨data, -, -, -, -, -, -, -, rfl⟩ := h
  exact ⟨⟨rfl, rfl⟩, rfl⟩

/-- Closing an account leaves its address vacant. -/
theorem close_ok {a a' : Accounts} {account receiver : Pubkey} (h : close a account receiver = .ok a') :
    Accounts.ledger a' = Function.update (Accounts.ledger a) account .vacant := by
  simp only [close, bind_eq_ok, okOr_eq_ok, pure_eq_ok] at h
  obtain ⟨lamports, -, rfl⟩ := h
  refine Accounts.ledger_eq_update ?_ fun k hk => ?_
  · rw [Function.update_self]
    exact Account.entry_eq_vacant.mpr ⟨rfl, rfl⟩
  · rw [Function.update_of_ne hk]
    rcases eq_or_ne k receiver with rfl | hk'
    · rw [Function.update_self]
      exact ⟨rfl, rfl⟩
    · rw [Function.update_of_ne hk']
      exact .refl _

end Calls

/-! ## Restocking -/

section Restock

variable {rt : Runtime} (hrt : rt.Lawful) {w w' : World}

theorem inventorySpace_le {positions positions' : UInt32} (h : positions.toNat ≤ positions'.toNat) :
    inventorySpace positions ≤ inventorySpace positions' :=
  Nat.mul_le_mul_right _ (Nat.div_le_div_right (Nat.add_le_add_right h _))

include hrt in
/-- Growing a pool account adds zero bytes behind its index. -/
theorem Runtime.growIndex_ok {payer pool : AccountInfo} {positions : UInt32} {header : Pool}
    {index : List UInt8} (hdata : (w.account pool).data = Pool.layout.encode header ++ index)
    (hlen : index.length ≤ inventorySpace positions)
    (h : rt.growIndex w payer pool positions = .ok w') :
    w.SameClock w' ∧ (w'.accounts pool.key).owner = (w.accounts pool.key).owner ∧
      (w'.accounts pool.key).data = Pool.layout.encode header ++
        (index ++ List.replicate (inventorySpace positions - index.length) 0) ∧
      ∀ k, k ≠ pool.key → (w'.accounts k).SameState (w.accounts k) := by
  have hsize : (w.account pool).data.length = poolLen + index.length := by
    rw [hdata, List.length_append, Pool.layout.encode_length]
    rfl
  rw [growIndex] at h
  simp only at h
  split_ifs at h with hspace
  · simp only [bind_eq_ok, pure_eq_ok] at h
    obtain ⟨funded, hfund, rfl⟩ := h
    obtain ⟨hclock, hsame⟩ := fund_ok hrt hfund
    have hdata' : (funded.accounts pool.key).data = (w.account pool).data := (hsame _).2
    have hself := Accounts.setData_self funded.accounts pool.key
      (((funded.accounts pool.key).data ++ List.replicate
        (poolLen + inventorySpace positions - (funded.accounts pool.key).data.length) 0).take
          (poolLen + inventorySpace positions))
    refine ⟨hclock, (congrArg Account.owner hself).trans (hsame _).1,
      (congrArg Account.data hself).trans ?_, fun k hk => ?_⟩
    · have hgap : poolLen + inventorySpace positions - (w.account pool).data.length =
          inventorySpace positions - index.length := by omega
      rw [hdata', hgap, hdata, List.append_assoc, List.take_of_length_le]
      rw [List.length_append, Pool.layout.encode_length, List.length_append, List.length_replicate]
      show poolLen + _ ≤ _
      omega
    · exact (Account.SameState.of_eq (Accounts.setData_of_ne _ hk)).trans (hsame k)
  · obtain rfl := pure_eq_ok.mp h
    have hgap : inventorySpace positions - index.length = 0 := by omega
    refine ⟨.refl w, rfl, ?_, fun k _ => .refl _⟩
    rw [hgap, List.replicate_zero, List.append_nil]
    exact hdata

include hrt in
/-- The first half of a restock: the version is stored and the index grown, and then the bytes are a
pool's again. -/
theorem Runtime.growIndex_store {payer pool : AccountInfo} {header : Pool} {index : List UInt8}
    (hpool : w.ledger pool.key = .pool header index) (hsmall : header.inventoryVersion.toNat + 1 < 2 ^ 32)
    (h : rt.growIndex (w.store Pool.layout pool.key
      { header with inventoryVersion := header.inventoryVersion + 1 }) payer pool
        (header.inventoryVersion + 1) = .ok w') :
    w.SameClock w' ∧ w'.ledger = Function.update w.ledger pool.key
      (.pool { header with inventoryVersion := header.inventoryVersion + 1 } (index ++
        List.replicate (inventorySpace (header.inventoryVersion + 1) - index.length) 0)) := by
  obtain ⟨hown, hdata, hversion, hlen⟩ := Pool.data_eq hpool
  have hpositions : (header.inventoryVersion + 1).toNat = header.inventoryVersion.toNat + 1 := by
    rw [UInt32.toNat_add, UInt32.toNat_one, Nat.mod_eq_of_lt hsmall]
  have hle : index.length ≤ inventorySpace (header.inventoryVersion + 1) := by
    rw [hlen]
    exact inventorySpace_le (by omega)
  have hstored := Accounts.setData_self w.accounts pool.key (Pool.layout.writeAt 0
    { header with inventoryVersion := header.inventoryVersion + 1 } (w.accounts pool.key).data)
  have hdata' : ((w.store Pool.layout pool.key
      { header with inventoryVersion := header.inventoryVersion + 1 }).account pool).data =
      Pool.layout.encode { header with inventoryVersion := header.inventoryVersion + 1 } ++ index := by
    refine (congrArg Account.data hstored).trans ?_
    rw [hdata, writeAt_zero_append]
  obtain ⟨hclock, hown', hgrown, hrest⟩ := growIndex_ok hrt hdata' hle h
  refine ⟨hclock, Accounts.ledger_eq_update ?_ fun k hk => (hrest k hk).trans ?_⟩
  · refine Pool.entry_eq (hown'.trans ((congrArg Account.owner hstored).trans hown)) hgrown hversion ?_
    rw [List.length_append, List.length_replicate]
    show _ = inventorySpace (header.inventoryVersion + 1)
    omega
  · exact .of_eq (Accounts.setData_of_ne _ hk)

include hrt in
/-- A restock up to the new Item: the version is stored, the index is grown, and the Item is created at
another address and filled. -/
theorem Runtime.restock_created {payer pool item : AccountInfo} (asset : Pubkey) {tier bump : UInt8}
    {header : Pool} {index : List UInt8} {w₁ w₂ : World} {new : Item}
    (hpool : w.ledger pool.key = .pool header index) (hne : item.key ≠ pool.key)
    (hsmall : header.inventoryVersion.toNat + 1 < 2 ^ 32)
    (hgrow : rt.growIndex (w.store Pool.layout pool.key
      { header with inventoryVersion := header.inventoryVersion + 1 }) payer pool
        (header.inventoryVersion + 1) = .ok w₁)
    (hcreate : rt.createPda w₁ payer item itemLen
      (Item.seeds pool.key tier header.inventoryVersion bump) = .ok w₂)
    (hnew : Item.loadNew (w₂.account item) = .ok new)
    (hw' : w₂.store Item.layout item.key
      (new.setInner bump tier header.inventoryVersion pool.key asset) = w') :
    w.SameClock w' ∧ w'.ledger = Function.update (Function.update w.ledger pool.key
      (.pool { header with inventoryVersion := header.inventoryVersion + 1 } (index ++
        List.replicate (inventorySpace (header.inventoryVersion + 1) - index.length) 0))) item.key
          (.item (Item.fresh bump tier header.inventoryVersion pool.key asset)) ∧
      w'.ledger pool.key = .pool { header with inventoryVersion := header.inventoryVersion + 1 } (index ++
        List.replicate (inventorySpace (header.inventoryVersion + 1) - index.length) 0) := by
  obtain ⟨hclock1, hledger1⟩ := growIndex_store hrt hpool hsmall hgrow
  obtain ⟨hclock2, hzero, hstore⟩ := createPda_store hrt (l := Item.layout) hcreate
  obtain rfl : Item.layout.decode (List.replicate Item.layout.size 0) = new := by
    rw [← hzero]
    exact ((loadNew_eq_ok _ _ _ _).mp hnew).2.2.1
  generalize hcreated : Item.setInner _ bump tier header.inventoryVersion pool.key asset = created at hw'
  obtain rfl : Item.fresh bump tier header.inventoryVersion pool.key asset = created := hcreated
  have hledger2 := hstore _ (.item (Item.fresh bump tier header.inventoryVersion pool.key asset))
    fun account hown hdata => Item.entry_eq hown hdata rfl
  rw [hledger1, hw'] at hledger2
  refine ⟨(hclock1.trans hclock2).trans (hw' ▸ ⟨rfl, rfl⟩), hledger2, ?_⟩
  rw [hledger2, Function.update_of_ne hne.symm, Function.update_self]

include hrt in
theorem Runtime.restock_ok {payer pool item : AccountInfo} {asset : Pubkey} {tier bump : UInt8}
    {header : Pool} {index : List UInt8} (hpool : w.ledger pool.key = .pool header index)
    (hne : item.key ≠ pool.key) (h : rt.restock w payer pool item asset tier bump = .ok w') :
    ∃ header' index', w.SameClock w' ∧ Restocked header index tier header' index' ∧
      w'.ledger = Function.update (Function.update w.ledger pool.key (.pool header' index')) item.key
        (.item (Item.fresh bump tier header.inventoryVersion pool.key asset)) := by
  simp only [restock, bind_eq_ok, okOr_eq_ok, pure_eq_ok] at h
  obtain ⟨loaded, hload, positions, hpositions, w1, hgrow, w2, hcreate, new, hnew, header1, hload1,
    inventory1, hinv1, ⟨⟨⟩, inventory'⟩, happend, header', hcounter, rfl⟩ := h
  obtain rfl := World.pool_load_of_entry hpool hload
  have hsum : loaded.inventoryVersion.toNat + 1 = positions.toNat :=
    UInt32.checkedAdd_eq_some.mp hpositions
  have hsmall : loaded.inventoryVersion.toNat + 1 < 2 ^ 32 := by
    rw [hsum]
    exact positions.toNat_lt
  obtain rfl : loaded.inventoryVersion + 1 = positions :=
    Option.some.inj ((if_pos hsmall).symm.trans hpositions)
  generalize hw3 : w2.store Item.layout item.key _ = w3 at hload1 hinv1 ⊢
  obtain ⟨hclock, hledger2, hpool3⟩ := restock_created hrt asset hpool hne hsmall hgrow hcreate hnew hw3
  -- The pool is what the first half left.
  obtain rfl := World.pool_load_of_entry hpool3 hload1
  obtain rfl := World.inventory_load hpool3 hinv1
  have hlen := (Inventory.keepsLength_append _ _).run happend
  obtain ⟨hversion, hinventory⟩ : header'.version = loaded.version ∧
      header'.inventoryVersion = loaded.inventoryVersion + 1 := by
    obtain ⟨tiers, rfl, -⟩ := Pool.updateRemaining_frame hcounter
    exact ⟨rfl, rfl⟩
  have hledger := World.ledger_store_both header' hpool3 hversion hinventory hlen
  rw [hledger2, Function.update_comm hne, Function.update_idem] at hledger
  exact ⟨header', inventory'.data, hclock, ⟨hsmall, happend, hcounter⟩, hledger⟩

end Restock

end SolanaGacha
