import SolanaGacha.Sdk.Client
import SolanaGacha.Sdk.KitAgreement

/-!
# The RPC client of the TypeScript SDK

`gacha-kit`'s `rpc.ts`, over the same nodes as the client of the Rust SDK. An owner that does not parse is an
address of no program here, which the snapshots reject, where the Rust client rejects the account itself. Whatever
a node answers, honest or not, a call of both clients returns the same (`Runtime.clients_agree`).
-/

namespace SolanaGacha

open Except

namespace GachaKit

open GachaRust (Rpc Request Response UiAccount)

/-- An account of an answer, with the data that `atob` decodes. -/
def readAccount (x : Option UiAccount) : Except Thrown (Pubkey × List UInt8) := do
  let account ← okOr ErrorCode.missingAccount x
  let data ← okOr .other account.data
  return (account.owner.getD systemId, data)

namespace Client

variable (rt : Runtime) (transactionSize : List Instruction → Pubkey → ℕ) (rpc : Rpc)

/-- `#read`, as request number `n`. -/
def read (n : ℕ) (keys : List Pubkey) (minimum : Option UInt64) (length : Option ℕ) :
    Except Thrown (UInt64 × List (Pubkey × List UInt8)) := do
  let response ← okOr .other (rpc n ⟨keys, minimum, length⟩).toOption
  failIf (response.accounts.length ≠ keys.length ∨ ∃ slot ∈ minimum, response.slot < slot)
    ErrorCode.invalidAccount
  let accounts ← response.accounts.mapM readAccount
  return (response.slot, accounts)

/-- `accounts[i]!`. -/
def nth (accounts : List (Pubkey × List UInt8)) (i : ℕ) : Except Thrown (Pubkey × List UInt8) :=
  okOr .other accounts[i]?

def fetchPool (key : Pubkey) : Except Thrown Pool := do
  let (_, accounts) ← read rpc 0 [key] none none
  let (owner, data) ← nth accounts 0
  Pool.fromAccount rt key owner data

def fetchPull (key : Pubkey) : Except Thrown Pull := do
  let (_, accounts) ← read rpc 0 [key] none none
  let (owner, data) ← nth accounts 0
  Pull.fromAccount rt key owner data

def fetchItem (key : Pubkey) : Except Thrown Item := do
  let (_, accounts) ← read rpc 0 [key] none none
  let (owner, data) ← nth accounts 0
  Item.fromAccount rt key owner data

/-- `#assets`. -/
def assets (n : ℕ) (keys : List Pubkey) (minimum : Option UInt64) : Except Thrown (List Asset) :=
  if keys.length = 0 then return []
  else do
    let (_, accounts) ← read rpc n keys minimum (some 66)
    (keys.zip accounts).mapM fun x => Asset.fromAccount x.1 x.2.1 x.2.2

def fetchAsset (key : Pubkey) : Except Thrown Asset := do
  let assets ← assets rpc 0 [key] none
  okOr .other assets[0]?

/-- `#snapshot`: one coherent read. Refunds need the complete Pull but only the header of the pool. -/
def snapshot (key : Pubkey) (inventory : Bool) : Except Thrown (Pool × Pull × UInt64) := do
  let (slot, accounts) ← read rpc 0 [key] none none
  let (owner, data) ← nth accounts 0
  let first ← Pull.fromAccount rt key owner data
  let (slot, accounts) ← read rpc 1 [first.pool, key] (some slot) (if inventory then none else some 450)
  let (owner, data) ← nth accounts 0
  let pool ← Pool.fromAccount rt first.pool owner (if inventory then data else data.take 256)
  let (owner, data) ← nth accounts 1
  let pull ← Pull.fromAccount rt key owner data
  return (pool, pull, slot)

def buy (key : Pubkey) (buy : Buy) : Except Thrown Purchase := do
  let (_, accounts) ← read rpc 0 [key] none (some 256)
  let (owner, data) ← nth accounts 0
  let pool ← Pool.fromAccount rt key owner data
  pool.buy rt buy

/-- Fetch the pool and the asset together. -/
def buyback (quote : BuybackQuote) (signature : List UInt8) (payer : Option Pubkey) :
    Except Thrown (List Instruction) := do
  let (_, accounts) ← read rpc 0 [quote.pool, quote.asset] none (some 256)
  let (owner, data) ← nth accounts 0
  let pool ← Pool.fromAccount rt quote.pool owner data
  let (owner, data) ← nth accounts 1
  let asset ← Asset.fromAccount quote.asset owner data
  pool.buyback rt quote signature asset (some (payer.getD asset.owner))

def refund (key payer : Pubkey) : Except Thrown (List Instruction) := do
  let (pool, pull, _) ← snapshot rt rpc key false
  pool.refund rt pull payer

/-- Resume recorded outcomes. -/
def deliver (key payer : Pubkey) : Except Thrown (List (List Instruction)) := do
  let (slot, accounts) ← read rpc 0 [key] none none
  let (owner, data) ← nth accounts 0
  let pull ← Pull.fromAccount rt key owner data
  let outcomes ← pull.outcomes
  let keys := (outcomes.filter fun o => o.tier.isSome).map Outcome.asset
  let assets ← assets rpc 1 keys (some slot)
  pull.deliver transactionSize assets payer

def settle (key : Pubkey) (proof : FixedBytes 80) (payer : Pubkey) :
    Except Thrown (List (List Instruction)) := do
  let (pool, pull, slot) ← snapshot rt rpc key true
  let plan ← pool.settle rt pull proof
  let keys := plan.draws.map Draw.item
  let (slot, accounts) ← read rpc 2 keys (some slot) none
  let items ← (keys.zip accounts).mapM fun x => Item.fromAccount rt x.1 x.2.1 x.2.2
  let assets ← assets rpc 3 (items.map Item.asset) (some slot)
  plan.instructions transactionSize items assets payer

end Client

end GachaKit

/-! ## Reads -/

namespace GachaRust

theorem lift_toOption {α : Type} (x : Except Fault α) : (lift x).toOption = x.toOption := by
  cases x <;> rfl

/-- An account whose owner parses is read alike. -/
theorem readAccount_agrees (key : Pubkey) {x : Option UiAccount}
    (hparses : ∀ account, x = some account → account.owner ≠ none) :
    (GachaKit.readAccount x).toOption = (readAccount (key, x)).toOption := by
  unfold GachaKit.readAccount readAccount
  cases x with
  | none => rfl
  | some account =>
    obtain ⟨owner, data⟩ := account
    cases owner with
    | none => exact absurd rfl (hparses _ rfl)
    | some owner => cases data <;> rfl

/-- Both clients accept a list of accounts, with the same owners and data, unless an owner does not parse: then
the Rust client fails, and what the other one returns has an owner that is not a program. -/
theorem readAccounts_agree (keys : List Pubkey) (accounts : List (Option UiAccount))
    (hlen : accounts.length = keys.length) :
    (accounts.mapM GachaKit.readAccount).toOption = ((keys.zip accounts).mapM readAccount).toOption ∨
      ((keys.zip accounts).mapM readAccount).toOption = none ∧
        ∀ read, accounts.mapM GachaKit.readAccount = .ok read → ∃ account ∈ read, account.1 = systemId := by
  have hsnd : (keys.zip accounts).map Prod.snd = accounts := List.map_snd_zip hlen.le
  rw [toOption_mapM, toOption_mapM]
  by_cases hparses : ∀ x ∈ keys.zip accounts, ∀ account, x.2 = some account → account.owner ≠ none
  · refine .inl ?_
    conv_lhs => rw [← hsnd]
    rw [List.mapM_map]
    exact List.mapM_option_congr fun x hx => readAccount_agrees x.1 (hparses x hx)
  · push Not at hparses
    obtain ⟨x, hx, account, hsome, howner⟩ := hparses
    refine .inr ⟨List.mapM_eq_none hx ?_, fun read hread => ?_⟩
    · unfold readAccount
      rw [hsome, toOption_bind, toOption_okOr, Option.bind_some, toOption_bind, toOption_okOr, howner]
      rfl
    · rw [← toOption_eq_some, toOption_mapM] at hread
      have hmem : x.2 ∈ accounts := by
        rw [← hsnd]
        exact List.mem_map_of_mem hx
      obtain ⟨entry, hentry, heq⟩ := List.exists_mem_of_mapM hread hmem
      refine ⟨entry, hentry, ?_⟩
      rw [toOption_eq_some, hsome] at heq
      obtain ⟨_, hfirst, heq⟩ := bind_eq_ok.mp heq
      obtain rfl := Option.some.inj (okOr_eq_ok.mp hfirst)
      obtain ⟨data, -, heq⟩ := bind_eq_ok.mp heq
      obtain rfl := pure_eq_ok.mp heq
      rw [howner]
      rfl

namespace Client

section Calls

variable (rt : Runtime) (transactionSize : List Instruction → Pubkey → ℕ) (rpc : Rpc)

/-- What follows a read of both clients: it is only given accounts as many as the keys, and has to fail on an
account that no program owns, since the Rust client did not get that far. -/
theorem read_agrees {β : Type} (n : ℕ) (keys : List Pubkey) (minimum : Option UInt64) (length : Option ℕ)
    {f : UInt64 × List (Pubkey × List UInt8) → Option β}
    {g : UInt64 × List (Pubkey × List UInt8) → Except GachaKit.Thrown β}
    (hsame : ∀ slot accounts, accounts.length = keys.length →
      (g (slot, accounts)).toOption = f (slot, accounts))
    (hforeign : ∀ slot accounts, accounts.length = keys.length → (∃ account ∈ accounts, account.1 = systemId) →
      (g (slot, accounts)).toOption = none) :
    (GachaKit.Client.read rpc n keys minimum length >>= g).toOption =
      (Client.read rpc n keys minimum length).toOption.bind f := by
  unfold GachaKit.Client.read Client.read
  cases rpc n ⟨keys, minimum, length⟩ with
  | error e => rfl
  | ok response =>
    simp only [toOption_ok, okOr, ok_bind, bind_assoc, pure_bind, toOption_failIf_bind]
    split_ifs with hbad
    · rfl
    rw [not_or, not_not] at hbad
    have hlength : ∀ accounts, response.accounts.mapM GachaKit.readAccount = .ok accounts →
        accounts.length = keys.length := by
      intro accounts haccounts
      have hmap := congrArg List.length (mapM_eq_ok.mp haccounts)
      rwa [List.length_map, List.length_map, hbad.1, eq_comm] at hmap
    rw [toOption_bind, toOption_bind]
    rcases readAccounts_agree keys response.accounts hbad.1 with heq | ⟨hnone, hsystem⟩
    · rw [← heq]
      cases haccounts : response.accounts.mapM GachaKit.readAccount with
      | error e => rfl
      | ok accounts => exact hsame response.slot accounts (hlength accounts haccounts)
    · rw [hnone]
      cases haccounts : response.accounts.mapM GachaKit.readAccount with
      | error e => rfl
      | ok accounts => exact hforeign response.slot accounts (hlength accounts haccounts) (hsystem accounts haccounts)

/-- The same for a read of one account. -/
theorem read_one_agrees {β : Type} (n : ℕ) (key : Pubkey) (minimum : Option UInt64) (length : Option ℕ)
    {f : UInt64 × List (Pubkey × List UInt8) → Option β}
    {g : UInt64 × List (Pubkey × List UInt8) → Except GachaKit.Thrown β}
    (hsame : ∀ slot account, (g (slot, [account])).toOption = f (slot, [account]))
    (hforeign : ∀ slot data, (g (slot, [(systemId, data)])).toOption = none) :
    (GachaKit.Client.read rpc n [key] minimum length >>= g).toOption =
      (Client.read rpc n [key] minimum length).toOption.bind f := by
  apply read_agrees
  · intro slot accounts hlen
    obtain ⟨account, rfl⟩ := List.length_eq_one_iff.mp hlen
    exact hsame slot account
  · intro slot accounts hlen ⟨account, hmem, hsystem⟩
    obtain ⟨only, rfl⟩ := List.length_eq_one_iff.mp hlen
    obtain rfl := List.mem_singleton.mp hmem
    obtain ⟨owner, data⟩ := account
    obtain rfl : owner = systemId := hsystem
    exact hforeign slot data

/-- And for a read of two. -/
theorem read_two_agrees {β : Type} (n : ℕ) (key key' : Pubkey) (minimum : Option UInt64) (length : Option ℕ)
    {f : UInt64 × List (Pubkey × List UInt8) → Option β}
    {g : UInt64 × List (Pubkey × List UInt8) → Except GachaKit.Thrown β}
    (hsame : ∀ slot account account', (g (slot, [account, account'])).toOption = f (slot, [account, account']))
    (hforeign : ∀ slot account account', account.1 = systemId ∨ account'.1 = systemId →
      (g (slot, [account, account'])).toOption = none) :
    (GachaKit.Client.read rpc n [key, key'] minimum length >>= g).toOption =
      (Client.read rpc n [key, key'] minimum length).toOption.bind f := by
  apply read_agrees
  · intro slot accounts hlen
    obtain ⟨account, account', rfl⟩ := List.length_eq_two.mp hlen
    exact hsame slot account account'
  · intro slot accounts hlen ⟨found, hmem, hsystem⟩
    obtain ⟨account, account', rfl⟩ := List.length_eq_two.mp hlen
    apply hforeign
    simp only [List.mem_cons, List.not_mem_nil, or_false] at hmem
    rcases hmem with rfl | rfl
    · exact .inl hsystem
    · exact .inr hsystem

/-- The snapshots reject an account of the System program. -/
theorem fromAccount_foreign (key : Pubkey) (data : List UInt8) :
    (GachaKit.Pool.fromAccount rt key systemId data).toOption = none ∧
      (GachaKit.Pull.fromAccount rt key systemId data).toOption = none ∧
      (GachaKit.Item.fromAccount rt key systemId data).toOption = none := by
  have hprogram : systemId ≠ programId := by decide
  unfold GachaKit.Pool.fromAccount GachaKit.Pull.fromAccount GachaKit.Item.fromAccount GachaKit.check
  simp only [toOption_failIf_bind, if_pos (show systemId ≠ programId ∨ _ from .inl hprogram), and_self]

theorem asset_foreign (key : Pubkey) (data : List UInt8) :
    (GachaKit.Asset.fromAccount key systemId data).toOption = none := by
  have hcore : systemId ≠ coreId := by decide
  unfold GachaKit.Asset.fromAccount
  rw [toOption_failIf_bind, if_pos (.inl hcore)]

/-- One account that is read and decoded. -/
theorem fetch_agrees {α β : Type} {same : α → β} (key : Pubkey) {f : Pubkey × List UInt8 → Except Fault α}
    {g : Pubkey × List UInt8 → Except GachaKit.Thrown β}
    (hsame : ∀ account, (g account).toOption = (f account).toOption.map same)
    (hforeign : ∀ data, (g (systemId, data)).toOption = none) :
    (GachaKit.Client.read rpc 0 [key] none none >>= fun x => GachaKit.Client.nth x.2 0 >>= g).toOption =
      (Client.read rpc 0 [key] none none >>= fun x =>
        Client.nth x.2 0 >>= fun account => lift (f account)).toOption.map same := by
  rw [toOption_bind (Client.read rpc 0 [key] none none), Option.map_bind]
  refine read_one_agrees rpc 0 key none none (fun _ account => ?_) fun _ => hforeign
  show (g account).toOption = (lift (f account)).toOption.map same
  rw [lift_toOption, hsame]

theorem fetchPool_agrees (key : Pubkey) : (GachaKit.Client.fetchPool rt rpc key).toOption =
    (Client.fetchPool rt rpc key).toOption.map Pool.toKit :=
  fetch_agrees rpc key (f := fun x => Pool.fromAccount rt key x.1 x.2) (fun x => (rt.sameSnapshots key x.1 x.2).pool)
    fun data => (fromAccount_foreign rt key data).1

theorem fetchPull_agrees (key : Pubkey) : (GachaKit.Client.fetchPull rt rpc key).toOption =
    (Client.fetchPull rt rpc key).toOption.map Pull.toKit :=
  fetch_agrees rpc key (f := fun x => Pull.fromAccount rt key x.1 x.2) (fun x => (rt.sameSnapshots key x.1 x.2).pull)
    fun data => (fromAccount_foreign rt key data).2.1

theorem fetchItem_agrees (key : Pubkey) : (GachaKit.Client.fetchItem rt rpc key).toOption =
    (Client.fetchItem rt rpc key).toOption.map Item.toKit :=
  fetch_agrees rpc key (f := fun x => Item.fromAccount rt key x.1 x.2) (fun x => (rt.sameSnapshots key x.1 x.2).item)
    fun data => (fromAccount_foreign rt key data).2.2

/-- A list of accounts, each decoded under its key. -/
theorem decode_agrees {α β : Type} {same : α → β} {f : Pubkey × Pubkey × List UInt8 → Except Fault α}
    {g : Pubkey × Pubkey × List UInt8 → Except GachaKit.Thrown β}
    (hsame : ∀ x, (g x).toOption = (f x).toOption.map same) (l : List (Pubkey × Pubkey × List UInt8)) :
    (l.mapM g).toOption = (l.mapM fun x => lift (f x)).toOption.map (List.map same) := by
  simp only [toOption_mapM, lift_toOption, ← List.mapM_map_option, hsame]

/-- One account of the System program among them is rejected. -/
theorem decode_foreign {β : Type} {g : Pubkey × Pubkey × List UInt8 → Except GachaKit.Thrown β}
    (hforeign : ∀ key data, (g (key, systemId, data)).toOption = none) {keys : List Pubkey}
    {accounts : List (Pubkey × List UInt8)} (hlen : accounts.length = keys.length)
    (hsystem : ∃ account ∈ accounts, account.1 = systemId) : ((keys.zip accounts).mapM g).toOption = none := by
  obtain ⟨account, hmem, howner⟩ := hsystem
  rw [← List.map_snd_zip hlen.le] at hmem
  obtain ⟨⟨key, owner, data⟩, hx, rfl⟩ := List.mem_map.mp hmem
  obtain rfl : owner = systemId := howner
  rw [toOption_mapM]
  exact List.mapM_eq_none hx (hforeign key data)

include rt in
theorem assets_agree (n : ℕ) (keys : List Pubkey) (minimum : Option UInt64) :
    (GachaKit.Client.assets rpc n keys minimum).toOption =
      (Client.assets rpc n keys minimum).toOption.map (List.map Asset.toKit) := by
  unfold GachaKit.Client.assets Client.assets
  cases keys with
  | nil => rfl
  | cons key keys =>
    show (GachaKit.Client.read rpc n (key :: keys) minimum (some 66) >>= fun x =>
      ((key :: keys).zip x.2).mapM fun x => GachaKit.Asset.fromAccount x.1 x.2.1 x.2.2).toOption =
      (Client.read rpc n (key :: keys) minimum (some 66) >>= fun x =>
        ((key :: keys).zip x.2).mapM fun x => lift (Asset.fromAccount x.1 x.2.1 x.2.2)).toOption.map _
    rw [read_agrees rpc n (key :: keys) minimum (some 66) (f := fun x => (((key :: keys).zip x.2).mapM fun x =>
        lift (Asset.fromAccount x.1 x.2.1 x.2.2)).toOption.map (List.map Asset.toKit))
      (fun slot accounts _ => decode_agrees (fun x => (rt.sameSnapshots x.1 x.2.1 x.2.2).asset) _)
      fun slot accounts hlen hsystem => decode_foreign asset_foreign hlen hsystem, toOption_bind, Option.map_bind]
    rfl

include rt in
theorem fetchAsset_agrees (key : Pubkey) : (GachaKit.Client.fetchAsset rpc key).toOption =
    (Client.fetchAsset rpc key).toOption.map Asset.toKit := by
  unfold GachaKit.Client.fetchAsset Client.fetchAsset
  rw [toOption_bind, toOption_bind, assets_agree rt]
  cases (Client.assets rpc 0 [key] none).toOption with
  | none => rfl
  | some assets => cases assets <;> rfl

/-- The pool of an account that both read. -/
theorem pool_bind_agrees {β : Type} (key owner : Pubkey) (data : List UInt8)
    {f : Pool → Option β} {g : GachaKit.Pool → Except GachaKit.Thrown β}
    (h : ∀ pool, PoolAccepted rt pool.address owner pool.data pool.header → (g pool.toKit).toOption = f pool) :
    (GachaKit.Pool.fromAccount rt key owner data >>= g).toOption =
      (Pool.fromAccount rt key owner data).toOption.bind f := by
  rw [toOption_bind, (rt.sameSnapshots key owner data).pool]
  cases hpool : Pool.fromAccount rt key owner data with
  | error e => rfl
  | ok pool =>
    obtain ⟨haccepted, rfl⟩ := Pool.fromAccount_eq_ok.mp hpool
    exact h _ haccepted

theorem pool_bind_foreign {β : Type} (key : Pubkey) (data : List UInt8)
    (g : GachaKit.Pool → Except GachaKit.Thrown β) :
    (GachaKit.Pool.fromAccount rt key systemId data >>= g).toOption = none := by
  rw [toOption_bind, (fromAccount_foreign rt key data).1]
  rfl

theorem pull_bind_foreign {β : Type} (key : Pubkey) (data : List UInt8)
    (g : GachaKit.Pull → Except GachaKit.Thrown β) :
    (GachaKit.Pull.fromAccount rt key systemId data >>= g).toOption = none := by
  rw [toOption_bind, (fromAccount_foreign rt key data).2.1]
  rfl

theorem pull_bind_agrees {β : Type} (key owner : Pubkey) (data : List UInt8)
    {f : Pull → Option β} {g : GachaKit.Pull → Except GachaKit.Thrown β}
    (h : ∀ pull, PullAccepted rt pull.address owner pull.data pull.header → (g pull.toKit).toOption = f pull) :
    (GachaKit.Pull.fromAccount rt key owner data >>= g).toOption =
      (Pull.fromAccount rt key owner data).toOption.bind f := by
  rw [toOption_bind, (rt.sameSnapshots key owner data).pull]
  cases hpull : Pull.fromAccount rt key owner data with
  | error e => rfl
  | ok pull =>
    obtain ⟨haccepted, rfl⟩ := Pull.fromAccount_eq_ok.mp hpull
    exact h _ haccepted

theorem buy_agrees (key buyer : Pubkey) (count : ℤ) (clientSeed : List UInt8) :
    (GachaKit.Client.buy rt rpc key ⟨buyer, count, clientSeed⟩).toOption =
      (toU8 count).bind fun count => (toBytes 32 clientSeed).bind fun seed =>
        (Client.buy rt rpc key ⟨buyer, count, seed⟩).toOption := by
  have hread := read_one_agrees rpc 0 key none (some 256)
    (f := fun x => (Client.nth x.2 0).toOption.bind fun account =>
      (Pool.fromAccount rt key account.1 account.2).toOption.bind fun pool =>
        (toU8 count).bind fun count => (toBytes 32 clientSeed).bind fun seed =>
          (pool.buy rt ⟨buyer, count, seed⟩).toOption)
    (g := fun x => GachaKit.Client.nth x.2 0 >>= fun account =>
      GachaKit.Pool.fromAccount rt key account.1 account.2 >>= fun pool => pool.buy rt ⟨buyer, count, clientSeed⟩)
    (fun _ account => pool_bind_agrees rt key account.1 account.2 fun pool hpool =>
      Pool.buy_agrees hpool buyer count clientSeed)
    fun _ data => pool_bind_foreign rt key data fun pool => pool.buy rt ⟨buyer, count, clientSeed⟩
  refine Eq.trans hread ?_
  unfold Client.buy
  cases toU8 count with
  | none => simp only [Option.bind_none, Option.bind_fun_none]
  | some count =>
    cases toBytes 32 clientSeed with
    | none => simp only [Option.bind_none, Option.bind_fun_none]
    | some seed =>
      simp only [Option.bind_some, toOption_bind, lift_toOption]
      rfl

/-- The asset is read with the pool, so both have to be there. -/
theorem buyback_agrees (poolKey assetKey : Pubkey) (price expiresAt tier : ℤ) (signature : List UInt8)
    (payer : Pubkey) :
    (GachaKit.Client.buyback rt rpc ⟨poolKey, assetKey, price, expiresAt, tier⟩ signature (some payer)).toOption =
      (toU64 price).bind fun price => (toI64 expiresAt).bind fun expiresAt => (toU8 tier).bind fun tier =>
        (toBytes 64 signature).bind fun signature =>
          (Client.buyback rt rpc ⟨poolKey, assetKey, price, expiresAt, tier⟩ signature payer).toOption := by
  have hread := read_two_agrees rpc 0 poolKey assetKey none (some 256)
    (f := fun x => (Client.nth x.2 0).toOption.bind fun account =>
      (Pool.fromAccount rt poolKey account.1 account.2).toOption.bind fun pool =>
        (Client.nth x.2 1).toOption.bind fun account =>
          (Asset.fromAccount assetKey account.1 account.2).toOption.bind fun asset =>
            (toU64 price).bind fun price => (toI64 expiresAt).bind fun expiresAt => (toU8 tier).bind fun tier =>
              (toBytes 64 signature).bind fun signature =>
                (pool.buyback rt ⟨poolKey, assetKey, price, expiresAt, tier⟩ signature asset payer).toOption)
    (g := fun x => GachaKit.Client.nth x.2 0 >>= fun account =>
      GachaKit.Pool.fromAccount rt poolKey account.1 account.2 >>= fun pool =>
        GachaKit.Client.nth x.2 1 >>= fun account =>
          GachaKit.Asset.fromAccount assetKey account.1 account.2 >>= fun asset =>
            pool.buyback rt ⟨poolKey, assetKey, price, expiresAt, tier⟩ signature asset (some payer))
    (fun _ account account' => pool_bind_agrees rt poolKey account.1 account.2 fun pool hpool => by
      show (GachaKit.Asset.fromAccount assetKey account'.1 account'.2 >>= fun asset => pool.toKit.buyback rt
        ⟨poolKey, assetKey, price, expiresAt, tier⟩ signature asset (some payer)).toOption =
          (Asset.fromAccount assetKey account'.1 account'.2).toOption.bind _
      rw [toOption_bind, (rt.sameSnapshots assetKey account'.1 account'.2).asset]
      cases Asset.fromAccount assetKey account'.1 account'.2 with
      | error e => rfl
      | ok asset => exact Pool.buyback_agrees hpool poolKey assetKey price expiresAt tier signature asset (some payer))
    (by
      intro slot (owner, data) (owner', data') hsystem
      show (GachaKit.Pool.fromAccount rt poolKey owner data >>= fun pool =>
        GachaKit.Asset.fromAccount assetKey owner' data' >>= fun asset => pool.buyback rt
          ⟨poolKey, assetKey, price, expiresAt, tier⟩ signature asset (some payer)).toOption = none
      rcases hsystem with hsystem | hsystem
      · obtain rfl : owner = systemId := hsystem
        exact pool_bind_foreign rt poolKey data _
      · obtain rfl : owner' = systemId := hsystem
        simp only [toOption_bind, asset_foreign, Option.bind_none, Option.bind_fun_none])
  refine Eq.trans hread ?_
  unfold Client.buyback
  cases toU64 price with
  | none => simp only [Option.bind_none, Option.bind_fun_none]
  | some price =>
    cases toI64 expiresAt with
    | none => simp only [Option.bind_none, Option.bind_fun_none]
    | some expiresAt =>
      cases toU8 tier with
      | none => simp only [Option.bind_none, Option.bind_fun_none]
      | some tier =>
        cases toBytes 64 signature with
        | none => simp only [Option.bind_none, Option.bind_fun_none]
        | some signature =>
          simp only [Option.bind_some, toOption_bind, lift_toOption]
          rfl

/-- A snapshot in the other SDK. -/
def snapshotToKit (x : Pool × Pull × UInt64) : GachaKit.Pool × GachaKit.Pull × UInt64 :=
  (x.1.toKit, x.2.1.toKit, x.2.2)

/-- The second read of a snapshot. -/
theorem snapshot_read_agrees (key poolKey : Pubkey) (slot : UInt64) (inventory : Bool) :
    (GachaKit.Client.read rpc 1 [poolKey, key] (some slot) (if inventory then none else some 450) >>= fun x => do
      let (owner, data) ← GachaKit.Client.nth x.2 0
      let pool ← GachaKit.Pool.fromAccount rt poolKey owner (if inventory then data else data.take 256)
      let (owner, data) ← GachaKit.Client.nth x.2 1
      let pull ← GachaKit.Pull.fromAccount rt key owner data
      return (pool, pull, x.1)).toOption =
    (Client.read rpc 1 [poolKey, key] (some slot) (if inventory then none else some pullLen) >>= fun x => do
      let (owner, data) ← Client.nth x.2 0
      failIf (inventory = false ∧ data.length < poolLen) (.account (.error .invalidAccount))
      let poolData := if inventory then data else data.take poolLen
      let pool ← lift (Pool.fromAccount rt poolKey owner poolData)
      let (owner, data) ← Client.nth x.2 1
      let pull ← lift (Pull.fromAccount rt key owner data)
      return (pool, pull, x.1)).toOption.map snapshotToKit := by
  rw [toOption_bind (Client.read _ _ _ _ _), Option.map_bind]
  apply read_two_agrees
  · intro slot (owner, data) (owner', data')
    show (GachaKit.Pool.fromAccount rt poolKey owner (if inventory then data else data.take 256) >>= fun pool =>
        GachaKit.Pull.fromAccount rt key owner' data' >>= fun pull => pure (pool, pull, slot)).toOption =
      (failIf (inventory = false ∧ data.length < poolLen) (.account (.error .invalidAccount)) >>= fun _ =>
        lift (Pool.fromAccount rt poolKey owner (if inventory then data else data.take poolLen)) >>= fun pool =>
          lift (Pull.fromAccount rt key owner' data') >>= fun pull =>
            (pure (pool, pull, slot) : Except RpcError _)).toOption.map snapshotToKit
    rw [toOption_failIf_bind]
    by_cases hshort : inventory = false ∧ data.length < poolLen
    · -- A header that is too short is rejected by the snapshot.
      have hdata : (data.take 256).length < 256 := by
        rw [List.length_take]
        exact min_lt_of_right_lt hshort.2
      rw [if_pos hshort, hshort.1]
      unfold GachaKit.Pool.fromAccount GachaKit.check
      rw [bind_assoc, toOption_failIf_bind, if_pos (.inr (.inl hdata))]
      rfl
    rw [if_neg hshort]
    simp only [toOption_bind, lift_toOption, (rt.sameSnapshots _ _ _).pool, (rt.sameSnapshots _ _ _).pull,
      Option.map_bind, Option.bind_map]
    refine congrArg _ (funext fun pool => ?_)
    unfold Function.comp
    rw [Option.map_bind]
    rfl
  · intro slot (owner, data) (owner', data') hsystem
    show (GachaKit.Pool.fromAccount rt poolKey owner (if inventory then data else data.take 256) >>= fun pool =>
        GachaKit.Pull.fromAccount rt key owner' data' >>= fun pull => pure (pool, pull, slot)).toOption = none
    rcases hsystem with hsystem | hsystem
    · obtain rfl : owner = systemId := hsystem
      exact pool_bind_foreign rt poolKey _ _
    · obtain rfl : owner' = systemId := hsystem
      simp only [toOption_bind, (fromAccount_foreign rt key data').2.1, Option.bind_none, Option.bind_fun_none]

theorem snapshot_agrees (key : Pubkey) (inventory : Bool) :
    (GachaKit.Client.snapshot rt rpc key inventory).toOption =
      (Client.snapshot rt rpc key inventory).toOption.map snapshotToKit := by
  unfold GachaKit.Client.snapshot Client.snapshot
  rw [toOption_bind (Client.read rpc 0 [key] none none), Option.map_bind]
  refine read_one_agrees rpc 0 key none none (fun slot account => ?_) fun slot data => ?_
  · obtain ⟨owner, data⟩ := account
    show (GachaKit.Pull.fromAccount rt key owner data >>= _).toOption =
      (lift (Pull.fromAccount rt key owner data) >>= _).toOption.map _
    rw [toOption_bind (lift _), lift_toOption, Option.map_bind]
    refine pull_bind_agrees rt key owner data fun pull _ => ?_
    rw [GachaKit.Pull.pool_eq]
    exact snapshot_read_agrees rt rpc key pull.header.pool slot inventory
  · dsimp only
    rw [show GachaKit.Client.nth [(systemId, data)] 0 = .ok (systemId, data) from rfl, ok_bind]
    exact pull_bind_foreign rt key data _

/-- The accounts of a snapshot were accepted. -/
theorem snapshot_accepted {key : Pubkey} {inventory : Bool} {pool : Pool} {pull : Pull} {slot : UInt64}
    (h : Client.snapshot rt rpc key inventory = .ok (pool, pull, slot)) :
    (∃ owner, PoolAccepted rt pool.address owner pool.data pool.header) ∧
      ∃ owner, PullAccepted rt pull.address owner pull.data pull.header := by
  unfold Client.snapshot at h
  simp only [bind_eq_ok, pure_eq_ok] at h
  obtain ⟨_, -, _, -, _, -, _, -, ⟨owner, data⟩, -, _, -, pool', hpool, ⟨owner', data'⟩, -, pull', hpull, heq⟩ := h
  obtain ⟨rfl, rfl, rfl⟩ := heq
  rw [← toOption_eq_some, lift_toOption, toOption_eq_some] at hpool hpull
  obtain ⟨haccepted, rfl⟩ := Pool.fromAccount_eq_ok.mp hpool
  obtain ⟨haccepted', rfl⟩ := Pull.fromAccount_eq_ok.mp hpull
  exact ⟨⟨owner, haccepted⟩, owner', haccepted'⟩

/-- What both make of a snapshot. -/
theorem snapshot_bind_agrees {β : Type} (key : Pubkey) (inventory : Bool)
    {f : Pool × Pull × UInt64 → Except RpcError β}
    {g : GachaKit.Pool × GachaKit.Pull × UInt64 → Except GachaKit.Thrown β}
    (h : ∀ (pool : Pool) (pull : Pull) slot owner owner', PoolAccepted rt pool.address owner pool.data pool.header →
      PullAccepted rt pull.address owner' pull.data pull.header →
      (g (pool.toKit, pull.toKit, slot)).toOption = (f (pool, pull, slot)).toOption) :
    (GachaKit.Client.snapshot rt rpc key inventory >>= g).toOption =
      (Client.snapshot rt rpc key inventory >>= f).toOption := by
  apply toOption_bind_congr (snapshot_agrees rt rpc key inventory)
  intro (pool, pull, slot) hsnapshot
  obtain ⟨⟨owner, hpool⟩, owner', hpull⟩ := snapshot_accepted rt rpc hsnapshot
  exact h pool pull slot owner owner' hpool hpull

theorem refund_agrees (key payer : Pubkey) :
    (GachaKit.Client.refund rt rpc key payer).toOption = (Client.refund rt rpc key payer).toOption := by
  refine snapshot_bind_agrees rt rpc key false fun pool pull slot owner owner' hpool hpull => ?_
  dsimp only
  rw [lift_toOption]
  exact Pool.refund_agrees hpool hpull.length payer

/-- The assets to fetch are those of the awards that are left. -/
theorem deliver_agrees (key payer : Pubkey) : (GachaKit.Client.deliver rt transactionSize rpc key payer).toOption =
    (Client.deliver rt transactionSize rpc key payer).toOption := by
  unfold GachaKit.Client.deliver Client.deliver
  rw [toOption_bind (Client.read rpc 0 [key] none none)]
  refine read_one_agrees rpc 0 key none none (fun slot account => ?_) fun slot data => ?_
  · obtain ⟨owner, data⟩ := account
    dsimp only
    rw [show GachaKit.Client.nth [(owner, data)] 0 = .ok (owner, data) from rfl, ok_bind,
      show Client.nth [(owner, data)] 0 = .ok (owner, data) from rfl, ok_bind, toOption_bind (lift _), lift_toOption]
    refine pull_bind_agrees rt key owner data fun pull hpull => ?_
    rw [toOption_bind, toOption_bind, lift_toOption, Pull.outcomes_agree hpull, Option.bind_map]
    refine congrArg _ (funext fun outcomes => ?_)
    have hkeys : ((outcomes.map Outcome.toKit).filter fun o => o.tier.isSome).map GachaKit.Outcome.asset =
        (outcomes.filter fun o => o.tier.isSome).map Outcome.asset := by
      rw [List.filter_map, List.map_map]
      refine congrArg _ (List.filter_congr fun o _ => ?_)
      exact Option.isSome_map
    unfold Function.comp
    dsimp only
    rw [hkeys, toOption_bind, toOption_bind, assets_agree rt, Option.bind_map]
    refine congrArg _ (funext fun assets => ?_)
    rw [lift_toOption]
    exact Pull.deliver_agrees transactionSize hpull assets payer
  · dsimp only
    rw [show GachaKit.Client.nth [(systemId, data)] 0 = .ok (systemId, data) from rfl, ok_bind]
    exact pull_bind_foreign rt key data _

/-- The plan of two accepted snapshots. -/
theorem plan_agrees {pool : Pool} {pull : Pull} {owner owner' : Pubkey}
    (hpool : PoolAccepted rt pool.address owner pool.data pool.header)
    (hpull : PullAccepted rt pull.address owner' pull.data pull.header) (proof : FixedBytes 80) :
    (pool.toKit.settle rt pull.toKit proof).toOption = (pool.settle rt pull proof).toOption.map Settlement.toKit := by
  rcases Pool.settle_agrees hpool hpull proof with hagrees | ⟨hrust, ⟨e, hkit⟩, -⟩
  · obtain ⟨plan, hrust, hkit⟩ | ⟨e, hrust, hkit⟩ := hagrees.eq_or_eq
    · rw [hrust, hkit]
      rfl
    · rw [hrust, hkit]
      rfl
  · rw [hrust, hkit]
    rfl

/-- The Items of the plan are read and decoded, and then their assets. -/
theorem settle_agrees (key : Pubkey) (proof : FixedBytes 80) (payer : Pubkey) :
    (GachaKit.Client.settle rt transactionSize rpc key proof payer).toOption =
      (Client.settle rt transactionSize rpc key proof payer).toOption := by
  unfold GachaKit.Client.settle Client.settle
  refine snapshot_bind_agrees rt rpc key true fun pool pull slot owner owner' hpool hpull => ?_
  dsimp only
  rw [toOption_bind, toOption_bind, lift_toOption, plan_agrees rt hpool hpull, Option.bind_map]
  refine congrArg _ (funext fun plan => ?_)
  have hkeys : plan.toKit.draws.map GachaKit.Draw.item = plan.draws.map Draw.item := by
    rw [show plan.toKit.draws = plan.draws.map Draw.toKit from rfl, List.map_map]
    rfl
  unfold Function.comp
  dsimp only
  rw [hkeys, toOption_bind (Client.read _ _ _ _ _)]
  refine read_agrees rpc 2 (plan.draws.map Draw.item) (some slot) none (fun slot accounts _ => ?_)
    fun slot accounts hlen hsystem => ?_
  · dsimp only
    rw [toOption_bind, toOption_bind,
      decode_agrees (f := fun x => Item.fromAccount rt x.1 x.2.1 x.2.2) fun x => (rt.sameSnapshots x.1 x.2.1 x.2.2).item,
      Option.bind_map]
    refine congrArg _ (funext fun items => ?_)
    have hassets : (items.map Item.toKit).map GachaKit.Item.asset = items.map fun item => item.header.asset := by
      rw [List.map_map]
      exact List.map_congr_left fun item _ => GachaKit.Item.asset_eq
    unfold Function.comp
    dsimp only
    rw [hassets, toOption_bind, toOption_bind, assets_agree rt, Option.bind_map]
    refine congrArg _ (funext fun assets => ?_)
    rw [lift_toOption]
    exact plan.instructions_agree transactionSize items assets payer
  · dsimp only
    rw [toOption_bind, decode_foreign (fun key data => (fromAccount_foreign rt key data).2.2) hlen hsystem]
    rfl

end Calls

end Client

end GachaRust

/-! ## Both clients -/

open GachaRust in
/-- What both clients return of one node: the TypeScript client's result is the Rust client's on the narrowed
arguments. -/
structure Runtime.SameAnswers (rt : Runtime) (transactionSize : List GachaRust.Instruction → Pubkey → ℕ)
    (rpc : Rpc) : Prop where
  fetchPool : ∀ key, (GachaKit.Client.fetchPool rt rpc key).toOption =
    (Client.fetchPool rt rpc key).toOption.map Pool.toKit
  fetchPull : ∀ key, (GachaKit.Client.fetchPull rt rpc key).toOption =
    (Client.fetchPull rt rpc key).toOption.map Pull.toKit
  fetchItem : ∀ key, (GachaKit.Client.fetchItem rt rpc key).toOption =
    (Client.fetchItem rt rpc key).toOption.map Item.toKit
  fetchAsset : ∀ key, (GachaKit.Client.fetchAsset rpc key).toOption =
    (Client.fetchAsset rpc key).toOption.map Asset.toKit
  buy : ∀ key buyer count clientSeed, (GachaKit.Client.buy rt rpc key ⟨buyer, count, clientSeed⟩).toOption =
    (toU8 count).bind fun count => (toBytes 32 clientSeed).bind fun seed =>
      (Client.buy rt rpc key ⟨buyer, count, seed⟩).toOption
  buyback : ∀ poolKey assetKey price expiresAt tier signature payer,
    (GachaKit.Client.buyback rt rpc ⟨poolKey, assetKey, price, expiresAt, tier⟩ signature (some payer)).toOption =
    (toU64 price).bind fun price => (toI64 expiresAt).bind fun expiresAt => (toU8 tier).bind fun tier =>
      (toBytes 64 signature).bind fun signature =>
        (Client.buyback rt rpc ⟨poolKey, assetKey, price, expiresAt, tier⟩ signature payer).toOption
  refund : ∀ key payer,
    (GachaKit.Client.refund rt rpc key payer).toOption = (Client.refund rt rpc key payer).toOption
  deliver : ∀ key payer, (GachaKit.Client.deliver rt transactionSize rpc key payer).toOption =
    (Client.deliver rt transactionSize rpc key payer).toOption
  settle : ∀ key proof payer, (GachaKit.Client.settle rt transactionSize rpc key proof payer).toOption =
    (Client.settle rt transactionSize rpc key proof payer).toOption

end SolanaGacha
