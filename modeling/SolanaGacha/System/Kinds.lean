import SolanaGacha.System.Localnet
import SolanaGacha.System.Stock

/-!
# Kinds of accounts

Pools, Items and Pulls start with the same version byte and carry no discriminator. Their lengths tell them
apart (`inventorySpace_ne`): a pool has 256 bytes and whole blocks of 96, and neither 72 nor 450 is such a
length, however many blocks there are. So no account passes for two of the kinds, in an instruction that
takes several of them or after any restock (`Runtime.kinds_separate`).
-/

namespace SolanaGacha

open Except Layout

/-! ## One account -/

/-- The number of kinds that an account loads as. -/
def Account.kinds (account : Account) : ℕ :=
  [(Pool.load account).isOk, (Item.load account).isOk, (Pull.load account).isOk].count true

theorem isOk_iff {ε α : Type} {x : Except ε α} : x.isOk = true ↔ ∃ a, x = .ok a := by
  cases x with
  | ok a => exact ⟨fun _ => ⟨a, rfl⟩, fun _ => rfl⟩
  | error e =>
    constructor
    · intro h
      cases h
    · rintro ⟨a, h⟩
      cases h

/-- At most one loader accepts an account. -/
theorem Account.kinds_le_one (account : Account) : account.kinds ≤ 1 := by
  unfold kinds
  cases hpool : Pool.load account with
  | ok pool =>
    cases hitem : Item.load account with
    | ok item => exact (Pool.load_item_exclusive hpool hitem).elim
    | error _ =>
      cases hpull : Pull.load account with
      | ok pull => exact (Pool.load_pull_exclusive hpool hpull).elim
      | error _ => exact le_rfl
  | error _ =>
    cases hitem : Item.load account with
    | ok item =>
      cases hpull : Pull.load account with
      | ok pull => exact (Item.load_pull_exclusive hitem hpull).elim
      | error _ => exact le_rfl
    | error _ =>
      cases Pull.load account with
      | ok pull => exact le_rfl
      | error _ => exact Nat.zero_le _

/-- A pool is one kind, and it is a pool. -/
def Account.IsPool (account : Account) : Prop :=
  (Pool.load account).isOk ∧ ¬(Item.load account).isOk ∧ ¬(Pull.load account).isOk

theorem Account.isPool_iff {account : Account} : account.IsPool ↔ ∃ pool, Pool.load account = .ok pool := by
  unfold IsPool
  rw [isOk_iff, isOk_iff, isOk_iff]
  constructor
  · exact fun h => h.1
  · rintro ⟨pool, hpool⟩
    refine ⟨⟨pool, hpool⟩, ?_, ?_⟩
    · rintro ⟨item, hitem⟩
      exact Pool.load_item_exclusive hpool hitem
    · rintro ⟨pull, hpull⟩
      exact Pool.load_pull_exclusive hpool hpull

/-! ## The accounts of an instruction -/

section Roles

variable {w : World} {infos : List AccountInfo}

theorem SettleAccounts.items_load {items : List AccountInfo} (h : checkItems w items = .ok ()) :
    ∀ info ∈ items, ∃ item, Item.load (w.account info) = .ok item := by
  induction items with
  | nil => exact fun _ hmem => absurd hmem List.not_mem_nil
  | cons first items ih =>
    simp only [checkItems, bind_eq_ok] at h
    obtain ⟨_, -, item, hitem, h⟩ := h
    intro info hmem
    obtain rfl | hmem := List.mem_cons.mp hmem
    · exact ⟨item, hitem⟩
    · exact ih h info hmem

/-- The pool, the pull and the items of a settlement are different accounts. -/
theorem SettleAccounts.roles {a : SettleAccounts} (h : tryFrom w infos = .ok a) :
    a.pool.key ≠ a.pull.key ∧ ∀ info ∈ a.items, info.key ≠ a.pool.key ∧ info.key ≠ a.pull.key := by
  unfold tryFrom at h
  split at h
  · split at h
    · simp only [bind_eq_ok, pure_eq_ok] at h
      obtain ⟨_, -, pool, hpool, pull, hpull, _, -, _, -, _, -, _, -, _, -, _, -, _, hitems, rfl⟩ := h
      refine ⟨fun heq => ?_, fun info hmem => ?_⟩
      · unfold World.account at hpool hpull
        rw [← heq] at hpull
        exact Pool.load_pull_exclusive hpool hpull
      · obtain ⟨item, hitem⟩ := items_load hitems info hmem
        unfold World.account at hpool hpull hitem
        refine ⟨fun heq => ?_, fun heq => ?_⟩
        · rw [heq] at hitem
          exact Pool.load_item_exclusive hpool hitem
        · rw [heq] at hitem
          exact Item.load_pull_exclusive hitem hpull
    · cases h
  · cases h

/-- The pool and the pull of a refund. -/
theorem RefundAccounts.roles {a : RefundAccounts} (h : tryFrom w infos = .ok a) :
    a.pool.key ≠ a.pull.key := by
  unfold tryFrom at h
  split at h
  · simp only [bind_eq_ok] at h
    obtain ⟨_, -, pool, hpool, pull, hpull, h⟩ := h
    obtain ⟨_, -, _, -, _, -, _, -, _, -, _, -, _, -, _, -, h⟩ := h
    obtain rfl := pure_eq_ok.mp h
    intro heq
    unfold World.account at hpool hpull
    rw [← heq] at hpull
    exact Pool.load_pull_exclusive hpool hpull
  · cases h

/-- The pool and the pull of a delivery. -/
theorem DeliverAccounts.roles {a : DeliverAccounts} (h : tryFrom w infos = .ok a) :
    a.pool.key ≠ a.pull.key := by
  unfold tryFrom at h
  split at h
  · simp only [bind_eq_ok] at h
    obtain ⟨_, -, _, -, pool, hpool, pull, hpull, h⟩ := h
    obtain ⟨_, -, _, -, _, -, h⟩ := h
    obtain rfl := pure_eq_ok.mp h
    intro heq
    unfold World.account at hpool hpull
    rw [← heq] at hpull
    exact Pool.load_pull_exclusive hpool hpull
  · cases h

/-- The pool and the item of a reclaim. -/
theorem ReclaimAccounts.roles {a : ReclaimAccounts} (h : tryFrom w infos = .ok a) :
    a.pool.key ≠ a.item.key := by
  unfold tryFrom at h
  split at h
  · simp only [bind_eq_ok] at h
    obtain ⟨_, -, _, -, pool, hpool, _, -, _, -, _, -, item, hitem, h⟩ := h
    obtain ⟨_, -, _, -, _, -, h⟩ := h
    obtain rfl := pure_eq_ok.mp h
    intro heq
    unfold World.account at hpool hitem
    rw [← heq] at hitem
    exact Pool.load_item_exclusive hpool hitem
  · cases h

end Roles

/-! ## Restocks -/

/-- A restock of the pool at an address, with any item, tier and payer. -/
def World.Restock (rt : Runtime) (P : Pubkey) (w w' : World) : Prop :=
  ∃ (payer pool item : AccountInfo) (asset : Pubkey) (tier bump : UInt8), pool.key = P ∧
    rt.restock w payer pool item asset tier bump = .ok w'

/-- A restock leaves a pool. -/
theorem World.Restock.isPool {rt : Runtime} {P : Pubkey} {w w' : World} (h : w.Restock rt P w') :
    (w'.accounts P).IsPool := by
  obtain ⟨payer, pool, item, asset, tier, bump, rfl, h⟩ := h
  simp only [Runtime.restock, bind_eq_ok, pure_eq_ok] at h
  obtain ⟨_, -, _, -, w1, -, w2, -, new, -, header, hload, inventory, hinventory, ⟨⟨⟩, inventory'⟩, happend,
    header', hcounter, rfl⟩ := h
  generalize w2.store Item.layout item.key _ = w3 at hload hinventory ⊢
  -- The last part of a restock loads the pool and writes it back with the same length.
  have hpool : w3.ledger pool.key = .pool header ((w3.accounts pool.key).data.drop poolLen) :=
    Account.entry_eq_pool.mpr ⟨hload, rfl⟩
  obtain rfl := World.inventory_load hpool hinventory
  have hlen := (Inventory.keepsLength_append _ _).run happend
  obtain ⟨tiers, rfl, -⟩ := Pool.updateRemaining_frame hcounter
  have hledger := World.ledger_store_both { header with tiers } hpool rfl rfl hlen
  apply Account.isPool_iff.mpr
  have hentry := congrFun hledger pool.key
  rw [Function.update_self] at hentry
  exact ⟨_, (Account.entry_eq_pool.mp hentry).1⟩

namespace Runtime

/-- At most one of the three loaders accepts an account, whatever its owner and its data are. So the pool, the
pull and the items that `Settle`, `Refund`, `Deliver` and `Reclaim` accept are different accounts, and a pool
is a pool and nothing else after any number of restocks, and after any run of the chain. -/
theorem kinds_separate (rt : Runtime) :
    (∀ account : Account, account.kinds ≤ 1) ∧
    (∀ w infos a, SettleAccounts.tryFrom w infos = .ok a →
      a.pool.key ≠ a.pull.key ∧ ∀ info ∈ a.items, info.key ≠ a.pool.key ∧ info.key ≠ a.pull.key) ∧
    (∀ w infos a, RefundAccounts.tryFrom w infos = .ok a → a.pool.key ≠ a.pull.key) ∧
    (∀ w infos a, DeliverAccounts.tryFrom w infos = .ok a → a.pool.key ≠ a.pull.key) ∧
    (∀ w infos a, ReclaimAccounts.tryFrom w infos = .ok a → a.pool.key ≠ a.item.key) ∧
    (∀ P w w', Relation.ReflTransGen (World.Restock rt P) w w' →
      (w.accounts P).IsPool → (w'.accounts P).IsPool) ∧
    ∀ P w trace w', rt.Lawful → w.Reached rt → Run (World.Step rt) w trace w' →
      (w.accounts P).IsPool → (w'.accounts P).IsPool := by
  refine ⟨Account.kinds_le_one, fun _ _ _ => SettleAccounts.roles, fun _ _ _ => RefundAccounts.roles,
    fun _ _ _ => DeliverAccounts.roles, fun _ _ _ => ReclaimAccounts.roles, fun P w w' hruns hpool => ?_,
    fun P w trace w' hrt hw hrun hpool => ?_⟩
  · induction hruns with
    | refl => exact hpool
    | tail _ hrestock _ => exact hrestock.isPool
  · obtain ⟨pool, hpool⟩ := Account.isPool_iff.mp hpool
    obtain ⟨pool', index', hpool', -⟩ := (hw.sound hrt).later hrt (Account.entry_eq_pool.mpr ⟨hpool, rfl⟩) hrun
    exact Account.isPool_iff.mpr ⟨pool', (Account.entry_eq_pool.mp hpool').1⟩

/-- The separation on the sample settlement, and the sample pool after two deposits. -/
theorem kinds_separate_sample :
    (∃ a, SettleAccounts.tryFrom Sample.bought (Sample.settle [Sample.item₀]).accounts = .ok a ∧
      a.items.length = 1 ∧ a.pool.key ≠ a.pull.key ∧
        ∀ info ∈ a.items, info.key ≠ a.pool.key ∧ info.key ≠ a.pull.key) ∧
    ((Sample.after (Sample.after Sample.start [Sample.createPool])
      [Sample.depositItem Sample.item₀ Sample.asset₀ 253,
        Sample.depositItem Sample.item₁ Sample.asset₁ 251]).accounts Sample.pool).IsPool := by
  obtain ⟨-, hsettle, -, -, -, -, hrun⟩ := kinds_separate Sample.net.runtime
  constructor
  · have haccepted : (match SettleAccounts.tryFrom Sample.bought (Sample.settle [Sample.item₀]).accounts with
        | .ok a => decide (a.items.length = 1)
        | .error _ => false) = true := by decide +kernel
    have hroles := hsettle Sample.bought (Sample.settle [Sample.item₀]).accounts
    generalize SettleAccounts.tryFrom Sample.bought (Sample.settle [Sample.item₀]).accounts = x at *
    cases x with
    | ok a => exact ⟨a, rfl, of_decide_eq_true haccepted, hroles a rfl⟩
    | error e => cases haccepted
  · obtain ⟨header, index, hpool, -⟩ := Sample.exists_pool
      (e := (Sample.after Sample.start [Sample.createPool]).ledger Sample.pool) (p := fun _ => true)
      (by decide +kernel)
    have hreached : World.Reached Sample.net.runtime (Sample.after Sample.start [Sample.createPool]) :=
      Sample.reached_after Sample.start_reached (by decide +kernel)
    obtain ⟨trace, hsteps⟩ := Sample.run_after (Sample.after Sample.start [Sample.createPool])
      [Sample.depositItem Sample.item₀ Sample.asset₀ 253, Sample.depositItem Sample.item₁ Sample.asset₁ 251]
      (by decide +kernel)
    exact hrun Sample.pool _ trace _ Sample.net.runtime_lawful hreached hsteps
      (Account.isPool_iff.mpr ⟨header, (Account.entry_eq_pool.mp hpool).1⟩)

end Runtime

end SolanaGacha
