import SolanaGacha.Ledger.Draw
import SolanaGacha.Program.Entrypoint

/-!
# Calls

`Instruction.parse` is the first half of the entrypoint: it selects the handler, checks the accounts and
decodes the data. The `Call` that it returns is what the handler's `process` runs on
(`processInstruction_eq`), so an instruction is described by its call. What the effects of several
calls share is stated here: the collateral arithmetic, and the restock by a deposit or a buyback.
-/

namespace SolanaGacha

open Except Layout

/-- A handler with its checked accounts and its data. -/
inductive Call
  | createPool (a : CreatePoolAccounts) (d : CreatePoolInstructionData)
  | depositItem (a : DepositItemAccounts) (d : DepositItemInstructionData)
  | withdraw (a : WithdrawAccounts) (d : WithdrawInstructionData)
  | setStatus (a : SetStatusAccounts) (d : SetStatusInstructionData)
  | reclaim (a : ReclaimAccounts)
  | buy (a : BuyAccounts) (d : BuyInstructionData)
  | refund (a : RefundAccounts)
  | buyback (a : BuybackAccounts) (d : BuybackInstructionData)
  | settle (a : SettleAccounts) (d : SettleInstructionData)
  | deliver (a : DeliverAccounts) (d : DeliverInstructionData)
  | event

/-- The handler that an instruction selects, with its accounts checked and its data decoded. -/
def Instruction.parse (w : World) (ix : Instruction) : Except Fault Call :=
  match ix.data with
  | [] => .error .invalidInstructionData
  | discriminator :: data =>
    if discriminator = 20 then do
      return .settle (← SettleAccounts.tryFrom w ix.accounts) (← SettleInstructionData.tryFrom data)
    else if discriminator = 21 then do
      return .deliver (← DeliverAccounts.tryFrom w ix.accounts) (← DeliverInstructionData.tryFrom data)
    else if discriminator = 10 then do
      return .buy (← BuyAccounts.tryFrom w ix.accounts) (← BuyInstructionData.tryFrom data)
    else if discriminator = 11 then do
      return .refund (← RefundAccounts.tryFrom w ix.accounts)
    else if discriminator = 12 then do
      return .buyback (← BuybackAccounts.tryFrom w ix.accounts)
        (← BuybackInstructionData.tryFrom w data)
    else if discriminator = 0 then do
      return .createPool (← CreatePoolAccounts.tryFrom w ix.accounts)
        (← CreatePoolInstructionData.tryFrom data)
    else if discriminator = 1 then do
      return .depositItem (← DepositItemAccounts.tryFrom w ix.accounts)
        (← DepositItemInstructionData.tryFrom data)
    else if discriminator = 2 then do
      return .withdraw (← WithdrawAccounts.tryFrom w ix.accounts)
        (← WithdrawInstructionData.tryFrom data)
    else if discriminator = 3 then do
      return .setStatus (← SetStatusAccounts.tryFrom w ix.accounts)
        (← SetStatusInstructionData.tryFrom data)
    else if discriminator = 4 then do
      return .reclaim (← ReclaimAccounts.tryFrom w ix.accounts)
    else if discriminator = eventDiscriminator then do
      Runtime.emitEvent ix.accounts
      return .event
    else .error .invalidInstructionData

/-- The handler's `process`. -/
def Call.process (rt : Runtime) (w : World) : Call → Except Fault World
  | createPool a d => CreatePool.process rt w a d
  | depositItem a d => DepositItem.process rt w a d
  | withdraw a d => Withdraw.process rt w a d
  | setStatus a d => SetStatus.process rt w a d
  | reclaim a => Reclaim.process rt w a
  | buy a d => Buy.process rt w a d
  | refund a => Refund.process rt w a
  | buyback a d => Buyback.process rt w a d
  | settle a d => Settle.process rt w a d
  | deliver a d => Deliver.process rt w a d
  | event => return w

/-- The entrypoint parses and then processes. -/
theorem processInstruction_eq (rt : Runtime) (w : World) (ix : Instruction) :
    processInstruction rt w ix = (do (← ix.parse w).process rt w) := by
  rw [processInstruction, Instruction.parse]
  cases ix.data with
  | nil => rfl
  | cons discriminator data =>
    simp only
    rw [ite_bind, ite_bind, ite_bind, ite_bind, ite_bind, ite_bind, ite_bind, ite_bind, ite_bind,
      ite_bind, ite_bind]
    refine if_congr Iff.rfl (build₂_bind _ _ Call.settle (Call.process rt w)).symm ?_
    refine if_congr Iff.rfl (build₂_bind _ _ Call.deliver (Call.process rt w)).symm ?_
    refine if_congr Iff.rfl (build₂_bind _ _ Call.buy (Call.process rt w)).symm ?_
    refine if_congr Iff.rfl (build_bind _ Call.refund (Call.process rt w)).symm ?_
    refine if_congr Iff.rfl (build₂_bind _ _ Call.buyback (Call.process rt w)).symm ?_
    refine if_congr Iff.rfl (build₂_bind _ _ Call.createPool (Call.process rt w)).symm ?_
    refine if_congr Iff.rfl (build₂_bind _ _ Call.depositItem (Call.process rt w)).symm ?_
    refine if_congr Iff.rfl (build₂_bind _ _ Call.withdraw (Call.process rt w)).symm ?_
    refine if_congr Iff.rfl (build₂_bind _ _ Call.setStatus (Call.process rt w)).symm ?_
    refine if_congr Iff.rfl (build_bind _ Call.reclaim (Call.process rt w)).symm ?_
    exact if_congr Iff.rfl (build_bind _ (fun _ => Call.event) (Call.process rt w)).symm rfl

/-- The accounts and the data of a call passed their checks. -/
def Call.Checked (w : World) (infos : List AccountInfo) : Call → Prop
  | createPool a d => CreatePoolAccounts.tryFrom w infos = .ok a ∧
      ∃ data, CreatePoolInstructionData.tryFrom data = .ok d
  | depositItem a d => DepositItemAccounts.tryFrom w infos = .ok a ∧
      ∃ data, DepositItemInstructionData.tryFrom data = .ok d
  | withdraw a d => WithdrawAccounts.tryFrom w infos = .ok a ∧
      ∃ data, WithdrawInstructionData.tryFrom data = .ok d
  | setStatus a d => SetStatusAccounts.tryFrom w infos = .ok a ∧
      ∃ data, SetStatusInstructionData.tryFrom data = .ok d
  | reclaim a => ReclaimAccounts.tryFrom w infos = .ok a
  | buy a d => BuyAccounts.tryFrom w infos = .ok a ∧ ∃ data, BuyInstructionData.tryFrom data = .ok d
  | refund a => RefundAccounts.tryFrom w infos = .ok a
  | buyback a d => BuybackAccounts.tryFrom w infos = .ok a ∧
      ∃ data, BuybackInstructionData.tryFrom w data = .ok d
  | settle a d => SettleAccounts.tryFrom w infos = .ok a ∧
      ∃ data, SettleInstructionData.tryFrom data = .ok d
  | deliver a d => DeliverAccounts.tryFrom w infos = .ok a ∧
      ∃ data, DeliverInstructionData.tryFrom data = .ok d
  | event => True

theorem Instruction.parse_checked {w : World} {ix : Instruction} {call : Call}
    (h : ix.parse w = .ok call) : call.Checked w ix.accounts := by
  rw [Instruction.parse] at h
  cases hdata : ix.data with
  | nil =>
    rw [hdata] at h
    simp at h
  | cons discriminator data =>
    rw [hdata] at h
    simp only at h
    rcases ite_eq_ok.mp h with ⟨-, h⟩ | ⟨-, h⟩
    · obtain ⟨a, ha, d, hd, rfl⟩ := build₂_eq_ok.mp h
      exact ⟨ha, data, hd⟩
    rcases ite_eq_ok.mp h with ⟨-, h⟩ | ⟨-, h⟩
    · obtain ⟨a, ha, d, hd, rfl⟩ := build₂_eq_ok.mp h
      exact ⟨ha, data, hd⟩
    rcases ite_eq_ok.mp h with ⟨-, h⟩ | ⟨-, h⟩
    · obtain ⟨a, ha, d, hd, rfl⟩ := build₂_eq_ok.mp h
      exact ⟨ha, data, hd⟩
    rcases ite_eq_ok.mp h with ⟨-, h⟩ | ⟨-, h⟩
    · obtain ⟨a, ha, rfl⟩ := build_eq_ok.mp h
      exact ha
    rcases ite_eq_ok.mp h with ⟨-, h⟩ | ⟨-, h⟩
    · obtain ⟨a, ha, d, hd, rfl⟩ := build₂_eq_ok.mp h
      exact ⟨ha, data, hd⟩
    rcases ite_eq_ok.mp h with ⟨-, h⟩ | ⟨-, h⟩
    · obtain ⟨a, ha, d, hd, rfl⟩ := build₂_eq_ok.mp h
      exact ⟨ha, data, hd⟩
    rcases ite_eq_ok.mp h with ⟨-, h⟩ | ⟨-, h⟩
    · obtain ⟨a, ha, d, hd, rfl⟩ := build₂_eq_ok.mp h
      exact ⟨ha, data, hd⟩
    rcases ite_eq_ok.mp h with ⟨-, h⟩ | ⟨-, h⟩
    · obtain ⟨a, ha, d, hd, rfl⟩ := build₂_eq_ok.mp h
      exact ⟨ha, data, hd⟩
    rcases ite_eq_ok.mp h with ⟨-, h⟩ | ⟨-, h⟩
    · obtain ⟨a, ha, d, hd, rfl⟩ := build₂_eq_ok.mp h
      exact ⟨ha, data, hd⟩
    rcases ite_eq_ok.mp h with ⟨-, h⟩ | ⟨-, h⟩
    · obtain ⟨a, ha, rfl⟩ := build_eq_ok.mp h
      exact ha
    rcases ite_eq_ok.mp h with ⟨-, h⟩ | ⟨-, h⟩
    · obtain ⟨_, -, hcall⟩ := bind_eq_ok.mp h
      obtain rfl := pure_eq_ok.mp hcall
      trivial
    · simp at h

/-! ## Collateral -/

theorem Pool.payment_eq_ok {pool : Pool} {count amount : UInt64} :
    pool.payment count = .ok amount ↔ pool.price.toNat * count.toNat = amount.toNat := by
  rw [Pool.payment, okOr_eq_ok, UInt64.checkedMul_eq_some]

theorem Pool.refundAmount_eq_ok {pool : Pool} {count amount : UInt64} :
    pool.refundAmount count = .ok amount ↔ pool.price.toNat + pool.bondPerDraw.toNat < 2 ^ 64 ∧
      (pool.price.toNat + pool.bondPerDraw.toNat) * count.toNat = amount.toNat := by
  rw [Pool.refundAmount, okOr_eq_ok, Option.bind_eq_some_iff]
  constructor
  · rintro ⟨perDraw, hsum, hmul⟩
    rw [UInt64.checkedAdd_eq_some] at hsum
    rw [UInt64.checkedMul_eq_some] at hmul
    rw [hsum]
    exact ⟨perDraw.toNat_lt, hmul⟩
  · rintro ⟨hfits, hmul⟩
    have hsum := UInt64.checkedAdd_eq_some.mp (if_pos hfits)
    exact ⟨_, if_pos hfits, UInt64.checkedMul_eq_some.mpr (by rw [← hsum, hmul])⟩

/-- What is spendable is what the vault holds above the reserve. -/
theorem spendable_eq_ok {pool : Pool} {account : Account} {free : UInt64} :
    spendable pool account = .ok free ↔ ∃ token reserved, account.entry = .token token ∧
      pool.refundAmount pool.pendingDraws = .ok reserved ∧
        token.amount.toNat = reserved.toNat + free.toNat := by
  simp only [spendable, bind_eq_ok, okOr_eq_ok, UInt64.checkedSub_eq_some, Account.entry_eq_token]
  constructor
  · rintro ⟨token, htoken, reserved, hreserved, hfree⟩
    exact ⟨token, reserved, htoken, hreserved, hfree⟩
  · rintro ⟨token, reserved, htoken, hreserved, hfree⟩
    exact ⟨token, htoken, reserved, hreserved, hfree⟩

/-! ## What the effects rest on -/

/-- Every pool counts its stock right, and a pending pull is pinned to positions that were issued. -/
structure Ledger.Counted (L : Ledger) : Prop where
  stock : ∀ {key pool index}, L key = .pool pool index → Stock pool index (pool.tags index)
  version : ∀ {key pull pool index}, L key = .pull pull → pull.status = statusPending →
    L pull.pool = .pool pool index → pull.inventoryVersion.toNat ≤ pool.inventoryVersion.toNat

/-- A restock by a deposit or a buyback: `giver` hands an asset over to the pool, and a fresh Item at the
next position records it. -/
structure Restocks (rt : Runtime) (L : Ledger) (poolKey itemKey assetKey giver : Pubkey)
    (tier bump : UInt8) (pool : Pool) (index : List UInt8) (L' : Ledger) : Prop where
  loaded : L poolKey = .pool pool index
  derived : rt.createProgramAddress (Item.seeds poolKey tier pool.inventoryVersion bump) programId =
    some itemKey
  vacant : L itemKey = .vacant
  ledger : ∃ pool' index' asset, Restocked pool index tier pool' index' ∧ L assetKey = .asset asset ∧
    asset.owner = giver ∧ L' = Function.update (Function.update (Function.update L assetKey
      (.asset { asset with owner := poolKey })) poolKey (.pool pool' index')) itemKey
        (.item (Item.fresh bump tier pool.inventoryVersion poolKey assetKey))

theorem checkRestock_eq_ok {rt : Runtime} {w : World} {pool : Pool} {poolKey : Pubkey}
    {item : AccountInfo} {tier bump : UInt8} {position : UInt32} :
    rt.checkRestock w pool poolKey item tier bump = .ok position ↔
      tier.toNat < pool.tierCount.toNat ∧ rt.createProgramAddress
        (Item.seeds poolKey tier pool.inventoryVersion bump) programId = some item.key ∧
        w.ledger item.key = .vacant ∧ pool.inventoryVersion = position := by
  simp only [Runtime.checkRestock, bind_eq_ok, failIf_eq_ok, okOr_eq_ok, checkUninitialized_eq_ok,
    pure_eq_ok, UInt8.not_le, not_not, ← UInt8.lt_iff_toNat_lt]
  constructor
  · rintro ⟨_, htier, key, hkey, _, rfl, _, hvacant, hposition⟩
    exact ⟨htier, hkey, hvacant, hposition⟩
  · rintro ⟨htier, hkey, hvacant, hposition⟩
    exact ⟨(), htier, _, hkey, (), rfl, (), hvacant, hposition⟩

/-- Two addresses with different entries. -/
theorem Ledger.ne_of_entry {L : Ledger} {k k' : Pubkey} {e e' : Entry} (h : L k = e) (h' : L k' = e')
    (hne : e ≠ e') : k ≠ k' := by
  rintro rfl
  exact hne (h.symm.trans h')

/-- An entry other than the one that an update wrote was there before. -/
theorem Ledger.of_update {L : Ledger} {k k' : Pubkey} {e e' : Entry}
    (h : Function.update L k e k' = e') (hne : e ≠ e') : k' ≠ k ∧ L k' = e' := by
  rcases eq_or_ne k' k with rfl | hk
  · rw [Function.update_self] at h
    exact absurd h hne
  · rw [Function.update_of_ne hk] at h
    exact ⟨hk, h⟩

end SolanaGacha
