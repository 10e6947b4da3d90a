import SolanaGacha.Ledger.Enabled
import SolanaGacha.System.Queue
import SolanaGacha.System.Stock

/-!
# Exits do not abort

A panic in a handler would freeze whatever waits for it. Outside of purchases and of the creation of pools, no
handler panics in a reachable state (`World.Reached.never_panics`): each index, subtraction and remainder is
justified by the invariant of its pool, and a restock is so except at the last position of the `u32` range.
The loops over the index end by the measures that their definitions carry.
-/

namespace SolanaGacha

open Except Layout Inventory

/-! ## Helpers -/

/-- A check that reports a fault of the caller. -/
theorem Fault.Internal.check {e e' : Fault} (he : e.Internal) {c : Prop} [Decidable c] (h : ¬e'.Internal) :
    (failIf c e').Avoids e := avoids_failIf fun _ => he.ne h

section Helpers

variable {e : Fault} (he : e.Internal)

include he

theorem TokenAccount.load_avoids (account : Account) : (TokenAccount.load account).Avoids e :=
  .bind (he.check (by decide)) fun _ _ => avoids_ok _

theorem Pool.refundAmount_avoids (pool : Pool) (count : UInt64) : (pool.refundAmount count).Avoids e :=
  avoids_okOr fun _ => he.ne (by decide)

theorem spendable_avoids (pool : Pool) (vault : Account) : (spendable pool vault).Avoids e := by
  refine .bind (TokenAccount.load_avoids he vault) fun _ _ => ?_
  refine .bind (pool.refundAmount_avoids he _) fun _ _ => ?_
  exact avoids_okOr fun _ => he.ne (by decide)

theorem checkUninitialized_avoids (account : Account) : (checkUninitialized account).Avoids e :=
  he.check (by decide)

namespace Runtime

variable (rt : Runtime) (w : World)

theorem fund_avoids (payer account : AccountInfo) (missing : ℕ) :
    (rt.fund w payer account missing).Avoids e := by
  unfold fund
  split_ifs
  · exact rt.invokeSigned_avoids he _ _ _ _
  · exact avoids_ok _

theorem createPda_avoids (payer account : AccountInfo) (space : ℕ) (seeds : List (List UInt8)) :
    (rt.createPda w payer account space seeds).Avoids e := by
  unfold createPda
  simp only
  split_ifs
  · exact rt.invokeSigned_avoids he _ _ _ _
  · refine .bind (rt.fund_avoids he _ _ _ _) fun _ _ => ?_
    exact .bind (rt.invokeSigned_avoids he _ _ _ _) fun _ _ => rt.invokeSigned_avoids he _ _ _ _

theorem growIndex_avoids (payer pool : AccountInfo) (positions : UInt32) :
    (rt.growIndex w payer pool positions).Avoids e := by
  unfold growIndex
  simp only
  split_ifs
  · exact .bind (rt.fund_avoids he _ _ _ _) fun _ _ => avoids_ok _
  · exact avoids_ok _

theorem checkRestock_avoids (pool : Pool) (poolKey : Pubkey) (item : AccountInfo) (tier bump : UInt8) :
    (rt.checkRestock w pool poolKey item tier bump).Avoids e := by
  refine .bind (he.check (by decide)) fun _ _ => ?_
  refine .bind (avoids_okOr fun _ => he.ne (by decide)) fun _ _ => ?_
  refine .bind (he.check (by decide)) fun _ _ => ?_
  exact .bind (checkUninitialized_avoids he _) fun _ _ => avoids_ok _

theorem transferAsset_avoids (t : AssetTransfer) (signers : List (List (List UInt8))) :
    (rt.transferAsset w t signers).Avoids e := rt.invokeSigned_avoids he _ _ _ _

theorem transferTokens_avoids (source destination authority : AccountInfo) (amount : UInt64)
    (signers : List (List (List UInt8))) :
    (rt.transferTokens w source destination authority amount signers).Avoids e :=
  rt.invokeSigned_avoids he _ _ _ _

theorem pay_avoids (pool vault destination : AccountInfo) (amount : UInt64) :
    (rt.pay w pool vault destination amount).Avoids e :=
  .bind (load_avoids he _ _ _ _ _) fun _ _ => rt.transferTokens_avoids he _ _ _ _ _ _

end Runtime

end Helpers

/-! ## Restocking -/

/-- Below the end of the `u32` range, a position can be issued in every tier in use. -/
theorem Stock.restock_isOk {pool : Pool} {index tags : List UInt8} (h : Stock pool index tags)
    {tier : UInt8} (htier : tier.toNat < pool.tierCount.toNat)
    (hsmall : pool.inventoryVersion.toNat + 1 < 2 ^ 32) :
    ∃ pool' index', Restocked pool index tier pool' index' := by
  have hcount := h.tierCount
  have ht8 : tier.toNat < 8 := by omega
  have hlength := h.version
  have hversion : (pool.inventoryVersion + 1).toNat = tags.length + 1 := by
    rw [UInt32.toNat_add, UInt32.toNat_one, Nat.mod_eq_of_lt hsmall, hlength]
  have hspace : inventorySpace (pool.inventoryVersion + 1) = (tags.length / 64 + 1) * 96 := by
    show ((pool.inventoryVersion + 1).toNat + 63) / 64 * 96 = _
    rw [hversion]
    omega
  obtain ⟨index', hrun, -⟩ := append_run h.indexed hlength.symm (by omega) ht8
  -- A counter is at most the number of positions, so it has room for one more.
  have hroom : pool.tiers[tier.toNat].remaining.toNat + 1 < 2 ^ 32 := by
    have hle := List.count_le_length (a := tierTag tier.toNat) (l := tags)
    rw [← h.remaining tier.toNat ht8] at hle
    omega
  obtain ⟨pool', hcounter⟩ := @Pool.updateRemaining_isOk
    { pool with inventoryVersion := pool.inventoryVersion + 1 } tier (·.checkedAdd 1) _ hcount htier ht8 (if_pos hroom)
  exact ⟨pool', index', hsmall, by rw [hspace, InventoryM.run_eq_ok, hrun], hcounter⟩

/-- A restock fails in the programs that it calls only. -/
theorem Runtime.restock_avoids {rt : Runtime} (hrt : rt.Lawful) {w : World} {e : Fault} (he : e.Internal)
    (payer : AccountInfo) {pool item : AccountInfo} (asset : Pubkey) {tier : UInt8} (bump : UInt8)
    {header : Pool} {index tags : List UInt8} (hpool : w.ledger pool.key = .pool header index)
    (hstock : Stock header index tags) (hne : item.key ≠ pool.key)
    (htier : tier.toNat < header.tierCount.toNat) (hsmall : header.inventoryVersion.toNat + 1 < 2 ^ 32) :
    (rt.restock w payer pool item asset tier bump).Avoids e := by
  obtain ⟨pool', index', hrestocked⟩ := hstock.restock_isOk htier hsmall
  unfold restock
  refine .bind (load_avoids he _ _ _ _ _) fun loaded hload => ?_
  obtain rfl := (World.pool_load_of_entry hpool hload).symm
  have hposition : header.inventoryVersion.checkedAdd 1 = some (header.inventoryVersion + 1) := if_pos hsmall
  refine .bind (.of_ok (okOr_eq_ok.mpr hposition)) fun positions hpositions => ?_
  obtain rfl := Option.some.inj (hposition.symm.trans (okOr_eq_ok.mp hpositions))
  refine .bind (rt.growIndex_avoids he _ _ _ _) fun w₁ hgrow => ?_
  refine .bind (rt.createPda_avoids he _ _ _ _ _) fun w₂ hcreate => ?_
  refine .bind ?_ fun new hnew => ?_
  · refine .bind (he.check (by decide)) fun _ _ => ?_
    refine .bind (he.check (by decide)) fun _ _ => ?_
    exact .bind (he.check (by decide)) fun _ _ => avoids_ok _
  -- The pool is there, its index grown by the block that the position opens.
  obtain ⟨-, -, hpool'⟩ := restock_created hrt asset hpool hne hsmall hgrow hcreate hnew rfl
  refine .bind (load_avoids he _ _ _ _ _) fun header' hload' => ?_
  obtain rfl := (World.pool_load_of_entry hpool' hload').symm
  refine .bind (.bind (load_avoids he _ _ _ _ _) fun _ _ => avoids_ok _) fun inventory hinventory => ?_
  obtain rfl := World.inventory_load hpool' hinventory
  refine .bind (.of_ok hrestocked.append) fun x hx => ?_
  obtain rfl := Except.ok.inj (hrestocked.append.symm.trans hx)
  exact .bind (.of_ok hrestocked.counter) fun _ _ => avoids_ok _

/-! ## Checks -/

section Checks

variable (w : World) (infos : List AccountInfo) {e : Fault} (he : e.Internal)

include he

theorem CreatePoolAccounts.tryFrom_avoids : (CreatePoolAccounts.tryFrom w infos).Avoids e := by
  unfold tryFrom
  split
  · refine .bind (he.check (by decide)) fun _ _ => .bind (he.check (by decide)) fun _ _ => ?_
    exact .bind (checkUninitialized_avoids he _) fun _ _ => avoids_ok _
  · exact avoids_error (he.ne (by decide))

theorem DepositItemAccounts.tryFrom_avoids : (DepositItemAccounts.tryFrom w infos).Avoids e := by
  unfold tryFrom
  split
  · refine .bind (he.check (by decide)) fun _ _ => .bind (he.check (by decide)) fun _ _ => ?_
    refine .bind (load_avoids he _ _ _ _ _) fun pool _ => ?_
    exact .bind (he.check (by decide)) fun _ _ => .bind (he.check (by decide)) fun _ _ => avoids_ok _
  · exact avoids_error (he.ne (by decide))

theorem WithdrawAccounts.tryFrom_avoids : (WithdrawAccounts.tryFrom w infos).Avoids e := by
  unfold tryFrom
  split
  · refine .bind (he.check (by decide)) fun _ _ => .bind (load_avoids he _ _ _ _ _) fun pool _ => ?_
    exact .bind (he.check (by decide)) fun _ _ => .bind (he.check (by decide)) fun _ _ => avoids_ok _
  · exact avoids_error (he.ne (by decide))

theorem SetStatusAccounts.tryFrom_avoids : (SetStatusAccounts.tryFrom w infos).Avoids e := by
  unfold tryFrom
  split
  · refine .bind (he.check (by decide)) fun _ _ => .bind (he.check (by decide)) fun _ _ => ?_
    refine .bind (load_avoids he _ _ _ _ _) fun pool _ => ?_
    exact .bind (he.check (by decide)) fun _ _ => avoids_ok _
  · exact avoids_error (he.ne (by decide))

theorem BuyAccounts.tryFrom_avoids : (BuyAccounts.tryFrom w infos).Avoids e := by
  unfold tryFrom
  split
  · refine .bind (he.check (by decide)) fun _ _ => .bind (he.check (by decide)) fun _ _ => ?_
    refine .bind (checkUninitialized_avoids he _) fun _ _ => .bind (load_avoids he _ _ _ _ _) fun pool _ => ?_
    exact .bind (he.check (by decide)) fun _ _ => .bind (he.check (by decide)) fun _ _ => avoids_ok _
  · exact avoids_error (he.ne (by decide))

theorem RefundAccounts.tryFrom_avoids : (RefundAccounts.tryFrom w infos).Avoids e := by
  unfold tryFrom
  split
  · refine .bind (he.check (by decide)) fun _ _ => .bind (load_avoids he _ _ _ _ _) fun pool _ => ?_
    refine .bind (load_avoids he _ _ _ _ _) fun pull _ => .bind (he.check (by decide)) fun _ _ => ?_
    refine .bind (he.check (by decide)) fun _ _ => .bind (he.check (by decide)) fun _ _ => ?_
    refine .bind (he.check (by decide)) fun _ _ => .bind (he.check (by decide)) fun _ _ => ?_
    refine .bind (he.check (by decide)) fun _ _ => .bind (TokenAccount.load_avoids he _) fun _ _ => ?_
    exact .bind (he.check (by decide)) fun _ _ => avoids_ok _
  · exact avoids_error (he.ne (by decide))

theorem BuybackAccounts.tryFrom_avoids : (BuybackAccounts.tryFrom w infos).Avoids e := by
  unfold tryFrom
  split
  · refine .bind (he.check (by decide)) fun _ _ => .bind (he.check (by decide)) fun _ _ => ?_
    refine .bind (load_avoids he _ _ _ _ _) fun pool _ => .bind (he.check (by decide)) fun _ _ => ?_
    refine .bind (he.check (by decide)) fun _ _ => .bind (TokenAccount.load_avoids he _) fun _ _ => ?_
    exact .bind (he.check (by decide)) fun _ _ => avoids_ok _
  · exact avoids_error (he.ne (by decide))

theorem SettleAccounts.checkItems_avoids (items : List AccountInfo) : (checkItems w items).Avoids e := by
  induction items with
  | nil => exact avoids_ok _
  | cons item items ih =>
    exact .bind (he.check (by decide)) fun _ _ => .bind (load_avoids he _ _ _ _ _) fun _ _ => ih

theorem SettleAccounts.tryFrom_avoids : (SettleAccounts.tryFrom w infos).Avoids e := by
  unfold tryFrom
  split
  · split
    · refine .bind (he.check (by decide)) fun _ _ => .bind (load_avoids he _ _ _ _ _) fun pool _ => ?_
      refine .bind (load_avoids he _ _ _ _ _) fun pull _ => .bind (he.check (by decide)) fun _ _ => ?_
      refine .bind (he.check (by decide)) fun _ _ => .bind (he.check (by decide)) fun _ _ => ?_
      refine .bind (he.check (by decide)) fun _ _ => .bind (he.check (by decide)) fun _ _ => ?_
      exact .bind (he.check (by decide)) fun _ _ => .bind (checkItems_avoids w he _) fun _ _ => avoids_ok _
    · exact avoids_error (he.ne (by decide))
  · exact avoids_error (he.ne (by decide))

theorem DeliverAccounts.tryFrom_avoids : (DeliverAccounts.tryFrom w infos).Avoids e := by
  unfold tryFrom
  split
  · refine .bind (he.check (by decide)) fun _ _ => .bind (he.check (by decide)) fun _ _ => ?_
    refine .bind (load_avoids he _ _ _ _ _) fun pool _ => .bind (load_avoids he _ _ _ _ _) fun pull _ => ?_
    refine .bind (he.check (by decide)) fun _ _ => .bind (he.check (by decide)) fun _ _ => ?_
    exact .bind (he.check (by decide)) fun _ _ => avoids_ok _
  · exact avoids_error (he.ne (by decide))

/-- The tier that is read is in use. -/
theorem ReclaimAccounts.tryFrom_avoids {rt : Runtime} {w : World} (h : w.Sound rt) :
    (ReclaimAccounts.tryFrom w infos).Avoids e := by
  unfold tryFrom
  split
  · refine .bind (he.check (by decide)) fun _ _ => .bind (he.check (by decide)) fun _ _ => ?_
    refine .bind (load_avoids he _ _ _ _ _) fun pool hload => .bind (he.check (by decide)) fun _ _ => ?_
    refine .bind (he.check (by decide)) fun _ _ => .bind (he.check (by decide)) fun _ _ => ?_
    refine .bind (load_avoids he _ _ _ _ _) fun item _ => .bind (he.check (by decide)) fun _ hitem => ?_
    obtain ⟨m, hm⟩ := h.opened (World.pool_load hload)
    have hcount := hm.stock.tierCount
    have htier : item.tier.toNat < pool.tierCount.toNat := by
      simp only [failIf_eq_ok, not_or, UInt8.not_le] at hitem
      exact UInt8.lt_iff_toNat_lt.mp hitem.2.2.1
    have hget : (pool.tiers.toList.take pool.tierCount.toNat)[item.tier.toNat]? =
        some pool.tiers[item.tier.toNat] := by
      rw [List.getElem?_take, if_pos htier, Vector.getElem?_toList, Vector.getElem?_eq_getElem]
    refine .bind ?_ fun _ _ => .bind (he.check (by decide)) fun _ _ => avoids_ok _
    refine .bind (.of_ok (Pool.tierSlice_eq_ok.mpr ⟨hcount, rfl⟩)) fun tiers htiers => ?_
    obtain rfl := (Pool.tierSlice_eq_ok.mp htiers).2
    exact .bind (.of_ok (okOr_eq_ok.mpr hget)) fun _ _ => avoids_ok _
  · exact avoids_error (he.ne (by decide))

theorem CreatePoolInstructionData.tryFrom_avoids (data : List UInt8) : (tryFrom data).Avoids e := by
  refine .bind (he.check (by decide)) fun _ _ => .bind (he.check (by decide)) fun _ _ => ?_
  refine .bind (he.check (by decide)) fun _ _ => .bind (he.check (by decide)) fun _ _ => ?_
  exact .bind (he.check (by decide)) fun _ _ => avoids_ok _

theorem DepositItemInstructionData.tryFrom_avoids (data : List UInt8) : (tryFrom data).Avoids e := by
  unfold tryFrom
  split
  · exact avoids_ok _
  · exact avoids_error (he.ne (by decide))

theorem SetStatusInstructionData.tryFrom_avoids (data : List UInt8) : (tryFrom data).Avoids e := by
  unfold tryFrom
  split
  · exact .bind (he.check (by decide)) fun _ _ => avoids_ok _
  · exact avoids_error (he.ne (by decide))

theorem DeliverInstructionData.tryFrom_avoids (data : List UInt8) : (tryFrom data).Avoids e := by
  unfold tryFrom
  split
  · exact avoids_ok _
  · exact avoids_error (he.ne (by decide))

/-- The first half of the entrypoint does not panic. -/
theorem Instruction.parse_avoids {rt : Runtime} {w : World} (h : w.Sound rt) (ix : Instruction) :
    (ix.parse w).Avoids e := by
  unfold parse
  split
  · exact avoids_error (he.ne (by decide))
  · refine avoids_ite ?_ <| avoids_ite ?_ <| avoids_ite ?_ <| avoids_ite ?_ <| avoids_ite ?_ <|
      avoids_ite ?_ <| avoids_ite ?_ <| avoids_ite ?_ <| avoids_ite ?_ <| avoids_ite ?_ <| avoids_ite ?_ ?_
    · exact .bind (SettleAccounts.tryFrom_avoids w _ he) fun _ _ =>
        .bind (.bind (he.check (by decide)) fun _ _ => avoids_ok _) fun _ _ => avoids_ok _
    · exact .bind (DeliverAccounts.tryFrom_avoids w _ he) fun _ _ =>
        .bind (DeliverInstructionData.tryFrom_avoids he _) fun _ _ => avoids_ok _
    · exact .bind (BuyAccounts.tryFrom_avoids w _ he) fun _ _ =>
        .bind (.bind (he.check (by decide)) fun _ _ => .bind (he.check (by decide)) fun _ _ => avoids_ok _)
          fun _ _ => avoids_ok _
    · exact .bind (RefundAccounts.tryFrom_avoids w _ he) fun _ _ => avoids_ok _
    · exact .bind (BuybackAccounts.tryFrom_avoids w _ he) fun _ _ =>
        .bind (.bind (he.check (by decide)) fun _ _ => .bind (he.check (by decide)) fun _ _ => avoids_ok _)
          fun _ _ => avoids_ok _
    · exact .bind (CreatePoolAccounts.tryFrom_avoids w _ he) fun _ _ =>
        .bind (CreatePoolInstructionData.tryFrom_avoids he _) fun _ _ => avoids_ok _
    · exact .bind (DepositItemAccounts.tryFrom_avoids w _ he) fun _ _ =>
        .bind (DepositItemInstructionData.tryFrom_avoids he _) fun _ _ => avoids_ok _
    · exact .bind (WithdrawAccounts.tryFrom_avoids w _ he) fun _ _ =>
        .bind (.bind (he.check (by decide)) fun _ _ => avoids_ok _) fun _ _ => avoids_ok _
    · exact .bind (SetStatusAccounts.tryFrom_avoids w _ he) fun _ _ =>
        .bind (SetStatusInstructionData.tryFrom_avoids he _) fun _ _ => avoids_ok _
    · exact .bind (ReclaimAccounts.tryFrom_avoids _ he h) fun _ _ => avoids_ok _
    · refine .bind ?_ fun _ _ => avoids_ok _
      unfold Runtime.emitEvent
      split
      · exact he.check (by decide)
      · exact avoids_error (he.ne (by decide))
    · exact avoids_error (he.ne (by decide))

end Checks

/-! ## Handlers -/

namespace World.Sound

variable {rt : Runtime} {w : World} (h : w.Sound rt) {infos : List AccountInfo} {e : Fault}
  (he : e.Internal)

include h he

/-- The head of the queue asks for draws that are pending, and has a successor. -/
theorem refund_avoids {a : RefundAccounts} (ha : RefundAccounts.tryFrom w infos = .ok a) :
    (Refund.process rt w a).Avoids e := by
  obtain ⟨pool, pull, hload, hload', hsame, hstatus, hhead, -⟩ := RefundAccounts.of_tryFrom ha
  obtain ⟨m, hm⟩ := h.opened (World.pool_load hload)
  have hpull := Ledger.banner_pulls.mpr ⟨World.pull_load hload', hsame⟩
  obtain ⟨rest, hqueue⟩ := hm.queued.head hpull hstatus hhead
  have hdraws := hm.queued.draws
  rw [hqueue, Market.demand_cons] at hdraws
  have hnext := hm.queued.index_lt hpull
  have hsmall := pool.nextIndex.toNat_lt
  have hcount : pull.count.toUInt64.toNat ≤ pool.pendingDraws.toNat := by
    rw [UInt8.toNat_toUInt64, hdraws]
    exact Nat.le_add_right _ _
  simp only [Refund.process, hload, hload', ok_bind]
  refine .bind (pool.refundAmount_avoids he _) fun amount _ => ?_
  refine .bind (.of_ok (okOr_eq_ok.mpr (if_pos hcount))) fun pendingDraws _ => ?_
  have hplace : pull.index.toNat + 1 < 2 ^ 64 := by omega
  refine .bind (.of_ok (okOr_eq_ok.mpr (if_pos hplace))) fun nextSettle _ => ?_
  refine .bind (rt.transferTokens_avoids he _ _ _ _ _ _) fun w₁ _ => ?_
  refine .bind (close_avoids he _ _ _) fun accounts _ => ?_
  exact Runtime.emit_avoids he _ _ _ _ _ (by simp [FixedBytes.length_val])

/-- A Pull has at most ten outcomes. -/
theorem deliver_avoids {a : DeliverAccounts} (ha : DeliverAccounts.tryFrom w infos = .ok a)
    (d : DeliverInstructionData) : (Deliver.process rt w a d).Avoids e := by
  obtain ⟨pool, pull, hload, hload', hsame, -, -⟩ := DeliverAccounts.of_tryFrom ha
  obtain ⟨m, hm⟩ := h.opened (World.pool_load hload)
  have hten : pull.count.toNat ≤ 10 :=
    (hm.pull (Ledger.banner_pulls.mpr ⟨World.pull_load hload', hsame⟩)).count.2
  simp only [Deliver.process, hload, hload', ok_bind]
  refine .bind (he.check (by decide)) fun _ hi => ?_
  have hlt : d.outcome.toNat < 10 := by
    have := failIf_eq_ok.mp hi
    omega
  have houtcome : pull.outcome d.outcome.toNat = .ok pull.outcomes[d.outcome.toNat] :=
    okOr_eq_ok.mpr (Vector.getElem?_eq_getElem hlt)
  refine .bind (.of_ok houtcome) fun outcome _ => ?_
  refine .bind (he.check (by decide)) fun _ _ => ?_
  refine .bind (he.check (by decide)) fun _ _ => ?_
  refine .bind (rt.transferAsset_avoids he _ _ _) fun w₁ _ => ?_
  refine .bind (.bind (.of_ok houtcome) fun _ _ => avoids_ok _) fun marked hmarked => ?_
  have hcount : ¬maxCount < marked.count.toNat := by
    obtain ⟨o, -, hpure⟩ := bind_eq_ok.mp hmarked
    obtain rfl := pure_eq_ok.mp hpure
    exact not_lt.mpr hten
  refine .bind (.bind (.of_ok (failIf_neg hcount _)) fun _ _ => avoids_ok _) fun all _ => ?_
  refine .bind ?_ fun accounts _ => Runtime.emit_avoids he _ _ _ _ _ (by simp [FixedBytes.length_val])
  split_ifs
  · exact close_avoids he _ _ _
  · exact avoids_ok _

/-- The position of an Item is available, and its tier counts it. -/
theorem reclaim_avoids {a : ReclaimAccounts} (ha : ReclaimAccounts.tryFrom w infos = .ok a) :
    (Reclaim.process rt w a).Avoids e := by
  obtain ⟨pool, item, hload, hload', -, -, -, -, hsame, -⟩ := ReclaimAccounts.of_tryFrom ha
  have hpool := World.pool_load hload
  obtain ⟨m, hm⟩ := h.opened hpool
  have hitem := World.item_load hload'
  obtain ⟨-, ht8, hlive, -⟩ := hm.shelved.item (Ledger.banner_items.mpr ⟨hitem, hsame⟩)
  have htier := UInt8.lt_iff_toNat_lt.mp (hm.item_bounds hitem hsame).2
  obtain ⟨data, hremove, -⟩ := remove_run hm.stock.indexed ht8 hlive
  have hone : 1 ≤ pool.tiers[item.tier.toNat].remaining.toNat := by
    rw [hm.stock.remaining item.tier.toNat ht8]
    exact count_pos_of_live ht8 hlive
  obtain ⟨left, hleft⟩ := UInt32.checkedSub_isSome (b := 1) hone
  obtain ⟨pool', hcounter⟩ :=
    Pool.updateRemaining_isOk hm.stock.tierCount htier ht8 (f := (·.checkedSub 1)) hleft
  have hrun := InventoryM.run_eq_ok.mpr hremove
  have hinventory : Inventory.load (w.account a.pool) = .ok _ := Inventory.load_of_entry hpool
  simp only [Reclaim.process, hload, hload', hinventory, hrun, hcounter, ok_bind]
  refine .bind (rt.transferAsset_avoids he _ _ _) fun w₁ _ => ?_
  refine .bind (close_avoids he _ _ _) fun accounts _ => ?_
  exact Runtime.emit_avoids he _ _ _ _ _ (by simp [FixedBytes.length_val])

omit h in
theorem withdraw_avoids (a : WithdrawAccounts) (d : WithdrawInstructionData) :
    (Withdraw.process rt w a d).Avoids e := by
  refine .bind (load_avoids he _ _ _ _ _) fun pool _ => ?_
  refine .bind (spendable_avoids he _ _) fun free _ => ?_
  refine .bind (he.check (by decide)) fun _ _ => ?_
  refine .bind (rt.pay_avoids he _ _ _ _ _) fun w₁ _ => ?_
  exact Runtime.emit_avoids he _ _ _ _ _ (by simp [FixedBytes.length_val])

omit h in
theorem setStatus_avoids (a : SetStatusAccounts) (d : SetStatusInstructionData) :
    (SetStatus.process rt w a d).Avoids e := by
  refine .bind (load_avoids he _ _ _ _ _) fun pool _ => ?_
  refine .bind (he.check (by decide)) fun _ _ => ?_
  exact Runtime.emit_avoids he _ _ _ _ _ (by simp [FixedBytes.length_val])

theorem depositItem_avoids (hrt : rt.Lawful) (a : DepositItemAccounts) (d : DepositItemInstructionData)
    (hroom : ∀ pool index, w.ledger a.pool.key = .pool pool index →
      pool.inventoryVersion.toNat + 1 < 2 ^ 32) : (DepositItem.process rt w a d).Avoids e := by
  refine .bind (load_avoids he _ _ _ _ _) fun pool hload => ?_
  refine .bind (rt.checkRestock_avoids he _ _ _ _ _ _) fun position hcheck => ?_
  have hpool := World.pool_load hload
  obtain ⟨m, hm⟩ := h.opened hpool
  obtain ⟨htier, -, hvacant, -⟩ := checkRestock_eq_ok.mp hcheck
  have hne := Ledger.ne_of_entry hvacant hpool (by simp)
  refine .bind (Runtime.restock_avoids hrt he _ _ _ hpool hm.stock hne htier (hroom _ _ hpool))
    fun w₁ _ => ?_
  refine .bind (rt.transferAsset_avoids he _ _ _) fun w₂ _ => ?_
  exact Runtime.emit_avoids he _ _ _ _ _ (by simp [FixedBytes.length_val])

theorem buyback_avoids (hrt : rt.Lawful) (a : BuybackAccounts) (d : BuybackInstructionData)
    (hroom : ∀ pool index, w.ledger a.pool.key = .pool pool index →
      pool.inventoryVersion.toNat + 1 < 2 ^ 32) : (Buyback.process rt w a d).Avoids e := by
  refine .bind (load_avoids he _ _ _ _ _) fun pool hload => ?_
  refine .bind (he.check (by decide)) fun _ _ => ?_
  refine .bind (he.check (by decide)) fun _ _ => ?_
  refine .bind (spendable_avoids he _ _) fun free _ => ?_
  refine .bind (he.check (by decide)) fun _ _ => ?_
  refine .bind (rt.checkRestock_avoids he _ _ _ _ _ _) fun position hcheck => ?_
  have hpool := World.pool_load hload
  obtain ⟨m, hm⟩ := h.opened hpool
  obtain ⟨htier, -, hvacant, -⟩ := checkRestock_eq_ok.mp hcheck
  have hne := Ledger.ne_of_entry hvacant hpool (by simp)
  refine .bind (rt.transferAsset_avoids he _ _ _) fun w₁ htransfer => ?_
  -- The asset is another account than the pool.
  obtain ⟨asset, -, hasset, -, hledger, -⟩ := Runtime.transferAsset_ok hrt htransfer
  simp only at hasset hledger
  have hpool₁ := congrFun hledger a.pool.key
  rw [Function.update_of_ne (Ledger.ne_of_entry hpool hasset (by simp)), hpool] at hpool₁
  refine .bind (Runtime.restock_avoids hrt he _ _ _ hpool₁ hm.stock hne htier (hroom _ _ hpool))
    fun w₂ _ => ?_
  refine .bind (rt.pay_avoids he _ _ _ _ _) fun w₃ _ => ?_
  exact Runtime.emit_avoids he _ _ _ _ _ (by simp [FixedBytes.length_val])

end World.Sound

/-! ## Every reachable state -/

/-- The calls that let something in: a pool or a purchase. -/
def Call.isEntry : Call → Bool
  | .createPool _ _ => true
  | .buy _ _ => true
  | _ => false

/-- The pool that a deposit or a buyback issues a position of. -/
def Call.restocked : Call → Option Pubkey
  | .depositItem a _ => some a.pool.key
  | .buyback a _ => some a.pool.key
  | _ => none

namespace World

variable {rt : Runtime} (hrt : rt.Lawful) {w : World}

include hrt

/-- In every reachable state no settlement, refund, delivery, reclaim, withdrawal, deposit or buyback panics,
whatever its accounts and data are, unless it issues a position beyond the `u32` range. -/
theorem Reached.never_panics (hw : w.Reached rt) {ix : Instruction}
    (hexit : ∀ call, ix.parse w = .ok call → call.isEntry = false) :
    processInstruction rt w ix ≠ .error .panicked ∨ ∃ call P pool index, ix.parse w = .ok call ∧
      call.restocked = some P ∧ w.ledger P = .pool pool index ∧
        pool.inventoryVersion.toNat + 1 = 2 ^ 32 := by
  have hsound := hw.sound hrt
  have he : Fault.panicked.Internal := .inl rfl
  rw [processInstruction_eq]
  cases hparse : ix.parse w with
  | error fault =>
    refine .inl fun heq => Instruction.parse_avoids he hsound ix ?_
    exact hparse.trans (congrArg Except.error (Except.error.inj heq))
  | ok call =>
    have hchecked := Instruction.parse_checked hparse
    by_cases hroom : ∀ P pool index, call.restocked = some P → w.ledger P = .pool pool index →
        pool.inventoryVersion.toNat + 1 < 2 ^ 32
    · refine .inl ?_
      rw [ok_bind]
      cases call with
      | createPool a d => exact absurd (hexit _ hparse) (by simp [Call.isEntry])
      | buy a d => exact absurd (hexit _ hparse) (by simp [Call.isEntry])
      | depositItem a d => exact hsound.depositItem_avoids he hrt a d fun pool index => hroom _ _ _ rfl
      | buyback a d => exact hsound.buyback_avoids he hrt a d fun pool index => hroom _ _ _ rfl
      | withdraw a d => exact Sound.withdraw_avoids he a d
      | setStatus a d => exact Sound.setStatus_avoids he a d
      | reclaim a => exact hsound.reclaim_avoids he hchecked
      | refund a => exact hsound.refund_avoids he hchecked
      | deliver a d => exact hsound.deliver_avoids he hchecked.1 d
      | event => exact avoids_ok _
      | settle a d =>
        obtain ⟨pool, index, pull, m, hsettling⟩ := hsound.settling hchecked.1
        exact hsettling.process_avoids d he
    · push Not at hroom
      obtain ⟨P, pool, index, hP, hpool, hge⟩ := hroom
      have hlt := pool.inventoryVersion.toNat_lt
      exact .inr ⟨call, P, pool, index, rfl, hP, hpool, by omega⟩

omit hrt in
theorem Reached.never_panics_sample :
    processInstruction Sample.net.runtime Sample.bought (Sample.settle [Sample.item₀]) ≠ .error .panicked ∨
      ∃ call P pool index, (Sample.settle [Sample.item₀]).parse Sample.bought = .ok call ∧
        call.restocked = some P ∧ Sample.bought.ledger P = .pool pool index ∧
          pool.inventoryVersion.toNat + 1 = 2 ^ 32 := by
  refine Reached.never_panics Sample.net.runtime_lawful Sample.bought_reached ?_
  have hread : (match (Sample.settle [Sample.item₀]).parse Sample.bought with
    | .ok call => !call.isEntry
    | .error _ => true) = true := by decide +kernel
  intro call hcall
  rw [hcall] at hread
  simpa using hread

end World

end SolanaGacha
