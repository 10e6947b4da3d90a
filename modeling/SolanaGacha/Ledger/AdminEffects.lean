import SolanaGacha.Ledger.Call

/-!
# Effects of the admin instructions

For each instruction of the authority, what a call that succeeds found in the ledger and what it makes of
it. An effect keeps every check that later results use, with the layouts and the called programs gone.
-/

namespace SolanaGacha

open Except Layout

/-! ## Create Pool -/

/-- The header of a created account before it is populated. -/
def Pool.zero : Pool := Pool.layout.decode (List.replicate Pool.layout.size 0)

/-- The header of a pool that was just created. -/
def Pool.fresh (bump : UInt8) (authority operator paymentMint vault : Pubkey)
    (id price deadlineSlots bondPerDraw : UInt64) (weights : List UInt32) : Pool :=
  Pool.zero.setInner bump authority operator paymentMint vault id price deadlineSlots bondPerDraw weights

theorem Pool.zero_counters : Pool.zero.inventoryVersion = 0 ∧ Pool.zero.pendingDraws = 0 ∧
    Pool.zero.nextIndex = 0 ∧ Pool.zero.nextSettle = 0 := by
  decide +kernel

theorem Pool.zero_tiers : Pool.zero.tiers = Vector.replicate 8 ⟨0, 0⟩ := by decide +kernel

/-- A fresh pool's tiers have the given weights and no stock. -/
theorem Pool.fresh_tier (bump : UInt8) (authority operator paymentMint vault : Pubkey)
    (id price deadlineSlots bondPerDraw : UInt64) (weights : List UInt32) {t : ℕ} (ht : t < 8) :
    (Pool.fresh bump authority operator paymentMint vault id price deadlineSlots bondPerDraw
      weights).tiers[t] = ⟨weights[t]?.getD 0, 0⟩ := by
  simp only [Pool.fresh, Pool.setInner, Vector.getElem_mapFinIdx, zero_tiers, Vector.getElem_replicate]
  cases weights[t]? <;> rfl

/-- The parameters that `CreatePool` accepts. -/
structure CreatePoolInstructionData.Valid (d : CreatePoolInstructionData) : Prop where
  tierCount : 0 < d.tierCount.toNat ∧ d.tierCount.toNat ≤ 8
  weights : ∀ weight ∈ d.weights.toList.take d.tierCount.toNat, weight ≠ 0
  price : d.price ≠ 0
  bondPerDraw : d.bondPerDraw ≠ 0
  deadlineSlots : d.deadlineSlots ≠ 0
  /-- A refund of the largest pull fits `u64`. -/
  refund : (d.price.toNat + d.bondPerDraw.toNat) * maxCount < 2 ^ 64

theorem CreatePoolInstructionData.valid_of_tryFrom {data : List UInt8} {d : CreatePoolInstructionData}
    (h : CreatePoolInstructionData.tryFrom data = .ok d) : d.Valid := by
  simp only [tryFrom, bind_eq_ok, failIf_eq_ok, pure_eq_ok] at h
  obtain ⟨_, -, _, hcount, _, hweights, _, hzero, _, hrefund, rfl⟩ := h
  simp only [not_or] at hcount hzero
  obtain ⟨perDraw, hsum, hmul⟩ := Option.bind_eq_some_iff.mp
    (Option.ne_none_iff_exists'.mp hrefund).choose_spec
  refine ⟨⟨UInt8.pos_iff_ne_zero.mpr hcount.1, not_lt.mp hcount.2⟩, ?_, hzero.1, hzero.2.1, hzero.2.2,
    ?_⟩
  · rintro weight hmem rfl
    exact hweights hmem
  · rw [UInt64.checkedAdd_eq_some] at hsum
    rw [UInt64.checkedMul_eq_some] at hmul
    rw [hsum]
    exact hmul.trans_lt (UInt64.toNat_lt _)

/-- `CreatePool` puts a paused pool without stock at a vacant address that its parameters derive. -/
structure CreatePool.Effect (rt : Runtime) (a : CreatePoolAccounts) (d : CreatePoolInstructionData)
    (L L' : Ledger) : Prop where
  signer : a.authority.isSigner = true
  valid : d.Valid
  vacant : L a.pool.key = .vacant
  derived : rt.createProgramAddress (Pool.seeds a.authority.key d.id d.bump) programId =
    some a.pool.key
  vault : rt.ata a.pool.key a.paymentMint.key = some a.vault.key
  ledger : L' = Function.update L a.pool.key (.pool (Pool.fresh d.bump a.authority.key a.operator.key
    a.paymentMint.key a.vault.key d.id d.price d.deadlineSlots d.bondPerDraw
      (d.weights.toList.take d.tierCount.toNat)) [])

theorem CreatePool.process_ok {rt : Runtime} (hrt : rt.Lawful) {w w' : World} {infos : List AccountInfo}
    {a : CreatePoolAccounts} {data : List UInt8} {d : CreatePoolInstructionData}
    (ha : CreatePoolAccounts.tryFrom w infos = .ok a) (hd : CreatePoolInstructionData.tryFrom data = .ok d)
    (h : CreatePool.process rt w a d = .ok w') :
    w.SameClock w' ∧ CreatePool.Effect rt a d w.ledger w'.ledger := by
  have hchecks : a.authority.isSigner = true ∧ w.ledger a.pool.key = .vacant := by
    unfold CreatePoolAccounts.tryFrom at ha
    split at ha
    · simp only [bind_eq_ok, failIf_eq_ok, checkUninitialized_eq_ok, pure_eq_ok, not_not] at ha
      obtain ⟨_, hsigner, _, -, _, hvacant, rfl⟩ := ha
      exact ⟨hsigner, hvacant⟩
    · cases ha
  simp only [CreatePool.process, bind_eq_ok, okOr_eq_ok, failIf_eq_ok, not_not] at h
  obtain ⟨poolKey, hderived, _, rfl, vault, hata, _, rfl, w1, hcreate, new, hnew, hemit⟩ := h
  obtain ⟨hclock, hzero, hstore⟩ := Runtime.createPda_store hrt (l := Pool.layout) hcreate
  obtain rfl : Pool.zero = new := by
    rw [Pool.zero, ← hzero]
    exact ((loadNew_eq_ok _ _ _ _).mp hnew).2.2.1
  obtain ⟨hclock', hledger⟩ := Runtime.emit_ok hemit
  refine ⟨hclock.trans hclock', hchecks.1, CreatePoolInstructionData.valid_of_tryFrom hd, hchecks.2,
    hderived, hata, ?_⟩
  rw [hledger]
  exact hstore _ _ fun account hown hdata =>
    Pool.entry_eq hown (by rw [hdata, List.append_nil]; rfl) rfl (by
      show 0 = inventorySpace Pool.zero.inventoryVersion
      rw [Pool.zero_counters.1]
      rfl)

/-! ## Deposit Item -/

/-- `DepositItem` restocks the pool with an asset of its authority. -/
structure DepositItem.Effect (rt : Runtime) (a : DepositItemAccounts) (d : DepositItemInstructionData)
    (pool : Pool) (index : List UInt8) (L L' : Ledger) : Prop where
  signer : a.authority.isSigner = true
  authority : pool.authority = a.authority.key
  status : pool.status ≠ poolRetired
  restocks : Restocks rt L a.pool.key a.item.key a.asset.key a.authority.key d.tier d.bump pool index L'

theorem DepositItem.process_ok {rt : Runtime} (hrt : rt.Lawful) {w w' : World} {infos : List AccountInfo}
    {a : DepositItemAccounts} {d : DepositItemInstructionData}
    (ha : DepositItemAccounts.tryFrom w infos = .ok a) (h : DepositItem.process rt w a d = .ok w') :
    w.SameClock w' ∧ ∃ pool index, DepositItem.Effect rt a d pool index w.ledger w'.ledger := by
  simp only [DepositItem.process, bind_eq_ok, checkRestock_eq_ok] at h
  obtain ⟨pool, hload, position, ⟨htier, hderived, hvacant, -⟩, w1, hrestock, w2, htransfer, hemit⟩ := h
  have hpool := World.pool_load hload
  have hchecks : a.authority.isSigner = true ∧ pool.authority = a.authority.key ∧
      pool.status ≠ poolRetired := by
    unfold DepositItemAccounts.tryFrom at ha
    split at ha
    · simp only [bind_eq_ok, failIf_eq_ok, pure_eq_ok, not_not] at ha
      obtain ⟨_, hsigner, _, -, poolData, hload', _, hauthority, _, hstatus, rfl⟩ := ha
      obtain rfl := World.pool_load_of_entry hpool hload'
      exact ⟨hsigner, hauthority, hstatus⟩
    · cases ha
  have hne := Ledger.ne_of_entry hvacant hpool (by simp)
  obtain ⟨pool', index', hclock1, hrestocked, hledger1⟩ := Runtime.restock_ok hrt hpool hne hrestock
  obtain ⟨asset, hclock2, hasset, howner, hledger2, -⟩ := Runtime.transferAsset_ok hrt htransfer
  obtain ⟨hclock3, hledger3⟩ := Runtime.emit_ok hemit
  -- The asset is neither of the two accounts that the restock changed.
  simp only at hasset howner hledger2
  rw [hledger1] at hasset
  obtain ⟨hne1, hasset⟩ := Ledger.of_update hasset (by simp)
  obtain ⟨hne2, hasset⟩ := Ledger.of_update hasset (by simp)
  refine ⟨(hclock1.trans hclock2).trans hclock3, pool, _, hchecks.1, hchecks.2.1, hchecks.2.2, hpool,
    hderived, hvacant, pool', index', asset, hrestocked, hasset, howner, ?_⟩
  rw [hledger3, hledger2, hledger1, Function.update_comm hne1.symm,
    Function.update_comm hne2.symm]

/-! ## Withdraw -/

/-- `Withdraw` pays the authority out of what the vault holds above the reserve. -/
structure Withdraw.Effect (rt : Runtime) (a : WithdrawAccounts) (d : WithdrawInstructionData) (pool : Pool)
    (index : List UInt8) (L L' : Ledger) : Prop where
  loaded : L a.pool.key = .pool pool index
  signer : a.authority.isSigner = true
  authority : pool.authority = a.authority.key
  vault : pool.vault = a.vault.key
  surplus : ∃ token reserved, L a.vault.key = .token token ∧
    pool.refundAmount pool.pendingDraws = .ok reserved ∧
      reserved.toNat + d.amount.toNat ≤ token.amount.toNat
  paid : L.Paid rt a.vault.key a.destination.key a.pool.key d.amount L'

theorem pay_ok {rt : Runtime} (hrt : rt.Lawful) {w w' : World} {pool vault destination : AccountInfo}
    {amount : UInt64} (h : rt.pay w pool vault destination amount = .ok w') :
    w.SameClock w' ∧ w.ledger.Paid rt vault.key destination.key pool.key amount w'.ledger := by
  simp only [Runtime.pay, bind_eq_ok] at h
  obtain ⟨header, -, htransfer⟩ := h
  obtain ⟨hclock, hpaid, -⟩ := Runtime.transferTokens_ok hrt htransfer
  exact ⟨hclock, hpaid⟩

theorem Withdraw.process_ok {rt : Runtime} (hrt : rt.Lawful) {w w' : World} {infos : List AccountInfo}
    {a : WithdrawAccounts} {d : WithdrawInstructionData} (ha : WithdrawAccounts.tryFrom w infos = .ok a)
    (h : Withdraw.process rt w a d = .ok w') :
    w.SameClock w' ∧ ∃ pool index, Withdraw.Effect rt a d pool index w.ledger w'.ledger := by
  simp only [Withdraw.process, bind_eq_ok, failIf_eq_ok] at h
  obtain ⟨pool, hload, free, hfree, _, hle, w1, hpay, hemit⟩ := h
  have hpool := World.pool_load hload
  have hchecks : a.authority.isSigner = true ∧ pool.authority = a.authority.key ∧
      pool.vault = a.vault.key := by
    unfold WithdrawAccounts.tryFrom at ha
    split at ha
    · simp only [bind_eq_ok, failIf_eq_ok, pure_eq_ok, not_not] at ha
      obtain ⟨_, hsigner, poolData, hload', _, hauthority, _, hvault, rfl⟩ := ha
      obtain rfl := World.pool_load_of_entry hpool hload'
      exact ⟨hsigner, hauthority, hvault⟩
    · cases ha
  obtain ⟨hclock1, hpaid⟩ := pay_ok hrt hpay
  obtain ⟨hclock2, hledger⟩ := Runtime.emit_ok hemit
  obtain ⟨token, reserved, htoken, hreserved, hsum⟩ := spendable_eq_ok.mp hfree
  have hle' : d.amount.toNat ≤ free.toNat := UInt64.le_iff_toNat_le.mp (UInt64.not_lt.mp hle)
  refine ⟨hclock1.trans hclock2, pool, _, hpool, hchecks.1, hchecks.2.1, hchecks.2.2,
    ⟨token, reserved, htoken, hreserved, by omega⟩, ?_⟩
  rw [hledger]
  exact hpaid

/-! ## Set Status -/

/-- `SetStatus` changes the status of a pool that is not retired, or keeps it retired. -/
structure SetStatus.Effect (a : SetStatusAccounts) (d : SetStatusInstructionData) (pool : Pool)
    (index : List UInt8) (L L' : Ledger) : Prop where
  loaded : L a.pool.key = .pool pool index
  signer : a.authority.isSigner = true
  authority : pool.authority = a.authority.key
  status : d.status ≤ poolRetired
  terminal : pool.status = poolRetired → d.status = poolRetired
  ledger : L' = Function.update L a.pool.key (.pool { pool with status := d.status } index)

theorem SetStatus.process_ok {rt : Runtime} {w w' : World} {infos : List AccountInfo}
    {a : SetStatusAccounts} {data : List UInt8} {d : SetStatusInstructionData}
    (ha : SetStatusAccounts.tryFrom w infos = .ok a) (hd : SetStatusInstructionData.tryFrom data = .ok d)
    (h : SetStatus.process rt w a d = .ok w') :
    w.SameClock w' ∧ ∃ pool index, SetStatus.Effect a d pool index w.ledger w'.ledger := by
  simp only [SetStatus.process, bind_eq_ok, failIf_eq_ok, not_and, not_not] at h
  obtain ⟨pool, hload, _, hterminal, hemit⟩ := h
  have hpool := World.pool_load hload
  have hchecks : a.authority.isSigner = true ∧ pool.authority = a.authority.key := by
    unfold SetStatusAccounts.tryFrom at ha
    split at ha
    · simp only [bind_eq_ok, failIf_eq_ok, pure_eq_ok, not_not] at ha
      obtain ⟨_, hsigner, _, -, poolData, hload', _, hauthority, rfl⟩ := ha
      obtain rfl := World.pool_load_of_entry hpool hload'
      exact ⟨hsigner, hauthority⟩
    · cases ha
  have hstatus : d.status ≤ poolRetired := by
    unfold SetStatusInstructionData.tryFrom at hd
    split at hd
    · simp only [bind_eq_ok, failIf_eq_ok, pure_eq_ok] at hd
      obtain ⟨_, hle, rfl⟩ := hd
      exact UInt8.not_lt.mp hle
    · cases hd
  obtain ⟨hclock, hledger⟩ := Runtime.emit_ok hemit
  refine ⟨hclock, pool, _, hpool, hchecks.1, hchecks.2, hstatus, hterminal, ?_⟩
  rw [hledger]
  exact World.ledger_store_pool _ hpool rfl rfl

/-! ## Reclaim -/

/-- `Reclaim` takes an unsold asset back from a retired pool that no purchase waits for. -/
structure Reclaim.Effect (a : ReclaimAccounts) (pool : Pool) (index : List UInt8) (item : Item)
    (L L' : Ledger) : Prop where
  loaded : L a.pool.key = .pool pool index
  loadedItem : L a.item.key = .item item
  signer : a.authority.isSigner = true
  authority : pool.authority = a.authority.key
  retired : pool.status = poolRetired
  settled : pool.pendingDraws = 0
  samePool : item.pool = a.pool.key
  sameAsset : item.asset = a.asset.key
  live : Inventory.Live (pool.tags index) item.tier.toNat item.position.toNat
  ledger : ∃ tiers index' asset, tiers.map Tier.weight = pool.tiers.map Tier.weight ∧
    Stock { pool with tiers } index' ((pool.tags index).set item.position.toNat 0) ∧
      L a.asset.key = .asset asset ∧ asset.owner = a.pool.key ∧
        L' = Function.update (Function.update (Function.update L a.pool.key (.pool { pool with tiers } index'))
          a.asset.key (.asset { asset with owner := a.authority.key })) a.item.key .vacant

/-- What the handler checks of its accounts. -/
theorem ReclaimAccounts.of_tryFrom {w : World} {infos : List AccountInfo} {a : ReclaimAccounts}
    (h : ReclaimAccounts.tryFrom w infos = .ok a) : ∃ pool item, Pool.load (w.account a.pool) = .ok pool ∧
      Item.load (w.account a.item) = .ok item ∧ a.authority.isSigner = true ∧
        pool.authority = a.authority.key ∧ pool.status = poolRetired ∧ pool.pendingDraws = 0 ∧
          item.pool = a.pool.key ∧ item.asset = a.asset.key := by
  unfold tryFrom at h
  split at h
  · simp only [bind_eq_ok, failIf_eq_ok, pure_eq_ok, not_not, not_or] at h
    obtain ⟨_, hsigner, _, -, pool, hload, _, hauthority, _, hstatus, _, hpending, item, hitem, _,
      ⟨hsame, hasset, -, -⟩, _, -, _, -, rfl⟩ := h
    exact ⟨pool, item, hload, hitem, hsigner, hauthority, hstatus, hpending, hsame, hasset⟩
  · cases h

theorem Reclaim.process_ok {rt : Runtime} (hrt : rt.Lawful) {w w' : World} (hL : w.ledger.Counted)
    {infos : List AccountInfo} {a : ReclaimAccounts} (ha : ReclaimAccounts.tryFrom w infos = .ok a)
    (h : Reclaim.process rt w a = .ok w') :
    w.SameClock w' ∧ ∃ pool index item, Reclaim.Effect a pool index item w.ledger w'.ledger := by
  simp only [Reclaim.process, bind_eq_ok, Prod.exists] at h
  obtain ⟨item, hitem, pool, hload, inventory, hinventory, ⟨⟩, inventory', hremove, pool', hcounter, w1,
    htransfer, accounts, hclose, hemit⟩ := h
  have hpool := World.pool_load hload
  have hitem' := World.item_load hitem
  obtain rfl := World.inventory_load hpool hinventory
  obtain ⟨poolData, itemData, hload', hitem'', hsigner, hauthority, hstatus, hpending, hsame, hasset⟩ :=
    ReclaimAccounts.of_tryFrom ha
  obtain rfl := (World.pool_load_of_entry hpool hload').symm
  obtain rfl : item = itemData := Except.ok.inj (hitem.symm.trans hitem'')
  obtain ⟨hlive, hstock⟩ := (hL.stock hpool).remove hremove hcounter
  obtain ⟨tiers, rfl, hweights⟩ := Pool.updateRemaining_frame hcounter
  have hlen := (Inventory.keepsLength_remove _ _).run hremove
  have hledger1 := World.ledger_store_both { pool with tiers } hpool rfl rfl hlen
  obtain ⟨asset, hclock, hentry, howner, hledger2, -⟩ := Runtime.transferAsset_ok hrt htransfer
  obtain ⟨hclock', hledger3⟩ := Runtime.emit_ok hemit
  simp only at hentry howner hledger2
  rw [hledger1] at hentry hledger2
  obtain ⟨-, hentry⟩ := Ledger.of_update hentry (by simp)
  refine ⟨hclock.trans hclock', pool, _, item, hpool, hitem', hsigner, hauthority, hstatus, hpending,
    hsame, hasset, hlive, tiers, inventory'.data, asset, hweights, hstock, hentry, howner, ?_⟩
  rw [hledger3, ← hledger2]
  exact close_ok hclose

end SolanaGacha
