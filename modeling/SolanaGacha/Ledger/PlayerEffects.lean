import SolanaGacha.Ledger.AdminEffects

/-!
# Effects of the player instructions

What a purchase, a refund and a buyback find in the ledger and what they make of it.
-/

namespace SolanaGacha

open Except Layout

/-! ## Buy -/

/-- A created pull before it is populated. -/
def Pull.zero : Pull := Pull.layout.decode (List.replicate Pull.layout.size 0)

/-- `Buy` takes the next place in the queue for the whole stock issued so far, and escrows the price. It
is accepted when the stock covers all pending draws and the vault all pending refunds. -/
structure Buy.Effect (rt : Runtime) (slot : UInt64) (a : BuyAccounts) (d : BuyInstructionData)
    (pool : Pool) (index : List UInt8) (pull : Pull) (L L' : Ledger) : Prop where
  loaded : L a.pool.key = .pool pool index
  vacant : L a.pull.key = .vacant
  signer : a.buyer.isSigner = true
  active : pool.status = poolActive
  vault : pool.vault = a.vault.key
  current : d.inventoryVersion = pool.inventoryVersion
  derived : rt.createProgramAddress (Pull.seeds a.pool.key d.clientSeed d.bump) programId =
    some a.pull.key
  count : 0 < d.count.toNat ∧ d.count.toNat ≤ 10
  deadline : slot.toNat + pool.deadlineSlots.toNat = pull.deadlineSlot.toNat
  populated : pull = Pull.zero.setInner d.bump d.count pool.inventoryVersion pool.nextIndex
    pull.deadlineSlot a.pool.key a.buyer.key d.clientSeed
  ledger : ∃ pendingDraws nextIndex amount reserved token left,
    pool.pendingDraws.toNat + d.count.toNat = pendingDraws.toNat ∧
    pool.nextIndex.toNat + 1 = nextIndex.toNat ∧
    pool.remaining = .ok left ∧ pendingDraws.toNat ≤ left ∧
    pool.payment d.count.toUInt64 = .ok amount ∧ pool.refundAmount pendingDraws = .ok reserved ∧
    L a.vault.key = .token token ∧ reserved.toNat ≤ token.amount.toNat + amount.toNat ∧
    Ledger.Paid rt (Function.update (Function.update L a.pull.key (.pull pull)) a.pool.key
      (.pool { pool with pendingDraws, nextIndex } index)) a.buyerAta.key a.vault.key a.buyer.key amount L'

theorem Buy.process_ok {rt : Runtime} (hrt : rt.Lawful) {w w' : World} {infos : List AccountInfo}
    {a : BuyAccounts} {data : List UInt8} {d : BuyInstructionData}
    (ha : BuyAccounts.tryFrom w infos = .ok a) (hd : BuyInstructionData.tryFrom data = .ok d)
    (h : Buy.process rt w a d = .ok w') :
    w.SameClock w' ∧ ∃ pool index pull,
      Buy.Effect rt w.slot a d pool index pull w.ledger w'.ledger := by
  simp only [Buy.process, bind_eq_ok, okOr_eq_ok, failIf_eq_ok, not_not, Prod.exists,
    UInt64.checkedAdd_eq_some] at h
  obtain ⟨_, hderived, _, rfl, pool, hload, draws, price, hreserve, w1, hcreate, new, hnew,
    deadlineSlot, hdeadline, nextIndex, hnext, w2, htransfer, hemit⟩ := h
  have hpool := World.pool_load hload
  have hchecks : a.buyer.isSigner = true ∧ w.ledger a.pull.key = .vacant ∧ pool.status = poolActive ∧
      pool.vault = a.vault.key := by
    unfold BuyAccounts.tryFrom at ha
    split at ha
    · simp only [bind_eq_ok, failIf_eq_ok, checkUninitialized_eq_ok, pure_eq_ok, not_not] at ha
      obtain ⟨_, hsigner, _, -, _, hvacant, poolData, hload', _, hstatus, _, hvault, rfl⟩ := ha
      obtain rfl := World.pool_load_of_entry hpool hload'
      exact ⟨hsigner, hvacant, hstatus, hvault⟩
    · cases ha
  obtain ⟨hsigner, hvacant, hactive, hvault⟩ := hchecks
  have hcount : 0 < d.count.toNat ∧ d.count.toNat ≤ 10 := by
    simp only [BuyInstructionData.tryFrom, bind_eq_ok, failIf_eq_ok, pure_eq_ok, not_or] at hd
    obtain ⟨_, -, _, ⟨hne, hle⟩, rfl⟩ := hd
    exact ⟨UInt8.pos_iff_ne_zero.mpr hne, not_lt.mp hle⟩
  simp only [Buy.reserve, bind_eq_ok, okOr_eq_ok, failIf_eq_ok, not_not, pure_eq_ok,
    UInt64.checkedAdd_eq_some, Prod.mk.injEq] at hreserve
  obtain ⟨_, hcurrent, pendingDraws, hpending, left, hleft, _, hstock, amount, hamount, token, htoken,
    balance, hbalance, reserved, hreserved, _, hcovered, rfl, rfl⟩ := hreserve
  -- The pull is created and populated, then the header is written.
  obtain ⟨hclock1, hzero, hstore⟩ := Runtime.createPda_store hrt (l := Pull.layout) hcreate
  obtain rfl : Pull.zero = new := by
    rw [Pull.zero, ← hzero]
    exact ((loadNew_eq_ok _ _ _ _).mp hnew).2.2.1
  rw [hclock1.1] at hdeadline
  generalize hpull : Pull.zero.setInner d.bump d.count pool.inventoryVersion pool.nextIndex
    deadlineSlot a.pool.key a.buyer.key d.clientSeed = pull at htransfer
  have hledger1 := hstore pull (.pull pull) fun account hown hdata =>
    Pull.entry_eq hown hdata (by rw [← hpull]; rfl)
  have hne := Ledger.ne_of_entry hvacant hpool (by simp)
  have hpool1 := congrFun hledger1 a.pool.key
  rw [Function.update_of_ne hne.symm, hpool] at hpool1
  have hledger2 := World.ledger_store_pool { pool with pendingDraws, nextIndex }
    hpool1 rfl rfl
  rw [hledger1] at hledger2
  obtain ⟨hclock2, hpaid, -⟩ := Runtime.transferTokens_ok hrt htransfer
  obtain ⟨hclock3, hledger3⟩ := Runtime.emit_ok hemit
  have hclock : w.SameClock w' := hclock1.trans (World.SameClock.trans hclock2 hclock3)
  have hcounts : d.count.toUInt64.toNat = d.count.toNat := UInt8.toNat_toUInt64 _
  have hslot : pull.deadlineSlot = deadlineSlot := by rw [← hpull]; rfl
  refine ⟨hclock, pool, _, pull, hpool, hvacant, hsigner, hactive, hvault, hcurrent, hderived,
    hcount, by rw [hslot]; exact hdeadline, by rw [hslot]; exact hpull.symm,
    pendingDraws, nextIndex, amount, reserved, token, left, by rw [← hcounts]; exact hpending, hnext,
    hleft, not_lt.mp hstock, hamount, hreserved, Account.entry_eq_token.mpr htoken, ?_, ?_⟩
  · rw [hbalance]
    exact UInt64.le_iff_toNat_le.mp (UInt64.not_lt.mp hcovered)
  · rw [hledger3, ← hledger2]
    exact hpaid

/-! ## Refund -/

/-- `Refund` pays the expired head of the queue back with the penalty, and closes it. -/
structure Refund.Effect (rt : Runtime) (slot : UInt64) (a : RefundAccounts) (pool : Pool)
    (index : List UInt8) (pull : Pull) (L L' : Ledger) : Prop where
  loaded : L a.pool.key = .pool pool index
  loadedPull : L a.pull.key = .pull pull
  samePool : pull.pool = a.pool.key
  pending : pull.status = statusPending
  head : pull.index = pool.nextSettle
  expired : pull.deadlineSlot < slot
  buyer : pull.buyer = a.buyer.key
  vault : pool.vault = a.vault.key
  destination : ∃ token, L a.buyerAta.key = .token token ∧ token.owner = pull.buyer
  ledger : ∃ amount pendingDraws nextSettle M, pool.refundAmount pull.count.toUInt64 = .ok amount ∧
    pool.pendingDraws.toNat = pull.count.toNat + pendingDraws.toNat ∧
    pull.index.toNat + 1 = nextSettle.toNat ∧
    Ledger.Paid rt (Function.update L a.pool.key (.pool { pool with pendingDraws, nextSettle } index))
      a.vault.key a.buyerAta.key a.pool.key amount M ∧
    L' = Function.update M a.pull.key .vacant

/-- What the handler checks of its accounts. -/
theorem RefundAccounts.of_tryFrom {w : World} {infos : List AccountInfo} {a : RefundAccounts}
    (h : RefundAccounts.tryFrom w infos = .ok a) : ∃ pool pull, Pool.load (w.account a.pool) = .ok pool ∧
      Pull.load (w.account a.pull) = .ok pull ∧ pull.pool = a.pool.key ∧ pull.status = statusPending ∧
        pull.index = pool.nextSettle ∧ pull.deadlineSlot < w.slot ∧ pull.buyer = a.buyer.key ∧
          pool.vault = a.vault.key ∧
            ∃ token, w.ledger a.buyerAta.key = .token token ∧ token.owner = pull.buyer := by
  unfold tryFrom at h
  split at h
  · simp only [bind_eq_ok, failIf_eq_ok, pure_eq_ok, not_not, UInt64.not_le] at h
    obtain ⟨_, -, pool, hload, pull, hpull, _, hsame, _, hstatus, _, hhead, _, hexpired, _, hbuyer, _,
      hvault, token, htoken, _, howner, rfl⟩ := h
    exact ⟨pool, pull, hload, hpull, hsame, hstatus, hhead, hexpired, hbuyer, hvault, token,
      World.token_load htoken, howner⟩
  · cases h

theorem Refund.process_ok {rt : Runtime} (hrt : rt.Lawful) {w w' : World} {infos : List AccountInfo}
    {a : RefundAccounts} (ha : RefundAccounts.tryFrom w infos = .ok a)
    (h : Refund.process rt w a = .ok w') :
    w.SameClock w' ∧ ∃ pool index pull,
      Refund.Effect rt w.slot a pool index pull w.ledger w'.ledger := by
  simp only [Refund.process, bind_eq_ok, okOr_eq_ok, UInt64.checkedAdd_eq_some,
    UInt64.checkedSub_eq_some] at h
  obtain ⟨pool, hload, pull, hpull, amount, hamount, pendingDraws, hpending, nextSettle, hnext, w1,
    htransfer, accounts, hclose, hemit⟩ := h
  have hpool := World.pool_load hload
  obtain ⟨poolData, pullData, hload', hpull', hsame, hstatus, hhead, hexpired, hbuyer, hvault,
    hdestination⟩ := RefundAccounts.of_tryFrom ha
  obtain rfl := (World.pool_load_of_entry hpool hload').symm
  obtain rfl : pull = pullData := Except.ok.inj (hpull.symm.trans hpull')
  have hledger1 := World.ledger_store_pool { pool with pendingDraws, nextSettle }
    hpool rfl rfl
  obtain ⟨hclock, hpaid, -⟩ := Runtime.transferTokens_ok hrt htransfer
  obtain ⟨hclock', hledger2⟩ := Runtime.emit_ok hemit
  rw [hledger1] at hpaid
  have hcount : pull.count.toUInt64.toNat = pull.count.toNat := UInt8.toNat_toUInt64 _
  rw [hcount] at hpending
  refine ⟨hclock.trans hclock', pool, _, pull, hpool, World.pull_load hpull, hsame, hstatus, hhead,
    hexpired, hbuyer, hvault, hdestination, amount, pendingDraws, nextSettle, w1.ledger, hamount, hpending,
    hnext, hpaid, ?_⟩
  rw [hledger2]
  exact close_ok hclose

/-! ## Buyback -/

/-- `Buyback` pays the seller of a quoted asset out of the surplus, and restocks the pool with it. -/
structure Buyback.Effect (rt : Runtime) (time : Int64) (a : BuybackAccounts) (d : BuybackInstructionData)
    (pool : Pool) (index : List UInt8) (L L' : Ledger) : Prop where
  signer : a.payer.isSigner = true ∧ a.seller.isSigner = true
  active : pool.status = poolActive
  vault : pool.vault = a.vault.key
  destination : ∃ token, L a.destination.key = .token token ∧ token.owner = a.seller.key
  unexpired : time < d.expiresAt
  quote : rt.verifySignature pool.authority d.signature
    (buybackMessage a.pool.key a.asset.key d.price d.expiresAt d.tier) = true
  surplus : ∃ token reserved, L a.vault.key = .token token ∧
    pool.refundAmount pool.pendingDraws = .ok reserved ∧
      reserved.toNat + d.price.toNat ≤ token.amount.toNat
  ledger : ∃ M, Restocks rt L a.pool.key a.item.key a.asset.key a.seller.key d.tier d.bump pool index M ∧
    M.Paid rt a.vault.key a.destination.key a.pool.key d.price L'

theorem Buyback.process_ok {rt : Runtime} (hrt : rt.Lawful) {w w' : World} {infos : List AccountInfo}
    {a : BuybackAccounts} {data : List UInt8} {d : BuybackInstructionData}
    (ha : BuybackAccounts.tryFrom w infos = .ok a) (hd : BuybackInstructionData.tryFrom w data = .ok d)
    (h : Buyback.process rt w a d = .ok w') :
    w.SameClock w' ∧ ∃ pool index,
      Buyback.Effect rt w.unixTimestamp a d pool index w.ledger w'.ledger := by
  simp only [Buyback.process, bind_eq_ok, failIf_eq_ok, checkRestock_eq_ok, not_not] at h
  obtain ⟨pool, hload, _, -, _, hquote, free, hfree, _, hle, position, ⟨htier, hderived, hvacant, -⟩, w1,
    htransfer, w2, hrestock, w3, hpay, hemit⟩ := h
  have hpool := World.pool_load hload
  have hchecks : (a.payer.isSigner = true ∧ a.seller.isSigner = true) ∧ pool.status = poolActive ∧
      pool.vault = a.vault.key ∧
        ∃ token, w.ledger a.destination.key = .token token ∧ token.owner = a.seller.key := by
    unfold BuybackAccounts.tryFrom at ha
    split at ha
    · simp only [bind_eq_ok, failIf_eq_ok, pure_eq_ok, not_not, not_or] at ha
      obtain ⟨_, hsigner, _, -, poolData, hload', _, hstatus, _, hvault, token, htoken, _, howner, rfl⟩ :=
        ha
      obtain rfl := World.pool_load_of_entry hpool hload'
      exact ⟨hsigner, hstatus, hvault, token, World.token_load htoken, howner⟩
    · cases ha
  obtain ⟨hsigner, hactive, hvault, hdestination⟩ := hchecks
  have hunexpired : w.unixTimestamp < d.expiresAt := by
    simp only [BuybackInstructionData.tryFrom, bind_eq_ok, failIf_eq_ok, pure_eq_ok] at hd
    obtain ⟨_, -, _, hexpires, rfl⟩ := hd
    exact Int64.not_le.mp hexpires
  obtain ⟨asset, hclock1, hasset, howner, hledger1, -⟩ := Runtime.transferAsset_ok hrt htransfer
  simp only at hasset howner hledger1
  have hne1 := Ledger.ne_of_entry hasset hpool (by simp)
  have hne2 := Ledger.ne_of_entry hvacant hpool (by simp)
  have hpool1 := congrFun hledger1 a.pool.key
  rw [Function.update_of_ne hne1.symm, hpool] at hpool1
  obtain ⟨pool', index', hclock2, hrestocked, hledger2⟩ := Runtime.restock_ok hrt hpool1 hne2 hrestock
  obtain ⟨hclock3, hpaid⟩ := pay_ok hrt hpay
  obtain ⟨hclock4, hledger4⟩ := Runtime.emit_ok hemit
  obtain ⟨token, reserved, htoken, hreserved, hsum⟩ := spendable_eq_ok.mp hfree
  have hle' : d.price.toNat ≤ free.toNat := UInt64.le_iff_toNat_le.mp (UInt64.not_lt.mp hle)
  rw [hledger1] at hledger2
  refine ⟨((hclock1.trans hclock2).trans hclock3).trans hclock4, pool, _, hsigner, hactive, hvault,
    hdestination, hunexpired, by simpa using hquote, ⟨token, reserved, htoken, hreserved, by omega⟩,
    w2.ledger, ⟨hpool, hderived, hvacant, pool', index', asset, hrestocked, hasset, howner, hledger2⟩, ?_⟩
  rw [hledger4]
  exact hpaid

end SolanaGacha
