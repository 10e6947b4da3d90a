import SolanaGacha.Ledger.PlayerEffects

/-!
# Effects of the operator instructions

What a settlement and a delivery find in the ledger and what they make of it, and the effect of a call
as a whole (`Call.Effect`, `processInstruction_effect`).
-/

namespace SolanaGacha

open Except Layout

/-! ## Settle -/

/-- `Settle` draws for the head of the queue, before its deadline and on a verified output. It closes the
Items of the selected positions and records their assets as the outcomes of the pull. -/
structure Settle.Effect (rt : Runtime) (slot : UInt64) (a : SettleAccounts) (d : SettleInstructionData)
    (pool : Pool) (index : List UInt8) (pull : Pull) (beta : FixedBytes 64) (awards : List Award)
    (L L' : Ledger) : Prop where
  loaded : L a.pool.key = .pool pool index
  loadedPull : L a.pull.key = .pull pull
  operator : pool.operator = a.operator.key
  samePool : pull.pool = a.pool.key
  pending : pull.status = statusPending
  head : pull.index = pool.nextSettle
  inTime : slot ≤ pull.deadlineSlot
  count : a.items.length = pull.count.toNat
  proof : rt.verifyProof pool.operator (rt.sha256 (a.pull.key.val ++ pull.clientSeed.val)) d.proof =
    some beta
  accounts : awards.map Award.account = a.items.map AccountInfo.key
  selected : rt.selections pool beta ((pool.tags index).take pull.inventoryVersion.toNat) 0
    awards.length = .ok (awards.map Award.draw)
  item : ∀ award ∈ awards, L award.account = .item award.item ∧ award.item.pool = a.pool.key
  nodup : (awards.map Award.account).Nodup
  small : awards.length ≤ 10
  ledger : ∃ tiers index' pendingDraws nextSettle,
    pool.pendingDraws.toNat = pull.count.toNat + pendingDraws.toNat ∧
    pull.index.toNat + 1 = nextSettle.toNat ∧
    tiers.map Tier.weight = pool.tiers.map Tier.weight ∧
    Stock { pool with tiers, pendingDraws, nextSettle } index'
      (Market.clear (pool.tags index) (awards.map fun award => award.draw.2)) ∧
    L' = Function.update (Function.update (L.vacate (awards.map Award.account)) a.pool.key
      (.pool { pool with tiers, pendingDraws, nextSettle } index')) a.pull.key
        (.pull { pull with
          status := statusSettled, outcomes := recordAwards pull.outcomes 0 awards })

theorem SettleAccounts.of_tryFrom {w : World} {infos : List AccountInfo} {a : SettleAccounts}
    (h : SettleAccounts.tryFrom w infos = .ok a) : ∃ pool pull, Pool.load (w.account a.pool) = .ok pool ∧
      Pull.load (w.account a.pull) = .ok pull ∧ pool.operator = a.operator.key ∧
        pull.pool = a.pool.key ∧ pull.status = statusPending ∧ pull.index = pool.nextSettle ∧
          w.slot ≤ pull.deadlineSlot ∧ a.items.length = pull.count.toNat := by
  unfold tryFrom at h
  split at h
  · split at h
    · simp only [bind_eq_ok, failIf_eq_ok, pure_eq_ok, not_not, UInt64.not_lt] at h
      obtain ⟨_, -, pool, hload, pull, hpull, _, hoperator, _, hsame, _, hstatus, _, hhead, _, htime, _,
        hcount, _, -, rfl⟩ := h
      exact ⟨pool, pull, hload, hpull, hoperator, hsame, hstatus, hhead, htime, hcount⟩
    · cases h
  · cases h

theorem Settle.process_ok {rt : Runtime} {w w' : World} (hL : w.ledger.Counted)
    {infos : List AccountInfo} {a : SettleAccounts} {d : SettleInstructionData}
    (ha : SettleAccounts.tryFrom w infos = .ok a) (h : Settle.process rt w a d = .ok w') :
    w.SameClock w' ∧ ∃ pool index pull beta awards,
      Settle.Effect rt w.slot a d pool index pull beta awards w.ledger w'.ledger := by
  simp only [Settle.process, bind_eq_ok, okOr_eq_ok, UInt64.checkedAdd_eq_some,
    UInt64.checkedSub_eq_some] at h
  obtain ⟨pool, hload, inventory, hinventory, pull, hpull, beta, hproof, s, hdraw, pendingDraws, hpending,
    nextSettle, hnext, outcomes, -, hemit⟩ := h
  have hpool := World.pool_load hload
  have hpull' := World.pull_load hpull
  obtain rfl := World.inventory_load hpool hinventory
  obtain ⟨poolData, pullData, hload', hpullData, hoperator, hsame, hstatus, hhead, htime, hcount⟩ :=
    SettleAccounts.of_tryFrom ha
  obtain rfl := World.pool_load_of_entry hpool hload'
  obtain rfl : pull = pullData := Except.ok.inj (hpull.symm.trans hpullData)
  generalize hindex : (w.accounts a.pool.key).data.drop poolLen = index at hpool hdraw
  have hstock := hL.stock hpool
  obtain ⟨awards, hkeys, drew⟩ := Runtime.draw_ok hstock (by
    rw [hstock.version]
    exact hL.version hpull' hstatus (hsame ▸ hpool)) hdraw
  have hlen : awards.length = pull.count.toNat := by
    rw [← hcount, ← List.length_map (f := Award.account), hkeys, List.length_map]
  have hsmall : awards.length ≤ 10 := by
    rcases eq_or_ne awards [] with rfl | hne
    · simp
    · simpa using drew.small hne
  obtain ⟨tiers, htiers, hweights⟩ := drew.header
  have houtcomes := drew.outcomes
  have hledger := drew.ledger
  have hstock' := drew.stock
  have hitems := drew.item
  simp only at htiers hweights houtcomes hledger hitems
  -- The pool and the pull are no Items, so the loop left them alone.
  have hkeep : ∀ {key e}, w.ledger key = e → (∀ item, e ≠ .item item) →
      Accounts.ledger s.accounts key = e := by
    intro key e he hne
    rw [hledger, Ledger.vacate, if_neg]
    · exact he
    · intro hmem
      obtain ⟨award, haward, rfl⟩ := List.mem_map.mp hmem
      exact hne _ (he.symm.trans (hitems award haward))
  have hlen' : s.inventory.data.length = index.length := by
    rw [hstock'.indexed.length, hstock.indexed.length, Market.length_clear]
  have hpool' : { s.pool with pendingDraws, nextSettle } =
      { poolData with tiers, pendingDraws, nextSettle } := by rw [htiers]
  have hpull'' : { s.pull with status := statusSettled } =
      { pull with status := statusSettled, outcomes := recordAwards pull.outcomes 0 awards } := by
    rw [houtcomes]
  rw [hpool', hpull''] at hemit
  have hledger1 := World.ledger_store_both (w := { w with accounts := s.accounts })
    { poolData with tiers, pendingDraws, nextSettle } (hkeep hpool (by simp)) rfl rfl hlen'
  generalize hw1 : World.storeInventory _ a.pool.key s.inventory = w1 at hledger1 hemit
  have hclock1 : w.SameClock w1 := hw1 ▸ ⟨rfl, rfl⟩
  have hne : a.pull.key ≠ a.pool.key := Ledger.ne_of_entry hpull' hpool (by simp)
  have hpull1 : w1.ledger a.pull.key = .pull pull := by
    rw [hledger1, Function.update_of_ne hne]
    exact hkeep hpull' (by simp)
  have hledger2 := World.ledger_store_pull
    { pull with status := statusSettled, outcomes := recordAwards pull.outcomes 0 awards } hpull1 rfl
  obtain ⟨hclock2, hledger3⟩ := Runtime.emit_ok hemit
  have hclock : w.SameClock w' := hclock1.trans (World.SameClock.trans ⟨rfl, rfl⟩ hclock2)
  have hcounts : (UInt64.ofNat a.items.length).toNat = pull.count.toNat := by
    rw [hcount, UInt64.toNat_ofNat_of_lt' (pull.count.toNat_lt.trans (by decide))]
  rw [hcounts, htiers] at hpending
  rw [houtcomes] at hnext
  refine ⟨hclock, poolData, index, pull, beta, awards, hpool, hpull', hoperator, hsame, hstatus, hhead,
    htime, hcount, hproof, hkeys, drew.selected, fun award haward => ⟨hitems award haward, drew.pool award haward⟩,
    drew.nodup, hsmall, tiers, s.inventory.data, pendingDraws, nextSettle, hpending, hnext,
    hweights, ?_, ?_⟩
  · rw [htiers] at hstock'
    exact ⟨hstock'.indexed, hstock'.version, hstock'.tierCount, hstock'.tier, hstock'.remaining⟩
  · rw [hledger3, hledger2, hledger1]
    show Function.update (Function.update (Accounts.ledger s.accounts) _ _) _ _ = _
    rw [hledger]

/-! ## Deliver -/

/-- The pull with outcome `i` marked delivered. -/
def Pull.marked (pull : Pull) (i : ℕ) (outcome : Outcome) : Pull :=
  { pull with outcomes := pull.outcomes.setIfInBounds i { outcome with tier := delivered } }

/-- `Deliver` hands one undelivered outcome to the buyer; the last one closes the pull. -/
structure Deliver.Effect (a : DeliverAccounts) (d : DeliverInstructionData) (pool : Pool)
    (index : List UInt8) (pull : Pull) (outcome : Outcome) (L L' : Ledger) : Prop where
  loaded : L a.pool.key = .pool pool index
  loadedPull : L a.pull.key = .pull pull
  samePool : pull.pool = a.pool.key
  settled : pull.status = statusSettled
  buyer : pull.buyer = a.buyer.key
  inCount : d.outcome.toNat < pull.count.toNat
  recorded : pull.outcomes[d.outcome.toNat]? = some outcome
  undelivered : outcome.tier ≠ delivered
  asset : outcome.asset = a.asset.key
  ledger : ∃ asset all, L a.asset.key = .asset asset ∧ asset.owner = a.pool.key ∧
    (pull.marked d.outcome.toNat outcome).allDelivered = .ok all ∧
    L' = Function.update (Function.update L a.asset.key (.asset { asset with owner := a.buyer.key }))
      a.pull.key (if all then .vacant else .pull (pull.marked d.outcome.toNat outcome))

/-- What the handler checks of its accounts. -/
theorem DeliverAccounts.of_tryFrom {w : World} {infos : List AccountInfo} {a : DeliverAccounts}
    (h : DeliverAccounts.tryFrom w infos = .ok a) : ∃ pool pull, Pool.load (w.account a.pool) = .ok pool ∧
      Pull.load (w.account a.pull) = .ok pull ∧ pull.pool = a.pool.key ∧ pull.status = statusSettled ∧
        pull.buyer = a.buyer.key := by
  unfold tryFrom at h
  split at h
  · simp only [bind_eq_ok, failIf_eq_ok, pure_eq_ok, not_not] at h
    obtain ⟨_, -, _, -, pool, hload, pull, hpull, _, hsame, _, hstatus, _, hbuyer, rfl⟩ := h
    exact ⟨pool, pull, hload, hpull, hsame, hstatus, hbuyer⟩
  · cases h

theorem Deliver.process_ok {rt : Runtime} (hrt : rt.Lawful) {w w' : World} {infos : List AccountInfo}
    {a : DeliverAccounts} {d : DeliverInstructionData} (ha : DeliverAccounts.tryFrom w infos = .ok a)
    (h : Deliver.process rt w a d = .ok w') :
    w.SameClock w' ∧ ∃ pool index pull outcome,
      Deliver.Effect a d pool index pull outcome w.ledger w'.ledger := by
  simp only [Deliver.process, bind_eq_ok, failIf_eq_ok, not_not, not_le, Pull.outcome, okOr_eq_ok,
    Pull.markDelivered, pure_eq_ok] at h
  obtain ⟨pull, hpull, _, hlt, outcome, houtcome, _, hundelivered, _, hasset, pool, hload, w1, htransfer,
    marked, ⟨outcome', houtcome', rfl⟩, all, hall, accounts, hclose, hemit⟩ := h
  obtain rfl : outcome = outcome' := Option.some.inj (houtcome.symm.trans houtcome')
  have hpool := World.pool_load hload
  have hpull' := World.pull_load hpull
  obtain ⟨-, pullData, -, hpullData, hsame, hstatus, hbuyer⟩ := DeliverAccounts.of_tryFrom ha
  obtain rfl : pull = pullData := Except.ok.inj (hpull.symm.trans hpullData)
  obtain ⟨asset, hclock1, hentry, howner, hledger1, -⟩ := Runtime.transferAsset_ok hrt htransfer
  simp only at hentry howner hledger1
  have hne := Ledger.ne_of_entry hentry hpull' (by simp)
  have hpull1 := congrFun hledger1 a.pull.key
  rw [Function.update_of_ne hne.symm, hpull'] at hpull1
  have hledger2 := World.ledger_store_pull (pull.marked d.outcome.toNat outcome) hpull1 rfl
  rw [hledger1] at hledger2
  obtain ⟨hclock2, hledger3⟩ := Runtime.emit_ok hemit
  have hclock : w.SameClock w' := hclock1.trans (World.SameClock.trans ⟨rfl, rfl⟩ hclock2)
  refine ⟨hclock, pool, _, pull, outcome, hpool, hpull', hsame, hstatus, hbuyer, hlt, houtcome,
    hundelivered, hasset, asset, all, hentry, howner, hall, ?_⟩
  rw [hledger3]
  cases all with
  | true =>
    refine (close_ok hclose).trans ?_
    have hclosed := congrArg (fun L : Ledger => Function.update L a.pull.key .vacant) hledger2
    refine hclosed.trans ?_
    simp only [Function.update_idem, if_true]
  | false =>
    obtain rfl := Except.ok.inj hclose
    exact hledger2

/-! ## Calls -/

/-- What a call that succeeds does to the ledger. -/
def Call.Effect (rt : Runtime) (slot : UInt64) (time : Int64) (L L' : Ledger) : Call → Prop
  | createPool a d => CreatePool.Effect rt a d L L'
  | depositItem a d => ∃ pool index, DepositItem.Effect rt a d pool index L L'
  | withdraw a d => ∃ pool index, Withdraw.Effect rt a d pool index L L'
  | setStatus a d => ∃ pool index, SetStatus.Effect a d pool index L L'
  | reclaim a => ∃ pool index item, Reclaim.Effect a pool index item L L'
  | buy a d => ∃ pool index pull, Buy.Effect rt slot a d pool index pull L L'
  | refund a => ∃ pool index pull, Refund.Effect rt slot a pool index pull L L'
  | buyback a d => ∃ pool index, Buyback.Effect rt time a d pool index L L'
  | settle a d => ∃ pool index pull beta awards,
      Settle.Effect rt slot a d pool index pull beta awards L L'
  | deliver a d => ∃ pool index pull outcome, Deliver.Effect a d pool index pull outcome L L'
  | event => L' = L

/-- Every call has its effect, and no call moves the clock. -/
theorem Call.process_ok {rt : Runtime} (hrt : rt.Lawful) {w w' : World} (hL : w.ledger.Counted)
    {infos : List AccountInfo} {call : Call} (hchecked : call.Checked w infos)
    (h : call.process rt w = .ok w') :
    w.SameClock w' ∧ call.Effect rt w.slot w.unixTimestamp w.ledger w'.ledger := by
  cases call with
  | createPool a d =>
    obtain ⟨ha, data, hd⟩ := hchecked
    exact CreatePool.process_ok hrt ha hd h
  | depositItem a d => exact DepositItem.process_ok hrt hchecked.1 h
  | withdraw a d => exact Withdraw.process_ok hrt hchecked.1 h
  | setStatus a d =>
    obtain ⟨ha, data, hd⟩ := hchecked
    exact SetStatus.process_ok ha hd h
  | reclaim a => exact Reclaim.process_ok hrt hL hchecked h
  | buy a d =>
    obtain ⟨ha, data, hd⟩ := hchecked
    exact Buy.process_ok hrt ha hd h
  | refund a => exact Refund.process_ok hrt hchecked h
  | buyback a d =>
    obtain ⟨ha, data, hd⟩ := hchecked
    exact Buyback.process_ok hrt ha hd h
  | settle a d => exact Settle.process_ok hL hchecked.1 h
  | deliver a d => exact Deliver.process_ok hrt hchecked.1 h
  | event =>
    obtain rfl := pure_eq_ok.mp h
    exact ⟨.refl w, rfl⟩

end SolanaGacha
