import SolanaGacha.Banner.Refine

/-!
# The steps of the instructions

One theorem for each instruction: its effect on the ledger is a step of every banner. They are collected
in `Call.Effect.banner`.
-/

namespace SolanaGacha

open Except Layout Inventory

section Calls

variable {rt : Runtime} {L L' : Ledger} (hV : L.Vaults rt) {slot : UInt64} (P : Pubkey)

/-! ## Admin -/

/-- A fresh pool is valid, and counts an empty index right. -/
theorem CreatePool.Effect.fresh {a : CreatePoolAccounts} {d : CreatePoolInstructionData}
    (h : CreatePool.Effect rt a d L L') : ∃ pool, L' = Function.update L a.pool.key (.pool pool []) ∧
      pool.Valid rt a.pool.key ∧ Stock pool [] [] ∧
        pool.pendingDraws = 0 ∧ pool.nextIndex = 0 ∧ pool.nextSettle = 0 := by
  obtain ⟨hversion, hpending, hnext, hsettle⟩ := Pool.zero_counters
  have hlen : (d.weights.toList.take d.tierCount.toNat).length = d.tierCount.toNat := by
    rw [List.length_take, Vector.length_toList]
    exact min_eq_left h.valid.tierCount.2
  generalize hpool : Pool.fresh d.bump a.authority.key a.operator.key a.paymentMint.key a.vault.key d.id
    d.price d.deadlineSlots d.bondPerDraw (d.weights.toList.take d.tierCount.toNat) = pool
  have htiers : pool.tierCount.toNat = d.tierCount.toNat := by
    rw [← hpool, Pool.fresh, Pool.setInner, hlen]
    exact UInt8.toNat_ofNat_of_lt' d.tierCount.toNat_lt
  have hledger := h.ledger
  rw [hpool] at hledger
  refine ⟨pool, hledger, ⟨hpool ▸ h.derived, hpool ▸ h.vault, htiers ▸ h.valid.tierCount, ?_,
    hpool ▸ h.valid.price, hpool ▸ h.valid.bondPerDraw, hpool ▸ h.valid.deadlineSlots,
    hpool ▸ h.valid.refund, hpool ▸ (by decide : poolPaused ≤ poolRetired)⟩,
    ⟨indexed_nil, ?_, htiers ▸ h.valid.tierCount.2, by simp, fun t ht => ?_⟩, hpool ▸ hpending,
    hpool ▸ hnext, hpool ▸ hsettle⟩
  · -- Tier number `t` has weight number `t`, and both are in use.
    intro tier hmem
    obtain ⟨t, ht, rfl⟩ := List.getElem_of_mem hmem
    have hlt : t < (d.weights.toList.take d.tierCount.toNat).length := by
      rw [List.length_take, htiers] at ht
      rw [hlen]
      exact ht.trans_le (min_le_left _ _)
    have ht8 : t < 8 := (hlen ▸ hlt).trans_le h.valid.tierCount.2
    have htier := Pool.fresh_tier d.bump a.authority.key a.operator.key a.paymentMint.key a.vault.key d.id
      d.price d.deadlineSlots d.bondPerDraw (d.weights.toList.take d.tierCount.toNat) ht8
    rw [hpool, List.getElem?_eq_getElem hlt, Option.getD_some] at htier
    rw [List.getElem_take, Vector.getElem_toList, htier]
    exact h.valid.weights _ (List.getElem_mem hlt)
  · rw [← hpool]
    show 0 = Pool.zero.inventoryVersion.toNat
    rw [hversion]
    rfl
  · rw [← hpool, Pool.fresh_tier]
    rfl

theorem CreatePool.Effect.banner {a : CreatePoolAccounts} {d : CreatePoolInstructionData}
    (h : CreatePool.Effect rt a d L L') : Banner.Step rt slot P (L.banner P) .idle (L'.banner P) := by
  obtain ⟨pool, rfl, hvalid, hstock, hcounters⟩ := h.fresh
  have hreads : ∀ k, (Function.update L a.pool.key (.pool pool []) k).item? P = (L k).item? P ∧
      (Function.update L a.pool.key (.pool pool []) k).pull? P = (L k).pull? P := fun k =>
    ⟨Ledger.read_update (Entry.item? P) (by rw [h.vacant]; rfl) k,
      Ledger.read_update (Entry.pull? P) (by rw [h.vacant]; rfl) k⟩
  by_cases hP : P = a.pool.key
  · subst hP
    refine .create ?_ hvalid hstock hcounters ?_ (funext fun k => (hreads k).1)
      (funext fun k => (hreads k).2)
    · show (L a.pool.key).pool? = none
      rw [h.vacant]
      rfl
    · rw [Ledger.banner_update_pool, if_pos rfl]
      rfl
  · have hbooks := Ledger.sameBooks_of_reads (P := P)
      (by rw [Function.update_of_ne hP]) hreads
    refine .idle hbooks (Ledger.keepsAssets_of_eq fun k => ?_)
      (Ledger.keepsReserve_of_le hbooks.pool fun pool index _ => Eq.ge ?_)
    · exact iff_of_eq (Ledger.read_update (Entry.OwnedBy P) (by rw [h.vacant]; rfl) k)
    · exact Ledger.read_update Entry.balance (by rw [h.vacant]; rfl) _

include hV

theorem DepositItem.Effect.banner {a : DepositItemAccounts} {d : DepositItemInstructionData} {pool : Pool}
    {index : List UInt8} (h : DepositItem.Effect rt a d pool index L L')
    (hgiver : ¬rt.IsPda a.authority.key) :
    Banner.Step rt slot P (L.banner P) (if a.pool.key = P then .restock (tierTag d.tier.toNat) else .idle)
      (L'.banner P) := by
  have hr := h.restocks
  split_ifs with hP
  · subst hP
    have hne : a.authority.key ≠ a.pool.key := fun heq =>
      hgiver (heq ▸ (hV.valid hr.loaded).isPda)
    obtain ⟨pool', index', -, hrestocked, -, -, hQ, -⟩ := hr.entries
    obtain ⟨tiers, rfl, -⟩ := hrestocked.header
    refine hr.step hne (.refl _) rfl (.inl (Eq.ge ?_))
    exact Ledger.vault_eq hr.loaded hQ rfl (hr.sameTokens.balance _)
  · have hbooks := hr.sameBooks (Ne.symm hP)
    refine .idle hbooks (hr.keepsAssets fun hpool heq => ?_)
      (Ledger.keepsReserve_of_le hbooks.pool fun pool index _ => (hr.sameTokens.balance _).ge)
    obtain ⟨⟨pool', index'⟩, hsome⟩ := Option.isSome_iff_exists.mp hpool
    exact hgiver (heq ▸ (hV.valid (Ledger.banner_pool.mp hsome)).isPda)

theorem Withdraw.Effect.banner {a : WithdrawAccounts} {d : WithdrawInstructionData} {pool : Pool}
    {index : List UInt8} (h : Withdraw.Effect rt a d pool index L L') :
    Banner.Step rt slot P (L.banner P) .idle (L'.banner P) := by
  by_cases hP : P = a.pool.key
  · subst hP
    have hbooks := h.paid.sameBooks a.pool.key
    have hnew := Ledger.banner_pool.mp (hbooks.pool.trans (Ledger.banner_pool.mpr h.loaded))
    obtain ⟨token, reserved, htoken, hreserved, hsurplus⟩ := h.surplus
    refine .idle hbooks (fun _ => (h.paid.assets _).ge) (.inr ?_)
    have hle := h.paid.balance_le_add a.vault.key
    rw [htoken] at hle
    rw [Ledger.banner_reserve hnew, Ledger.banner_vault hnew, h.vault,
      (Pool.refundAmount_eq_ok.mp hreserved).2]
    simp only [Entry.balance] at hle ⊢
    omega
  · have hbooks := h.paid.sameBooks P
    exact .idle hbooks (fun _ => (h.paid.assets P).ge)
      (h.paid.keepsReserve hV (fun _ => rfl) (fun _ => hP) hbooks.pool)

omit hV in
theorem SetStatus.Effect.banner {a : SetStatusAccounts} {d : SetStatusInstructionData} {pool : Pool}
    {index : List UInt8} (h : SetStatus.Effect a d pool index L L') :
    Banner.Step rt slot P (L.banner P) .idle (L'.banner P) := by
  have hledger := h.ledger
  generalize hpool' : ({ pool with status := d.status } : Pool) = pool' at hledger
  subst hledger
  have hreads : ∀ k, (Function.update L a.pool.key (.pool pool' index) k).item? P = (L k).item? P ∧
      (Function.update L a.pool.key (.pool pool' index) k).pull? P = (L k).pull? P := fun k =>
    ⟨Ledger.read_update (Entry.item? P) (by rw [h.loaded]; rfl) k,
      Ledger.read_update (Entry.pull? P) (by rw [h.loaded]; rfl) k⟩
  have hassets : (L.banner P).KeepsAssets
      (Ledger.banner (Function.update L a.pool.key (.pool pool' index)) P) :=
    Ledger.keepsAssets_of_eq fun k => iff_of_eq
      (Ledger.read_update (Entry.OwnedBy P) (by rw [h.loaded]; rfl) k)
  have hbalance : ∀ v, (Function.update L a.pool.key (.pool pool' index) v).balance = (L v).balance :=
    Ledger.read_update Entry.balance (by rw [h.loaded]; rfl)
  by_cases hP : P = a.pool.key
  · subst hP
    have hnew : Function.update L a.pool.key (.pool pool' index) a.pool.key = .pool pool' index :=
      Function.update_self _ _ _
    refine .setStatus (Ledger.banner_pool.mpr h.loaded) h.status h.terminal
      ((Ledger.banner_pool.mpr hnew).trans (by rw [← hpool'])) (funext fun k => (hreads k).1)
      (funext fun k => (hreads k).2) hassets (.inl (Eq.ge ?_))
    exact Ledger.vault_eq h.loaded hnew (by rw [← hpool']) (hbalance _)
  · have hbooks := Ledger.sameBooks_of_reads (P := P) (by rw [Function.update_of_ne hP]) hreads
    exact .idle hbooks hassets
      (Ledger.keepsReserve_of_le hbooks.pool fun pool index _ => (hbalance _).ge)

omit hV in
theorem Reclaim.Effect.banner {a : ReclaimAccounts} {pool : Pool} {index : List UInt8} {item : Item}
    (h : Reclaim.Effect a pool index item L L') :
    Banner.Step rt slot P (L.banner P)
      (if a.pool.key = P then .withdraw (L.position a.item.key) else .idle) (L'.banner P) := by
  obtain ⟨tiers, index', asset, hweights, hstock, hasset, howner, hledger⟩ := h.ledger
  have hposition : L.position a.item.key = item.position.toNat := by rw [Ledger.position, h.loadedItem]
  generalize hpool' : ({ pool with tiers } : Pool) = pool' at hledger hstock
  subst hledger
  have h1 := Ledger.ne_of_entry h.loaded hasset (by simp)
  have h2 := Ledger.ne_of_entry h.loaded h.loadedItem (by simp)
  have h3 := Ledger.ne_of_entry hasset h.loadedItem (by simp)
  generalize hL' : Function.update (Function.update (Function.update L a.pool.key (.pool pool' index'))
    a.asset.key (.asset { asset with owner := a.authority.key })) a.item.key .vacant = L'
  -- What a banner reads of the three accounts.
  have hread : ∀ {β : Type} (f : Entry → β), f (.pool pool' index') = f (.pool pool index) →
      f (.asset { asset with owner := a.authority.key }) = f (.asset asset) → f .vacant = f (.item item) →
        ∀ k, f (L' k) = f (L k) := by
    intro β f hf1 hf2 hf3 k
    rw [← hL']
    exact Ledger.read_update₃ f (by rw [h.loaded, hf1]) (by rw [hasset, hf2])
      (by rw [h.loadedItem, hf3]) k
  have htokens : L.SameTokens L' := hread Entry.token? rfl rfl rfl
  have hpulls : ∀ k, (L' k).pull? P = (L k).pull? P := hread (Entry.pull? P) rfl rfl rfl
  have hQ : L' a.pool.key = .pool pool' index' := by
    rw [← hL', Function.update_of_ne h2, Function.update_of_ne h1, Function.update_self]
  have hI : L' a.item.key = .vacant := by rw [← hL', Function.update_self]
  have hrest : ∀ k, k ≠ a.pool.key → k ≠ a.item.key → k ≠ a.asset.key → L' k = L k := by
    intro k hk1 hk2 hk3
    rw [← hL', Function.update_of_ne hk2, Function.update_of_ne hk3, Function.update_of_ne hk1]
  have hkeep : ∀ k, k ≠ a.asset.key → (L k).OwnedBy P → (L' k).OwnedBy P := by
    intro k hk hown
    rw [hrest k _ _ hk]
    · exact hown
    · rintro rfl
      rw [h.loaded] at hown
      exact hown
    · rintro rfl
      rw [h.loadedItem] at hown
      exact hown
  split_ifs with hP
  · subst hP
    rw [hposition]
    refine .reclaim (Ledger.banner_pool.mpr h.loaded) h.settled
      (Ledger.banner_items.mpr ⟨h.loadedItem, h.samePool⟩) hweights (hpool' ▸ hstock)
      ((Ledger.banner_pool.mpr hQ).trans (by rw [← hpool'])) ?_ (funext hpulls) ?_ (.inl (Eq.ge ?_))
    · funext k
      show (L' k).item? _ = Function.update (L.banner a.pool.key).items a.item.key none k
      rw [Function.update_apply]
      split_ifs with hk
      · rw [hk, hI]
        rfl
      · show (L' k).item? _ = (L k).item? _
        rw [← hL', Function.update_of_ne hk]
        exact Ledger.read_update₂ (Entry.item? a.pool.key) (by rw [h.loaded]; rfl) (by rw [hasset]; rfl) k
    · rintro k ⟨hk, hne⟩
      refine hkeep k ?_ hk
      rintro rfl
      exact hne h.sameAsset.symm
    · exact Ledger.vault_eq h.loaded hQ (by rw [← hpool']) (htokens.balance _)
  · have hitems : ∀ k, (L' k).item? P = (L k).item? P :=
      hread (Entry.item? P) rfl rfl (if_neg (h.samePool ▸ hP)).symm
    have hpool : (L' P).pool? = (L P).pool? := by
      rw [← hL', Ledger.read_update₂ Entry.pool? (L := Function.update L a.pool.key (.pool pool' index'))
        (by rw [Function.update_of_ne h1.symm, hasset]; rfl)
        (by rw [Function.update_of_ne h2.symm, h.loadedItem]; rfl), Function.update_of_ne (Ne.symm hP)]
    have hbooks := Ledger.sameBooks_of_reads hpool fun k => ⟨hitems k, hpulls k⟩
    refine .idle hbooks (fun _ k hk => hkeep k ?_ hk)
      (Ledger.keepsReserve_of_le hbooks.pool fun pool index _ => (htokens.balance _).ge)
    rintro rfl
    have hown : (L a.asset.key).OwnedBy P := hk
    rw [hasset] at hown
    exact hP (howner.symm.trans hown)

/-! ## Player -/

omit hV in
/-- A Pull that `Buy` created. -/
theorem Buy.Effect.valid {a : BuyAccounts} {d : BuyInstructionData} {pool : Pool}
    {index : List UInt8} {pull : Pull} (h : Buy.Effect rt slot a d pool index pull L L')
    (hgiver : ¬rt.IsPda a.buyer.key) : pull.Valid rt a.pool.key a.pull.key ∧
      pull.status = statusPending ∧ pull.index = pool.nextIndex ∧ pull.count = d.count ∧
        pull.inventoryVersion = pool.inventoryVersion := by
  have hcount : pull.count = d.count := congrArg Pull.count h.populated
  have hstatus : pull.status = statusPending := congrArg Pull.status h.populated
  have hbuyer : pull.buyer = a.buyer.key := congrArg Pull.buyer h.populated
  refine ⟨⟨congrArg Pull.pool h.populated, ?_, hcount ▸ h.count, ?_, hbuyer ▸ hgiver, ?_⟩, hstatus,
    congrArg Pull.index h.populated, hcount, congrArg Pull.inventoryVersion h.populated⟩
  · rw [congrArg Pull.clientSeed h.populated, congrArg Pull.bump h.populated]
    exact h.derived
  · rw [hstatus]
    decide
  · rw [hstatus]
    intro hsettled
    exact absurd hsettled (by decide)

omit hV in
/-- The purchase is a new Pull. -/
theorem Buy.Effect.pulls {a : BuyAccounts} {d : BuyInstructionData} {pool : Pool} {index : List UInt8}
    {pull : Pull} (h : Buy.Effect rt slot a d pool index pull L L') : (L'.banner a.pool.key).pulls =
      Function.update (L.banner a.pool.key).pulls a.pull.key (some pull) := by
  obtain ⟨pendingDraws, nextIndex, amount, reserved, token, left, -, -, -, -, -, -, -, -, hpaid⟩ := h.ledger
  have hne := Ledger.ne_of_entry h.vacant h.loaded (by simp)
  have hown : (Entry.pull pull).pull? a.pool.key = some pull :=
    Entry.pull?_eq_some.mpr ⟨rfl, congrArg Pull.pool h.populated⟩
  rw [(hpaid.sameBooks a.pool.key).pulls, Ledger.banner_update_pulls, Ledger.banner_update_pulls,
    Function.update_comm hne, hown]
  congr 1
  refine Function.update_eq_self_iff.mpr ?_
  show none = (L a.pool.key).pull? _
  rw [h.loaded]
  rfl

theorem Buy.Effect.banner {a : BuyAccounts} {d : BuyInstructionData} {pool : Pool}
    {index : List UInt8} {pull : Pull} (h : Buy.Effect rt slot a d pool index pull L L')
    (hgiver : ¬rt.IsPda a.buyer.key) :
    Banner.Step rt slot P (L.banner P) (if a.pool.key = P then
      .reserve ⟨a.pull.key, d.count.toNat, d.inventoryVersion.toNat⟩ else .idle) (L'.banner P) := by
  obtain ⟨hvalid, hpending, hplace, hcount, hversion⟩ := h.valid hgiver
  obtain ⟨pendingDraws, nextIndex, amount, reserved, token, left, hdraws, hnext, hleft, hstock, -,
    hreserved, htoken, hcovered, hpaid⟩ := h.ledger
  have hticket : (⟨a.pull.key, d.count.toNat, d.inventoryVersion.toNat⟩ : Ticket) =
      pull.ticket a.pull.key := by rw [Pull.ticket, hcount, hversion, h.current]
  have hne := Ledger.ne_of_entry h.vacant h.loaded (by simp)
  generalize hpool' : ({ pool with pendingDraws, nextIndex } : Pool) = pool' at hpaid
  generalize hM : Function.update (Function.update L a.pull.key (.pull pull)) a.pool.key
    (.pool pool' index) = M at hpaid
  have hread : ∀ {β : Type} (f : Entry → β), f (.pull pull) = f .vacant →
      f (.pool pool' index) = f (.pool pool index) → ∀ k, f (M k) = f (L k) := by
    intro β f hf1 hf2 k
    rw [← hM]
    exact Ledger.read_update₂ f (by rw [h.vacant, hf1]) (by rw [h.loaded, hf2]) k
  have htokens : L.SameTokens M := hread Entry.token? rfl rfl
  have hitems : ∀ k, (M k).item? P = (L k).item? P := hread (Entry.item? P) rfl rfl
  have hassets : ∀ k, (M k).OwnedBy P ↔ (L k).OwnedBy P := fun k =>
    iff_of_eq (hread (Entry.OwnedBy P) rfl rfl k)
  have hQ : M a.pool.key = .pool pool' index := by rw [← hM, Function.update_self]
  have hbooks := hpaid.sameBooks P
  have hkeeps : (L.banner P).KeepsAssets (L'.banner P) := by
    intro hpool k hk
    rw [hpaid.assets P]
    exact (hassets k).mpr hk
  split_ifs with hP
  · subst hP
    have hQ' := Ledger.banner_pool.mp (hbooks.pool.trans (Ledger.banner_pool.mpr hQ))
    rw [hticket]
    refine .buy (Ledger.banner_pool.mpr h.loaded) ?_ hvalid hpending hplace hversion h.deadline
      (hcount ▸ hdraws) hnext hleft hstock ((Ledger.banner_pool.mpr hQ').trans (by rw [← hpool']))
      (hbooks.items.trans (funext hitems)) h.pulls hkeeps ?_
    · show (L a.pull.key).pull? _ = none
      rw [h.vacant]
      rfl
    · -- The buyer is no PDA, so the payment comes from outside of the vault.
      have hsource : a.buyerAta.key ≠ a.vault.key := by
        intro heq
        obtain ⟨s, -, hs, -, -, hauthority, -⟩ := id hpaid
        rw [heq, htokens.token, ← h.vault] at hs
        obtain ⟨hpda, -⟩ := hV.owner h.loaded hs
        exact hgiver (hauthority hpda ▸ hpda)
      have hbalance := hpaid.balance_destination hsource
      have htoken' : (M a.vault.key).balance = token.amount.toNat := by
        rw [htokens.balance, htoken]
        rfl
      have hvault : pool'.vault = a.vault.key := by rw [← hpool', h.vault]
      have hreserve : (pool'.price.toNat + pool'.bondPerDraw.toNat) * pool'.pendingDraws.toNat =
          reserved.toNat := by rw [← hpool', ← (Pool.refundAmount_eq_ok.mp hreserved).2]
      rw [Ledger.banner_reserve hQ', Ledger.banner_vault hQ', hvault, hreserve, hbalance]
      omega
  · have hpulls : ∀ k, (M k).pull? P = (L k).pull? P :=
      hread (Entry.pull? P) (if_neg (hvalid.pool ▸ hP)) rfl
    have hpool : (M P).pool? = (L P).pool? := by
      rw [← hM, Function.update_of_ne (Ne.symm hP)]
      exact Ledger.read_update Entry.pool? (by rw [h.vacant]; rfl) P
    have hbooks' := (Ledger.sameBooks_of_reads hpool fun k => ⟨hitems k, hpulls k⟩).trans hbooks
    refine .idle hbooks' hkeeps (hpaid.keepsReserve hV htokens (fun hsome => ?_) hbooks'.pool)
    rintro rfl
    obtain ⟨⟨pool, index⟩, hsome⟩ := Option.isSome_iff_exists.mp hsome
    exact hgiver (hV.valid (Ledger.banner_pool.mp hsome)).isPda

omit hV in
/-- The Pull is closed. -/
theorem Refund.Effect.pulls {a : RefundAccounts} {pool : Pool} {index : List UInt8} {pull : Pull}
    (h : Refund.Effect rt slot a pool index pull L L') : (L'.banner a.pool.key).pulls =
      Function.update (L.banner a.pool.key).pulls a.pull.key none := by
  obtain ⟨amount, pendingDraws, nextSettle, M, -, -, -, hpaid, rfl⟩ := h.ledger
  rw [Ledger.banner_update_pulls, (hpaid.sameBooks a.pool.key).pulls]
  congr 1
  exact funext (Ledger.read_update (Entry.pull? a.pool.key) (by rw [h.loaded]; rfl))

theorem Refund.Effect.banner {a : RefundAccounts} {pool : Pool} {index : List UInt8}
    {pull : Pull} (h : Refund.Effect rt slot a pool index pull L L') :
    Banner.Step rt slot P (L.banner P) (if a.pool.key = P then .cancel else .idle) (L'.banner P) := by
  obtain ⟨amount, pendingDraws, nextSettle, M, hamount, hdraws, hnext, hpaid, rfl⟩ := h.ledger
  generalize hpool' : ({ pool with pendingDraws, nextSettle } : Pool) = pool' at hpaid
  have hne := Ledger.ne_of_entry h.loadedPull h.loaded (by simp)
  have hread : ∀ {β : Type} (f : Entry → β), f (.pool pool' index) = f (.pool pool index) →
      ∀ k, f (Function.update L a.pool.key (.pool pool' index) k) = f (L k) := fun f hf =>
    Ledger.read_update f (by rw [h.loaded, hf])
  have htokens : L.SameTokens (Function.update L a.pool.key (.pool pool' index)) :=
    hread Entry.token? rfl
  have hbooks := hpaid.sameBooks P
  have hM : M a.pull.key = .pull pull :=
    hpaid.of_pull (by rw [Function.update_of_ne hne, h.loadedPull])
  have hclose : ∀ {β : Type} (f : Entry → β), f .vacant = f (.pull pull) →
      ∀ k, f (Function.update M a.pull.key .vacant k) = f (M k) := fun f hf =>
    Ledger.read_update f (by rw [hM, hf])
  have hitems : ∀ k, (Function.update M a.pull.key .vacant k).item? P = (L k).item? P := fun k =>
    (hclose (Entry.item? P) rfl k).trans ((congrFun hbooks.items k).trans (hread (Entry.item? P) rfl k))
  have hkeeps : (L.banner P).KeepsAssets (Ledger.banner (Function.update M a.pull.key .vacant) P) := by
    refine Ledger.keepsAssets_of_eq fun k => (iff_of_eq (hclose (Entry.OwnedBy P) rfl k)).trans ?_
    have hassets := Set.ext_iff.mp (hpaid.assets P) k
    exact hassets.trans (iff_of_eq (hread (Entry.OwnedBy P) rfl k))
  split_ifs with hP
  · subst hP
    have hQ : M a.pool.key = .pool pool' index := Ledger.banner_pool.mp
      (hbooks.pool.trans (Ledger.banner_pool.mpr (Function.update_self _ _ _)))
    have hQ' : Function.update M a.pull.key .vacant a.pool.key = .pool pool' index := by
      rw [Function.update_of_ne hne.symm, hQ]
    refine .refund (Ledger.banner_pool.mpr h.loaded)
      (Ledger.banner_pulls.mpr ⟨h.loadedPull, h.samePool⟩) h.pending h.head h.expired hdraws hnext
      ((Ledger.banner_pool.mpr hQ').trans (by rw [← hpool'])) (funext hitems) h.pulls hkeeps ?_
    · have hcount : pull.count.toUInt64.toNat = pull.count.toNat := UInt8.toNat_toUInt64 _
      have hvault : pool'.vault = pool.vault := by rw [← hpool']
      have hle := hpaid.balance_le_add pool.vault
      rw [htokens.balance, ← hclose Entry.balance rfl,
        ← (Pool.refundAmount_eq_ok.mp hamount).2, hcount] at hle
      rw [Ledger.banner_vault h.loaded, Ledger.banner_vault hQ', hvault]
      exact hle
  · have hpulls : ∀ k, (Function.update M a.pull.key .vacant k).pull? P = (L k).pull? P := fun k =>
      (hclose (Entry.pull? P) (if_neg (h.samePool ▸ hP)).symm k).trans
        ((congrFun hbooks.pulls k).trans (hread (Entry.pull? P) rfl k))
    have hpool : (Function.update M a.pull.key .vacant P).pool? = (L P).pool? := by
      refine (hclose Entry.pool? rfl P).trans (hbooks.pool.trans ?_)
      rw [Ledger.banner_update_pool, if_neg (Ne.symm hP)]
      rfl
    have hbooks' := Ledger.sameBooks_of_reads hpool fun k => ⟨hitems k, hpulls k⟩
    refine .idle hbooks' hkeeps (Ledger.keepsReserve_of_le hbooks'.pool fun pool₁ index₁ hpool₁ => ?_)
    rw [hclose Entry.balance rfl, ← htokens.balance]
    refine hpaid.balance_le fun token ht => ?_
    obtain ⟨hpda, howner⟩ := hV.owner hpool₁ (htokens.token.mp ht)
    exact ⟨hpda, howner ▸ Ne.symm hP⟩

theorem Buyback.Effect.banner {time : Int64} {a : BuybackAccounts} {d : BuybackInstructionData} {pool : Pool}
    {index : List UInt8} (h : Buyback.Effect rt time a d pool index L L')
    (hgiver : ¬rt.IsPda a.seller.key) :
    Banner.Step rt slot P (L.banner P) (if a.pool.key = P then .restock (tierTag d.tier.toNat) else .idle)
      (L'.banner P) := by
  obtain ⟨M, hr, hpaid⟩ := h.ledger
  have hbooks := hpaid.sameBooks P
  split_ifs with hP
  · subst hP
    have hne : a.seller.key ≠ a.pool.key := fun heq => hgiver (heq ▸ (hV.valid hr.loaded).isPda)
    refine hr.step hne hbooks (hpaid.assets _) (.inr ?_)
    obtain ⟨pool', index', -, hrestocked, -, -, hQ, -⟩ := hr.entries
    have hQ' := Ledger.banner_pool.mp (hbooks.pool.trans (Ledger.banner_pool.mpr hQ))
    obtain ⟨tiers, rfl, -⟩ := hrestocked.header
    obtain ⟨token, reserved, htoken, hreserved, hsurplus⟩ := h.surplus
    have hle := hpaid.balance_le_add a.vault.key
    rw [hr.sameTokens.balance, htoken] at hle
    rw [Ledger.banner_reserve hQ', Ledger.banner_vault hQ', h.vault,
      (Pool.refundAmount_eq_ok.mp hreserved).2]
    simp only [Entry.balance] at hle ⊢
    omega
  · have hbooks' := (hr.sameBooks (Ne.symm hP)).trans hbooks
    have hother : (L.banner P).pool.isSome → a.seller.key ≠ P := by
      intro hpool heq
      obtain ⟨⟨pool', index'⟩, hsome⟩ := Option.isSome_iff_exists.mp hpool
      exact hgiver (heq ▸ (hV.valid (Ledger.banner_pool.mp hsome)).isPda)
    refine .idle hbooks' (fun hpool => ?_)
      (hpaid.keepsReserve hV hr.sameTokens (fun _ => Ne.symm hP) hbooks'.pool)
    rw [hpaid.assets P]
    exact hr.keepsAssets hother hpool

/-! ## Operator -/

omit hV in
/-- The Pull records the awards. -/
theorem Settle.Effect.pulls {a : SettleAccounts} {d : SettleInstructionData} {pool : Pool}
    {index : List UInt8} {pull : Pull} {beta : FixedBytes 64} {awards : List Award}
    (h : Settle.Effect rt slot a d pool index pull beta awards L L') : (L'.banner a.pool.key).pulls =
      Function.update (L.banner a.pool.key).pulls a.pull.key (some { pull with
        status := statusSettled, outcomes := recordAwards pull.outcomes 0 awards }) := by
  obtain ⟨tiers, index', pendingDraws, nextSettle, -, -, -, -, rfl⟩ := h.ledger
  have hnone : ∀ k ∈ awards.map Award.account, (L k).pull? a.pool.key = none := by
    intro k hk
    obtain ⟨award, haward, rfl⟩ := List.mem_map.mp hk
    rw [(h.item award haward).1]
    rfl
  have hown : (Entry.pull { pull with
      status := statusSettled, outcomes := recordAwards pull.outcomes 0 awards }).pull? a.pool.key =
        some { pull with status := statusSettled, outcomes := recordAwards pull.outcomes 0 awards } :=
    Entry.pull?_eq_some.mpr ⟨rfl, h.samePool⟩
  rw [Ledger.banner_update_pulls, hown]
  congr 1
  funext k
  refine (Ledger.read_update (Entry.pull? a.pool.key) ?_ k).trans
    (Ledger.read_vacate (Entry.pull? a.pool.key) hnone k)
  rw [Ledger.read_vacate (Entry.pull? a.pool.key) hnone, h.loaded]
  rfl

omit hV in
theorem Settle.Effect.banner {a : SettleAccounts} {d : SettleInstructionData} {pool : Pool}
    {index : List UInt8} {pull : Pull} {beta : FixedBytes 64} {awards : List Award}
    (h : Settle.Effect rt slot a d pool index pull beta awards L L') :
    Banner.Step rt slot P (L.banner P) (if a.pool.key = P then
      .award (a.items.map fun item => L.position item.key) else .idle) (L'.banner P) := by
  obtain ⟨tiers, index', pendingDraws, nextSettle, hdraws, hnext, hweights, hstock, hledger⟩ := h.ledger
  have hpositions : (a.items.map fun item => L.position item.key) = Award.positions awards := by
    have hmap := congrArg (List.map L.position) h.accounts
    rw [List.map_map, List.map_map] at hmap
    refine (hmap.symm.trans (List.map_congr_left fun award haward => ?_))
    show L.position award.account = award.item.position.toNat
    rw [Ledger.position, (h.item award haward).1]
  have hlen : awards.length = pull.count.toNat := by
    rw [← h.count, ← List.length_map (f := Award.account), h.accounts, List.length_map]
  have hne := Ledger.ne_of_entry h.loadedPull h.loaded (by simp)
  generalize hpull' : ({ pull with
    status := statusSettled, outcomes := recordAwards pull.outcomes 0 awards } : Pull) = pull' at hledger
  have hsame' : pull'.pool = pull.pool := by rw [← hpull']
  generalize hpool' : ({ pool with tiers, pendingDraws, nextSettle } : Pool) = pool' at hledger hstock
  subst hledger
  generalize hkeys : awards.map Award.account = keys
  have hawarded : ∀ k ∈ keys, ∃ item, L k = .item item ∧ item.pool = a.pool.key := by
    intro k hk
    rw [← hkeys] at hk
    obtain ⟨award, haward, rfl⟩ := List.mem_map.mp hk
    exact ⟨award.item, h.item award haward⟩
  have hother : ∀ {k e}, L k = e → (∀ item, e ≠ .item item) → k ∉ keys := by
    intro k e he hitem hk
    obtain ⟨item, hk, -⟩ := hawarded k hk
    exact hitem item (he.symm.trans hk)
  have hvacated : ∀ {k}, k ∉ keys → L.vacate keys k = L k := fun hk => if_neg hk
  have hread : ∀ {β : Type} (f : Entry → β), f (.pool pool' index') = f (.pool pool index) →
      f (.pull pull') = f (.pull pull) → (∀ k ∈ keys, f (L k) = f .vacant) → ∀ k,
        f (Function.update (Function.update (L.vacate keys) a.pool.key (.pool pool' index')) a.pull.key
          (.pull pull') k) = f (L k) := by
    intro β f hf1 hf2 hf3 k
    have h1 : f (.pool pool' index') = f (L.vacate keys a.pool.key) := by
      rw [hvacated (hother h.loaded (by simp)), h.loaded, hf1]
    have h2 : f (.pull pull') = f (L.vacate keys a.pull.key) := by
      rw [hvacated (hother h.loadedPull (by simp)), h.loadedPull, hf2]
    exact (Ledger.read_update₂ f h1 h2 k).trans (Ledger.read_vacate f hf3 k)
  have hassets : (L.banner P).KeepsAssets (Ledger.banner (Function.update (Function.update
      (L.vacate keys) a.pool.key (.pool pool' index')) a.pull.key (.pull pull')) P) := by
    refine Ledger.keepsAssets_of_eq fun k => iff_of_eq ?_
    refine hread (Entry.OwnedBy P) rfl rfl (fun k hk => ?_) k
    obtain ⟨item, hk, -⟩ := hawarded k hk
    rw [hk]
    rfl
  have htokens : L.SameTokens _ := hread Entry.token? rfl rfl fun k hk => by
    obtain ⟨item, hk, -⟩ := hawarded k hk
    rw [hk]
    rfl
  split_ifs with hP
  · subst hP
    have hQ : Function.update (Function.update (L.vacate keys) a.pool.key (.pool pool' index')) a.pull.key
        (.pull pull') a.pool.key = .pool pool' index' := by
      rw [Function.update_of_ne hne.symm, Function.update_self]
    rw [hpositions]
    refine .settle (Ledger.banner_pool.mpr h.loaded)
      (Ledger.banner_pulls.mpr ⟨h.loadedPull, h.samePool⟩) h.pending h.head h.inTime hdraws hnext
      (fun award haward => Ledger.banner_items.mpr (h.item award haward)) h.nodup hlen h.selected hweights
      (hpool' ▸ hstock) ((Ledger.banner_pool.mpr hQ).trans (by rw [← hpool'])) ?_
      (hkeys ▸ h.pulls) hassets (Eq.ge ?_)
    · funext k
      rw [hkeys]
      have h1 : (Entry.pool pool' index').item? a.pool.key =
          (L.vacate keys a.pool.key).item? a.pool.key := by
        rw [hvacated (hother h.loaded (by simp)), h.loaded]
        rfl
      have h2 : (Entry.pull pull').item? a.pool.key = (L.vacate keys a.pull.key).item? a.pool.key := by
        rw [hvacated (hother h.loadedPull (by simp)), h.loadedPull]
        rfl
      refine (Ledger.read_update₂ (Entry.item? a.pool.key) h1 h2 k).trans ?_
      rw [Ledger.vacate]
      split_ifs <;> rfl
    · exact Ledger.vault_eq h.loaded hQ (by rw [← hpool']) (htokens.balance _)
  · have hbooks : (L.banner P).SameBooks (Ledger.banner (Function.update (Function.update
      (L.vacate keys) a.pool.key (.pool pool' index')) a.pull.key (.pull pull')) P) :=
        Ledger.sameBooks_of_reads ?_ fun k => ⟨?_, ?_⟩
    · exact .idle hbooks hassets
        (Ledger.keepsReserve_of_le hbooks.pool fun pool index _ => (htokens.balance _).ge)
    · rw [Ledger.read_update Entry.pool? (by
        rw [Function.update_of_ne hne, hvacated (hother h.loadedPull (by simp)), h.loadedPull]
        rfl), Function.update_of_ne (Ne.symm hP)]
      refine Ledger.read_vacate Entry.pool? (fun k hk => ?_) P
      obtain ⟨item, hk, -⟩ := hawarded k hk
      rw [hk]
      rfl
    · refine hread (Entry.item? P) rfl rfl (fun k hk => ?_) k
      obtain ⟨item, hk, hitem⟩ := hawarded k hk
      rw [hk]
      exact if_neg (hitem ▸ hP)
    · refine hread (Entry.pull? P) rfl ?_ (fun k hk => ?_) k
      · exact (if_neg (hsame' ▸ h.samePool ▸ hP)).trans (if_neg (h.samePool ▸ hP)).symm
      · obtain ⟨item, hk, -⟩ := hawarded k hk
        rw [hk]
        rfl

omit hV in
/-- The outcome is marked, and the last one closes the Pull. -/
theorem Deliver.Effect.pulls {a : DeliverAccounts} {d : DeliverInstructionData} {pool : Pool}
    {index : List UInt8} {pull : Pull} {outcome : Outcome}
    (h : Deliver.Effect a d pool index pull outcome L L') : ∃ all,
      (pull.marked d.outcome.toNat outcome).allDelivered = .ok all ∧ (L'.banner a.pool.key).pulls =
        Function.update (L.banner a.pool.key).pulls a.pull.key
          (if all then none else some (pull.marked d.outcome.toNat outcome)) := by
  obtain ⟨asset, all, hasset, -, hall, rfl⟩ := h.ledger
  refine ⟨all, hall, ?_⟩
  rw [Ledger.banner_update_pulls]
  congr 1
  · exact funext (Ledger.read_update (Entry.pull? a.pool.key) (by rw [hasset]; rfl))
  · cases all with
    | true => rfl
    | false => exact Entry.pull?_eq_some.mpr ⟨rfl, h.samePool⟩

omit hV in
theorem Deliver.Effect.banner {a : DeliverAccounts} {d : DeliverInstructionData} {pool : Pool}
    {index : List UInt8} {pull : Pull} {outcome : Outcome}
    (h : Deliver.Effect a d pool index pull outcome L L') :
    Banner.Step rt slot P (L.banner P) .idle (L'.banner P) := by
  obtain ⟨asset, all, hasset, howner, hall, hledger⟩ := h.ledger
  have h1 := Ledger.ne_of_entry hasset h.loadedPull (by simp)
  have h2 := Ledger.ne_of_entry h.loaded hasset (by simp)
  have h3 := Ledger.ne_of_entry h.loaded h.loadedPull (by simp)
  generalize he : (if all then Entry.vacant else .pull (pull.marked d.outcome.toNat outcome)) = e at hledger
  have hleft : ∀ {β : Type} (f : Entry → β), f .vacant = f (.pull pull) →
      f (.pull (pull.marked d.outcome.toNat outcome)) = f (.pull pull) → f e = f (.pull pull) := by
    intro β f hf1 hf2
    rw [← he]
    split_ifs
    · exact hf1
    · exact hf2
  have hread : ∀ {β : Type} (f : Entry → β),
      f (.asset { asset with owner := a.buyer.key }) = f (.asset asset) → f .vacant = f (.pull pull) →
      f (.pull (pull.marked d.outcome.toNat outcome)) = f (.pull pull) → ∀ k, f (L' k) = f (L k) := by
    intro β f hf1 hf2 hf3 k
    rw [hledger]
    exact Ledger.read_update₂ f (by rw [hasset, hf1]) (by rw [h.loadedPull, hleft f hf2 hf3]) k
  have htokens : L.SameTokens L' := hread Entry.token? rfl rfl rfl
  have hitems : ∀ k, (L' k).item? P = (L k).item? P := hread (Entry.item? P) rfl rfl rfl
  have hpool : (L' P).pool? = (L P).pool? := hread Entry.pool? rfl rfl rfl P
  have hkeep : ∀ k, k ≠ a.asset.key → (L k).OwnedBy P → (L' k).OwnedBy P := by
    intro k hk hown
    rw [hledger, Ledger.read_update (Entry.OwnedBy P) ?_, Function.update_of_ne hk]
    · exact hown
    · rw [Function.update_of_ne h1.symm, h.loadedPull]
      exact hleft (Entry.OwnedBy P) rfl rfl
  have hreserve := Ledger.keepsReserve_of_le hpool fun pool index _ => (htokens.balance _).ge
  by_cases hP : P = a.pool.key
  · subst hP
    refine .deliver (Ledger.banner_pool.mpr h.loaded)
      (Ledger.banner_pulls.mpr ⟨h.loadedPull, h.samePool⟩) h.settled h.inCount h.recorded h.undelivered
      hall hpool (funext hitems) ?_ ?_ hreserve
    · obtain ⟨all', hall', hpulls⟩ := h.pulls
      obtain rfl := Except.ok.inj (hall.symm.trans hall')
      exact hpulls
    · rintro k ⟨hk, hne⟩
      exact hkeep k (fun heq => hne (heq.trans h.asset.symm)) hk
  · have hpulls : ∀ k, (L' k).pull? P = (L k).pull? P := by
      have hne : ¬pull.pool = P := fun heq => hP (heq.symm.trans h.samePool)
      exact hread (Entry.pull? P) rfl (if_neg hne).symm ((if_neg hne).trans (if_neg hne).symm)
    refine .idle (Ledger.sameBooks_of_reads hpool fun k => ⟨hitems k, hpulls k⟩)
      (fun _ k hk => hkeep k ?_ hk) hreserve
    rintro rfl
    have hown : (L a.asset.key).OwnedBy P := hk
    rw [hasset] at hown
    exact hP (hown.symm.trans howner)

/-! ## Calls -/

/-- Every call that succeeds is a step of every banner. -/
theorem Call.Effect.banner {time : Int64} {call : Call}
    (hgiver : ∀ info, call.giver = some info → ¬rt.IsPda info.key)
    (h : call.Effect rt slot time L L') :
    Banner.Step rt slot P (L.banner P) (call.move L P) (L'.banner P) := by
  cases call with
  | createPool a d => exact CreatePool.Effect.banner P h
  | depositItem a d =>
    obtain ⟨pool, index, h⟩ := h
    exact h.banner hV P (hgiver _ rfl)
  | withdraw a d =>
    obtain ⟨pool, index, h⟩ := h
    exact h.banner hV P
  | setStatus a d =>
    obtain ⟨pool, index, h⟩ := h
    exact h.banner P
  | reclaim a =>
    obtain ⟨pool, index, item, h⟩ := h
    exact h.banner P
  | buy a d =>
    obtain ⟨pool, index, pull, h⟩ := h
    exact h.banner hV P (hgiver _ rfl)
  | refund a =>
    obtain ⟨pool, index, pull, h⟩ := h
    exact h.banner hV P
  | buyback a d =>
    obtain ⟨pool, index, h⟩ := h
    exact h.banner hV P (hgiver _ rfl)
  | settle a d =>
    obtain ⟨pool, index, pull, beta, awards, h⟩ := h
    exact h.banner P
  | deliver a d =>
    obtain ⟨pool, index, pull, outcome, h⟩ := h
    exact h.banner P
  | event =>
    obtain rfl := h
    exact .idle (.refl _) (fun _ => subset_rfl) (.inl le_rfl)

end Calls

end SolanaGacha
