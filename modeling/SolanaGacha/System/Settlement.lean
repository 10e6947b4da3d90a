import SolanaGacha.Ledger.Enabled
import SolanaGacha.System.Queue

/-!
# A settlement has one list of Items

For every verified output the head of the queue has its draws, and each drawn position has one Item
(`Shelved.awards`). A settlement with these Items in the order of the draws succeeds, and with any others
it fails (`World.Reached.settles`), so whoever relays a proof decides nothing.
-/

namespace SolanaGacha

open Except Layout Inventory

/-- The instruction that settles a Pull with some Items. -/
def Settle.instruction (pool pull operator : Pubkey) (items : List AccountInfo) (proof : FixedBytes 80) :
    Instruction where
  accounts := [⟨operator, false, true⟩, ⟨pool, false, true⟩, ⟨pull, false, true⟩] ++ items ++
    [⟨eventAuthority, false, false⟩, ⟨programId, false, false⟩]
  data := 20 :: proof.val

/-- What the handler makes of its accounts. -/
def Settle.accounts (pool pull operator : Pubkey) (items : List AccountInfo) : SettleAccounts where
  operator := ⟨operator, false, true⟩
  pool := ⟨pool, false, true⟩
  pull := ⟨pull, false, true⟩
  items := items
  eventAuthority := ⟨eventAuthority, false, false⟩
  program := ⟨programId, false, false⟩

/-! ## The Items of the draws -/

/-- Every drawn position has its Item. -/
theorem Shelved.awards {rt : Runtime} {P : Pubkey} {items : Pubkey → Option Item} {tags : List UInt8}
    (h : Shelved rt P items tags) {draws : List (UInt8 × ℕ)}
    (hdraws : ∀ d ∈ draws, d.1.toNat < 8 ∧ Live tags d.1.toNat d.2) :
    ∃ awards : List Award, awards.map Award.draw = draws ∧
      ∀ award ∈ awards, items award.account = some award.item := by
  induction draws with
  | nil => exact ⟨[], rfl, by simp⟩
  | cons d draws ih =>
    obtain ⟨htier, hlive⟩ := hdraws d List.mem_cons_self
    obtain ⟨k, item, hk, hposition⟩ := h.stocked (p := d.2) (by
      rw [hlive]
      exact tierTag_ne_zero htier)
    obtain ⟨-, hitem, hlive', -⟩ := h.item hk
    rw [hposition] at hlive'
    have hdraw : Award.draw ⟨k, item⟩ = d := by
      refine Prod.ext (UInt8.toNat_inj.mp ?_) hposition
      exact (tierTag_inj hitem htier).mp (hlive'.symm.trans hlive)
    obtain ⟨awards, hawards, hall⟩ := ih fun d' hd' => hdraws d' (List.mem_cons_of_mem _ hd')
    refine ⟨⟨k, item⟩ :: awards, by rw [List.map_cons, hdraw, hawards], ?_⟩
    exact List.forall_mem_cons.mpr ⟨hk, hall⟩

/-- The Items of the same draws are the same. -/
theorem Shelved.awards_unique {rt : Runtime} {P : Pubkey} {items : Pubkey → Option Item}
    {tags : List UInt8} (h : Shelved rt P items tags) {awards awards' : List Award}
    (hdraws : awards.map Award.draw = awards'.map Award.draw)
    (hitem : ∀ award ∈ awards, items award.account = some award.item)
    (hitem' : ∀ award ∈ awards', items award.account = some award.item) : awards = awards' := by
  induction awards generalizing awards' with
  | nil => exact (List.map_eq_nil_iff.mp hdraws.symm).symm
  | cons award awards ih =>
    cases awards' with
    | nil => simp at hdraws
    | cons award' awards' =>
      rw [List.map_cons, List.map_cons, List.cons.injEq] at hdraws
      have hfirst := hitem award List.mem_cons_self
      have hfirst' := hitem' award' List.mem_cons_self
      have hposition := UInt32.toNat_inj.mp (congrArg Prod.snd hdraws.1)
      have haccount := h.unique hfirst hfirst' hposition
      have heq : award = award' := by
        cases award
        cases award'
        simp only at haccount hfirst hfirst'
        subst haccount
        rw [Option.some.inj (hfirst.symm.trans hfirst')]
      rw [heq, ih hdraws.2 (fun a ha => hitem a (List.mem_cons_of_mem _ ha))
        fun a ha => hitem' a (List.mem_cons_of_mem _ ha)]

/-- Awards of different positions are different accounts. -/
theorem Award.nodup_account {items : Pubkey → Option Item} {awards : List Award}
    (hnodup : ((awards.map Award.draw).map Prod.snd).Nodup)
    (hitem : ∀ award ∈ awards, items award.account = some award.item) :
    (awards.map Award.account).Nodup := by
  rw [List.map_map] at hnodup
  refine List.Nodup.map_on (fun award haward award' haward' heq => ?_) (List.Nodup.of_map _ hnodup)
  have hfirst := hitem award haward
  have hfirst' := hitem award' haward'
  cases award
  cases award'
  simp only at heq hfirst hfirst'
  subst heq
  rw [Option.some.inj (hfirst.symm.trans hfirst')]

/-! ## The accounts of a settlement -/

theorem SettleAccounts.checkItems_eq_ok {w : World} {items : List AccountInfo} {u : Unit} :
    checkItems w items = .ok u ↔
      ∀ info ∈ items, info.isWritable = true ∧ ∃ item, w.ledger info.key = .item item := by
  induction items with
  | nil => exact ⟨fun _ => by simp, fun _ => rfl⟩
  | cons info items ih =>
    simp only [checkItems, bind_eq_ok, failIf_eq_ok, not_not, List.forall_mem_cons, ih]
    constructor
    · rintro ⟨_, hwritable, item, hitem, hrest⟩
      exact ⟨⟨hwritable, item, Account.entry_eq_item.mpr hitem⟩, hrest⟩
    · rintro ⟨⟨hwritable, item, hitem⟩, hrest⟩
      exact ⟨(), hwritable, item, Account.entry_eq_item.mp hitem, hrest⟩

/-- What the handler checks of the accounts, apart from the draws. -/
theorem Settle.tryFrom_instruction {w : World} {P k : Pubkey} {pool : Pool} {index : List UInt8}
    {pull : Pull} {proof : FixedBytes 80} (hpool : w.ledger P = .pool pool index)
    (hpull : w.ledger k = .pull pull) (hP : pull.pool = P) (hpending : pull.status = statusPending)
    (hhead : pull.index = pool.nextSettle) (htime : w.slot ≤ pull.deadlineSlot) {items : List AccountInfo}
    {a : SettleAccounts} :
    SettleAccounts.tryFrom w (Settle.instruction P k pool.operator items proof).accounts = .ok a ↔
      items.length = pull.count.toNat ∧
        (∀ info ∈ items, info.isWritable = true ∧ ∃ item, w.ledger info.key = .item item) ∧
          Settle.accounts P k pool.operator items = a := by
  have hload := (Account.entry_eq_pool.mp hpool).1
  have hload' := Account.entry_eq_pull.mp hpull
  have hreverse : (items ++ [(⟨eventAuthority, false, false⟩ : AccountInfo),
      ⟨programId, false, false⟩]).reverse =
        ⟨programId, false, false⟩ :: ⟨eventAuthority, false, false⟩ :: items.reverse := by simp
  unfold SettleAccounts.tryFrom Settle.instruction
  simp only [List.cons_append, List.nil_append, hreverse, List.reverse_reverse, bind_eq_ok, failIf_eq_ok,
    pure_eq_ok, World.account, hload, hload', SettleAccounts.checkItems_eq_ok, UInt64.not_lt, not_not,
    Except.ok.injEq, exists_eq_left']
  constructor
  · rintro ⟨_, -, _, -, _, -, _, -, _, -, _, -, _, hcount, _, hitems, rfl⟩
    exact ⟨hcount, hitems, rfl⟩
  · rintro ⟨hcount, hitems, rfl⟩
    exact ⟨(), by simp, (), trivial, (), hP, (), hpending, (), hhead, (), htime, (), hcount, (), hitems, rfl⟩

theorem Settle.parse {w : World} {P k operator : Pubkey} {items : List AccountInfo} {proof : FixedBytes 80}
    {call : Call} : Instruction.parse w (Settle.instruction P k operator items proof) = .ok call ↔
      ∃ a, SettleAccounts.tryFrom w (Settle.instruction P k operator items proof).accounts = .ok a ∧
        .settle a ⟨proof⟩ = call := by
  have hproof : SettleInstructionData.tryFrom proof.val = .ok ⟨proof⟩ := by
    unfold SettleInstructionData.tryFrom
    rw [failIf_neg (not_not.mpr proof.length_val), ok_bind]
    exact congrArg (fun p => Except.ok (SettleInstructionData.mk p)) ((bytes 80).decode_encode proof)
  unfold Instruction.parse
  generalize haccounts : SettleAccounts.tryFrom w _ = accounts
  simp only [Settle.instruction, hproof]
  cases accounts <;> simp

/-! ## Success -/

namespace World

variable {rt : Runtime} (hrt : rt.Lawful) {w : World}

include hrt in
/-- A settlement succeeds on the Items of its draws. -/
theorem Settling.process_isOk {P k : Pubkey} {pool : Pool} {index : List UInt8} {pull : Pull}
    {m : Market UInt8 Ticket} {items : List AccountInfo} {proof : FixedBytes 80} {beta : FixedBytes 64}
    {awards : List Award}
    (h : w.Settling rt (Settle.accounts P k pool.operator items) pool index pull m) (hbacked : w.Backed)
    (hoperator : ∀ item, w.ledger pool.operator ≠ .item item)
    (hproof : rt.verifyProof pool.operator (rt.sha256 (k.val ++ pull.clientSeed.val)) proof = some beta)
    (hselected : rt.selections pool beta ((pool.tags index).take pull.inventoryVersion.toNat) 0
      pull.count.toNat = .ok (awards.map Award.draw))
    (hitem : ∀ award ∈ awards, w.ledger award.account = .item award.item ∧ award.item.pool = P)
    (hkeys : awards.map Award.account = items.map AccountInfo.key) :
    ∃ w', Settle.process rt w (Settle.accounts P k pool.operator items) ⟨proof⟩ = .ok w' := by
  have hpull := Ledger.banner_pulls.mpr ⟨h.loadedPull, h.samePool⟩
  have hten : pull.count.toNat ≤ 10 := (h.opened.pull hpull).count.2
  have hcount : items.length = pull.count.toNat := h.count
  obtain ⟨rest, hqueue⟩ := h.opened.queued.head hpull h.pending h.head
  have hissued := h.opened.covered.issued _ (hqueue ▸ List.mem_cons_self)
  have hdraws := h.opened.queued.draws
  rw [hqueue, Market.demand_cons] at hdraws
  have hnext := h.opened.queued.index_lt hpull
  have hsmall := pool.nextIndex.toNat_lt
  have hstock := h.opened.stock
  rw [← h.opened.tags_eq] at hstock hissued
  have hload := (Account.entry_eq_pool.mp h.loaded).1
  have hload' := Account.entry_eq_pull.mp h.loadedPull
  have hinventory : Inventory.load (w.accounts P) = .ok ⟨index⟩ := Inventory.load_of_entry h.loaded
  -- The loop draws the Items.
  obtain ⟨v, hv, htally⟩ := counts_eq_ok hstock.indexed hissued
  obtain ⟨-, hnodup, -⟩ := Runtime.selections_spec hselected
  have hbanner : ∀ award ∈ awards, (w.ledger.banner P).items award.account = some award.item :=
    fun award haward => Ledger.banner_items.mpr (hitem award haward)
  have hnodup' : (awards.map Award.account).Nodup := Award.nodup_account hnodup hbanner
  have hother : pool.operator ∉ awards.map Award.account := by
    intro hmem
    obtain ⟨award, haward, heq⟩ := List.mem_map.mp hmem
    exact hoperator _ (heq ▸ (hitem award haward).1)
  obtain ⟨s, hloop⟩ := @Runtime.drawLoop_isOk rt P pool.operator beta items
    ⟨pool, ⟨index⟩, pull, w.accounts, v⟩ _ _ 0 _ hstock
    (eq_tally (by
      rw [List.length_take]
      have := hstock.indexed.small
      omega) htally) (by omega) hkeys (by rw [hcount]; exact hselected) (fun award ha => (hitem award ha).1)
    (fun award ha => (hitem award ha).2) hnodup' hother (hbacked.list hother hnodup')
  have hdraw : rt.draw pool ⟨index⟩ pull w.accounts P items pool.operator beta = .ok s := by
    rw [Runtime.draw, show Inventory.counts ⟨index⟩ pull.inventoryVersion = .ok v from hv, ok_bind]
    exact hloop
  obtain ⟨awards', -, drew⟩ := Runtime.draw_ok hstock hissued hdraw
  obtain ⟨tiers, htiers, -⟩ := drew.header
  have houtcomes := drew.outcomes
  simp only at htiers houtcomes
  -- What follows the loop cannot fail.
  have hcounts : (UInt64.ofNat items.length).toNat = pull.count.toNat := by
    rw [hcount, UInt64.toNat_ofNat_of_lt' (by show _ < 2 ^ 64; omega)]
  obtain ⟨pendingDraws, hpending⟩ : ∃ left,
      s.pool.pendingDraws.checkedSub (UInt64.ofNat items.length) = some left := by
    refine ⟨_, if_pos ?_⟩
    rw [hcounts, htiers]
    show pull.count.toNat ≤ pool.pendingDraws.toNat
    rw [hdraws]
    exact Nat.le_add_right _ _
  obtain ⟨nextSettle, hsettle⟩ : ∃ next, s.pull.index.checkedAdd 1 = some next := by
    refine ⟨_, if_pos ?_⟩
    rw [houtcomes]
    show pull.index.toNat + 1 < 2 ^ 64
    omega
  obtain ⟨outcomes, hbytes⟩ : ∃ outcomes, s.pull.outcomeBytes items.length = .ok outcomes := by
    unfold Pull.outcomeBytes
    rw [failIf_neg (by rw [maxCount]; omega)]
    exact ⟨_, rfl⟩
  have hlen := Pull.length_outcomeBytes hbytes
  have hsize : ([P.val, k.val, (rt.sha256 (k.val ++ pull.clientSeed.val)).val, proof.val, beta.val,
      outcomes].map List.length).sum + 2 ≤ 572 := by
    simp only [List.map_cons, List.map_nil, List.sum_cons, List.sum_nil, FixedBytes.length_val]
    omega
  exact ⟨_, by
    simp only [Settle.process, Settle.accounts, World.account,
      show Pool.load (w.accounts P) = .ok pool from hload, hinventory,
      show Pull.load (w.accounts k) = .ok pull from hload', ok_bind, hproof, okOr, hdraw, hpending, hsettle,
      hbytes]
    exact Runtime.emit_eq hrt 20 hsize rfl rfl⟩

include hrt in
/-- In every reachable state whose oldest purchase is pending, before its deadline and for every verified
output: exactly one list of Items settles it, those of the positions that the plain list of tags selects, and
the outcomes are their tiers and assets in the order of the draws. -/
theorem Reached.settles (hw : w.Reached rt) (hbacked : w.Backed) {P k : Pubkey} {pool : Pool}
    {index : List UInt8} {pull : Pull} (hpool : w.ledger P = .pool pool index)
    (hpull : w.ledger k = .pull pull) (hP : pull.pool = P) (hpending : pull.status = statusPending)
    (hhead : pull.index = pool.nextSettle) (htime : w.slot ≤ pull.deadlineSlot)
    (hoperator : ∀ item, w.ledger pool.operator ≠ .item item) {proof : FixedBytes 80}
    {beta : FixedBytes 64}
    (hproof : rt.verifyProof pool.operator (rt.sha256 (k.val ++ pull.clientSeed.val)) proof = some beta) :
    ∃ awards : List Award,
      rt.selections pool beta ((pool.tags index).take pull.inventoryVersion.toNat) 0 pull.count.toNat =
        .ok (awards.map Award.draw) ∧
      (∀ award ∈ awards, w.ledger award.account = .item award.item ∧ award.item.pool = P) ∧
      (∀ items, (∃ w', processInstruction rt w (Settle.instruction P k pool.operator items proof) = .ok w') ↔
        items.map AccountInfo.key = awards.map Award.account ∧ ∀ info ∈ items, info.isWritable = true) ∧
      ∀ items w', processInstruction rt w (Settle.instruction P k pool.operator items proof) = .ok w' →
        ∃ pull', w'.ledger k = .pull pull' ∧ pull'.status = statusSettled ∧
          pull'.outcomes.toList.take pull.count.toNat =
            awards.map fun award => ⟨award.item.tier, award.item.asset⟩ := by
  have hsound := hw.sound hrt
  obtain ⟨m, hm⟩ := hsound.opened hpool
  have hbanner := Ledger.banner_pulls.mpr ⟨hpull, hP⟩
  obtain ⟨draws, hdraws⟩ := hm.head_selections hpull hP hpending hhead beta
  obtain ⟨hlength, -, hlive⟩ := Runtime.selections_spec hdraws
  -- What is live below the version is live in the whole index, and has its Item.
  obtain ⟨awards, rfl, hitems⟩ := @Shelved.awards _ _ _ _ hm.shelved draws fun d hd => by
    obtain ⟨-, htier, hd⟩ := hlive d hd
    refine ⟨htier, ?_⟩
    have hlt := lt_length_of_live htier hd
    rw [List.length_take] at hlt
    rw [hm.tags_eq, Live, List.getD_eq_getElem?_getD, List.getElem?_take,
      if_pos (hlt.trans_le (min_le_left _ _)), ← List.getD_eq_getElem?_getD] at hd
    exact hd
  rw [List.length_map] at hlength
  have hentry : ∀ award ∈ awards, w.ledger award.account = .item award.item ∧ award.item.pool = P :=
    fun award haward => Ledger.banner_items.mp (hitems award haward)
  -- A settlement that succeeds has awarded these Items.
  have heffect : ∀ items w', processInstruction rt w (Settle.instruction P k pool.operator items proof) =
      .ok w' → items.map AccountInfo.key = awards.map Award.account ∧
        (∀ info ∈ items, info.isWritable = true) ∧ w'.ledger k = .pull { pull with
          status := statusSettled, outcomes := recordAwards pull.outcomes 0 awards } := by
    intro items w' hprocess
    rw [processInstruction_eq] at hprocess
    obtain ⟨call, hparse, hrun⟩ := bind_eq_ok.mp hprocess
    obtain ⟨a, ha, rfl⟩ := Settle.parse.mp hparse
    obtain ⟨hcount, hwritable, rfl⟩ :=
      (Settle.tryFrom_instruction hpool hpull hP hpending hhead htime).mp ha
    obtain ⟨-, pool', index', pull', beta', awards', h⟩ := Settle.process_ok hsound.counted ha hrun
    obtain ⟨rfl, rfl⟩ := Entry.pool.inj (hpool.symm.trans h.loaded)
    obtain rfl := Entry.pull.inj (hpull.symm.trans h.loadedPull)
    obtain rfl : beta = beta' := Option.some.inj (hproof.symm.trans h.proof)
    have hlength' : awards'.length = pull.count.toNat := by
      rw [← hcount, ← List.length_map (f := Award.account), h.accounts, List.length_map]
      rfl
    have hselected := h.selected
    rw [hlength', hdraws] at hselected
    obtain rfl := hm.shelved.awards_unique (Except.ok.inj hselected) hitems fun award haward =>
      Ledger.banner_items.mpr (h.item award haward)
    obtain ⟨tiers, index', pendingDraws, nextSettle, -, -, -, -, hledger⟩ := h.ledger
    refine ⟨h.accounts.symm, fun info hinfo => (hwritable info hinfo).1, ?_⟩
    rw [hledger]
    exact Function.update_self _ _ _
  refine ⟨awards, hdraws, hentry, fun items => ⟨?_, ?_⟩, fun items w' hprocess => ?_⟩
  · rintro ⟨w', hprocess⟩
    obtain ⟨hkeys, hwritable, -⟩ := heffect items w' hprocess
    exact ⟨hkeys, hwritable⟩
  · rintro ⟨hkeys, hwritable⟩
    have hcount : items.length = pull.count.toNat := by
      rw [← List.length_map (f := AccountInfo.key), hkeys, List.length_map, hlength]
    have haccounts := (@Settle.tryFrom_instruction w P k pool index pull proof hpool hpull hP hpending
      hhead htime items _).mpr ⟨hcount, fun info hinfo => ⟨hwritable info hinfo, ?_⟩, rfl⟩
    · have hsettling : w.Settling rt (Settle.accounts P k pool.operator items) pool index pull m :=
        ⟨hpool, hpull, hP, hpending, hhead, hcount, hm⟩
      obtain ⟨w', hrun⟩ := hsettling.process_isOk hrt hbacked hoperator hproof hdraws hentry hkeys.symm
      refine ⟨w', ?_⟩
      rw [processInstruction_eq, Settle.parse.mpr ⟨_, haccounts, rfl⟩]
      exact hrun
    · obtain ⟨award, haward, heq⟩ := List.mem_map.mp (hkeys ▸ List.mem_map_of_mem hinfo)
      exact ⟨award.item, heq ▸ (hentry award haward).1⟩
  · obtain ⟨-, -, hrecorded⟩ := heffect items w' hprocess
    refine ⟨_, hrecorded, rfl, ?_⟩
    have hten : pull.count.toNat ≤ 10 := (hm.pull hbanner).count.2
    rw [← hlength]
    exact recordAwards_take _ _ (by omega)

theorem Reached.settles_sample : ∃ pool index pull, Sample.bought.ledger Sample.pool = .pool pool index ∧
    Sample.bought.ledger Sample.pull = .pull pull ∧ pull.count = 1 ∧ ∃ awards : List Award,
      Sample.net.runtime.selections pool Sample.beta ((pool.tags index).take pull.inventoryVersion.toNat) 0
        pull.count.toNat = .ok (awards.map Award.draw) ∧
      (∀ award ∈ awards, Sample.bought.ledger award.account = .item award.item ∧
        award.item.pool = Sample.pool) ∧
      (∀ items, (∃ w', processInstruction Sample.net.runtime Sample.bought
          (Settle.instruction Sample.pool Sample.pull pool.operator items Sample.proof) = .ok w') ↔
        items.map AccountInfo.key = awards.map Award.account ∧ ∀ info ∈ items, info.isWritable = true) ∧
      ∀ items w', processInstruction Sample.net.runtime Sample.bought
          (Settle.instruction Sample.pool Sample.pull pool.operator items Sample.proof) = .ok w' →
        ∃ pull', w'.ledger Sample.pull = .pull pull' ∧ pull'.status = statusSettled ∧
          pull'.outcomes.toList.take pull.count.toNat =
            awards.map fun award => ⟨award.item.tier, award.item.asset⟩ := by
  obtain ⟨pool, index, hpool, hhead⟩ := Sample.exists_pool (e := Sample.bought.ledger Sample.pool)
    (p := fun pool => pool.nextSettle = 0 ∧ pool.operator = Sample.operator) (by decide +kernel)
  obtain ⟨pull, hpull, hopen⟩ := Sample.exists_pull (e := Sample.bought.ledger Sample.pull)
    (p := fun pull => pull.pool = Sample.pool ∧ pull.status = statusPending ∧ pull.index = 0 ∧
      pull.count = 1 ∧ 5 ≤ pull.deadlineSlot ∧ pull.clientSeed = Sample.clientSeed) (by decide +kernel)
  simp only [decide_eq_true_eq] at hhead hopen
  obtain ⟨hnext, hoperator⟩ := hhead
  obtain ⟨hP, hpending, hindex, hcount, htime, hseed⟩ := hopen
  have hreached := Sample.bought_reached
  have hbacked := Sample.bought_backed
  have hvacant : Sample.bought.ledger Sample.operator = .vacant := by decide +kernel
  have hslot : Sample.bought.slot = 5 := by decide +kernel
  have hproof : Sample.net.runtime.verifyProof Sample.operator
      (Sample.net.runtime.sha256 (Sample.pull.val ++ Sample.clientSeed.val)) Sample.proof =
        some Sample.beta := by decide +kernel
  generalize Sample.bought = w at *
  exact ⟨pool, index, pull, hpool, hpull, hcount, Reached.settles Sample.net.runtime_lawful hreached hbacked
    hpool hpull hP hpending (hindex.trans hnext.symm) (hslot ▸ htime) (fun item => by
      rw [hoperator, hvacant]
      simp) (hoperator ▸ hseed ▸ hproof)⟩

end World

end SolanaGacha
