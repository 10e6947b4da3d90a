import SolanaGacha.System.Settlement
import SolanaGacha.System.Stock

/-!
# A settlement stands while its purchase waits

What the oldest purchase of a pool is settled with is fixed when it becomes the oldest: the terms, the tags
below its version and their Items. `Banner.Keeps` says that a later state still has all of it, and every step
keeps it but the settlement and the refund of the purchase itself. So a settlement that succeeds in one state
succeeds in every other one in which the purchase waits and its deadline has not passed, with the same
outcomes (`World.Reached.settlement_stands`); no purchase, restock or administration in between matters.
-/

namespace SolanaGacha

open Except Layout Inventory

/-! ## What the steps keep -/

/-- What the head of a queue is settled with, in two states of a pool. -/
structure Banner.Keeps (S : Banner) (pool : Pool) (index : List UInt8) (k : Pubkey) (pull : Pull)
    (S' : Banner) (pool' : Pool) (index' : List UInt8) : Prop where
  header : S'.pool = some (pool', index')
  terms : pool.SameTerms pool'
  head : pool'.nextSettle = pool.nextSettle
  loaded : S'.pulls k = some pull
  tags : (pool'.tags index').take pull.inventoryVersion.toNat =
    (pool.tags index).take pull.inventoryVersion.toNat
  items : ∀ key item, item.position.toNat < pull.inventoryVersion.toNat →
    (S'.items key = some item ↔ S.items key = some item)

namespace Banner

variable {rt : Runtime} {slot : UInt64} {P k : Pubkey} {S S' S'' : Banner} {pool pool' pool'' : Pool}
  {index index' index'' : List UInt8} {pull : Pull} {m : Market UInt8 Ticket}
  {move : Market.Move UInt8 Ticket}

theorem Keeps.refl (header : S.pool = some (pool, index)) (hk : S.pulls k = some pull) :
    S.Keeps pool index k pull S pool index :=
  ⟨header, .refl pool, rfl, hk, rfl, fun _ _ _ => Iff.rfl⟩

theorem Keeps.trans (h : S.Keeps pool index k pull S' pool' index')
    (h' : S'.Keeps pool' index' k pull S'' pool'' index'') : S.Keeps pool index k pull S'' pool'' index'' where
  header := h'.header
  terms := h.terms.trans h'.terms
  head := h'.head.trans h.head
  loaded := h'.loaded
  tags := h'.tags.trans h.tags
  items key item hold := (h'.items key item hold).trans (h.items key item hold)

/-- The draws of the purchase are the same in both states. -/
theorem Keeps.selections (h : S.Keeps pool index k pull S' pool' index') (beta : FixedBytes 64) (n : ℕ) :
    rt.selections pool' beta ((pool'.tags index').take pull.inventoryVersion.toNat) 0 n =
      rt.selections pool beta ((pool.tags index).take pull.inventoryVersion.toNat) 0 n := by
  have hweights := congrArg Vector.toList h.terms.weights
  rw [Vector.toList_map, Vector.toList_map] at hweights
  rw [h.tags]
  exact Runtime.selections_congr (Pool.draw_congr h.terms.tierCount hweights) _ _ _

/-- The place of the head is not taken by the one behind it. -/
theorem head_ne {nextSettle : UInt64} (hnext : pull.index.toNat + 1 = nextSettle.toNat)
    (hhead : pull.index = pool.nextSettle) : nextSettle ≠ pool.nextSettle := by
  intro heq
  rw [heq, ← hhead] at hnext
  omega

/-- Every step keeps what the head is settled with, unless the head leaves the queue. -/
theorem Step.keeps (h : Step rt slot P S move S') (hopen : S.Opened rt P pool index m)
    (hk : S.pulls k = some pull) (hpending : pull.status = statusPending)
    (hhead : pull.index = pool.nextSettle)
    (hwaits : ∀ pool' index', S'.pool = some (pool', index') → pool'.nextSettle = pool.nextSettle) :
    ∃ pool' index', S.Keeps pool index k pull S' pool' index' := by
  have hsame : ∀ {pool₀ : Pool} {index₀ : List UInt8}, S.pool = some (pool₀, index₀) →
      pool = pool₀ ∧ index = index₀ :=
    fun heq => Prod.mk.inj (Option.some.inj (hopen.header.symm.trans heq))
  obtain ⟨rest, hqueue⟩ := hopen.queued.head hk hpending hhead
  have hissued : pull.inventoryVersion.toNat ≤ (pool.tags index).length := by
    rw [hopen.tags_eq]
    exact hopen.covered.issued _ (hqueue ▸ List.mem_cons_self)
  cases h with
  | idle books assets reserve =>
    refine ⟨pool, index, books.pool.trans hopen.header, .refl pool, rfl, ?_, rfl, fun key item _ => ?_⟩
    · rw [books.pulls, hk]
    · rw [books.items]
  | create new => exact absurd (new.symm.trans hopen.header) (by simp)
  | setStatus header valid terminal header' items pulls =>
    obtain ⟨rfl, rfl⟩ := hsame header
    refine ⟨_, _, header', ⟨rfl, rfl, rfl, rfl, rfl, rfl, rfl, rfl, rfl⟩, rfl, ?_, rfl, fun key item _ => ?_⟩
    · rw [pulls, hk]
    · rw [items]
  | @restock S' _ pool₁ _ index₁ key₁ asset tier bump header restocked derived vacant given header' items pulls =>
    obtain ⟨rfl, rfl⟩ := hsame header
    obtain ⟨tiers, hpool₁, hweights⟩ := restocked.header
    have hstock := hopen.stock
    rw [← hopen.tags_eq] at hstock
    obtain ⟨-, hstock'⟩ := hstock.restock restocked
    have hterms : pool.SameTerms pool₁ := by
      rw [hpool₁]
      exact ⟨rfl, rfl, rfl, rfl, rfl, hweights, rfl, rfl, rfl⟩
    refine ⟨_, _, header', hterms, by rw [hpool₁], ?_, ?_, fun key item hold => ?_⟩
    · rw [pulls, hk]
    · -- The new tag is above the version.
      rw [hstock'.tags_eq, List.take_append_of_le_length hissued]
    · rw [items, Function.update_apply]
      split_ifs with heq
      · -- The new Item has the next position, and nothing was at its address.
        subst heq
        rw [vacant, Option.some.injEq]
        refine ⟨fun hfresh => ?_, fun hnone => by cases hnone⟩
        rw [← hfresh] at hold
        change pool.inventoryVersion.toNat < _ at hold
        rw [← hstock.version] at hold
        exact absurd hissued (not_le.mpr hold)
      · rfl
  | reclaim header settled =>
    obtain ⟨rfl, rfl⟩ := hsame header
    rw [hopen.queue_eq_nil settled] at hqueue
    cases hqueue
  | buy header vacant valid pending place version deadline draws next remaining stock header' items pulls =>
    obtain ⟨rfl, rfl⟩ := hsame header
    refine ⟨_, _, header', ⟨rfl, rfl, rfl, rfl, rfl, rfl, rfl, rfl, rfl⟩, rfl, ?_, rfl, fun key item _ => ?_⟩
    · rw [pulls, Function.update_apply, if_neg, hk]
      rintro rfl
      rw [vacant] at hk
      cases hk
    · rw [items]
  | refund header loaded pending head expired draws next header' =>
    obtain ⟨rfl, rfl⟩ := hsame header
    exact absurd (hwaits _ _ header') (head_ne next head)
  | settle header loaded pending head inTime draws next item nodup count selected weights stock header' =>
    obtain ⟨rfl, rfl⟩ := hsame header
    exact absurd (hwaits _ _ header') (head_ne next head)
  | deliver header loaded settled inCount recorded undelivered closes header' items pulls =>
    refine ⟨pool, index, header'.trans hopen.header, .refl pool, rfl, ?_, rfl, fun key item _ => ?_⟩
    · -- A delivery is of another purchase, which is settled.
      rw [pulls, Function.update_apply, if_neg, hk]
      rintro rfl
      rw [hk] at loaded
      rw [← Option.some.inj loaded, hpending] at settled
      exact absurd settled (by decide)
    · rw [items]

/-- An Item is at an address of the program. -/
theorem Represents.item_isPda (h : S.Represents rt P m) {item : Item} (hk : S.items k = some item) :
    rt.IsPda k := by
  cases h with
  | empty header items =>
    rw [items k] at hk
    cases hk
  | opened hopen =>
    obtain ⟨-, -, -, hderived⟩ := hopen.shelved.item hk
    exact ⟨_, hderived⟩

end Banner

namespace World

variable {rt : Runtime} (hrt : rt.Lawful) {w v : World} {trace : List (World × Event)} {P k : Pubkey}
  {pool pool' : Pool} {index index' : List UInt8} {pull : Pull}

include hrt in
/-- While the head of a queue waits, a run keeps what it is settled with. -/
theorem Sound.keeps (h : w.Sound rt) (hrun : Run (Step rt) w trace v)
    (hpool : w.ledger P = .pool pool index) (hpull : w.ledger k = .pull pull) (hP : pull.pool = P)
    (hpending : pull.status = statusPending) (hhead : pull.index = pool.nextSettle)
    (hpool' : v.ledger P = .pool pool' index') (hwaits : pool'.nextSettle = pool.nextSettle) :
    (w.ledger.banner P).Keeps pool index k pull (v.ledger.banner P) pool' index' := by
  have hk := Ledger.banner_pulls.mpr ⟨hpull, hP⟩
  induction hrun generalizing pool' index' with
  | nil =>
    obtain ⟨rfl, rfl⟩ := Entry.pool.inj (hpool.symm.trans hpool')
    exact .refl (Ledger.banner_pool.mpr hpool) hk
  | @snoc v v' event trace run last ih =>
    have hsound := h.of_run hrt run
    obtain ⟨pool₁, index₁, hpool₁, hlater⟩ := h.later hrt hpool run
    have hstep := last.banner hrt hsound P
    obtain ⟨pool₂, index₂, hpool₂, hlater'⟩ := hstep.later (Ledger.banner_pool.mpr hpool₁)
    obtain ⟨rfl, rfl⟩ := Entry.pool.inj (hpool'.symm.trans (Ledger.banner_pool.mp hpool₂))
    -- The queue does not advance and comes back, so it did not advance before the last step.
    have hmid : pool₁.nextSettle = pool.nextSettle := by
      apply UInt64.toNat_inj.mp
      have := hlater.nextSettle
      have := hlater'.nextSettle
      rw [hwaits] at this
      omega
    have hkeeps := ih hpool₁ hmid
    obtain ⟨m, hm⟩ := hsound.opened hpool₁
    obtain ⟨pool₂, index₂, hkeeps'⟩ := hstep.keeps hm hkeeps.loaded hpending (hhead.trans hmid.symm)
      fun pool₃ index₃ hpool₃ => by
        obtain ⟨rfl, -⟩ := Prod.mk.inj (Option.some.inj (hpool₂.symm.trans hpool₃))
        exact hwaits.trans hmid.symm
    obtain ⟨rfl, rfl⟩ := Prod.mk.inj (Option.some.inj (hpool₂.symm.trans hkeeps'.header))
    exact hkeeps.trans hkeeps'

include hrt in
/-- A purchase that is the head before a run and waits after it is the head in between, with what it is
settled with. -/
theorem Sound.keeps_between {u : World} {trace' : List (World × Event)} (h : w.Sound rt)
    (hrun : Run (Step rt) w trace u) (hrun' : Run (Step rt) u trace' v)
    (hpool : w.ledger P = .pool pool index) (hpull : w.ledger k = .pull pull) (hP : pull.pool = P)
    (hpending : pull.status = statusPending) (hhead : pull.index = pool.nextSettle)
    (hwaits : v.ledger k = .pull pull) : ∃ pool' index', u.ledger P = .pool pool' index' ∧
      pool'.nextSettle = pool.nextSettle ∧
      (w.ledger.banner P).Keeps pool index k pull (u.ledger.banner P) pool' index' := by
  have hu := h.of_run hrt hrun
  obtain ⟨pool₁, index₁, hpool₁, hlater⟩ := h.later hrt hpool hrun
  obtain ⟨pool₂, index₂, hpool₂, hlater'⟩ := hu.later hrt hpool₁ hrun'
  obtain ⟨m, hm⟩ := (hu.of_run hrt hrun').opened hpool₂
  -- Who waits is not behind the place that is settled next.
  obtain ⟨i, -, hindex⟩ := hm.queued.pending (Ledger.banner_pulls.mpr ⟨hwaits, hP⟩) hpending
  have hsame : pool₁.nextSettle = pool.nextSettle := by
    apply UInt64.toNat_inj.mp
    have := hlater.nextSettle
    have := hlater'.nextSettle
    rw [hm.queued.served, hhead] at hindex
    omega
  exact ⟨pool₁, index₁, hpool₁, hsame,
    h.keeps hrt hrun hpool hpull hP hpending hhead hpool₁ hsame⟩

/-! ## When a settlement succeeds -/

/-- What settles the head of a queue: a verified output, and the Items of its draws in their order. -/
structure Settles (rt : Runtime) (w : World) (P k : Pubkey) (pool : Pool) (index : List UInt8) (pull : Pull)
    (items : List AccountInfo) (proof : FixedBytes 80) (beta : FixedBytes 64) (awards : List Award) : Prop where
  proof : rt.verifyProof pool.operator (rt.sha256 (k.val ++ pull.clientSeed.val)) proof = some beta
  selected : rt.selections pool beta ((pool.tags index).take pull.inventoryVersion.toNat) 0
    pull.count.toNat = .ok (awards.map Award.draw)
  item : ∀ award ∈ awards, w.ledger award.account = .item award.item ∧ award.item.pool = P
  keys : awards.map Award.account = items.map AccountInfo.key
  writable : ∀ info ∈ items, info.isWritable = true

/-- The Items of the draws were issued before the purchase. -/
theorem Settles.position_lt {items : List AccountInfo} {proof : FixedBytes 80} {beta : FixedBytes 64}
    {awards : List Award} (h : w.Settles rt P k pool index pull items proof beta awards) {award : Award}
    (haward : award ∈ awards) : award.item.position.toNat < pull.inventoryVersion.toNat := by
  obtain ⟨-, -, hlive⟩ := Runtime.selections_spec h.selected
  obtain ⟨-, htier, hlive⟩ := hlive _ (List.mem_map_of_mem haward)
  have hlt := lt_length_of_live htier hlive
  rw [List.length_take] at hlt
  exact hlt.trans_le (min_le_left _ _)

/-- The same settles it in every state that keeps what it is settled with. -/
theorem Settles.of_keeps {items : List AccountInfo} {proof : FixedBytes 80} {beta : FixedBytes 64}
    {awards : List Award} (h : w.Settles rt P k pool index pull items proof beta awards)
    (hkeeps : (w.ledger.banner P).Keeps pool index k pull (v.ledger.banner P) pool' index') :
    v.Settles rt P k pool' index' pull items proof beta awards where
  proof := by
    rw [hkeeps.terms.operator]
    exact h.proof
  selected := (hkeeps.selections beta _).trans h.selected
  item award haward := by
    apply Ledger.banner_items.mp
    apply (hkeeps.items _ _ (h.position_lt haward)).mpr
    exact Ledger.banner_items.mpr (h.item award haward)
  keys := h.keys
  writable := h.writable

/-- What settled it later would have settled it before. -/
theorem Settles.of_kept {items : List AccountInfo} {proof : FixedBytes 80} {beta : FixedBytes 64}
    {awards : List Award} (h : v.Settles rt P k pool' index' pull items proof beta awards)
    (hkeeps : (w.ledger.banner P).Keeps pool index k pull (v.ledger.banner P) pool' index') :
    w.Settles rt P k pool index pull items proof beta awards where
  proof := by
    rw [← hkeeps.terms.operator]
    exact h.proof
  selected := (hkeeps.selections beta _).symm.trans h.selected
  item award haward := by
    apply Ledger.banner_items.mp
    apply (hkeeps.items _ _ (h.position_lt haward)).mp
    exact Ledger.banner_items.mpr (h.item award haward)
  keys := h.keys
  writable := h.writable

/-- The head of a queue is settled by the Items of its draws, with every verified output. -/
theorem Sound.exists_settles (h : w.Sound rt) (hpool : w.ledger P = .pool pool index)
    (hpull : w.ledger k = .pull pull) (hP : pull.pool = P) (hpending : pull.status = statusPending)
    (hhead : pull.index = pool.nextSettle) {proof : FixedBytes 80} {beta : FixedBytes 64}
    (hproof : rt.verifyProof pool.operator (rt.sha256 (k.val ++ pull.clientSeed.val)) proof = some beta) :
    ∃ awards : List Award, w.Settles rt P k pool index pull
      (awards.map fun award => ⟨award.account, false, true⟩) proof beta awards := by
  obtain ⟨m, hm⟩ := h.opened hpool
  obtain ⟨draws, hselected⟩ := hm.head_selections hpull hP hpending hhead beta
  obtain ⟨-, -, hlive⟩ := Runtime.selections_spec hselected
  -- What is live below the version is live in the whole index, and has its Item.
  obtain ⟨awards, rfl, hitems⟩ := @Shelved.awards _ _ _ _ hm.shelved draws fun d hd => by
    obtain ⟨-, htier, hd⟩ := hlive d hd
    have hlt := lt_length_of_live htier hd
    rw [List.length_take] at hlt
    rw [hm.tags_eq, Live, List.getD_eq_getElem?_getD, List.getElem?_take,
      if_pos (hlt.trans_le (min_le_left _ _)), ← List.getD_eq_getElem?_getD] at hd
    exact ⟨htier, hd⟩
  refine ⟨awards, hproof, hselected, fun award haward => Ledger.banner_items.mp (hitems award haward), ?_, ?_⟩
  · rw [List.map_map]
    rfl
  · intro info hinfo
    obtain ⟨award, -, rfl⟩ := List.mem_map.mp hinfo
    rfl

section Head

variable (h : w.Sound rt) (hpool : w.ledger P = .pool pool index) (hpull : w.ledger k = .pull pull)
  (hP : pull.pool = P) (hpending : pull.status = statusPending) (hhead : pull.index = pool.nextSettle)
  (htime : w.slot ≤ pull.deadlineSlot) {items : List AccountInfo} {proof : FixedBytes 80}

include h hpool hpull hP hpending hhead htime

/-- What a settlement of the head that succeeds was given, and what it records. -/
theorem Sound.settles_of_isOk {w' : World}
    (hprocess : processInstruction rt w (Settle.instruction P k pool.operator items proof) = .ok w') :
    ∃ beta awards, w.Settles rt P k pool index pull items proof beta awards ∧ w'.ledger k = .pull { pull with
      status := statusSettled, outcomes := recordAwards pull.outcomes 0 awards } := by
  rw [processInstruction_eq] at hprocess
  obtain ⟨call, hparse, hrun⟩ := bind_eq_ok.mp hprocess
  obtain ⟨a, ha, rfl⟩ := Settle.parse.mp hparse
  obtain ⟨hcount, hwritable, rfl⟩ :=
    (Settle.tryFrom_instruction hpool hpull hP hpending hhead htime).mp ha
  obtain ⟨-, pool₁, index₁, pull₁, beta, awards, heffect⟩ := Settle.process_ok h.counted ha hrun
  obtain ⟨rfl, rfl⟩ := Entry.pool.inj (hpool.symm.trans heffect.loaded)
  obtain rfl := Entry.pull.inj (hpull.symm.trans heffect.loadedPull)
  have hlength : awards.length = pull.count.toNat := by
    rw [← hcount, ← List.length_map (f := Award.account), heffect.accounts, List.length_map]
    rfl
  obtain ⟨tiers, index₂, pendingDraws, nextSettle, -, -, -, -, hledger⟩ := heffect.ledger
  refine ⟨beta, awards, ⟨heffect.proof, hlength ▸ heffect.selected, heffect.item, heffect.accounts,
    fun info hinfo => (hwritable info hinfo).1⟩, ?_⟩
  rw [hledger]
  exact Function.update_self _ _ _

include hrt in
/-- A settlement of the head with what settles it succeeds. -/
theorem Sound.isOk_of_settles (hbacked : w.Backed) (hoperator : ¬rt.IsPda pool.operator)
    {beta : FixedBytes 64} {awards : List Award}
    (hsettles : w.Settles rt P k pool index pull items proof beta awards) :
    ∃ w', processInstruction rt w (Settle.instruction P k pool.operator items proof) = .ok w' := by
  obtain ⟨m, hm⟩ := h.opened hpool
  have hother : ∀ item, w.ledger pool.operator ≠ .item item := by
    intro item hitem
    obtain ⟨m', hm'⟩ := h.banner item.pool
    exact hoperator (hm'.item_isPda (Ledger.banner_items.mpr ⟨hitem, rfl⟩))
  have hcount : items.length = pull.count.toNat := by
    obtain ⟨hlength, -, -⟩ := Runtime.selections_spec hsettles.selected
    rw [← hlength, List.length_map, ← List.length_map (f := Award.account), hsettles.keys, List.length_map]
  have hitems : ∀ info ∈ items, info.isWritable = true ∧ ∃ item, w.ledger info.key = .item item := by
    intro info hinfo
    obtain ⟨award, haward, heq⟩ := List.mem_map.mp (hsettles.keys ▸ List.mem_map_of_mem hinfo)
    exact ⟨hsettles.writable info hinfo, award.item, heq ▸ (hsettles.item award haward).1⟩
  have haccounts : SettleAccounts.tryFrom w (Settle.instruction P k pool.operator items proof).accounts =
      .ok (Settle.accounts P k pool.operator items) :=
    (Settle.tryFrom_instruction hpool hpull hP hpending hhead htime).mpr ⟨hcount, hitems, rfl⟩
  have hsettling : w.Settling rt (Settle.accounts P k pool.operator items) pool index pull m :=
    ⟨hpool, hpull, hP, hpending, hhead, hcount, hm⟩
  obtain ⟨w', hrun⟩ := hsettling.process_isOk hrt hbacked hother hsettles.proof hsettles.selected
    hsettles.item hsettles.keys
  refine ⟨w', ?_⟩
  rw [processInstruction_eq, Settle.parse.mpr ⟨_, haccounts, rfl⟩]
  exact hrun

end Head

include hrt in
/-- A settlement of the oldest purchase succeeds in one state of a run exactly if it succeeds in the other,
as long as the purchase waits in both and its deadline has not passed. It records the same outcomes. -/
theorem Reached.settlement_stands (hw : w.Reached rt) (hrun : Run (Step rt) w trace v)
    (hpool : w.ledger P = .pool pool index) (hpull : w.ledger k = .pull pull) (hP : pull.pool = P)
    (hpending : pull.status = statusPending) (hhead : pull.index = pool.nextSettle)
    (hpool' : v.ledger P = .pool pool' index') (hwaits : pool'.nextSettle = pool.nextSettle)
    (htime : w.slot ≤ pull.deadlineSlot) (htime' : v.slot ≤ pull.deadlineSlot) (hbacked : w.Backed)
    (hbacked' : v.Backed) (hoperator : ¬rt.IsPda pool.operator) (items : List AccountInfo)
    (proof : FixedBytes 80) :
    ((∃ w', processInstruction rt w (Settle.instruction P k pool.operator items proof) = .ok w') ↔
      ∃ v', processInstruction rt v (Settle.instruction P k pool.operator items proof) = .ok v') ∧
    ∀ w' v', processInstruction rt w (Settle.instruction P k pool.operator items proof) = .ok w' →
      processInstruction rt v (Settle.instruction P k pool.operator items proof) = .ok v' →
        v'.ledger k = w'.ledger k ∧ ∃ settled, w'.ledger k = .pull settled ∧
          settled.status = statusSettled := by
  have hsound := hw.sound hrt
  have hsound' := hsound.of_run hrt hrun
  have hkeeps := hsound.keeps hrt hrun hpool hpull hP hpending hhead hpool' hwaits
  have hoperator' : pool'.operator = pool.operator := hkeeps.terms.operator
  obtain ⟨hpull', -⟩ := Ledger.banner_pulls.mp hkeeps.loaded
  have hhead' : pull.index = pool'.nextSettle := hhead.trans hwaits.symm
  refine ⟨⟨?_, ?_⟩, fun w' v' hprocess hprocess' => ?_⟩
  · rintro ⟨w', hprocess⟩
    obtain ⟨beta, awards, hsettles, -⟩ :=
      hsound.settles_of_isOk hpool hpull hP hpending hhead htime hprocess
    have hlater := hsettles.of_keeps hkeeps
    rw [← hoperator'] at hoperator ⊢
    exact hsound'.isOk_of_settles hrt hpool' hpull' hP hpending hhead' htime' hbacked' hoperator hlater
  · rintro ⟨v', hprocess⟩
    rw [← hoperator'] at hprocess
    obtain ⟨beta, awards, hsettles, -⟩ :=
      hsound'.settles_of_isOk hpool' hpull' hP hpending hhead' htime' hprocess
    have hbefore := hsettles.of_kept hkeeps
    exact hsound.isOk_of_settles hrt hpool hpull hP hpending hhead htime hbacked hoperator hbefore
  · -- The same output and the same draws, so the same Items.
    obtain ⟨beta, awards, hsettles, hrecorded⟩ :=
      hsound.settles_of_isOk hpool hpull hP hpending hhead htime hprocess
    rw [← hoperator'] at hprocess'
    obtain ⟨beta', awards', hsettles', hrecorded'⟩ :=
      hsound'.settles_of_isOk hpool' hpull' hP hpending hhead' htime' hprocess'
    have hbefore := hsettles'.of_kept hkeeps
    obtain rfl : beta = beta' := Option.some.inj (hsettles.proof.symm.trans hbefore.proof)
    obtain ⟨m, hm⟩ := hsound.opened hpool
    obtain rfl : awards = awards' := by
      apply hm.shelved.awards_unique (Except.ok.inj (hsettles.selected.symm.trans hbefore.selected))
      · exact fun award haward => Ledger.banner_items.mpr (hsettles.item award haward)
      · exact fun award haward => Ledger.banner_items.mpr (hbefore.item award haward)
    exact ⟨hrecorded'.trans hrecorded.symm, _, hrecorded, rfl⟩

/-- The sample purchase, before and after its pool is paused. -/
theorem Reached.settlement_stands_sample : ∃ pool pull paused trace,
    Run (Step Sample.net.runtime) Sample.bought trace paused ∧ (∃ index, Sample.bought.ledger Sample.pool = .pool pool index) ∧
    Sample.bought.ledger Sample.pull = .pull pull ∧ ∀ items proof,
      ((∃ w', processInstruction Sample.net.runtime Sample.bought
          (Settle.instruction Sample.pool Sample.pull pool.operator items proof) = .ok w') ↔
        ∃ v', processInstruction Sample.net.runtime paused
          (Settle.instruction Sample.pool Sample.pull pool.operator items proof) = .ok v') ∧
      ∀ w' v', processInstruction Sample.net.runtime Sample.bought
          (Settle.instruction Sample.pool Sample.pull pool.operator items proof) = .ok w' →
        processInstruction Sample.net.runtime paused
          (Settle.instruction Sample.pool Sample.pull pool.operator items proof) = .ok v' →
          v'.ledger Sample.pull = w'.ledger Sample.pull ∧ ∃ settled, w'.ledger Sample.pull = .pull settled ∧
            settled.status = statusSettled := by
  obtain ⟨pool, index, hpool, hhead⟩ := Sample.exists_pool (e := Sample.bought.ledger Sample.pool)
    (p := fun pool => pool.nextSettle = 0 ∧ pool.operator = Sample.operator) (by decide +kernel)
  obtain ⟨pull, hpull, hopen⟩ := Sample.exists_pull (e := Sample.bought.ledger Sample.pull)
    (p := fun pull => pull.pool = Sample.pool ∧ pull.status = statusPending ∧ pull.index = 0 ∧
      5 ≤ pull.deadlineSlot) (by decide +kernel)
  obtain ⟨pool', index', hpool', hhead'⟩ := Sample.exists_pool
    (e := (Sample.after Sample.bought [Sample.setStatus 0]).ledger Sample.pool)
    (p := fun pool => pool.nextSettle = 0) (by decide +kernel)
  obtain ⟨trace, hrun⟩ := Sample.run_after Sample.bought [Sample.setStatus 0] (by decide +kernel)
  simp only [decide_eq_true_eq] at hhead hopen hhead'
  obtain ⟨hP, hpending, hindex, htime⟩ := hopen
  have hoperator : ¬Sample.net.runtime.IsPda pool.operator :=
    hhead.2 ▸ Sample.net.not_isPda_of_holdable (by decide +kernel)
  have hslot : Sample.bought.slot = 5 := by decide +kernel
  have hslot' : (Sample.after Sample.bought [Sample.setStatus 0]).slot = 5 := by decide +kernel
  have hbacked' : (Sample.after Sample.bought [Sample.setStatus 0]).Backed :=
    Sample.backed_after Sample.bought_backed (by decide +kernel)
  have hreached := Sample.bought_reached
  have hbacked := Sample.bought_backed
  generalize Sample.after Sample.bought [Sample.setStatus 0] = v at *
  generalize Sample.bought = w at *
  exact ⟨pool, pull, v, trace, hrun, ⟨index, hpool⟩, hpull, fun items proof =>
    Reached.settlement_stands Sample.net.runtime_lawful hreached hrun hpool hpull hP hpending
      (hindex.trans hhead.1.symm) hpool' (hhead'.trans hhead.1.symm) (hslot ▸ htime) (hslot' ▸ htime)
      hbacked hbacked' hoperator items proof⟩

end World

end SolanaGacha
