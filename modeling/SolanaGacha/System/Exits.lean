import SolanaGacha.Ledger.Enabled
import SolanaGacha.System.Queue
import SolanaGacha.System.Vault

/-!
# The exit of an expired buyer

While the clock does not run backwards, the deadlines of the pending Pulls ascend with their places in the
queue (`Banner.Timely`): a purchase adds the pool's fixed number of slots to the current one. So when a
Pull has expired, everything before it has too, and refunds clear the queue up to it one after the other
(`World.Sound.refunds`), whatever the status of the pool is and with nobody's signature.
-/

namespace SolanaGacha

open Except Layout Inventory

/-! ## Deadlines -/

/-- The deadlines of the pending Pulls ascend with their places, and none is further off than that of a
purchase now. -/
structure Banner.Timely (slot : UInt64) (S : Banner) : Prop where
  bounded : ∀ {pool index k pull}, S.pool = some (pool, index) → S.pulls k = some pull →
    pull.status = statusPending → pull.deadlineSlot.toNat ≤ slot.toNat + pool.deadlineSlots.toNat
  ordered : ∀ {k k' pull pull'}, S.pulls k = some pull → S.pulls k' = some pull' →
    pull.status = statusPending → pull'.status = statusPending → pull.index ≤ pull'.index →
      pull.deadlineSlot ≤ pull'.deadlineSlot

namespace Banner

variable {rt : Runtime} {slot : UInt64} {P : Pubkey} {S S' : Banner} {m : Market UInt8 Ticket}

theorem Timely.later {slot' : UInt64} (h : S.Timely slot) (hslot : slot ≤ slot') : S.Timely slot' where
  bounded hpool hpull hpending := by
    have hle := UInt64.le_iff_toNat_le.mp hslot
    exact (h.bounded hpool hpull hpending).trans (by omega)
  ordered := h.ordered

/-- No Pull starts to wait, and the pool keeps its number of slots. -/
theorem Timely.of_pulls (h : S.Timely slot)
    (hpool : ∀ {pool' index'}, S'.pool = some (pool', index') →
      ∃ pool index, S.pool = some (pool, index) ∧ pool.deadlineSlots = pool'.deadlineSlots)
    (hpulls : ∀ {k pull}, S'.pulls k = some pull → pull.status = statusPending → S.pulls k = some pull) :
    S'.Timely slot where
  bounded hpool' hpull hpending := by
    obtain ⟨pool, index, hpool, hslots⟩ := hpool hpool'
    rw [← hslots]
    exact h.bounded hpool (hpulls hpull hpending) hpending
  ordered hpull hpull' hpending hpending' :=
    h.ordered (hpulls hpull hpending) (hpulls hpull' hpending') hpending hpending'

/-- A Pull that is removed, or rewritten as settled. -/
theorem pulls_of_update {key k : Pubkey} {left : Option Pull} {pull : Pull}
    (hleft : ∀ pull, left = some pull → pull.status ≠ statusPending)
    (hk : Function.update S.pulls key left k = some pull) (hpending : pull.status = statusPending) :
    S.pulls k = some pull := by
  rw [Function.update_apply] at hk
  split_ifs at hk with hkey
  · exact absurd hpending (hleft pull hk)
  · exact hk

/-- Every step keeps the deadlines in order. -/
theorem Step.timely {move : Market.Move UInt8 Ticket} (hstep : Step rt slot P S move S')
    (hS : S.Represents rt P m) (h : S.Timely slot) : S'.Timely slot := by
  cases hstep with
  | idle books assets reserve =>
    refine h.of_pulls (fun hpool' => ?_) fun hpull _ => by rwa [books.pulls] at hpull
    rw [books.pool] at hpool'
    exact ⟨_, _, hpool', rfl⟩
  | create new valid stock counters header' items pulls =>
    cases hS with
    | opened hS => exact absurd (new.symm.trans hS.header) (by simp)
    | empty hpool hitems hpulls =>
      have hnone : ∀ k, S'.pulls k = none := fun k => by rw [pulls, hpulls]
      exact ⟨fun _ hk => by simp [hnone] at hk, fun hk => by simp [hnone] at hk⟩
  | setStatus header valid terminal header' items pulls assets reserve =>
    refine h.of_pulls (fun hpool' => ?_) fun hpull _ => by rwa [pulls] at hpull
    obtain ⟨rfl, rfl⟩ := Prod.mk.inj (Option.some.inj (header'.symm.trans hpool'))
    exact ⟨_, _, header, rfl⟩
  | restock header restocked derived vacant given header' items pulls assets reserve =>
    refine h.of_pulls (fun hpool' => ?_) fun hpull _ => by rwa [pulls] at hpull
    obtain ⟨rfl, rfl⟩ := Prod.mk.inj (Option.some.inj (header'.symm.trans hpool'))
    obtain ⟨tiers, heq, -⟩ := restocked.header
    exact ⟨_, _, header, by rw [heq]⟩
  | reclaim header settled loaded weights stock header' items pulls assets reserve =>
    refine h.of_pulls (fun hpool' => ?_) fun hpull _ => by rwa [pulls] at hpull
    obtain ⟨rfl, rfl⟩ := Prod.mk.inj (Option.some.inj (header'.symm.trans hpool'))
    exact ⟨_, _, header, rfl⟩
  | @buy _ pool index key pull left pendingDraws nextIndex header vacant valid pending place version deadline
      draws next remaining stock header' items pulls assets reserve =>
    have hopened := hS.of_header header
    -- The new Pull has the latest place, and its deadline is the latest there can be.
    have hcases : ∀ {k pull'}, S'.pulls k = some pull' → pull' = pull ∨ S.pulls k = some pull' := by
      intro k pull' hk
      rw [pulls, Function.update_apply] at hk
      split_ifs at hk with hkey
      · exact .inl (Option.some.inj hk).symm
      · exact .inr hk
    have hbound : ∀ {k pull'}, S.pulls k = some pull' → pull'.status = statusPending →
        pull'.deadlineSlot.toNat ≤ pull.deadlineSlot.toNat := fun hk hpending' => by
      rw [← deadline]
      exact h.bounded header hk hpending'
    refine ⟨fun hpool' hk hpending' => ?_, fun {k k' pull₁ pull₂} hk hk' h₁ h₂ hle => ?_⟩
    · obtain ⟨rfl, rfl⟩ := Prod.mk.inj (Option.some.inj (header'.symm.trans hpool'))
      rcases hcases hk with rfl | hold
      · exact deadline.ge
      · show _ ≤ slot.toNat + pool.deadlineSlots.toNat
        exact h.bounded header hold hpending'
    · rcases hcases hk with rfl | hold
      · rcases hcases hk' with rfl | hold'
        · exact UInt64.le_refl _
        · have hlt := hopened.queued.index_lt hold'
          rw [place] at hle
          exact absurd (UInt64.le_iff_toNat_le.mp hle) (by omega)
      · rcases hcases hk' with rfl | hold'
        · exact UInt64.le_iff_toNat_le.mpr (hbound hold h₁)
        · exact h.ordered hold hold' h₁ h₂ hle
  | refund header loaded pending head expired draws next header' items pulls assets paid =>
    refine h.of_pulls (fun hpool' => ?_) fun hpull => pulls_of_update (by simp) (pulls ▸ hpull)
    obtain ⟨rfl, rfl⟩ := Prod.mk.inj (Option.some.inj (header'.symm.trans hpool'))
    exact ⟨_, _, header, rfl⟩
  | settle header loaded pending head inTime draws next item nodup count selected weights stock header'
      items pulls assets vault =>
    refine h.of_pulls (fun hpool' => ?_) fun hpull => pulls_of_update (fun pull' hpull' => ?_) (pulls ▸ hpull)
    · obtain ⟨rfl, rfl⟩ := Prod.mk.inj (Option.some.inj (header'.symm.trans hpool'))
      exact ⟨_, _, header, rfl⟩
    · obtain rfl := Option.some.inj hpull'
      exact (by decide : statusSettled ≠ statusPending)
  | deliver header loaded settled inCount recorded undelivered closes header' items pulls assets
      reserve =>
    refine h.of_pulls (fun hpool' => ?_) fun hpull => pulls_of_update (fun pull' hpull' => ?_) (pulls ▸ hpull)
    · exact ⟨_, _, header'.symm.trans hpool', rfl⟩
    · split_ifs at hpull'
      obtain rfl := Option.some.inj hpull'
      intro hpending
      exact absurd (settled.symm.trans hpending) (by decide)

end Banner

namespace World

variable {rt : Runtime} (hrt : rt.Lawful) {w w' : World}

/-- A step that does not turn the clock back. -/
def TimedStep (rt : Runtime) (w : World) (event : Event) (w' : World) : Prop :=
  Step rt w event w' ∧ w.slot ≤ w'.slot

/-- The states that the chain reaches while its clock does not run backwards. -/
abbrev TimedReached (rt : Runtime) (w : World) : Prop :=
  Reachable (Genesis rt) (TimedStep rt) w

theorem TimedReached.reached (hw : w.TimedReached rt) : w.Reached rt :=
  hw.induct (fun _ => Reachable.of_init) fun _ _ _ _ hs hstep => hs.next hstep.1

include hrt in
/-- An instruction takes no time. -/
theorem TimedReached.call (hw : w.TimedReached rt) {call : Call} (h : Step rt w (.call call) w') :
    w'.TimedReached rt := by
  obtain ⟨hclock, -⟩ := h.effect hrt (hw.reached.sound hrt)
  exact Reachable.next hw ⟨h, UInt64.le_of_eq hclock.1.symm⟩

include hrt in
theorem TimedReached.execute {ixs : List Instruction} (hw : w.TimedReached rt)
    (hsigners : ∀ ix ∈ ixs, ix.Unforged rt) (h : w.execute rt ixs = .ok w') : w'.TimedReached rt := by
  induction ixs generalizing w with
  | nil =>
    obtain rfl := pure_eq_ok.mp h
    exact hw
  | cons ix ixs ih =>
    obtain ⟨w₁, hfirst, hrest⟩ := bind_eq_ok.mp h
    obtain ⟨call, -, hstep⟩ := step_of_process (hsigners ix List.mem_cons_self) hfirst
    exact ih (hw.call hrt hstep) (fun ix' hix => hsigners ix' (List.mem_cons_of_mem _ hix)) hrest

include hrt in
/-- Time passes. -/
theorem TimedReached.wait (hw : w.TimedReached rt) {slot : UInt64} (h : w.slot ≤ slot) :
    TimedReached rt { w with slot } :=
  Reachable.next hw ⟨.external (.clock (hw.reached.sound hrt).vault slot), h⟩

include hrt in
/-- In every such state the deadlines of every pool are in order. -/
theorem TimedReached.timely (hw : w.TimedReached rt) (P : Pubkey) : (w.ledger.banner P).Timely w.slot := by
  refine Reachable.induct (P := fun w => (w.ledger.banner P).Timely w.slot) (fun w h => ?_)
    (fun w event w' hw h hstep => ?_) hw
  · have hnone : ∀ k, (w.ledger.banner P).pulls k = none := fun k => ((h.foreign k).reads P).2.2
    exact ⟨fun _ hk => by simp [hnone] at hk, fun hk => by simp [hnone] at hk⟩
  · have hsound := TimedReached.reached hw |>.sound hrt
    obtain ⟨m, hm⟩ := hsound.banner P
    exact ((hstep.1.banner hrt hsound P).timely hm h).later hstep.2

end World

/-! ## One refund -/

/-- The instruction that refunds a Pull. Nobody signs it. -/
def Refund.instruction (pool pull buyer vault buyerAta : Pubkey) : Instruction where
  accounts := [⟨pool, false, true⟩, ⟨pull, false, true⟩, ⟨buyer, false, true⟩, ⟨vault, false, true⟩,
    ⟨buyerAta, false, true⟩, ⟨tokenId, false, false⟩, ⟨eventAuthority, false, false⟩,
    ⟨programId, false, false⟩]
  data := [11]

/-- What the handler makes of its accounts. -/
def Refund.accounts (pool pull buyer vault buyerAta : Pubkey) : RefundAccounts where
  pool := ⟨pool, false, true⟩
  pull := ⟨pull, false, true⟩
  buyer := ⟨buyer, false, true⟩
  vault := ⟨vault, false, true⟩
  buyerAta := ⟨buyerAta, false, true⟩
  eventAuthority := ⟨eventAuthority, false, false⟩
  program := ⟨programId, false, false⟩

/-- The head of a queue leaves it. -/
theorem Ledger.Fifo.tail {L L' : Ledger} {P : Pubkey} {x : Pubkey × Pull} {rest : List (Pubkey × Pull)}
    {left : Option Pull} (h : L.Fifo P (x :: rest))
    (hpulls : (L'.banner P).pulls = Function.update (L.banner P).pulls x.1 left)
    (hleft : ∀ pull, left = some pull → pull.status ≠ statusPending) : L'.Fifo P rest where
  mem {key pull} := by
    obtain ⟨hhead, hpool, hpending⟩ := h.mem.mp (show (x.1, x.2) ∈ x :: rest from List.mem_cons_self)
    obtain ⟨hfirst, -⟩ := List.pairwise_cons.mp h.sorted
    have hread : L' key = .pull pull ∧ pull.pool = P ↔
        Function.update (L.banner P).pulls x.1 left key = some pull := by
      rw [← hpulls, Ledger.banner_pulls]
    rw [← and_assoc, hread, Function.update_apply]
    constructor
    · intro hmem
      have hkey : key ≠ x.1 := by
        rintro rfl
        obtain ⟨hentry, -⟩ := h.mem.mp (List.mem_cons_of_mem x hmem)
        obtain rfl := Entry.pull.inj (hhead.symm.trans hentry)
        exact UInt64.lt_irrefl _ (hfirst _ hmem)
      obtain ⟨hentry, hP, hstatus⟩ := h.mem.mp (List.mem_cons_of_mem x hmem)
      rw [if_neg hkey]
      exact ⟨Ledger.banner_pulls.mpr ⟨hentry, hP⟩, hstatus⟩
    · rintro ⟨hentry, hstatus⟩
      split_ifs at hentry with hkey
      · exact absurd hstatus (hleft pull hentry)
      · obtain ⟨hentry, hP⟩ := Ledger.banner_pulls.mp hentry
        rcases List.mem_cons.mp (h.mem.mpr ⟨hentry, hP, hstatus⟩) with heq | hmem
        · exact absurd (congrArg Prod.fst heq) hkey
        · exact hmem
  sorted := (List.pairwise_cons.mp h.sorted).2

/-- What a refund does to balances: exactly its amount goes from the vault to the buyer's account. -/
theorem Refund.Effect.paid {rt : Runtime} {slot : UInt64} {a : RefundAccounts} {pool : Pool}
    {index : List UInt8} {pull : Pull} {L L' : Ledger} (h : Refund.Effect rt slot a pool index pull L L')
    (hne : a.vault.key ≠ a.buyerAta.key) :
    (L' a.buyerAta.key).balance = (L a.buyerAta.key).balance +
        (pool.price.toNat + pool.bondPerDraw.toNat) * pull.count.toNat ∧
      (L a.vault.key).balance = (L' a.vault.key).balance +
        (pool.price.toNat + pool.bondPerDraw.toNat) * pull.count.toNat ∧
      (∀ k, k ≠ a.vault.key → (L' k).balance + (L' a.vault.key).balance ≤
        (L k).balance + (L a.vault.key).balance) ∧
      ∀ k token, L k = .token token → ∃ token', L' k = .token token' ∧ token'.owner = token.owner ∧
        token'.mint = token.mint := by
  obtain ⟨amount, pendingDraws, nextSettle, M, hamount, -, -, hpaid, rfl⟩ := h.ledger
  have hcost := (Pool.refundAmount_eq_ok.mp hamount).2
  rw [UInt8.toNat_toUInt64] at hcost
  rw [hcost]
  generalize hpool' : ({ pool with pendingDraws, nextSettle } : Pool) = pool' at hpaid
  have hneq := Ledger.ne_of_entry h.loadedPull h.loaded (by simp)
  have hM : M a.pull.key = .pull pull :=
    hpaid.of_pull (by rw [Function.update_of_ne hneq, h.loadedPull])
  have hbefore : ∀ k, (Function.update L a.pool.key (.pool pool' index) k).balance = (L k).balance :=
    Ledger.read_update Entry.balance (by rw [h.loaded]; rfl)
  have hafter : ∀ k, (Function.update M a.pull.key .vacant k).balance = (M k).balance :=
    Ledger.read_update Entry.balance (by rw [hM]; rfl)
  refine ⟨?_, ?_, fun k hk => ?_, fun k token hk => ?_⟩
  · rw [hafter, hpaid.balance_destination hne, hbefore]
  · rw [hafter, ← hpaid.balance_source hne, hbefore]
  · rw [hafter, hafter, ← hbefore k, ← hbefore a.vault.key]
    exact hpaid.balance_add_le hk
  · have hkpool := Ledger.ne_of_entry hk h.loaded (by simp)
    have hkpull := Ledger.ne_of_entry hk h.loadedPull (by simp)
    rw [Function.update_of_ne hkpull]
    rcases hpaid.eq_or_tokens k with heq | ⟨s, s', hs, hs', howner, hmint⟩
    · exact ⟨token, by rw [heq, Function.update_of_ne hkpool, hk], rfl, rfl⟩
    · rw [Function.update_of_ne hkpool, hk] at hs
      obtain rfl := Entry.token.inj hs
      exact ⟨s', hs', howner, hmint⟩

namespace World

/-- A Pull that can be refunded, and the token account that is paid: of its buyer and the payment mint,
and with room for what the vault holds. -/
structure Refundable (rt : Runtime) (w : World) (P : Pubkey) (pool : Pool) (k ata : Pubkey) (pull : Pull) :
    Prop where
  loaded : w.ledger k = .pull pull
  samePool : pull.pool = P
  pending : pull.status = statusPending
  expired : pull.deadlineSlot < w.slot
  destination : ∃ token, w.ledger ata = .token token ∧ token.owner = pull.buyer ∧
    token.mint = pool.paymentMint ∧ token.amount.toNat + (w.ledger pool.vault).balance < 2 ^ 64

variable {rt : Runtime} (hrt : rt.Lawful) {w w' : World}

section Refund

variable {P k ata : Pubkey} {pool : Pool} {index : List UInt8} {pull : Pull} {m : Market UInt8 Ticket}
  (hm : (w.ledger.banner P).Opened rt P pool index m) (h : w.Refundable rt P pool k ata pull)
  (hhead : pull.index = pool.nextSettle)

include hm h in
/-- The vault is a token account of the pool that covers the refund. -/
theorem Refundable.vault (hhead : pull.index = pool.nextSettle) (howned : ∀ {mint v token},
    rt.ata P mint = some v → w.ledger v = .token token → token.owner = P ∧ token.mint = mint) :
    pull.count.toNat ≤ pool.pendingDraws.toNat ∧ ∃ token, w.ledger pool.vault = .token token ∧
      token.owner = P ∧ token.mint = pool.paymentMint ∧ pool.reserve ≤ token.amount.toNat := by
  have hpull := Ledger.banner_pulls.mpr ⟨h.loaded, h.samePool⟩
  obtain ⟨rest, hqueue⟩ := hm.queued.head hpull h.pending hhead
  have hdraws := hm.queued.draws
  rw [hqueue, Market.demand_cons] at hdraws
  have hcount : pull.count.toNat ≤ pool.pendingDraws.toNat := by
    rw [hdraws]
    exact Nat.le_add_right _ _
  have hpos := (hm.pull hpull).count.1
  obtain ⟨token, htoken, hle⟩ := hm.vault_covers fun hzero => by
    rw [hzero] at hcount
    exact not_le.mpr hpos hcount
  obtain ⟨howner, hmint⟩ := howned hm.valid.vault htoken
  exact ⟨hcount, token, htoken, howner, hmint, hle⟩

include hrt in
/-- A refund of the expired head of the queue succeeds. -/
theorem Sound.refund_isOk (hw : w.Sound rt) (htokens : rt.TransfersTokens) (hlamports : rt.Conserves)
    (hbacked : w.Backed) (hpool : w.ledger P = .pool pool index)
    (h : w.Refundable rt P pool k ata pull) (hhead : pull.index = pool.nextSettle) :
    ∃ w', processInstruction rt w (Refund.instruction P k pull.buyer pool.vault ata) = .ok w' ∧
      Step rt w (.call (.refund (Refund.accounts P k pull.buyer pool.vault ata))) w' := by
  obtain ⟨m, hm⟩ := hw.opened hpool
  obtain ⟨hcount, vault, hvault, hvaultOwner, hvaultMint, hcovers⟩ :=
    h.vault hm hhead (hw.vault hm.valid.isPda)
  obtain ⟨token, htoken, howner, hmint, hroom⟩ := h.destination
  rw [hvault] at hroom
  have hpull := Ledger.banner_pulls.mpr ⟨h.loaded, h.samePool⟩
  have hvalid := hm.pull hpull
  have hload := (Account.entry_eq_pool.mp hpool).1
  have hload' := Account.entry_eq_pull.mp h.loaded
  have hload'' := Account.entry_eq_token.mp htoken
  -- The vault belongs to a PDA, and the buyer's account does not.
  have hne : pool.vault ≠ ata := by
    rintro rfl
    obtain rfl := Entry.token.inj (hvault.symm.trans htoken)
    exact hvalid.buyer (howner ▸ hvaultOwner ▸ hm.valid.isPda)
  have hbuyer : pull.buyer ≠ k := fun heq => hvalid.buyer (heq ▸ ⟨_, hvalid.derived⟩)
  have hcounts : pull.count.toUInt64.toNat = pull.count.toNat := UInt8.toNat_toUInt64 _
  obtain ⟨amount, hamount, hprice⟩ := hm.refundAmount_isOk (hcounts.symm ▸ hcount)
  rw [hcounts] at hprice
  have hpays : amount.toNat ≤ vault.amount.toNat := by
    rw [hprice]
    exact (Nat.mul_le_mul_left _ hcount).trans hcovers
  have hdraws : pool.pendingDraws.checkedSub pull.count.toUInt64 =
      some (pool.pendingDraws - pull.count.toUInt64) := if_pos (hcounts.symm ▸ hcount)
  have hplace := hm.queued.index_lt hpull
  have hnext : pull.index.checkedAdd 1 = some (pull.index + 1) :=
    if_pos ((Nat.succ_le_of_lt hplace).trans_lt pool.nextIndex.toNat_lt)
  have haccounts : RefundAccounts.tryFrom w
      (Refund.instruction P k pull.buyer pool.vault ata).accounts =
        .ok (Refund.accounts P k pull.buyer pool.vault ata) := by
    simp [RefundAccounts.tryFrom, Refund.instruction, Refund.accounts, World.account, hload, hload',
      hload'', h.samePool, h.pending, hhead, UInt64.not_le.mpr h.expired, howner, failIf]
  -- The header is written, the payment is made, and the Pull is closed.
  generalize hheader : ({ pool with
    pendingDraws := pool.pendingDraws - pull.count.toUInt64, nextSettle := pull.index + 1 } : Pool) = pool'
  have hstored := World.ledger_store_pool pool' hpool (by rw [← hheader]) (by rw [← hheader])
  have hkept : ∀ {key t}, w.ledger key = .token t → (w.store Pool.layout P pool').ledger key = .token t := by
    intro key t hkey
    rw [hstored, Function.update_of_ne (Ledger.ne_of_entry hkey hpool (by simp)), hkey]
  obtain ⟨paid, hpaid⟩ := @Runtime.transferTokens_isOk rt _ htokens ⟨pool.vault, false, true⟩
    ⟨ata, false, true⟩ ⟨P, false, true⟩ amount _ _ _ hm.valid.derived (hkept hvault) (hkept htoken) hvaultOwner (hvaultMint.trans hmint.symm) hpays
    (fun _ => (Nat.add_le_add_left hpays _).trans_lt hroom) rfl rfl
  have hpaidBacked := Runtime.transferTokens_backed hlamports hpaid (hbacked.store _ _)
  obtain ⟨accounts, hclose⟩ := close_isOk paid.accounts k pull.buyer
    (Accounts.Backed.pair hpaidBacked hbuyer)
  have hemit := @Runtime.emit_eq rt { paid with accounts } hrt 74 11 [P.val, k.val, u64.encode amount]
    ⟨eventAuthority, false, false⟩ ⟨programId, false, false⟩ (by simp [FixedBytes.length_val]) rfl rfl
  have hparse : Instruction.parse w (Refund.instruction P k pull.buyer pool.vault ata) =
      .ok (.refund (Refund.accounts P k pull.buyer pool.vault ata)) := by
    unfold Instruction.parse
    rw [haccounts]
    rfl
  have hprocess : processInstruction rt w (Refund.instruction P k pull.buyer pool.vault ata) =
      rt.emit { paid with accounts } 74 11 [P.val, k.val, u64.encode amount]
        ⟨eventAuthority, false, false⟩ ⟨programId, false, false⟩ := by
    rw [processInstruction_eq, hparse, ok_bind]
    simp [Call.process, Refund.process, Refund.accounts, World.account, hload, hload', hamount, hdraws,
      hnext, okOr, hheader, hpaid, hclose]
  have hdone := hprocess.trans hemit
  exact ⟨_, hdone, .call (by simp [Refund.instruction]) hparse hdone⟩

end Refund

/-! ## Clearing the queue -/

/-- Refunds of some Pulls of the pool at `P`, one after the other. Each succeeds, pays the token account
that was named for its Pull exactly the price and the penalty out of the vault, and closes the Pull. -/
inductive Refunds (rt : Runtime) (P : Pubkey) (atas : Pubkey → Pubkey) :
    World → List (Pubkey × Pull) → World → Prop
  | nil {w : World} : Refunds rt P atas w [] w
  | cons {w w₁ w' : World} {k : Pubkey} {pull : Pull} {rest : List (Pubkey × Pull)} {pool : Pool}
      {index : List UInt8} (loaded : w.ledger P = .pool pool index) (loadedPull : w.ledger k = .pull pull)
      (process : processInstruction rt w
        (Refund.instruction P k pull.buyer pool.vault (atas k)) = .ok w₁)
      (received : (w₁.ledger (atas k)).balance = (w.ledger (atas k)).balance +
        (pool.price.toNat + pool.bondPerDraw.toNat) * pull.count.toNat)
      (spent : (w.ledger pool.vault).balance = (w₁.ledger pool.vault).balance +
        (pool.price.toNat + pool.bondPerDraw.toNat) * pull.count.toNat)
      (closed : w₁.ledger k = .vacant) (slot : w₁.slot = w.slot)
      (next : Refunds rt P atas w₁ rest w') : Refunds rt P atas w ((k, pull) :: rest) w'

include hrt in
/-- The expired Pulls at the front of the queue are refunded one after the other. -/
theorem Sound.refunds (htokens : rt.TransfersTokens) (hlamports : rt.Conserves) {P : Pubkey}
    {atas : Pubkey → Pubkey} {front back : List (Pubkey × Pull)} {pool : Pool} {index : List UInt8}
    (hw : w.Sound rt) (hbacked : w.Backed) (hpool : w.ledger P = .pool pool index)
    (hfifo : w.ledger.Fifo P (front ++ back))
    (hready : ∀ x ∈ front, w.Refundable rt P pool x.1 (atas x.1) x.2) :
    ∃ w', Refunds rt P atas w front w' := by
  induction front generalizing w pool index with
  | nil => exact ⟨w, .nil⟩
  | cons x rest ih =>
    obtain ⟨k, pull⟩ := x
    have hfirst : w.Refundable rt P pool k (atas k) pull := hready (k, pull) List.mem_cons_self
    obtain ⟨m, hm⟩ := hw.opened hpool
    -- The first Pull of the queue is the one whose turn it is.
    have hhead : pull.index = pool.nextSettle := by
      obtain ⟨queue, hfifo', -, hindices⟩ := hm.fifo
      obtain rfl := hfifo'.unique hfifo
      have hlen := congrArg List.length hindices
      rw [List.length_map, List.length_range', List.cons_append, List.length_cons] at hlen
      rw [← hlen, List.cons_append, List.map_cons, List.range'_succ] at hindices
      exact UInt64.toNat_inj.mp ((List.cons.inj hindices).1.trans hm.queued.served)
    obtain ⟨w₁, hprocess, hstep⟩ := hw.refund_isOk hrt htokens hlamports hbacked hpool hfirst hhead
    obtain ⟨hclock, ⟨pool', index', pull', heffect⟩, -⟩ := hstep.effect hrt hw
    obtain ⟨rfl, rfl⟩ := Entry.pool.inj (hpool.symm.trans heffect.loaded)
    obtain rfl := Entry.pull.inj (hfirst.loaded.symm.trans heffect.loadedPull)
    -- The vault is the pool's, and the buyer's account is not.
    obtain ⟨-, vault, hvault, hvaultOwner, -⟩ := hfirst.vault hm hhead (hw.vault hm.valid.isPda)
    have hdistinct : ∀ {x : Pubkey × Pull}, x ∈ (k, pull) :: rest → atas x.1 ≠ pool.vault := by
      intro x hx heq
      have hx := hready x hx
      obtain ⟨token, htoken, howner, -⟩ := hx.destination
      obtain rfl := Entry.token.inj (hvault.symm.trans (heq ▸ htoken))
      have hbuyer := (hm.pull (Ledger.banner_pulls.mpr ⟨hx.loaded, hx.samePool⟩)).buyer
      exact hbuyer (howner ▸ hvaultOwner ▸ hm.valid.isPda)
    obtain ⟨hreceived, hspent, hsum, hkept⟩ := heffect.paid (hdistinct List.mem_cons_self).symm
    have hfifo₁ : w₁.ledger.Fifo P (rest ++ back) := hfifo.tail heffect.pulls (by simp)
    obtain ⟨pendingDraws, nextSettle, hpool₁⟩ : ∃ pendingDraws nextSettle, w₁.ledger P =
        .pool { pool with pendingDraws, nextSettle } index := by
      obtain ⟨amount, pendingDraws, nextSettle, M, -, -, -, hpaid, hledger⟩ := heffect.ledger
      refine ⟨pendingDraws, nextSettle, ?_⟩
      rw [hledger]
      refine (Function.update_of_ne (Ledger.ne_of_entry hpool hfirst.loaded (by simp)) _ _).trans ?_
      refine Ledger.banner_pool.mp ((hpaid.sameBooks P).pool.trans (Ledger.banner_pool.mpr ?_))
      exact Function.update_self _ _ _
    have hclosed : w₁.ledger k = .vacant := by
      obtain ⟨amount, pendingDraws, nextSettle, M, -, -, -, -, hledger⟩ := heffect.ledger
      rw [hledger]
      exact Function.update_self _ _ _
    obtain ⟨w', hrest⟩ := ih (hstep.sound hrt hw) (processInstruction_backed hlamports hprocess hbacked)
      hpool₁ hfifo₁ fun x hx => by
        have hx' := hready x (List.mem_cons_of_mem _ hx)
        obtain ⟨token, htoken, howner, hmint, hroom⟩ := hx'.destination
        obtain ⟨token', htoken', howner', hmint'⟩ := hkept _ _ htoken
        have hsum := hsum (atas x.1) (hdistinct (List.mem_cons_of_mem _ hx))
        rw [htoken, htoken'] at hsum
        refine ⟨(hfifo₁.mem.mp (List.mem_append_left _ hx)).1, hx'.samePool, hx'.pending, ?_, token',
          htoken', howner'.trans howner, hmint'.trans hmint, hsum.trans_lt hroom⟩
        rw [hclock.1]
        exact hx'.expired
    exact ⟨w', .cons hpool hfirst.loaded hprocess hreceived hspent hclosed hclock.1 hrest⟩

include hrt in
/-- In every state that the chain reaches while its clock does not run backwards: when a Pull has expired,
every pending Pull with a smaller index has too, and the refunds of all of them in the order of the queue
succeed at the current slot. Each pays its buyer exactly, and closes its Pull. -/
theorem TimedReached.exits (htokens : rt.TransfersTokens) (hlamports : rt.Conserves)
    (hw : w.TimedReached rt) (hbacked : w.Backed) {P k : Pubkey} {pool : Pool} {index : List UInt8}
    {pull : Pull} (hpool : w.ledger P = .pool pool index) (hpull : w.ledger k = .pull pull)
    (hP : pull.pool = P) (hpending : pull.status = statusPending) (hexpired : pull.deadlineSlot < w.slot)
    {atas : Pubkey → Pubkey} (hatas : ∀ k' pull', w.ledger k' = .pull pull' → pull'.pool = P →
      pull'.status = statusPending → pull'.index ≤ pull.index → ∃ token, w.ledger (atas k') = .token token ∧
        token.owner = pull'.buyer ∧ token.mint = pool.paymentMint ∧
          token.amount.toNat + (w.ledger pool.vault).balance < 2 ^ 64) :
    (∀ k' pull', w.ledger k' = .pull pull' → pull'.pool = P → pull'.status = statusPending →
      pull'.index ≤ pull.index → pull'.deadlineSlot < w.slot) ∧
    ∃ queue w', (∀ k' pull', (k', pull') ∈ queue ↔ w.ledger k' = .pull pull' ∧ pull'.pool = P ∧
        pull'.status = statusPending ∧ pull'.index ≤ pull.index) ∧
      queue.map (fun x => x.2.index.toNat) =
        List.range' pool.nextSettle.toNat (pull.index.toNat + 1 - pool.nextSettle.toNat) ∧
      queue.getLast? = some (k, pull) ∧ Refunds rt P atas w queue w' := by
  have hsound := hw.reached.sound hrt
  obtain ⟨m, hm⟩ := hsound.opened hpool
  have hearlier : ∀ k' pull', w.ledger k' = .pull pull' → pull'.pool = P →
      pull'.status = statusPending → pull'.index ≤ pull.index → pull'.deadlineSlot < w.slot := by
    intro k' pull' hpull' hP' hpending' hle
    have hdeadline := (hw.timely hrt P).ordered (Ledger.banner_pulls.mpr ⟨hpull', hP'⟩)
      (Ledger.banner_pulls.mpr ⟨hpull, hP⟩) hpending' hpending hle
    rw [UInt64.lt_iff_toNat_lt] at hexpired ⊢
    exact (UInt64.le_iff_toNat_le.mp hdeadline).trans_lt hexpired
  refine ⟨hearlier, ?_⟩
  -- The queue is cut behind the Pull.
  obtain ⟨queue, hfifo, -, hindices⟩ := hm.fifo
  obtain ⟨front, back, hcut⟩ := List.append_of_mem (hfifo.mem.mpr ⟨hpull, hP, hpending⟩)
  have happend : queue = (front ++ [(k, pull)]) ++ back := by rw [hcut]; simp
  have hsorted := hfifo.sorted
  rw [hcut, List.pairwise_append, List.pairwise_cons] at hsorted
  obtain ⟨-, ⟨hback, -⟩, hfront⟩ := hsorted
  have hmem : ∀ k' pull', (k', pull') ∈ front ++ [(k, pull)] ↔ w.ledger k' = .pull pull' ∧
      pull'.pool = P ∧ pull'.status = statusPending ∧ pull'.index ≤ pull.index := by
    intro k' pull'
    constructor
    · intro hx
      obtain ⟨hentry, hP', hpending'⟩ := hfifo.mem.mp (happend ▸ List.mem_append_left back hx)
      refine ⟨hentry, hP', hpending', ?_⟩
      rcases List.mem_append.mp hx with hx | hx
      · exact UInt64.le_of_lt (hfront _ hx _ List.mem_cons_self)
      · obtain ⟨-, rfl⟩ := Prod.mk.inj (List.mem_singleton.mp hx)
        exact UInt64.le_refl _
    · rintro ⟨hentry, hP', hpending', hle⟩
      rcases List.mem_append.mp (happend ▸ hfifo.mem.mpr ⟨hentry, hP', hpending'⟩) with hx | hx
      · exact hx
      · exact absurd hle (UInt64.not_le.mpr (hback _ hx))
  obtain ⟨w', hrefunds⟩ := @World.Sound.refunds _ hrt _ htokens hlamports P atas _ _ _ _ hsound hbacked
    hpool (happend ▸ hfifo) fun x hx => by
      obtain ⟨hentry, hP', hpending', hle⟩ := (hmem x.1 x.2).mp hx
      exact ⟨hentry, hP', hpending', hearlier _ _ hentry hP' hpending' hle,
        hatas _ _ hentry hP' hpending' hle⟩
  have hstart : (front ++ [(k, pull)]).map (fun x => x.2.index.toNat) =
      List.range' pool.nextSettle.toNat (front.length + 1) := by
    have hlen := congrArg List.length hindices
    rw [List.length_map, List.length_range', happend, List.length_append, List.length_append,
      List.length_singleton] at hlen
    have htake := congrArg (List.take (front.length + 1)) hindices
    rw [happend, List.map_append, List.take_left' (by simp),
      List.take_range'_of_length_ge (by omega), hm.queued.served] at htake
    exact htake
  have hlast : pull.index.toNat = pool.nextSettle.toNat + front.length := by
    have hget := congrArg (fun l => l[front.length]?) hstart
    simp only [List.map_append, List.map_cons, List.map_nil] at hget
    rw [List.getElem?_append_right (by simp), List.getElem?_range' (by omega)] at hget
    simpa using hget
  refine ⟨_, w', hmem, ?_, by simp, hrefunds⟩
  rw [hstart, show pull.index.toNat + 1 - pool.nextSettle.toNat = front.length + 1 by omega]

end World

/-- The sample purchase, after its deadline. -/
def Sample.expired : World := { Sample.bought with slot := 100 }

theorem Sample.expired_reached : World.TimedReached Sample.net.runtime Sample.expired := by
  have hrt := Sample.net.runtime_lawful
  have hstart : World.TimedReached Sample.net.runtime Sample.start :=
    .of_init (Sample.net.genesis (by decide +kernel) 5 0)
  have hopened : World.TimedReached Sample.net.runtime Sample.opened :=
    hstart.execute hrt (Sample.unforged_of_succeeds (w := Sample.start) (by decide +kernel))
      (Sample.execute_after (by decide +kernel))
  have hbought : World.TimedReached Sample.net.runtime Sample.bought :=
    hopened.execute hrt (Sample.unforged_of_succeeds (w := Sample.opened) (by decide +kernel))
      (Sample.execute_after (by decide +kernel))
  exact hbought.wait hrt (by decide +kernel)

theorem Sample.expired_backed : Sample.expired.Backed := Sample.bought_backed.wait 100

theorem World.TimedReached.exits_sample : ∃ pool index pull,
    Sample.expired.ledger Sample.pool = .pool pool index ∧
    Sample.expired.ledger Sample.pull = .pull pull ∧ pull.deadlineSlot < Sample.expired.slot ∧
    ∃ queue w', queue.getLast? = some (Sample.pull, pull) ∧
      World.Refunds Sample.net.runtime Sample.pool (fun _ => Sample.buyerAta) Sample.expired queue w' := by
  obtain ⟨pool, index, hpool, hterms⟩ := Sample.exists_pool (e := Sample.expired.ledger Sample.pool)
    (p := fun pool => pool.nextIndex = 1 ∧ pool.paymentMint = Sample.paymentMint ∧
      (Sample.expired.ledger pool.vault).balance < 2 ^ 32) (by decide +kernel)
  obtain ⟨pull, hpull, hopen⟩ := Sample.exists_pull (e := Sample.expired.ledger Sample.pull)
    (p := fun pull => pull.pool = Sample.pool ∧ pull.status = statusPending ∧ pull.deadlineSlot < 100 ∧
      pull.index = 0 ∧ pull.buyer = Sample.buyer) (by decide +kernel)
  obtain ⟨token, htoken, howner⟩ := Sample.exists_token (e := Sample.expired.ledger Sample.buyerAta)
    (p := fun token => token.owner = Sample.buyer ∧ token.mint = Sample.paymentMint ∧
      token.amount.toNat < 2 ^ 32) (by decide +kernel)
  simp only [decide_eq_true_eq] at hterms hopen howner
  obtain ⟨hnext, hmint, hvault⟩ := hterms
  obtain ⟨hP, hpending, hdeadline, hindex, hbuyer⟩ := hopen
  have hreached := Sample.expired_reached
  have hbacked := Sample.expired_backed
  have hslot : Sample.expired.slot = 100 := rfl
  generalize Sample.expired = w at *
  obtain ⟨m, hm⟩ := (hreached.reached.sound Sample.net.runtime_lawful).opened hpool
  refine ⟨pool, index, pull, hpool, hpull, by rw [hslot]; exact hdeadline, ?_⟩
  obtain ⟨-, queue, w', -, -, hlast, hrefunds⟩ := @World.TimedReached.exits _
    Sample.net.runtime_lawful _ Sample.net.transfersTokens Sample.net.conserves hreached hbacked _ _ _ _ _
    hpool hpull hP hpending (by rw [hslot]; exact hdeadline) (fun _ => Sample.buyerAta) fun k' pull' hpull' hP' _ hle => by
      -- There is one Pull.
      have hpulls := Ledger.banner_pulls.mpr ⟨hpull, hP⟩
      have hpulls' := Ledger.banner_pulls.mpr ⟨hpull', hP'⟩
      have hzero : pull'.index = pull.index := by
        rw [hindex] at hle ⊢
        exact UInt64.le_zero_iff.mp hle
      obtain rfl := hm.queued.distinct hpulls' hpulls hzero
      obtain rfl := Entry.pull.inj (hpull.symm.trans hpull')
      exact ⟨token, htoken, howner.1.trans hbuyer.symm, howner.2.1.trans hmint.symm, by omega⟩
  exact ⟨queue, w', hlast, hrefunds⟩

end SolanaGacha
