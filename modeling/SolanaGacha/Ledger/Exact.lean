import SolanaGacha.Ledger.Draw

/-!
# The draw loop, exactly

When the plain list has selections, nothing but the Item accounts that are passed can fail the draw loop:
`drawOne_eq` is the rest of one draw's body once its arithmetic on the index and on the counts is done.
From it follow the faults that the loop can have (`drawLoop_avoids`) and that it succeeds on the Items of
the selections (`drawLoop_isOk`).
-/

namespace SolanaGacha

open Except Layout Inventory

/-! ## Called programs that succeed -/

/-- Core transfers an asset for its owner, when it is given the asset's collection. -/
def Runtime.TransfersAssets (rt : Runtime) : Prop :=
  ∀ (accounts : Accounts) (key payer newOwner : Pubkey) (asset : CoreAsset),
    accounts.ledger key = .asset asset →
      ∃ accounts', rt.coreTransfer accounts key (asset.collection.getD coreId) payer asset.owner newOwner =
        some accounts'

/-- SPL Token transfers within the balance of the source, for its owner, unless the destination overflows. -/
def Runtime.TransfersTokens (rt : Runtime) : Prop :=
  ∀ (accounts : Accounts) (source destination : Pubkey) (amount : UInt64) (s d : TokenAccount),
    accounts.ledger source = .token s → accounts.ledger destination = .token d → s.mint = d.mint →
      amount ≤ s.amount → (source ≠ destination → d.amount.toNat + amount.toNat < 2 ^ 64) →
        ∃ accounts', rt.tokenTransfer accounts source destination s.owner amount = some accounts'

/-! ## Faults -/

/-- A failure of the program's own bookkeeping: its stock or its arithmetic does not add up. -/
def Fault.Internal (e : Fault) : Prop := e = .panicked ∨ e = .custom .soldOut

instance (e : Fault) : Decidable e.Internal := inferInstanceAs (Decidable (_ ∨ _))

theorem Fault.Internal.ne {e e' : Fault} (h : e.Internal) (h' : ¬e'.Internal) : e' ≠ e :=
  fun heq => h' (heq ▸ h)

section Avoids

variable {account : Account} {e : Fault} (he : e.Internal)

include he

theorem load_avoids {α : Type} (layout : Layout α) (len : ℕ) (versionOf : α → UInt8) (version : UInt8)
    (validLen : α → ℕ → Bool) : (load layout len versionOf account version validLen).Avoids e := by
  refine .bind (avoids_failIf fun _ => he.ne (by decide)) fun _ _ => ?_
  refine .bind (avoids_failIf fun _ => he.ne (by decide)) fun _ _ => ?_
  refine .bind (avoids_failIf fun _ => he.ne (by decide)) fun _ _ => ?_
  exact .bind (avoids_failIf fun _ => he.ne (by decide)) fun _ _ => avoids_ok _

theorem close_avoids (accounts : Accounts) (account receiver : Pubkey) :
    (close accounts account receiver).Avoids e :=
  .bind (avoids_okOr fun _ => he.ne (by decide)) fun _ _ => avoids_ok _

theorem Runtime.signerKeys_avoids (rt : Runtime) (signers : List (List (List UInt8))) :
    (rt.signerKeys signers).Avoids e := by
  induction signers with
  | nil => exact avoids_ok _
  | cons seeds signers ih =>
    exact .bind (avoids_okOr fun _ => he.ne (by decide)) fun _ _ => .bind ih fun _ _ => avoids_ok _

theorem Runtime.checkMetas_avoids (rt : Runtime) (metas : List Runtime.AccountMeta)
    (signers : List (List (List UInt8))) : (rt.checkMetas metas signers).Avoids e :=
  .bind (rt.signerKeys_avoids he signers) fun _ _ => avoids_failIf fun _ => he.ne (by decide)

/-- A cross-program invocation fails outside of the program. -/
theorem Runtime.invokeSigned_avoids (rt : Runtime) (w : World) (metas : List Runtime.AccountMeta)
    (signers : List (List (List UInt8))) (call : Accounts → Option Accounts) :
    (rt.invokeSigned w metas signers call).Avoids e :=
  .bind (rt.checkMetas_avoids he metas signers) fun _ _ =>
    .bind (avoids_okOr fun _ => he.ne (by decide)) fun _ _ => avoids_ok _

/-- An event fits its buffer, and its emission can only be rejected. -/
theorem Runtime.emit_avoids (rt : Runtime) (w : World) {size : ℕ} (discriminator : UInt8)
    {fields : List (List UInt8)} (authority program : AccountInfo)
    (hsize : (fields.map List.length).sum + 2 ≤ size) :
    (rt.emit w size discriminator fields authority program).Avoids e := by
  have hfits : ¬size < (eventDiscriminator :: discriminator :: fields.flatten).length := by
    rw [List.length_cons, List.length_cons, List.length_flatten]
    omega
  refine .bind ?_ fun data _ => ?_
  · rw [eventData, failIf_neg hfits]
    exact avoids_ok _
  refine .bind (avoids_failIf fun _ => he.ne (by decide)) fun _ _ => ?_
  refine .bind (rt.checkMetas_avoids he _ _) fun _ _ => ?_
  exact .bind (avoids_failIf fun _ => he.ne (by decide)) fun _ _ => avoids_ok _

end Avoids

/-- Closing succeeds when the lamports of both accounts fit. -/
theorem close_isOk (accounts : Accounts) (account receiver : Pubkey)
    (h : (accounts receiver).lamports.toNat + (accounts account).lamports.toNat < 2 ^ 64) :
    ∃ accounts', close accounts account receiver = .ok accounts' := by
  rw [close, UInt64.checkedAdd, if_pos h]
  exact ⟨_, rfl⟩

theorem Pool.updateRemaining_isOk {pool : Pool} {tier : UInt8} {f : UInt32 → Option UInt32}
    {remaining : UInt32} (hcount : pool.tierCount.toNat ≤ 8) (htier : tier.toNat < pool.tierCount.toNat)
    (ht8 : tier.toNat < 8) (hf : f pool.tiers[tier.toNat].remaining = some remaining) :
    ∃ pool', pool.updateRemaining tier f = .ok pool' :=
  ⟨_, updateRemaining_eq_ok.mpr ⟨hcount, htier, _, remaining, Vector.getElem?_eq_getElem ht8, hf, rfl⟩⟩

theorem Pull.length_outcomeBytes {pull : Pull} {count : ℕ} {outcomes : List UInt8}
    (h : pull.outcomeBytes count = .ok outcomes) : outcomes.length ≤ 330 := by
  simp only [outcomeBytes, bind_eq_ok, failIf_eq_ok, pure_eq_ok] at h
  obtain ⟨_, hcount, rfl⟩ := h
  rw [not_lt, maxCount] at hcount
  rw [List.length_flatMap, List.map_congr_left fun _ _ => Outcome.layout.encode_length _, List.map_const',
    List.sum_replicate, List.length_take, smul_eq_mul]
  show min count _ * 33 ≤ 330
  omega

namespace Runtime

variable {rt : Runtime} {poolKey operator : Pubkey} {beta : FixedBytes 64}

/-- A draw up to its Item account: the header, the index and the counts that it leaves. -/
structure DrawnOne (s : DrawState) (tags : List UInt8) (cutoff p : ℕ) (pool : Pool)
    (inventory : Inventory) (available : Vector UInt32 8) : Prop where
  header : ∃ tiers, pool = { s.pool with tiers } ∧
    tiers.map Tier.weight = s.pool.tiers.map Tier.weight
  draw : pool.draw = s.pool.draw
  stock : Stock pool inventory.data (tags.set p 0)
  available : available = tally ((tags.set p 0).take cutoff)

section Selected

variable {s : DrawState} {tags : List UInt8} {cutoff i : ℕ} {tier : UInt8} {rank : UInt32} {p : ℕ}
  (hstock : Stock s.pool s.inventory.data tags) (havailable : s.available = tally (tags.take cutoff))
  (hdraw : s.pool.draw (rt.sha256 (beta.val ++ [UInt8.ofNat i])) (tally (tags.take cutoff)) =
    .ok (tier, rank))
  (hp : ((tags.take cutoff).idxsOf (tierTag tier.toNat))[rank.toNat]? = some p)

include hstock havailable hdraw hp

/-- The part of a draw that works on the header, the index and the counts, when the plain list has a
selection. -/
theorem drawnOne_isOk : ∃ pool inventory count left,
    DrawnOne s tags cutoff p pool inventory (s.available.setIfInBounds tier.toNat left) ∧
      (take tier rank).run s.inventory = .ok (UInt32.ofNat p, inventory) ∧
      s.available[tier.toNat]? = some count ∧ count.checkedSub 1 = some left ∧
      s.pool.updateRemaining tier (·.checkedSub 1) = .ok pool := by
  have hlen : (tags.take cutoff).length < 2 ^ 32 := by
    have := hstock.indexed.small
    rw [List.length_take]
    omega
  obtain ⟨htiers, htier, -⟩ := Pool.draw_spec hdraw
  have ht8 : tier.toNat < 8 := by omega
  have hwhole := (getElem?_idxsOf_take hp).2
  have hlive := live_of_getElem?_idxsOf hwhole
  have hlive' := live_of_getElem?_idxsOf hp
  obtain ⟨data, htake, hindexed⟩ := take_run hstock.indexed ht8 hwhole
  -- The counts have something to take away: the position is counted in both.
  have hcount : 1 ≤ (tally (tags.take cutoff))[tier.toNat].toNat := by
    rw [getElem_tally hlen ht8]
    exact count_pos_of_live ht8 hlive'
  have hremaining : 1 ≤ s.pool.tiers[tier.toNat].remaining.toNat := by
    rw [hstock.remaining tier.toNat ht8]
    exact count_pos_of_live ht8 hlive
  obtain ⟨left, hleft⟩ := UInt32.checkedSub_isSome (b := 1) hcount
  obtain ⟨remaining, hcounter⟩ := UInt32.checkedSub_isSome (b := 1) hremaining
  obtain ⟨pool, hcounter⟩ := Pool.updateRemaining_isOk htiers htier ht8 (f := (·.checkedSub 1)) hcounter
  have hsub : (tally (tags.take cutoff))[tier.toNat].toNat = left.toNat + 1 :=
    (UInt32.checkedSub_eq_some.mp hleft).trans (Nat.add_comm _ _)
  refine ⟨pool, ⟨data⟩, _, left, ⟨Pool.updateRemaining_frame hcounter,
    Pool.draw_updateRemaining hcounter, hstock.clear hlive hindexed hcounter, ?_⟩,
    InventoryM.run_eq_ok.mpr htake, ?_, hleft, hcounter⟩
  · rw [havailable, tally_set hlen ht8 hlive' hsub, List.take_set]
  · rw [havailable, Vector.getElem?_eq_getElem ht8]

/-- The body of the loop, when the plain list has a selection. -/
theorem drawOne_eq (poolKey operator : Pubkey) (info : AccountInfo) (hsmall : i < 10) :
    ∃ pool inventory available, DrawnOne s tags cutoff p pool inventory available ∧
      rt.drawOne poolKey operator beta s i info = (do
        let item ← Item.load (s.accounts info.key)
        failIf (item.pool ≠ poolKey ∨ item.tier ≠ tier ∨ item.position ≠ UInt32.ofNat p)
          GachaError.invalidItem
        let accounts ← close s.accounts info.key operator
        return ⟨pool, inventory, { s.pull with
          outcomes := s.pull.outcomes.setIfInBounds i ⟨tier, item.asset⟩ }, accounts, available⟩) := by
  obtain ⟨pool, inventory, count, left, drawn, htake, hcount, hleft, hcounter⟩ :=
    drawnOne_isOk hstock havailable hdraw hp
  refine ⟨pool, inventory, _, drawn, ?_⟩
  simp only [drawOne, havailable ▸ hdraw, ok_bind, htake, hcount, okOr, hleft, Pull.setOutcome,
    failIf_neg (not_le.mpr (show i < maxCount from hsmall)), hcounter, pure_bind]

end Selected

/-- Nothing but an Item account can fail the loop. -/
theorem drawLoop_avoids {items : List AccountInfo} {s : DrawState} {tags : List UInt8} {cutoff i : ℕ}
    {draws : List (UInt8 × ℕ)} {e : Fault} (hstock : Stock s.pool s.inventory.data tags)
    (havailable : s.available = tally (tags.take cutoff)) (hsmall : i + items.length ≤ 10)
    (hselected : rt.selections s.pool beta (tags.take cutoff) i items.length = .ok draws)
    (he : e.Internal) : (rt.drawLoop poolKey operator beta s i items).Avoids e := by
  induction items generalizing s tags i draws with
  | nil => exact avoids_ok _
  | cons info items ih =>
    rw [List.length_cons] at hsmall hselected
    obtain ⟨tier, rank, p, rest, hdraw, hp, hrest, -⟩ := selections_succ_eq_ok.mp hselected
    obtain ⟨pool, inventory, available, drawn, heq⟩ :=
      drawOne_eq hstock havailable hdraw hp poolKey operator info (by omega)
    rw [drawLoop, heq]
    refine .bind (.bind (load_avoids he _ _ _ _ _) fun item _ => ?_) fun s' hs' => ?_
    · refine .bind (avoids_failIf fun _ => he.ne (by decide)) fun _ _ => ?_
      exact .bind (close_avoids he _ _ _) fun _ _ => avoids_ok _
    · simp only [bind_eq_ok, pure_eq_ok] at hs'
      obtain ⟨item, -, _, -, accounts, -, rfl⟩ := hs'
      rw [← List.take_set, ← selections_congr drawn.draw] at hrest
      exact ih drawn.stock drawn.available (by omega) hrest

/-- The lamports that closing some accounts pays out. -/
def lamportsOf (accounts : Accounts) (keys : List Pubkey) : ℕ :=
  (keys.map fun key => (accounts key).lamports.toNat).sum

/-- The loop succeeds on the Items of the selections. -/
theorem drawLoop_isOk {items : List AccountInfo} {s : DrawState} {tags : List UInt8} {cutoff i : ℕ}
    {awards : List Award} (hstock : Stock s.pool s.inventory.data tags)
    (havailable : s.available = tally (tags.take cutoff)) (hsmall : i + items.length ≤ 10)
    (hkeys : awards.map Award.account = items.map AccountInfo.key)
    (hselected : rt.selections s.pool beta (tags.take cutoff) i items.length =
      .ok (awards.map Award.draw))
    (hitem : ∀ award ∈ awards, Accounts.ledger s.accounts award.account = .item award.item)
    (hpool : ∀ award ∈ awards, award.item.pool = poolKey)
    (hnodup : (awards.map Award.account).Nodup) (hoperator : operator ∉ awards.map Award.account)
    (hlamports : (s.accounts operator).lamports.toNat +
      lamportsOf s.accounts (awards.map Award.account) < 2 ^ 64) :
    ∃ s', rt.drawLoop poolKey operator beta s i items = .ok s' := by
  induction items generalizing s tags i awards with
  | nil => exact ⟨s, rfl⟩
  | cons info items ih =>
    cases awards with
    | nil => simp at hkeys
    | cons award awards =>
      rw [List.length_cons] at hsmall hselected
      rw [List.map_cons, List.map_cons, List.cons.injEq] at hkeys
      rw [List.map_cons, List.nodup_cons] at hnodup
      rw [List.map_cons, List.mem_cons, not_or] at hoperator
      rw [lamportsOf, List.map_cons, List.map_cons, List.sum_cons] at hlamports
      obtain ⟨tier, rank, p, rest, hdraw, hp, hrest, hfirst⟩ := selections_succ_eq_ok.mp hselected
      obtain ⟨htier, hposition⟩ : award.item.tier = tier ∧ award.item.position.toNat = p :=
        Prod.mk.inj (List.cons.inj hfirst).1
      obtain ⟨pool, inventory, available, drawn, heq⟩ :=
        drawOne_eq hstock havailable hdraw hp poolKey operator info (by omega)
      have hload : Item.load (s.accounts info.key) = .ok award.item := by
        rw [← hkeys.1]
        exact Account.entry_eq_item.mp (hitem award List.mem_cons_self)
      have hmatch : ¬(award.item.pool ≠ poolKey ∨ award.item.tier ≠ tier ∨
          award.item.position ≠ UInt32.ofNat p) := by
        rw [not_or, not_or, not_not, not_not, not_not, ← hposition, UInt32.ofNat_toNat]
        exact ⟨hpool award List.mem_cons_self, htier, rfl⟩
      obtain ⟨accounts, hclose⟩ := close_isOk s.accounts info.key operator
        (by rw [← hkeys.1]; omega)
      have hclosed : accounts = Function.update (Function.update s.accounts operator
          { s.accounts operator with lamports :=
            (s.accounts operator).lamports + (s.accounts info.key).lamports }) info.key
            ⟨systemId, 0, []⟩ := by
        rw [close, UInt64.checkedAdd, if_pos (by rw [← hkeys.1]; omega)] at hclose
        exact (Except.ok.inj hclose).symm
      -- The later Items are other accounts than the two that were written.
      have hlater : ∀ key ∈ awards.map Award.account, accounts key = s.accounts key := by
        intro key hkey
        rw [hclosed, Function.update_of_ne, Function.update_of_ne]
        · exact fun h => hoperator.2 (h ▸ hkey)
        · exact fun h => hnodup.1 (hkeys.1 ▸ h ▸ hkey)
      rw [drawLoop, heq, hload]
      simp only [ok_bind, failIf_neg hmatch, hclose, pure_bind]
      refine ih drawn.stock drawn.available (by omega) hkeys.2 ?_ (fun a ha => ?_)
        (fun a ha => hpool a (List.mem_cons_of_mem _ ha)) hnodup.2 hoperator.2 ?_
      · rw [selections_congr drawn.draw, List.take_set, hrest]
        exact congrArg Except.ok (List.cons.inj hfirst).2.symm
      · show Account.entry (accounts a.account) = _
        rw [hlater _ (List.mem_map_of_mem ha)]
        exact hitem a (List.mem_cons_of_mem _ ha)
      · have hsum : lamportsOf accounts (awards.map Award.account) =
            lamportsOf s.accounts (awards.map Award.account) := by
          rw [lamportsOf, lamportsOf, List.map_congr_left fun key hkey => by rw [hlater key hkey]]
        have hpaid : (accounts operator).lamports.toNat =
            (s.accounts operator).lamports.toNat + (s.accounts info.key).lamports.toNat := by
          rw [hclosed, Function.update_of_ne (hkeys.1 ▸ hoperator.1), Function.update_self,
            UInt64.toNat_add, Nat.mod_eq_of_lt (by rw [← hkeys.1]; omega)]
        show (accounts operator).lamports.toNat + lamportsOf accounts _ < _
        rw [hsum, hpaid, ← hkeys.1, lamportsOf]
        omega

end Runtime

end SolanaGacha
