import SolanaGacha.System.Privileges

/-!
# Handlers

A handler of the entrypoint is an account pattern, a decoder of its data, and `process` (`Handler`). What a
pattern makes of a list of accounts is stated once for each handler, in three parts (`Pattern`): it binds each
account to one role, it never fails for the shape of the list or for a flag, and more privileges change nothing.
-/

namespace SolanaGacha

open Except Layout

/-! ## Patterns -/

/-- The faults that the number and the flags of the accounts cause, and the length of the data. -/
def Fault.OfShape (e : Fault) : Prop :=
  e = .invalidInstructionData ∨ e = .notEnoughAccountKeys ∨ e = .custom .notSigner ∨ e = .custom .notMutable

instance (e : Fault) : Decidable e.OfShape := inferInstanceAs (Decidable (_ ∨ _))

/-- A check that reports another fault. -/
theorem Fault.OfShape.check {e e' : Fault} (he : e.OfShape) {c : Prop} [Decidable c] (h : ¬e'.OfShape) :
    (failIf c e').Avoids e := avoids_failIf fun _ heq => h (heq ▸ he)

/-- What an account pattern makes of some accounts, given without and with every privilege. -/
structure Pattern {α : Type} (tryFrom : World → List AccountInfo → Except Fault α)
    (infos : List AccountInfo) (a a' : α) : Prop where
  /-- The accounts are bound to these roles. -/
  binds : ∀ {w b}, tryFrom w infos = .ok b → b = a
  /-- No account is missing, and none needs a flag that it does not have. -/
  fits : ∀ w e, e.OfShape → (tryFrom w infos).Avoids e
  /-- More privileges reach the roles and change nothing else. -/
  privileged : ∀ w, tryFrom w (infos.map AccountInfo.privileged) = (do let _ ← tryFrom w infos; return a')

section Loads

variable {e : Fault} (he : e.OfShape)

include he

theorem load_fits {α : Type} {layout : Layout α} {len : ℕ} {versionOf : α → UInt8} {version : UInt8}
    {validLen : α → ℕ → Bool} (account : Account) :
    (load layout len versionOf account version validLen).Avoids e := by
  unfold load
  refine .bind (he.check (by decide)) fun _ _ => .bind (he.check (by decide)) fun _ _ => ?_
  exact .bind (he.check (by decide)) fun _ _ => .bind (he.check (by decide)) fun _ _ => avoids_ok _

theorem TokenAccount.load_fits (account : Account) : (TokenAccount.load account).Avoids e :=
  .bind (he.check (by decide)) fun _ _ => avoids_ok _

theorem checkUninitialized_fits (account : Account) : (checkUninitialized account).Avoids e :=
  he.check (by decide)

theorem Pool.noneRemaining_fits (pool : Pool) (tier : UInt8) : (pool.noneRemaining tier).Avoids e := by
  unfold noneRemaining tierSlice
  have hpanicked : Fault.panicked ≠ e := by
    rintro rfl
    exact absurd he (by decide)
  refine .bind (avoids_ite (avoids_ok _) (avoids_error hpanicked)) fun _ _ => ?_
  exact .bind (avoids_okOr fun _ => hpanicked) fun _ _ => avoids_ok _

end Loads

section Patterns

variable {payer authority seller buyer pool pull item asset collection vault destination operator paymentMint
  buyerAta tokenProgram coreProgram systemProgram eventAuthority program : AccountInfo}

theorem CreatePoolAccounts.pattern (hauthority : authority.isSigner = true) (hpool : pool.isWritable = true) :
    Pattern CreatePoolAccounts.tryFrom
      [authority, pool, operator, paymentMint, vault, systemProgram, eventAuthority, program]
      ⟨authority, pool, operator, paymentMint, vault, eventAuthority, program⟩
      ⟨authority.privileged, pool.privileged, operator.privileged, paymentMint.privileged, vault.privileged,
        eventAuthority.privileged, program.privileged⟩ where
  binds {w b} h := by
    unfold tryFrom at h
    simp only [bind_eq_ok, pure_eq_ok] at h
    obtain ⟨_, -, _, -, _, -, rfl⟩ := h
    rfl
  fits w e he := by
    unfold tryFrom
    refine .bind (avoids_failIf fun h => absurd hauthority h) fun _ _ => ?_
    refine .bind (avoids_failIf fun h => absurd hpool h) fun _ _ => ?_
    exact .bind (checkUninitialized_fits he _) fun _ _ => avoids_ok _
  privileged w := by
    unfold tryFrom
    simp only [hauthority, hpool, bind_assoc, pure_bind]
    rfl

theorem DepositItemAccounts.pattern (hauthority : authority.isSigner = true) (hpool : pool.isWritable = true)
    (hitem : item.isWritable = true) :
    Pattern DepositItemAccounts.tryFrom
      [authority, pool, item, asset, collection, coreProgram, systemProgram, eventAuthority, program]
      ⟨authority, pool, item, asset, collection, coreProgram, systemProgram, eventAuthority, program⟩
      ⟨authority.privileged, pool.privileged, item.privileged, asset.privileged, collection.privileged,
        coreProgram.privileged, systemProgram.privileged, eventAuthority.privileged, program.privileged⟩ where
  binds {w b} h := by
    unfold tryFrom at h
    simp only [bind_eq_ok, pure_eq_ok] at h
    obtain ⟨_, -, _, -, _, -, _, -, _, -, rfl⟩ := h
    rfl
  fits w e he := by
    unfold tryFrom
    refine .bind (avoids_failIf fun h => absurd hauthority h) fun _ _ => ?_
    refine .bind (avoids_failIf fun h => h.elim (absurd hpool) (absurd hitem)) fun _ _ => ?_
    refine .bind (load_fits he _) fun pool _ => ?_
    exact .bind (he.check (by decide)) fun _ _ => .bind (he.check (by decide)) fun _ _ => avoids_ok _
  privileged w := by
    unfold tryFrom
    simp only [hauthority, hpool, hitem, bind_assoc, pure_bind]
    rfl

theorem WithdrawAccounts.pattern (hauthority : authority.isSigner = true) :
    Pattern WithdrawAccounts.tryFrom
      [authority, pool, vault, destination, tokenProgram, eventAuthority, program]
      ⟨authority, pool, vault, destination, eventAuthority, program⟩
      ⟨authority.privileged, pool.privileged, vault.privileged, destination.privileged,
        eventAuthority.privileged, program.privileged⟩ where
  binds {w b} h := by
    unfold tryFrom at h
    simp only [bind_eq_ok, pure_eq_ok] at h
    obtain ⟨_, -, _, -, _, -, _, -, rfl⟩ := h
    rfl
  fits w e he := by
    unfold tryFrom
    refine .bind (avoids_failIf fun h => absurd hauthority h) fun _ _ => ?_
    refine .bind (load_fits he _) fun pool _ => ?_
    exact .bind (he.check (by decide)) fun _ _ => .bind (he.check (by decide)) fun _ _ => avoids_ok _
  privileged w := by
    unfold tryFrom
    simp only [hauthority, bind_assoc, pure_bind]
    rfl

theorem SetStatusAccounts.pattern (hauthority : authority.isSigner = true) (hpool : pool.isWritable = true) :
    Pattern SetStatusAccounts.tryFrom [authority, pool, eventAuthority, program]
      ⟨authority, pool, eventAuthority, program⟩
      ⟨authority.privileged, pool.privileged, eventAuthority.privileged, program.privileged⟩ where
  binds {w b} h := by
    unfold tryFrom at h
    simp only [bind_eq_ok, pure_eq_ok] at h
    obtain ⟨_, -, _, -, _, -, _, -, rfl⟩ := h
    rfl
  fits w e he := by
    unfold tryFrom
    refine .bind (avoids_failIf fun h => absurd hauthority h) fun _ _ => ?_
    refine .bind (avoids_failIf fun h => absurd hpool h) fun _ _ => ?_
    exact .bind (load_fits he _) fun pool _ => .bind (he.check (by decide)) fun _ _ => avoids_ok _
  privileged w := by
    unfold tryFrom
    simp only [hauthority, hpool, bind_assoc, pure_bind]
    rfl

theorem ReclaimAccounts.pattern (hauthority : authority.Pays) (hpool : pool.isWritable = true)
    (hitem : item.isWritable = true) :
    Pattern ReclaimAccounts.tryFrom
      [authority, pool, item, asset, collection, coreProgram, systemProgram, eventAuthority, program]
      ⟨authority, pool, item, asset, collection, coreProgram, systemProgram, eventAuthority, program⟩
      ⟨authority.privileged, pool.privileged, item.privileged, asset.privileged, collection.privileged,
        coreProgram.privileged, systemProgram.privileged, eventAuthority.privileged, program.privileged⟩ where
  binds {w b} h := by
    unfold tryFrom at h
    simp only [bind_eq_ok, pure_eq_ok] at h
    obtain ⟨_, -, _, -, _, -, _, -, _, -, _, -, _, -, _, -, _, -, _, -, rfl⟩ := h
    rfl
  fits w e he := by
    unfold tryFrom
    refine .bind (avoids_failIf fun h => absurd hauthority.1 h) fun _ _ => ?_
    refine .bind (avoids_failIf fun h => h.elim (absurd hauthority.2) fun h =>
      h.elim (absurd hpool) (absurd hitem)) fun _ _ => ?_
    refine .bind (load_fits he _) fun pool _ => .bind (he.check (by decide)) fun _ _ => ?_
    refine .bind (he.check (by decide)) fun _ _ => .bind (he.check (by decide)) fun _ _ => ?_
    refine .bind (load_fits he _) fun item _ => .bind (he.check (by decide)) fun _ _ => ?_
    refine .bind (Pool.noneRemaining_fits he _ _) fun _ _ => ?_
    exact .bind (he.check (by decide)) fun _ _ => avoids_ok _
  privileged w := by
    unfold tryFrom
    simp only [hauthority.1, hauthority.2, hpool, hitem, bind_assoc, pure_bind]
    rfl

theorem BuyAccounts.pattern (hbuyer : buyer.isSigner = true) (hpool : pool.isWritable = true)
    (hpull : pull.isWritable = true) :
    Pattern BuyAccounts.tryFrom
      [buyer, pool, pull, buyerAta, vault, tokenProgram, systemProgram, eventAuthority, program]
      ⟨buyer, pool, pull, buyerAta, vault, eventAuthority, program⟩
      ⟨buyer.privileged, pool.privileged, pull.privileged, buyerAta.privileged, vault.privileged,
        eventAuthority.privileged, program.privileged⟩ where
  binds {w b} h := by
    unfold tryFrom at h
    simp only [bind_eq_ok, pure_eq_ok] at h
    obtain ⟨_, -, _, -, _, -, _, -, _, -, _, -, rfl⟩ := h
    rfl
  fits w e he := by
    unfold tryFrom
    refine .bind (avoids_failIf fun h => absurd hbuyer h) fun _ _ => ?_
    refine .bind (avoids_failIf fun h => h.elim (absurd hpool) (absurd hpull)) fun _ _ => ?_
    refine .bind (checkUninitialized_fits he _) fun _ _ => .bind (load_fits he _) fun pool _ => ?_
    exact .bind (he.check (by decide)) fun _ _ => .bind (he.check (by decide)) fun _ _ => avoids_ok _
  privileged w := by
    unfold tryFrom
    simp only [hbuyer, hpool, hpull, bind_assoc, pure_bind]
    rfl

theorem RefundAccounts.pattern (hpool : pool.isWritable = true) (hpull : pull.isWritable = true)
    (hbuyer : buyer.isWritable = true) :
    Pattern RefundAccounts.tryFrom
      [pool, pull, buyer, vault, buyerAta, tokenProgram, eventAuthority, program]
      ⟨pool, pull, buyer, vault, buyerAta, eventAuthority, program⟩
      ⟨pool.privileged, pull.privileged, buyer.privileged, vault.privileged, buyerAta.privileged,
        eventAuthority.privileged, program.privileged⟩ where
  binds {w b} h := by
    unfold tryFrom at h
    simp only [bind_eq_ok, pure_eq_ok] at h
    obtain ⟨_, -, _, -, _, -, _, -, _, -, _, -, _, -, _, -, _, -, _, -, _, -, rfl⟩ := h
    rfl
  fits w e he := by
    unfold tryFrom
    refine .bind (avoids_failIf fun h => h.elim (absurd hpool) fun h =>
      h.elim (absurd hpull) (absurd hbuyer)) fun _ _ => ?_
    refine .bind (load_fits he _) fun pool _ => .bind (load_fits he _) fun pull _ => ?_
    refine .bind (he.check (by decide)) fun _ _ => .bind (he.check (by decide)) fun _ _ => ?_
    refine .bind (he.check (by decide)) fun _ _ => .bind (he.check (by decide)) fun _ _ => ?_
    refine .bind (he.check (by decide)) fun _ _ => .bind (he.check (by decide)) fun _ _ => ?_
    refine .bind (TokenAccount.load_fits he _) fun _ _ => ?_
    exact .bind (he.check (by decide)) fun _ _ => avoids_ok _
  privileged w := by
    unfold tryFrom
    simp only [hpool, hpull, hbuyer, bind_assoc, pure_bind]
    rfl

theorem BuybackAccounts.pattern (hpayer : payer.isSigner = true) (hseller : seller.isSigner = true)
    (hpool : pool.isWritable = true) (hitem : item.isWritable = true) :
    Pattern BuybackAccounts.tryFrom
      [payer, seller, pool, item, asset, collection, vault, destination, coreProgram, tokenProgram,
        systemProgram, eventAuthority, program]
      ⟨payer, seller, pool, item, asset, collection, vault, destination, coreProgram, systemProgram,
        eventAuthority, program⟩
      ⟨payer.privileged, seller.privileged, pool.privileged, item.privileged, asset.privileged,
        collection.privileged, vault.privileged, destination.privileged, coreProgram.privileged,
        systemProgram.privileged, eventAuthority.privileged, program.privileged⟩ where
  binds {w b} h := by
    unfold tryFrom at h
    simp only [bind_eq_ok, pure_eq_ok] at h
    obtain ⟨_, -, _, -, _, -, _, -, _, -, _, -, _, -, rfl⟩ := h
    rfl
  fits w e he := by
    unfold tryFrom
    refine .bind (avoids_failIf fun h => h.elim (absurd hpayer) (absurd hseller)) fun _ _ => ?_
    refine .bind (avoids_failIf fun h => h.elim (absurd hpool) (absurd hitem)) fun _ _ => ?_
    refine .bind (load_fits he _) fun pool _ => .bind (he.check (by decide)) fun _ _ => ?_
    refine .bind (he.check (by decide)) fun _ _ => .bind (TokenAccount.load_fits he _) fun _ _ => ?_
    exact .bind (he.check (by decide)) fun _ _ => avoids_ok _
  privileged w := by
    unfold tryFrom
    simp only [hpayer, hseller, hpool, hitem, bind_assoc, pure_bind]
    rfl

theorem DeliverAccounts.pattern (hpayer : payer.isSigner = true) (hpull : pull.isWritable = true)
    (hbuyer : buyer.isWritable = true) :
    Pattern DeliverAccounts.tryFrom
      [payer, pool, pull, buyer, asset, collection, coreProgram, systemProgram, eventAuthority, program]
      ⟨payer, pool, pull, buyer, asset, collection, coreProgram, systemProgram, eventAuthority, program⟩
      ⟨payer.privileged, pool.privileged, pull.privileged, buyer.privileged, asset.privileged,
        collection.privileged, coreProgram.privileged, systemProgram.privileged, eventAuthority.privileged,
        program.privileged⟩ where
  binds {w b} h := by
    unfold tryFrom at h
    simp only [bind_eq_ok, pure_eq_ok] at h
    obtain ⟨_, -, _, -, _, -, _, -, _, -, _, -, _, -, rfl⟩ := h
    rfl
  fits w e he := by
    unfold tryFrom
    refine .bind (avoids_failIf fun h => absurd hpayer h) fun _ _ => ?_
    refine .bind (avoids_failIf fun h => h.elim (absurd hpull) (absurd hbuyer)) fun _ _ => ?_
    refine .bind (load_fits he _) fun pool _ => .bind (load_fits he _) fun pull _ => ?_
    refine .bind (he.check (by decide)) fun _ _ => .bind (he.check (by decide)) fun _ _ => ?_
    exact .bind (he.check (by decide)) fun _ _ => avoids_ok _
  privileged w := by
    unfold tryFrom
    simp only [hpayer, hpull, hbuyer, bind_assoc, pure_bind]
    rfl

theorem SettleAccounts.checkItems_fits {w : World} {items : List AccountInfo} {e : Fault} (he : e.OfShape)
    (hitems : ∀ item ∈ items, item.isWritable = true) : (checkItems w items).Avoids e := by
  induction items with
  | nil => exact avoids_ok _
  | cons item items ih =>
    obtain ⟨hitem, hitems⟩ := List.forall_mem_cons.mp hitems
    unfold checkItems
    refine .bind (avoids_failIf fun h => absurd hitem h) fun _ _ => ?_
    exact .bind (load_fits he _) fun _ _ => ih hitems

theorem SettleAccounts.checkItems_privileged {w : World} {items : List AccountInfo}
    (hitems : ∀ item ∈ items, item.isWritable = true) :
    checkItems w (items.map AccountInfo.privileged) = checkItems w items := by
  induction items with
  | nil => rfl
  | cons item items ih =>
    obtain ⟨hitem, hitems⟩ := List.forall_mem_cons.mp hitems
    unfold List.map checkItems
    rw [hitem]
    apply bind_congr_ok rfl
    intro _ _
    exact bind_congr_ok rfl fun _ _ => ih hitems

/-- A settlement's Items stand between its three accounts and the two of the event. -/
theorem SettleAccounts.pattern {items : List AccountInfo} (hoperator : operator.isWritable = true)
    (hpool : pool.isWritable = true) (hpull : pull.isWritable = true)
    (hitems : ∀ item ∈ items, item.isWritable = true) :
    Pattern SettleAccounts.tryFrom (operator :: pool :: pull :: (items ++ [eventAuthority, program]))
      ⟨operator, pool, pull, items, eventAuthority, program⟩
      ⟨operator.privileged, pool.privileged, pull.privileged, items.map AccountInfo.privileged,
        eventAuthority.privileged, program.privileged⟩ where
  binds {w b} h := by
    have hreverse : (items ++ [eventAuthority, program]).reverse =
        program :: eventAuthority :: items.reverse := by simp
    unfold tryFrom at h
    simp only [hreverse, List.reverse_reverse, bind_eq_ok, pure_eq_ok] at h
    obtain ⟨_, -, _, -, _, -, _, -, _, -, _, -, _, -, _, -, _, -, _, -, rfl⟩ := h
    rfl
  fits w e he := by
    have hreverse : (items ++ [eventAuthority, program]).reverse =
        program :: eventAuthority :: items.reverse := by simp
    unfold tryFrom
    simp only [hreverse, List.reverse_reverse]
    refine .bind (avoids_failIf fun h => h.elim (absurd hoperator) fun h =>
      h.elim (absurd hpool) (absurd hpull)) fun _ _ => ?_
    refine .bind (load_fits he _) fun pool _ => .bind (load_fits he _) fun pull _ => ?_
    refine .bind (he.check (by decide)) fun _ _ => .bind (he.check (by decide)) fun _ _ => ?_
    refine .bind (he.check (by decide)) fun _ _ => .bind (he.check (by decide)) fun _ _ => ?_
    refine .bind (he.check (by decide)) fun _ _ => .bind (he.check (by decide)) fun _ _ => ?_
    exact .bind (checkItems_fits he hitems) fun _ _ => avoids_ok _
  privileged w := by
    have hreverse : (items ++ [eventAuthority, program]).reverse =
        program :: eventAuthority :: items.reverse := by simp
    have hreverse' : (items.map AccountInfo.privileged ++
        [eventAuthority.privileged, program.privileged]).reverse =
          program.privileged :: eventAuthority.privileged ::
            (items.map AccountInfo.privileged).reverse := by simp
    unfold tryFrom
    simp only [List.map_cons, List.map_append, List.map_nil, hreverse, hreverse', List.reverse_reverse,
      List.length_map, checkItems_privileged hitems, hoperator, hpool, hpull, bind_assoc, pure_bind]
    rfl

end Patterns

/-! ## The entrypoint's handlers -/

/-- A handler: its account pattern, the decoder of its data, `process`, and the programs that it calls. -/
structure Handler (α δ : Type) where
  accounts : World → List AccountInfo → Except Fault α
  data : World → List UInt8 → Except Fault δ
  process : Runtime → World → α → δ → Except Fault World
  callees : List Pubkey

/-- `Handler::try_from(..)?.process()`. -/
def Handler.run {α δ : Type} (h : Handler α δ) (rt : Runtime) (w : World) (infos : List AccountInfo)
    (data : List UInt8) : Except Fault World := do
  h.process rt w (← h.accounts w infos) (← h.data w data)

/-- A handler whose pattern and `process` make nothing of more privileges. -/
theorem Handler.run_privileged {α δ : Type} {h : Handler α δ} {rt : Runtime} {w : World}
    {infos : List AccountInfo} {a a' : α} (hpattern : Pattern h.accounts infos a a')
    (hprocess : ∀ d, h.process rt w a' d = h.process rt w a d) (data : List UInt8) :
    h.run rt w (infos.map AccountInfo.privileged) data = h.run rt w infos data := by
  unfold run
  rw [hpattern.privileged, bind_assoc]
  apply bind_congr_ok rfl
  intro b hb
  obtain rfl := hpattern.binds hb
  rw [pure_bind]
  apply bind_congr_ok rfl
  intro d _
  exact hprocess d

def CreatePool.handler : Handler CreatePoolAccounts CreatePoolInstructionData where
  accounts := CreatePoolAccounts.tryFrom
  data _ := CreatePoolInstructionData.tryFrom
  process := CreatePool.process
  callees := [systemId]

def DepositItem.handler : Handler DepositItemAccounts DepositItemInstructionData where
  accounts := DepositItemAccounts.tryFrom
  data _ := DepositItemInstructionData.tryFrom
  process := DepositItem.process
  callees := [systemId, coreId]

def Withdraw.handler : Handler WithdrawAccounts WithdrawInstructionData where
  accounts := WithdrawAccounts.tryFrom
  data _ := WithdrawInstructionData.tryFrom
  process := Withdraw.process
  callees := [tokenId]

def SetStatus.handler : Handler SetStatusAccounts SetStatusInstructionData where
  accounts := SetStatusAccounts.tryFrom
  data _ := SetStatusInstructionData.tryFrom
  process := SetStatus.process
  callees := []

/-- `Reclaim` has no data of its own. -/
def Reclaim.handler : Handler ReclaimAccounts Unit where
  accounts := ReclaimAccounts.tryFrom
  data _ _ := .ok ()
  process rt w a _ := Reclaim.process rt w a
  callees := [coreId]

def Buy.handler : Handler BuyAccounts BuyInstructionData where
  accounts := BuyAccounts.tryFrom
  data _ := BuyInstructionData.tryFrom
  process := Buy.process
  callees := [systemId, tokenId]

/-- `Refund` has no data of its own. -/
def Refund.handler : Handler RefundAccounts Unit where
  accounts := RefundAccounts.tryFrom
  data _ _ := .ok ()
  process rt w a _ := Refund.process rt w a
  callees := [tokenId]

def Buyback.handler : Handler BuybackAccounts BuybackInstructionData where
  accounts := BuybackAccounts.tryFrom
  data := BuybackInstructionData.tryFrom
  process := Buyback.process
  callees := [systemId, tokenId, coreId]

def Settle.handler : Handler SettleAccounts SettleInstructionData where
  accounts := SettleAccounts.tryFrom
  data _ := SettleInstructionData.tryFrom
  process := Settle.process
  callees := []

def Deliver.handler : Handler DeliverAccounts DeliverInstructionData where
  accounts := DeliverAccounts.tryFrom
  data _ := DeliverInstructionData.tryFrom
  process := Deliver.process
  callees := [coreId]

end SolanaGacha
