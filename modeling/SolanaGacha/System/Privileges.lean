import SolanaGacha.System.Step

/-!
# Privileges

An account signs and is writable only as far as the instruction says. A handler checks these flags in its
account pattern, and a cross-program invocation fails without the ones that it passes on. Every helper and
every handler is shown to need no others than those of its hypotheses: with every account signing and
writable it does exactly the same. Where a pool signs, the world is sound, so the pool stands at the address
that its seeds derive.
-/

namespace SolanaGacha

open Except

/-- The account with every privilege. -/
def AccountInfo.privileged (info : AccountInfo) : AccountInfo := ⟨info.key, true, true⟩

/-- The instruction with every privilege for every account. -/
def Instruction.privileged (ix : Instruction) : Instruction :=
  ⟨ix.accounts.map AccountInfo.privileged, ix.data⟩

/-- Whether an account can pay: it signs and is writable. -/
def AccountInfo.Pays (info : AccountInfo) : Prop := info.isSigner = true ∧ info.isWritable = true

namespace Runtime

variable {rt : Runtime} {w : World}

/-! ## Cross-program invocations -/

/-- The accounts of a call have the privileges that it passes on, or the program signs for them. -/
def Grants (rt : Runtime) (metas : List AccountMeta) (signers : List (List (List UInt8))) : Prop :=
  ∀ keys, rt.signerKeys signers = .ok keys → ∀ m ∈ metas,
    (m.isSigner = true → m.info.isSigner = true ∨ m.info.key ∈ keys) ∧
      (m.isWritable = true → m.info.isWritable = true)

/-- The check of a call that is granted its privileges is that the seeds of its signers derive addresses. -/
theorem Grants.checkMetas {metas : List AccountMeta} {signers : List (List (List UInt8))}
    (h : rt.Grants metas signers) :
    rt.checkMetas metas signers = (do let _ ← rt.signerKeys signers; return ()) := by
  unfold Runtime.checkMetas
  cases hkeys : rt.signerKeys signers with
  | error e => rfl
  | ok keys =>
    simp only [ok_bind]
    apply failIf_neg
    rintro ⟨m, hm, ⟨hsigns, hinfo, hkey⟩ | ⟨hwrites, hinfo⟩⟩
    · exact ((h keys hkeys m hm).1 hsigns).elim hinfo hkey
    · exact hinfo ((h keys hkeys m hm).2 hwrites)

/-- More privileges than a call passes on change nothing. -/
theorem Grants.invokeSigned {metas : List AccountMeta} {signers : List (List (List UInt8))}
    (h : rt.Grants metas signers) (call : Accounts → Option Accounts) :
    rt.invokeSigned w (metas.map fun m => { m with info := m.info.privileged }) signers call =
      rt.invokeSigned w metas signers call := by
  have hall : rt.Grants (metas.map fun m => { m with info := m.info.privileged }) signers := by
    intro keys _ m hm
    obtain ⟨m', -, rfl⟩ := List.mem_map.mp hm
    exact ⟨fun _ => .inl rfl, fun _ => rfl⟩
  unfold Runtime.invokeSigned
  rw [h.checkMetas, hall.checkMetas]

theorem signerKeys_singleton {seeds : List (List UInt8)} {key : Pubkey}
    (h : rt.createProgramAddress seeds programId = some key) : rt.signerKeys [seeds] = .ok [key] := by
  unfold signerKeys signerKeys
  rw [h]
  rfl

/-! ## Helpers -/

section Helpers

variable {payer account pool item source destination authority : AccountInfo}

theorem fund_privileged (hpayer : payer.Pays) (haccount : account.isWritable = true) (missing : ℕ) :
    rt.fund w payer.privileged account.privileged missing = rt.fund w payer account missing := by
  unfold fund
  split
  · have hgrants : rt.Grants [⟨payer, true, true⟩, ⟨account, false, true⟩] [] := by
      intro keys _
      simp [hpayer.1, hpayer.2, haccount]
    exact hgrants.invokeSigned _
  · rfl

theorem createPda_privileged {seeds : List (List UInt8)} (hpayer : payer.Pays)
    (haccount : account.isWritable = true)
    (hseeds : rt.createProgramAddress seeds programId = some account.key) (space : ℕ) :
    rt.createPda w payer.privileged account.privileged space seeds =
      rt.createPda w payer account space seeds := by
  -- The program signs for the new account.
  have hboth : rt.Grants [⟨payer, true, true⟩, ⟨account, true, true⟩] [seeds] := by
    intro keys hkeys
    rw [signerKeys_singleton hseeds] at hkeys
    obtain rfl := Except.ok.inj hkeys
    simp [hpayer.1, hpayer.2, haccount]
  have halone : rt.Grants [⟨account, true, true⟩] [seeds] := by
    intro keys hkeys m hm
    exact hboth keys hkeys m (List.mem_cons_of_mem _ hm)
  unfold createPda
  refine if_congr Iff.rfl (hboth.invokeSigned _) ?_
  apply bind_congr_ok (fund_privileged hpayer haccount _)
  intro w _
  apply bind_congr_ok (halone.invokeSigned _)
  intro w _
  exact halone.invokeSigned _

theorem transferTokens_privileged {signers : List (List (List UInt8))} (hsource : source.isWritable = true)
    (hdestination : destination.isWritable = true)
    (hauthority : ∀ keys, rt.signerKeys signers = .ok keys → authority.isSigner = true ∨ authority.key ∈ keys)
    (amount : UInt64) :
    rt.transferTokens w source.privileged destination.privileged authority.privileged amount signers =
      rt.transferTokens w source destination authority amount signers := by
  have hgrants : rt.Grants
      [⟨source, false, true⟩, ⟨destination, false, true⟩, ⟨authority, true, false⟩] signers := by
    intro keys hkeys
    have hsigns := hauthority keys hkeys
    simpa [hsource, hdestination] using hsigns
  exact hgrants.invokeSigned _

/-- A payment from a pool that stands where its seeds derive. -/
theorem pay_privileged (hsource : source.isWritable = true) (hdestination : destination.isWritable = true)
    (hpool : ∀ header, Pool.load (w.account pool) = .ok header →
      rt.createProgramAddress header.signerSeeds programId = some pool.key) (amount : UInt64) :
    rt.pay w pool.privileged source.privileged destination.privileged amount =
      rt.pay w pool source destination amount := by
  unfold pay
  rw [show w.account pool.privileged = w.account pool from rfl]
  cases hload : Pool.load (w.account pool) with
  | error e => rfl
  | ok header =>
    apply transferTokens_privileged hsource hdestination
    intro keys hkeys
    rw [signerKeys_singleton (hpool header hload)] at hkeys
    obtain rfl := Except.ok.inj hkeys
    exact .inr List.mem_cons_self

theorem transferAsset_privileged {newOwner asset collection coreProgram systemProgram : AccountInfo}
    {signers : List (List (List UInt8))} (hpayer : payer.Pays) (hasset : asset.isWritable = true)
    (hauthority : ∀ keys, rt.signerKeys signers = .ok keys →
      authority.isSigner = true ∨ authority.key ∈ keys) :
    rt.transferAsset w ⟨payer.privileged, authority.privileged, newOwner.privileged, asset.privileged,
      collection.privileged, coreProgram.privileged, systemProgram.privileged⟩ signers =
        rt.transferAsset w ⟨payer, authority, newOwner, asset, collection, coreProgram, systemProgram⟩
          signers := by
  have hgrants : rt.Grants [⟨asset, false, true⟩, ⟨collection, false, false⟩, ⟨payer, true, true⟩,
      ⟨authority, true, false⟩, ⟨newOwner, false, false⟩, ⟨systemProgram, false, false⟩,
      ⟨coreProgram, false, false⟩] signers := by
    intro keys hkeys
    have hsigns := hauthority keys hkeys
    simpa [hpayer.1, hpayer.2, hasset] using hsigns
  exact hgrants.invokeSigned _

/-- The program signs for the event authority, so an event needs no privilege. -/
theorem emit_privileged (hrt : rt.Lawful) {size : ℕ} {discriminator : UInt8} {fields : List (List UInt8)}
    {program : AccountInfo} :
    rt.emit w size discriminator fields authority.privileged program.privileged =
      rt.emit w size discriminator fields authority program := by
  unfold emit
  apply bind_congr_ok rfl
  intro data _
  by_cases hkeys : authority.key ≠ eventAuthority ∨ program.key ≠ programId
  · unfold failIf
    rw [if_pos hkeys]
    exact congrArg (· >>= _) (if_pos hkeys)
  · obtain ⟨hauthority, -⟩ := not_or.mp hkeys
    have hgrants : ∀ info info' : AccountInfo, info.key = eventAuthority →
        rt.Grants [⟨info, true, false⟩, ⟨info', false, false⟩]
          [[eventAuthoritySeed, [eventAuthorityBump]]] := by
      intro info info' hinfo keys hkeys
      rw [signerKeys_singleton hrt.eventAuthority_derived] at hkeys
      obtain rfl := Except.ok.inj hkeys
      simp [hinfo]
    rw [(hgrants authority program (not_not.mp hauthority)).checkMetas,
      (hgrants authority.privileged program.privileged (not_not.mp hauthority)).checkMetas]
    rfl

/-! ## Restocking -/

theorem growIndex_privileged (hpayer : payer.Pays) (hpool : pool.isWritable = true) (positions : UInt32) :
    rt.growIndex w payer.privileged pool.privileged positions = rt.growIndex w payer pool positions := by
  unfold growIndex
  apply if_congr Iff.rfl _ rfl
  exact bind_congr_ok (fund_privileged hpayer hpool _) fun w _ => rfl

/-- The Item is created where the handler has checked that its seeds derive it. -/
theorem restock_privileged {asset : Pubkey} {tier bump : UInt8} (hpayer : payer.Pays)
    (hpool : pool.isWritable = true) (hitem : item.isWritable = true)
    (hseeds : ∀ header, Pool.load (w.account pool) = .ok header → rt.createProgramAddress
      (Item.seeds pool.key tier header.inventoryVersion bump) programId = some item.key) :
    rt.restock w payer.privileged pool.privileged item.privileged asset tier bump =
      rt.restock w payer pool item asset tier bump := by
  unfold restock
  rw [show w.account pool.privileged = w.account pool from rfl]
  cases hload : Pool.load (w.account pool) with
  | error e => rfl
  | ok header =>
    simp only [ok_bind]
    apply bind_congr_ok rfl
    intro positions _
    apply bind_congr_ok (growIndex_privileged hpayer hpool positions)
    intro w _
    apply bind_congr_ok (createPda_privileged hpayer hitem (hseeds header hload) itemLen)
    intro w _
    rfl

end Helpers

/-! ## Drawing -/

/-- The Items of a draw are read and closed by their addresses. -/
theorem drawLoop_privileged {poolKey operator : Pubkey} {beta : FixedBytes 64} {s : DrawState} {i : ℕ}
    (items : List AccountInfo) :
    rt.drawLoop poolKey operator beta s i (items.map AccountInfo.privileged) =
      rt.drawLoop poolKey operator beta s i items := by
  induction items generalizing s i with
  | nil => rfl
  | cons item items ih =>
    apply bind_congr_ok rfl
    intro s' _
    exact ih

theorem draw_privileged {pool : Pool} {inventory : Inventory} {pull : Pull} {accounts : Accounts}
    {poolKey operator : Pubkey} {beta : FixedBytes 64} (items : List AccountInfo) :
    rt.draw pool inventory pull accounts poolKey (items.map AccountInfo.privileged) operator beta =
      rt.draw pool inventory pull accounts poolKey items operator beta := by
  unfold draw
  apply bind_congr_ok rfl
  intro available _
  exact drawLoop_privileged items

end Runtime

/-! ## Handlers -/

section Handlers

variable {rt : Runtime} (hrt : rt.Lawful) {w : World}

/-- In a sound world a pool stands at the address that its seeds derive. -/
theorem World.Sound.derived (hw : w.Sound rt) {info : AccountInfo} {pool : Pool}
    (h : Pool.load (w.account info) = .ok pool) :
    rt.createProgramAddress pool.signerSeeds programId = some info.key := by
  obtain ⟨m, hm⟩ := hw.opened (pool_load h)
  exact hm.valid.derived

variable {payer authority seller buyer pool pull item asset collection vault destination operator paymentMint
  coreProgram systemProgram eventAuthority program : AccountInfo}

include hrt

theorem CreatePool.process_privileged {d : CreatePoolInstructionData} (hauthority : authority.Pays)
    (hpool : pool.isWritable = true) :
    CreatePool.process rt w ⟨authority.privileged, pool.privileged, operator.privileged,
      paymentMint.privileged, vault.privileged, eventAuthority.privileged, program.privileged⟩ d =
        CreatePool.process rt w ⟨authority, pool, operator, paymentMint, vault, eventAuthority, program⟩ d := by
  unfold CreatePool.process
  apply bind_congr_ok rfl
  intro poolKey hkey
  apply bind_congr_ok rfl
  intro _ hself
  apply bind_congr_ok rfl
  intro ata _
  apply bind_congr_ok rfl
  intro _ _
  -- The pool has been checked to be the PDA that signs for its creation.
  have hseeds : rt.createProgramAddress (Pool.seeds authority.key d.id d.bump) programId = some pool.key :=
    (okOr_eq_ok.mp hkey).trans (congrArg some (not_not.mp (failIf_eq_ok.mp hself)))
  apply bind_congr_ok (Runtime.createPda_privileged hauthority hpool hseeds poolLen)
  intro w _
  apply bind_congr_ok rfl
  intro new _
  exact Runtime.emit_privileged hrt

theorem DepositItem.process_privileged {d : DepositItemInstructionData} (hauthority : authority.Pays)
    (hpool : pool.isWritable = true) (hitem : item.isWritable = true) (hasset : asset.isWritable = true) :
    DepositItem.process rt w ⟨authority.privileged, pool.privileged, item.privileged, asset.privileged,
      collection.privileged, coreProgram.privileged, systemProgram.privileged, eventAuthority.privileged,
      program.privileged⟩ d =
        DepositItem.process rt w ⟨authority, pool, item, asset, collection, coreProgram, systemProgram,
          eventAuthority, program⟩ d := by
  unfold DepositItem.process
  apply bind_congr_ok rfl
  intro header hload
  apply bind_congr_ok rfl
  intro position hcheck
  -- `check_restock` has derived the Item from the header that `restock` loads again.
  have hseeds : ∀ header', Pool.load (w.account pool) = .ok header' → rt.createProgramAddress
      (Item.seeds pool.key d.tier header'.inventoryVersion d.bump) programId = some item.key := by
    intro header' hload'
    obtain rfl := Except.ok.inj (hload.symm.trans hload')
    exact (checkRestock_eq_ok.mp hcheck).2.1
  apply bind_congr_ok (Runtime.restock_privileged hauthority hpool hitem hseeds)
  intro w _
  apply bind_congr_ok
  · exact Runtime.transferAsset_privileged hauthority hasset fun _ _ => .inl hauthority.1
  intro w _
  exact Runtime.emit_privileged hrt

theorem Withdraw.process_privileged (hw : w.Sound rt) {d : WithdrawInstructionData}
    (hvault : vault.isWritable = true) (hdestination : destination.isWritable = true) :
    Withdraw.process rt w ⟨authority.privileged, pool.privileged, vault.privileged, destination.privileged,
      eventAuthority.privileged, program.privileged⟩ d =
        Withdraw.process rt w ⟨authority, pool, vault, destination, eventAuthority, program⟩ d := by
  unfold Withdraw.process
  apply bind_congr_ok rfl
  intro header _
  apply bind_congr_ok rfl
  intro free _
  apply bind_congr_ok rfl
  intro _ _
  apply bind_congr_ok (Runtime.pay_privileged hvault hdestination (fun _ hload => hw.derived hload) d.amount)
  intro w _
  exact Runtime.emit_privileged hrt

theorem SetStatus.process_privileged {d : SetStatusInstructionData} :
    SetStatus.process rt w ⟨authority.privileged, pool.privileged, eventAuthority.privileged,
      program.privileged⟩ d =
        SetStatus.process rt w ⟨authority, pool, eventAuthority, program⟩ d := by
  unfold SetStatus.process
  apply bind_congr_ok rfl
  intro header _
  apply bind_congr_ok rfl
  intro _ _
  exact Runtime.emit_privileged hrt

theorem Reclaim.process_privileged (hw : w.Sound rt) (hauthority : authority.Pays)
    (hasset : asset.isWritable = true) :
    Reclaim.process rt w ⟨authority.privileged, pool.privileged, item.privileged, asset.privileged,
      collection.privileged, coreProgram.privileged, systemProgram.privileged, eventAuthority.privileged,
      program.privileged⟩ =
        Reclaim.process rt w ⟨authority, pool, item, asset, collection, coreProgram, systemProgram,
          eventAuthority, program⟩ := by
  unfold Reclaim.process
  apply bind_congr_ok rfl
  intro itemData _
  apply bind_congr_ok rfl
  intro header hload
  apply bind_congr_ok rfl
  intro inventory _
  apply bind_congr_ok rfl
  intro ⟨_, inventory'⟩ _
  apply bind_congr_ok rfl
  intro header' hcounter
  -- A tier's counter is no part of the pool's seeds.
  have hseeds := hw.derived hload
  obtain ⟨tiers, rfl, -⟩ := Pool.updateRemaining_frame hcounter
  apply bind_congr_ok
  · apply Runtime.transferAsset_privileged hauthority hasset
    intro keys hkeys
    obtain rfl := Except.ok.inj (hkeys.symm.trans (Runtime.signerKeys_singleton hseeds))
    exact .inr List.mem_cons_self
  intro w _
  apply bind_congr_ok rfl
  intro accounts _
  exact Runtime.emit_privileged hrt

theorem Buy.process_privileged {buyerAta : AccountInfo} {d : BuyInstructionData} (hbuyer : buyer.Pays)
    (hpull : pull.isWritable = true) (hata : buyerAta.isWritable = true) (hvault : vault.isWritable = true) :
    Buy.process rt w ⟨buyer.privileged, pool.privileged, pull.privileged, buyerAta.privileged,
      vault.privileged, eventAuthority.privileged, program.privileged⟩ d =
        Buy.process rt w ⟨buyer, pool, pull, buyerAta, vault, eventAuthority, program⟩ d := by
  unfold Buy.process
  apply bind_congr_ok rfl
  intro pullKey hkey
  apply bind_congr_ok rfl
  intro _ hself
  have hseeds : rt.createProgramAddress (Pull.seeds pool.key d.clientSeed d.bump) programId =
      some pull.key :=
    (okOr_eq_ok.mp hkey).trans (congrArg some (not_not.mp (failIf_eq_ok.mp hself)))
  apply bind_congr_ok rfl
  intro header _
  apply bind_congr_ok rfl
  intro ⟨pendingDraws, amount⟩ _
  apply bind_congr_ok (Runtime.createPda_privileged hbuyer hpull hseeds pullLen)
  intro w _
  apply bind_congr_ok rfl
  intro new _
  apply bind_congr_ok rfl
  intro deadlineSlot _
  apply bind_congr_ok rfl
  intro nextIndex _
  apply bind_congr_ok
  · exact Runtime.transferTokens_privileged hata hvault (fun _ _ => .inl hbuyer.1) amount
  intro w _
  exact Runtime.emit_privileged hrt

theorem Refund.process_privileged (hw : w.Sound rt) {buyerAta : AccountInfo} (hvault : vault.isWritable = true)
    (hata : buyerAta.isWritable = true) :
    Refund.process rt w ⟨pool.privileged, pull.privileged, buyer.privileged, vault.privileged,
      buyerAta.privileged, eventAuthority.privileged, program.privileged⟩ =
        Refund.process rt w ⟨pool, pull, buyer, vault, buyerAta, eventAuthority, program⟩ := by
  unfold Refund.process
  apply bind_congr_ok rfl
  intro header hload
  apply bind_congr_ok rfl
  intro pullData _
  apply bind_congr_ok rfl
  intro amount _
  apply bind_congr_ok rfl
  intro pendingDraws _
  apply bind_congr_ok rfl
  intro nextSettle _
  apply bind_congr_ok
  · apply Runtime.transferTokens_privileged hvault hata
    intro keys hkeys
    obtain rfl := Except.ok.inj (hkeys.symm.trans (Runtime.signerKeys_singleton (hw.derived hload)))
    exact .inr List.mem_cons_self
  intro w _
  apply bind_congr_ok rfl
  intro accounts _
  exact Runtime.emit_privileged hrt

/-- The pool is the same in the two transfers of a buyback: neither the asset's new owner nor the restock
changes its seeds. -/
theorem Buyback.process_privileged (hw : w.Sound rt) {d : BuybackInstructionData} (hpayer : payer.Pays)
    (hseller : seller.isSigner = true) (hpool : pool.isWritable = true) (hitem : item.isWritable = true)
    (hasset : asset.isWritable = true) (hvault : vault.isWritable = true)
    (hdestination : destination.isWritable = true) :
    Buyback.process rt w ⟨payer.privileged, seller.privileged, pool.privileged, item.privileged,
      asset.privileged, collection.privileged, vault.privileged, destination.privileged,
      coreProgram.privileged, systemProgram.privileged, eventAuthority.privileged, program.privileged⟩ d =
        Buyback.process rt w ⟨payer, seller, pool, item, asset, collection, vault, destination, coreProgram,
          systemProgram, eventAuthority, program⟩ d := by
  unfold Buyback.process
  apply bind_congr_ok rfl
  intro header hload
  apply bind_congr_ok rfl
  intro _ _
  apply bind_congr_ok rfl
  intro _ _
  apply bind_congr_ok rfl
  intro free _
  apply bind_congr_ok rfl
  intro _ _
  apply bind_congr_ok rfl
  intro position hcheck
  apply bind_congr_ok
  · exact Runtime.transferAsset_privileged hpayer hasset fun _ _ => .inl hseller
  intro w₁ htransfer
  obtain ⟨index, hledger⟩ : ∃ index, w.ledger pool.key = .pool header index := ⟨_, World.pool_load hload⟩
  obtain ⟨-, hderived, hvacant, -⟩ := checkRestock_eq_ok.mp hcheck
  have hne : item.key ≠ pool.key := Ledger.ne_of_entry hvacant hledger (by simp)
  obtain ⟨assetData, -, hassetData, -, hledger₁, -⟩ := Runtime.transferAsset_ok hrt htransfer
  have hpool₁ : w₁.ledger pool.key = .pool header index := by
    rw [hledger₁, Function.update_of_ne (Ledger.ne_of_entry hledger hassetData (by simp)), hledger]
  apply bind_congr_ok
  · apply Runtime.restock_privileged hpayer hpool hitem
    intro header' hload'
    obtain rfl := World.pool_load_of_entry hpool₁ hload'
    exact hderived
  intro w₂ hrestock
  obtain ⟨header', index', -, hrestocked, hledger₂⟩ := Runtime.restock_ok hrt hpool₁ hne hrestock
  have hpool₂ : w₂.ledger pool.key = .pool header' index' := by
    rw [hledger₂, Function.update_of_ne hne.symm]
    exact Function.update_self ..
  apply bind_congr_ok
  · apply Runtime.pay_privileged hvault hdestination
    intro header'' hload''
    obtain rfl := World.pool_load_of_entry hpool₂ hload''
    have hseeds := hw.derived hload
    obtain ⟨tiers, rfl, -⟩ := hrestocked.header
    exact hseeds
  intro w₃ _
  exact Runtime.emit_privileged hrt

theorem Settle.process_privileged {items : List AccountInfo} {d : SettleInstructionData} :
    Settle.process rt w ⟨operator.privileged, pool.privileged, pull.privileged,
      items.map AccountInfo.privileged, eventAuthority.privileged, program.privileged⟩ d =
        Settle.process rt w ⟨operator, pool, pull, items, eventAuthority, program⟩ d := by
  have hcount : (items.map AccountInfo.privileged).length = items.length := List.length_map _
  unfold Settle.process
  dsimp only
  rw [hcount]
  apply bind_congr_ok rfl
  intro header _
  apply bind_congr_ok rfl
  intro inventory _
  apply bind_congr_ok rfl
  intro pullData _
  apply bind_congr_ok rfl
  intro beta _
  apply bind_congr_ok (Runtime.draw_privileged items)
  intro s _
  apply bind_congr_ok rfl
  intro pendingDraws _
  apply bind_congr_ok rfl
  intro nextSettle _
  apply bind_congr_ok rfl
  intro outcomes _
  exact Runtime.emit_privileged hrt

theorem Deliver.process_privileged (hw : w.Sound rt) {d : DeliverInstructionData} (hpayer : payer.Pays)
    (hasset : asset.isWritable = true) :
    Deliver.process rt w ⟨payer.privileged, pool.privileged, pull.privileged, buyer.privileged,
      asset.privileged, collection.privileged, coreProgram.privileged, systemProgram.privileged,
      eventAuthority.privileged, program.privileged⟩ d =
        Deliver.process rt w ⟨payer, pool, pull, buyer, asset, collection, coreProgram, systemProgram,
          eventAuthority, program⟩ d := by
  unfold Deliver.process
  apply bind_congr_ok rfl
  intro pullData _
  apply bind_congr_ok rfl
  intro _ _
  apply bind_congr_ok rfl
  intro outcome _
  apply bind_congr_ok rfl
  intro _ _
  apply bind_congr_ok rfl
  intro _ _
  apply bind_congr_ok rfl
  intro header hload
  apply bind_congr_ok
  · apply Runtime.transferAsset_privileged hpayer hasset
    intro keys hkeys
    obtain rfl := Except.ok.inj (hkeys.symm.trans (Runtime.signerKeys_singleton (hw.derived hload)))
    exact .inr List.mem_cons_self
  intro w _
  apply bind_congr_ok rfl
  intro marked _
  apply bind_congr_ok rfl
  intro all _
  apply bind_congr_ok rfl
  intro accounts _
  exact Runtime.emit_privileged hrt

end Handlers

end SolanaGacha
