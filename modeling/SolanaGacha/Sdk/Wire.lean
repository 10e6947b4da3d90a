import SolanaGacha.Sdk.Recovery
import SolanaGacha.System.Handlers
import SolanaGacha.System.Kinds
import SolanaGacha.System.Retirement

/-!
# The wire format of the Rust SDK

Each of the ten instruction builders writes accounts and bytes by position, and a handler of the program reads
them by position. `Handler.Reads` says that the two agree on an instruction: the entrypoint selects the handler,
the data is decoded to the builder's parameters, each account has the role that was meant, and it has every
privilege that the handler and its calls need. `GachaRust.wire` is this for every instruction of every builder.
-/

namespace SolanaGacha

open Except Layout

/-! ## What the program reads -/

/-- A handler reads an instruction as these accounts and this data, in every world where the data is timely. -/
structure Handler.Reads {α δ : Type} (rt : Runtime) (h : Handler α δ) (ix : GachaRust.Instruction) (a : α)
    (d : δ) (timely : World → Prop) : Prop where
  program : ix.programId = programId
  /-- The first byte selects the handler. -/
  dispatch : ∀ w, processInstruction rt w ix.call = h.run rt w ix.accounts ix.data.tail
  /-- The bytes behind it pass the checks of the decoder and hold the parameters. -/
  data : ∀ w, timely w → h.data w ix.data.tail = .ok d
  /-- The account pattern binds the accounts to their roles. -/
  binds : ∀ w b, h.accounts w ix.accounts = .ok b → b = a
  /-- It finds all of them, with the flags that it checks. -/
  fits : ∀ w e, e.OfShape → (h.accounts w ix.accounts).Avoids e
  /-- The programs that the handler calls are passed to it, for the event the program itself. -/
  callees : ∀ callee ∈ programId :: h.callees, ∃ info ∈ ix.accounts, info.key = callee
  /-- No check and no call lacks a privilege: with all of them for every account the result is the same. -/
  privileges : ∀ w, World.Reached rt w →
    processInstruction rt w ix.call.privileged = processInstruction rt w ix.call

theorem Handler.Reads.of_pattern {α δ : Type} {rt : Runtime} (hrt : rt.Lawful) {h : Handler α δ}
    {ix : GachaRust.Instruction} {a a' : α} {d : δ} {timely : World → Prop} (hprogram : ix.programId = programId)
    (hdispatch : ∀ w infos, processInstruction rt w ⟨infos, ix.data⟩ = h.run rt w infos ix.data.tail)
    (hdata : ∀ w, timely w → h.data w ix.data.tail = .ok d) (hpattern : Pattern h.accounts ix.accounts a a')
    (hcallees : ∀ callee ∈ programId :: h.callees, ∃ info ∈ ix.accounts, info.key = callee)
    (hprocess : ∀ w d, w.Sound rt → h.process rt w a' d = h.process rt w a d) :
    h.Reads rt ix a d timely where
  program := hprogram
  dispatch w := hdispatch w ix.accounts
  data := hdata
  binds w b hb := hpattern.binds hb
  fits := hpattern.fits
  callees := hcallees
  privileges w hw := by
    have hsound := World.Reached.sound hrt hw
    calc processInstruction rt w ix.call.privileged
        = h.run rt w (ix.accounts.map AccountInfo.privileged) ix.data.tail := hdispatch w _
      _ = h.run rt w ix.accounts ix.data.tail :=
          Handler.run_privileged hpattern (fun d => hprocess w d hsound) ix.data.tail
      _ = processInstruction rt w ix.call := (hdispatch w ix.accounts).symm

namespace GachaRust

variable {rt : Runtime}

/-! ## Admin instructions -/

/-- The parameters of a pool in the data of `CreatePool`. -/
structure CreatePool.Encodes (p : CreatePool) (d : CreatePoolInstructionData) : Prop where
  id : d.id = p.id
  price : d.price = p.price
  deadlineSlots : d.deadlineSlots = p.deadlineSlots
  bondPerDraw : d.bondPerDraw = p.bondPerDraw
  tierCount : d.tierCount.toNat = p.weights.length
  weights : d.weights.toList.take d.tierCount.toNat = p.weights

/-- `CreatePool::instructions` returns one instruction for the program, to create a pool of these parameters. -/
def CreatePool.Created (rt : Runtime) (p : CreatePool) (authority operator paymentMint : Pubkey)
    (ixs : List Instruction) : Prop :=
  ∃ ix pool bump vault d, ixs.filter (fun ix => ix.programId = programId) = [ix] ∧
    Pool.addressFor rt authority p.id = .ok (pool, bump) ∧ ata rt pool paymentMint = .ok vault ∧
      p.Encodes d ∧ d.bump = bump ∧ CreatePool.handler.Reads rt ix
        { authority := rw authority true
          pool := rw pool false
          operator := ro operator false
          paymentMint := ro paymentMint false
          vault := ro vault false
          eventAuthority := ro eventAuthority false
          program := ro programId false } d fun _ => True

/-- The data that the builder writes. -/
def CreatePool.data (p : CreatePool) (bump : UInt8) : CreatePoolInstructionData where
  id := p.id
  price := p.price
  deadlineSlots := p.deadlineSlots
  bondPerDraw := p.bondPerDraw
  tierCount := UInt8.ofNat p.weights.length
  weights := Vector.ofFn fun i => p.weights.getD i 0
  bump

/-- Its tiers are the weights, with zeros behind them. -/
theorem CreatePool.encodes_data {p : CreatePool} (hlength : p.weights.length ≤ maxTiers) (bump : UInt8) :
    p.Encodes (p.data bump) where
  id := rfl
  price := rfl
  deadlineSlots := rfl
  bondPerDraw := rfl
  tierCount := UInt8.toNat_ofNat_of_lt' (lt_of_le_of_lt hlength (by decide))
  weights := by
    have hcount : (p.data bump).tierCount.toNat = p.weights.length :=
      UInt8.toNat_ofNat_of_lt' (lt_of_le_of_lt hlength (by decide))
    rw [hcount]
    apply List.ext_getElem?
    intro i
    unfold data
    rw [List.getElem?_take, Vector.toList_ofFn, List.getElem?_ofFn]
    unfold maxTiers at hlength
    split
    · rename_i hi
      rw [dif_pos (by omega), List.getElem?_eq_getElem hi, List.getD_eq_getElem?_getD,
        List.getElem?_eq_getElem hi]
      rfl
    · rename_i hi
      rw [List.getElem?_eq_none (by omega)]

/-- The bytes behind the discriminator are the encoding of the data. -/
theorem CreatePool.encode_data (p : CreatePool) (bump : UInt8) :
    u64.encode p.id ++ u64.encode p.price ++ u64.encode p.deadlineSlots ++ u64.encode p.bondPerDraw ++
      [UInt8.ofNat p.weights.length] ++
        ((List.range maxTiers).map fun i => u32.encode (p.weights.getD i 0)).flatten ++ [bump] =
      CreatePoolInstructionData.layout.encode (p.data bump) := by
  have hweights : ((List.range maxTiers).map fun i => u32.encode (p.weights.getD i 0)).flatten =
      (u32.vector 8).encode (p.data bump).weights := by
    have hlist : (p.data bump).weights.toList = List.ofFn fun i : Fin 8 => p.weights.getD i 0 :=
      Vector.toList_ofFn
    unfold vector
    dsimp only
    rw [hlist, List.flatMap_def]
    rfl
  rw [hweights]
  unfold CreatePoolInstructionData.layout iso pair
  simp only [List.append_assoc]
  rfl

/-- The builder checks the parameters as the program does. -/
theorem CreatePool.tryFrom_data (p : CreatePool) (bump : UInt8) (hlength : 1 ≤ p.weights.length)
    (hmax : p.weights.length ≤ maxTiers) (hweights : 0 ∉ p.weights) (hprice : p.price ≠ 0)
    (hdeadline : p.deadlineSlots ≠ 0) (hbond : p.bondPerDraw ≠ 0)
    (hrefund : ((p.price.checkedAdd p.bondPerDraw).bind fun n => n.checkedMul (UInt64.ofNat maxCount)) ≠ none) :
    CreatePoolInstructionData.tryFrom (CreatePoolInstructionData.layout.encode (p.data bump)) =
      .ok (p.data bump) := by
  have hencodes := p.encodes_data hmax bump
  unfold CreatePoolInstructionData.tryFrom
  rw [failIf_neg (not_not.mpr (encode_length _ _)), ok_bind, decode_encode]
  dsimp only
  have hcount : ¬((p.data bump).tierCount = 0 ∨ maxTiers < (p.data bump).tierCount.toNat) := by
    rw [hencodes.tierCount]
    rintro (hzero | hlarge)
    · have htoNat := hencodes.tierCount
      rw [hzero] at htoNat
      have hzero : (0 : UInt8).toNat = 0 := rfl
      omega
    · omega
  have hnonzero : 0 ∉ (p.data bump).weights.toList.take (p.data bump).tierCount.toNat := by
    rw [hencodes.weights]
    exact hweights
  have hpositive : ¬((p.data bump).price = 0 ∨ (p.data bump).bondPerDraw = 0 ∨
      (p.data bump).deadlineSlots = 0) := by
    rintro (hzero | hzero | hzero)
    · exact hprice hzero
    · exact hbond hzero
    · exact hdeadline hzero
  have hfits : ¬((p.data bump).price.checkedAdd (p.data bump).bondPerDraw).bind
      (fun n => n.checkedMul (UInt64.ofNat maxCount)) = none := hrefund
  rw [failIf_neg hcount, ok_bind, failIf_neg hnonzero, ok_bind, failIf_neg hpositive, ok_bind,
    failIf_neg hfits]
  rfl

/-- The two programs of a builder's other instructions. -/
theorem associatedTokenId_ne : associatedTokenId ≠ programId := by decide

theorem tokenId_ne : tokenId ≠ programId := by decide

/-- An instruction for the program behind the creation of a token account. -/
theorem filter_createAta {payer owner mint : Pubkey} {create ix : Instruction} {rest : List Instruction}
    (hcreate : createAta rt payer owner mint = .ok create) (hix : ix.programId = programId)
    (hrest : rest.filter (fun ix => ix.programId = programId) = []) :
    (create :: ix :: rest).filter (fun ix => ix.programId = programId) = [ix] := by
  obtain ⟨address, -, rfl⟩ := build_eq_ok.mp hcreate
  rw [List.filter_cons_of_neg (by simp [associatedTokenId_ne]), List.filter_cons_of_pos (by simpa using hix),
    hrest]

/-- Parameters that the builder accepts have an encoding that the program accepts. -/
theorem CreatePool.instructions_accepted {validate : Pubkey → Bool} {p : CreatePool}
    {authority operator paymentMint : Pubkey} {ixs : List Instruction}
    (h : p.instructions rt validate authority operator paymentMint = .ok ixs) :
    ∃ d, p.Encodes d ∧
      CreatePoolInstructionData.tryFrom (CreatePoolInstructionData.layout.encode d) = .ok d := by
  unfold instructions at h
  simp only [bind_eq_ok, failIf_eq_ok, not_or, not_not] at h
  obtain ⟨_, ⟨hlength, hmax, hweights, hprice, hdeadline, hbond, hrefund, -⟩, -⟩ := h
  exact ⟨p.data 0, p.encodes_data (by omega) 0,
    p.tryFrom_data 0 (by omega) (by omega) hweights hprice hdeadline hbond hrefund⟩

theorem CreatePool.instructions_created (hrt : rt.Lawful) {validate : Pubkey → Bool} {p : CreatePool}
    {authority operator paymentMint : Pubkey} {ixs : List Instruction}
    (h : p.instructions rt validate authority operator paymentMint = .ok ixs) :
    p.Created rt authority operator paymentMint ixs := by
  unfold instructions at h
  simp only [bind_eq_ok, failIf_eq_ok, not_or, not_not] at h
  obtain ⟨_, ⟨hlength, hmax, hweights, hprice, hdeadline, hbond, hrefund, -⟩, ⟨pool, bump⟩, hpool, createVault,
    hcreate, vault, hvault, h⟩ := h
  have hread : CreatePool.handler.Reads rt (instruction
      (0 :: u64.encode p.id ++ u64.encode p.price ++ u64.encode p.deadlineSlots ++ u64.encode p.bondPerDraw ++
        [UInt8.ofNat p.weights.length] ++
          ((List.range maxTiers).map fun i => u32.encode (p.weights.getD i 0)).flatten ++ [bump])
      [rw authority true, rw pool false, ro operator false, ro paymentMint false, ro vault false,
        ro systemId false])
      ⟨rw authority true, rw pool false, ro operator false, ro paymentMint false, ro vault false,
        ro eventAuthority false, ro programId false⟩ (p.data bump) fun _ => True := by
    apply Handler.Reads.of_pattern hrt rfl (fun _ _ => rfl)
    · intro _ _
      have htry := p.tryFrom_data bump (by omega) (by omega) hweights hprice hdeadline hbond hrefund
      rw [← p.encode_data] at htry
      exact htry
    · exact CreatePoolAccounts.pattern rfl rfl
    · simp [CreatePool.handler, instruction, rw, ro]
    · intro w d _
      exact CreatePool.process_privileged hrt ⟨rfl, rfl⟩ rfl
  refine ⟨_, pool, bump, vault, p.data bump, ?_, hpool, hvault, p.encodes_data (by omega) bump, rfl, hread⟩
  rcases ite_eq_ok.mp h with ⟨-, h⟩ | ⟨-, h⟩
  · obtain ⟨source, -, rfl⟩ := build_eq_ok.mp h
    apply filter_createAta hcreate rfl
    exact List.filter_cons_of_neg (by simp [tokenTransfer, tokenId_ne])
  · obtain rfl := pure_eq_ok.mp h
    exact filter_createAta hcreate rfl rfl

/-- `deposit` returns an instruction to deposit the asset in the tier, at the pool's next position. -/
def Pool.Deposited (rt : Runtime) (pool : Pool) (tier : UInt8) (asset : Asset) (ix : Instruction) : Prop :=
  ∃ item bump, Item.addressFor rt pool.address tier pool.header.inventoryVersion = .ok (item, bump) ∧
    DepositItem.handler.Reads rt ix
      { authority := rw pool.header.authority true
        pool := rw pool.address false
        item := rw item false
        asset := rw asset.address false
        collection := ro (asset.collection.getD coreId) false
        coreProgram := ro coreId false
        systemProgram := ro systemId false
        eventAuthority := ro eventAuthority false
        program := ro programId false } { tier, bump } fun _ => True

theorem Pool.deposit_deposited (hrt : rt.Lawful) {pool : Pool} {tier : UInt8} {asset : Asset} {ix : Instruction}
    (h : pool.deposit rt tier asset = .ok ix) : pool.Deposited rt tier asset ix := by
  unfold deposit at h
  simp only [bind_eq_ok, pure_eq_ok] at h
  obtain ⟨_, -, _, -, _, -, ⟨item, bump⟩, hitem, rfl⟩ := h
  refine ⟨item, bump, hitem, ?_⟩
  apply Handler.Reads.of_pattern hrt rfl (fun _ _ => rfl) (fun _ _ => rfl)
  · exact DepositItemAccounts.pattern rfl rfl rfl
  · simp [DepositItem.handler, instruction, rw, ro]
  · intro w d _
    exact DepositItem.process_privileged hrt ⟨rfl, rfl⟩ rfl rfl rfl

/-- `withdraw` returns an instruction to pay the amount from the vault. -/
def Pool.Withdrawn (rt : Runtime) (pool : Pool) (destination : Pubkey) (amount : UInt64) (ix : Instruction) :
    Prop :=
  Withdraw.handler.Reads rt ix
    { authority := ro pool.header.authority true
      pool := ro pool.address false
      vault := rw pool.header.vault false
      destination := rw destination false
      eventAuthority := ro eventAuthority false
      program := ro programId false } { amount } fun _ => True

theorem Pool.withdraw_withdrawn (hrt : rt.Lawful) (pool : Pool) (destination : Pubkey) (amount : UInt64) :
    pool.Withdrawn rt destination amount (pool.withdraw destination amount) := by
  apply Handler.Reads.of_pattern hrt rfl (fun _ _ => rfl)
  · intro _ _
    obtain ⟨hlength, hdecode⟩ := u64.decode_of_encode (a := amount) rfl
    show WithdrawInstructionData.tryFrom (u64.encode amount) = _
    unfold WithdrawInstructionData.tryFrom
    rw [failIf_neg (not_not.mpr hlength), hdecode]
    rfl
  · exact WithdrawAccounts.pattern rfl
  · simp [Withdraw.handler, withdraw, instruction, rw, ro]
  · intro w d hw
    exact Withdraw.process_privileged hrt hw rfl rfl

/-- `set_status` returns an instruction to set the status. -/
def Pool.StatusSet (rt : Runtime) (pool : Pool) (status : PoolStatus) (ix : Instruction) : Prop :=
  SetStatus.handler.Reads rt ix
    { authority := ro pool.header.authority true
      pool := rw pool.address false
      eventAuthority := ro eventAuthority false
      program := ro programId false } { status := status.toByte } fun _ => True

theorem Pool.setStatus_statusSet (hrt : rt.Lawful) {pool : Pool} {status : PoolStatus} {ix : Instruction}
    (h : pool.setStatus status = .ok ix) : pool.StatusSet rt status ix := by
  unfold setStatus at h
  obtain ⟨_, -, h⟩ := bind_eq_ok.mp h
  obtain rfl := pure_eq_ok.mp h
  apply Handler.Reads.of_pattern hrt rfl (fun _ _ => rfl)
  · intro _ _
    cases status with
    | paused => rfl
    | active => rfl
    | retired => rfl
  · exact SetStatusAccounts.pattern rfl rfl
  · simp [SetStatus.handler, instruction, rw, ro]
  · intro w d _
    exact SetStatus.process_privileged hrt

/-- `reclaim` returns an instruction to reclaim the asset with its Item. -/
def Pool.Reclaimed (rt : Runtime) (pool : Pool) (item : Item) (asset : Asset) (ix : Instruction) : Prop :=
  Reclaim.handler.Reads rt ix
    { authority := rw pool.header.authority true
      pool := rw pool.address false
      item := rw item.address false
      asset := rw asset.address false
      collection := ro (asset.collection.getD coreId) false
      coreProgram := ro coreId false
      systemProgram := ro systemId false
      eventAuthority := ro eventAuthority false
      program := ro programId false } () fun _ => True

theorem Pool.reclaim_reclaimed (hrt : rt.Lawful) {pool : Pool} {item : Item} {asset : Asset} {ix : Instruction}
    (h : pool.reclaim item asset = .ok ix) : pool.Reclaimed rt item asset ix := by
  unfold reclaim at h
  simp only [bind_eq_ok, pure_eq_ok] at h
  obtain ⟨_, -, _, -, _, -, _, -, rfl⟩ := h
  apply Handler.Reads.of_pattern hrt rfl (fun _ _ => rfl) (fun _ _ => rfl)
  · exact ReclaimAccounts.pattern ⟨rfl, rfl⟩ rfl rfl
  · simp [Reclaim.handler, instruction, rw, ro]
  · intro w d hw
    exact Reclaim.process_privileged hrt hw ⟨rfl, rfl⟩ rfl

/-! ## Player instructions -/

/-- `buy` returns the address of the Pull and an instruction to buy it. -/
def Pool.Bought (rt : Runtime) (pool : Pool) (buy : Buy) (purchase : Purchase) : Prop :=
  ∃ bump buyerAta, Pull.addressFor rt pool.address buy.clientSeed = .ok (purchase.pull, bump) ∧
    ata rt buy.buyer pool.header.paymentMint = .ok buyerAta ∧ Buy.handler.Reads rt purchase.instruction
      { buyer := rw buy.buyer true
        pool := rw pool.address false
        pull := rw purchase.pull false
        buyerAta := rw buyerAta false
        vault := rw pool.header.vault false
        eventAuthority := ro eventAuthority false
        program := ro programId false }
      { count := buy.count
        clientSeed := buy.clientSeed
        inventoryVersion := pool.header.inventoryVersion
        bump } fun _ => True

theorem Pool.buy_bought (hrt : rt.Lawful) {pool : Pool} {buy : Buy} {purchase : Purchase}
    (h : pool.buy rt buy = .ok purchase) : pool.Bought rt buy purchase := by
  unfold Pool.buy at h
  simp only [bind_eq_ok, failIf_eq_ok, pure_eq_ok] at h
  obtain ⟨_, -, _, hcount, ⟨pull, bump⟩, hpull, buyerAta, hata, rfl⟩ := h
  refine ⟨bump, buyerAta, hpull, hata, ?_⟩
  apply Handler.Reads.of_pattern hrt rfl (fun _ _ => rfl)
  · intro _ _
    obtain ⟨hlength, hdecode⟩ := BuyInstructionData.layout.decode_of_encode
      (a := ⟨buy.count, buy.clientSeed, pool.header.inventoryVersion, bump⟩) (show
        buy.count :: buy.clientSeed.val ++ u32.encode pool.header.inventoryVersion ++ [bump] = _ by
        rw [List.append_assoc]
        rfl)
    have hvalid : ¬(buy.count = 0 ∨ maxCount < buy.count.toNat) := by
      rintro (hzero | hlarge)
      · rw [hzero] at hcount
        exact hcount (.inl (by decide))
      · exact hcount (.inr hlarge)
    show BuyInstructionData.tryFrom (buy.count :: buy.clientSeed.val ++ _ ++ [bump]) = _
    unfold BuyInstructionData.tryFrom
    rw [failIf_neg (not_not.mpr hlength), ok_bind, hdecode]
    dsimp only
    rw [failIf_neg hvalid]
    rfl
  · exact BuyAccounts.pattern rfl rfl rfl
  · simp [Buy.handler, instruction, rw, ro]
  · intro w d _
    exact Buy.process_privileged hrt ⟨rfl, rfl⟩ rfl rfl rfl

/-- `refund` returns one instruction for the program, to refund the Pull. -/
def Pool.Refunded (rt : Runtime) (pool : Pool) (pull : Pull) (ixs : List Instruction) : Prop :=
  ∃ ix buyerAta, ixs.filter (fun ix => ix.programId = programId) = [ix] ∧
    ata rt pull.header.buyer pool.header.paymentMint = .ok buyerAta ∧ Refund.handler.Reads rt ix
      { pool := rw pool.address false
        pull := rw pull.address false
        buyer := rw pull.header.buyer false
        vault := rw pool.header.vault false
        buyerAta := rw buyerAta false
        eventAuthority := ro eventAuthority false
        program := ro programId false } () fun _ => True

theorem Pool.refund_refunded (hrt : rt.Lawful) {pool : Pool} {pull : Pull} {payer : Pubkey}
    {ixs : List Instruction} (h : pool.refund rt pull payer = .ok ixs) : pool.Refunded rt pull ixs := by
  unfold refund at h
  simp only [bind_eq_ok, pure_eq_ok] at h
  obtain ⟨_, -, create, hcreate, buyerAta, hata, rfl⟩ := h
  refine ⟨_, buyerAta, filter_createAta hcreate rfl rfl, hata, ?_⟩
  apply Handler.Reads.of_pattern hrt rfl (fun _ _ => rfl) (fun _ _ => rfl)
  · exact RefundAccounts.pattern rfl rfl rfl
  · simp [Refund.handler, instruction, rw, ro]
  · intro w d hw
    exact Refund.process_privileged hrt hw rfl rfl

/-- `buyback` returns one instruction for the program, to sell the asset on the terms of the quote. Its data
passes the decoder until the quote expires. -/
def Pool.BoughtBack (rt : Runtime) (pool : Pool) (quote : BuybackQuote) (signature : FixedBytes 64)
    (asset : Asset) (payer : Pubkey) (ixs : List Instruction) : Prop :=
  ∃ ix item bump destination, ixs.filter (fun ix => ix.programId = programId) = [ix] ∧
    Item.addressFor rt pool.address quote.tier pool.header.inventoryVersion = .ok (item, bump) ∧
      ata rt asset.owner pool.header.paymentMint = .ok destination ∧ Buyback.handler.Reads rt ix
        { payer := rw payer true
          seller := ro asset.owner true
          pool := rw pool.address false
          item := rw item false
          asset := rw asset.address false
          collection := ro (asset.collection.getD coreId) false
          vault := rw pool.header.vault false
          destination := rw destination false
          coreProgram := ro coreId false
          systemProgram := ro systemId false
          eventAuthority := ro eventAuthority false
          program := ro programId false }
        { tier := quote.tier
          price := quote.price
          expiresAt := quote.expiresAt
          signature
          bump } fun w => w.unixTimestamp < quote.expiresAt

theorem Pool.buyback_boughtBack (hrt : rt.Lawful) {pool : Pool} {quote : BuybackQuote}
    {signature : FixedBytes 64} {asset : Asset} {payer : Pubkey} {ixs : List Instruction}
    (h : pool.buyback rt quote signature asset payer = .ok ixs) :
    pool.BoughtBack rt quote signature asset payer ixs := by
  unfold buyback at h
  simp only [bind_eq_ok, pure_eq_ok] at h
  obtain ⟨_, -, _, -, _, -, _, -, ⟨item, bump⟩, hitem, create, hcreate, destination, hata, rfl⟩ := h
  refine ⟨_, item, bump, destination, filter_createAta hcreate rfl rfl, hitem, hata, ?_⟩
  apply Handler.Reads.of_pattern hrt rfl (fun _ _ => rfl)
  · intro w htimely
    obtain ⟨hlength, hdecode⟩ := BuybackInstructionData.layout.decode_of_encode
      (a := ⟨quote.tier, quote.price, quote.expiresAt, signature, bump⟩) (show quote.tier ::
        u64.encode quote.price ++ encodeI64 quote.expiresAt ++ signature.val ++ [bump] = _ by
        simp only [List.append_assoc]
        rfl)
    show BuybackInstructionData.tryFrom w
      (quote.tier :: u64.encode quote.price ++ encodeI64 quote.expiresAt ++ signature.val ++ [bump]) = _
    unfold BuybackInstructionData.tryFrom
    rw [failIf_neg (not_not.mpr hlength), ok_bind, hdecode]
    dsimp only
    rw [failIf_neg (Int64.not_le.mpr htimely)]
    rfl
  · exact BuybackAccounts.pattern rfl rfl rfl rfl
  · simp [Buyback.handler, instruction, rw, ro]
  · intro w d hw
    exact Buyback.process_privileged hrt hw ⟨rfl, rfl⟩ rfl rfl rfl rfl rfl rfl

/-! ## Operator instructions -/

/-- `Settlement::instruction` returns an instruction to settle the Pull with the plan's proof and Items. -/
def Settlement.Settles (rt : Runtime) (plan : Settlement) (ix : Instruction) : Prop :=
  Settle.handler.Reads rt ix
    { operator := rw plan.operator false
      pool := rw plan.pool false
      pull := rw plan.pull false
      items := plan.draws.map fun draw => rw draw.item false
      eventAuthority := ro eventAuthority false
      program := ro programId false } { proof := plan.proof } fun _ => True

theorem Settlement.instruction_settles (hrt : rt.Lawful) (plan : Settlement) :
    plan.Settles rt plan.instruction := by
  apply Handler.Reads.of_pattern hrt rfl (fun _ _ => rfl)
  · intro _ _
    obtain ⟨hlength, hdecode⟩ := (bytes 80).decode_of_encode (a := plan.proof) rfl
    show SettleInstructionData.tryFrom ((bytes 80).encode plan.proof) = _
    unfold SettleInstructionData.tryFrom
    rw [hdecode]
    exact congrArg (· >>= _) (failIf_neg (not_not.mpr hlength) _)
  · have hitems : ∀ info ∈ plan.draws.map fun draw => rw draw.item false, info.isWritable = true := by
      intro info hmem
      obtain ⟨draw, -, rfl⟩ := List.mem_map.mp hmem
      rfl
    show Pattern SettleAccounts.tryFrom (rw plan.operator false :: rw plan.pool false :: rw plan.pull false ::
      ((plan.draws.map fun draw => rw draw.item false) ++ [ro eventAuthority false, ro programId false])) _ _
    exact SettleAccounts.pattern rfl rfl rfl hitems
  · intro callee hcallee
    obtain rfl := List.mem_singleton.mp hcallee
    exact ⟨ro programId false, by simp [Settlement.instruction, GachaRust.instruction], rfl⟩
  · intro w d _
    exact Settle.process_privileged hrt

/-- `deliver` returns an instruction to deliver the award. -/
def Delivers (rt : Runtime) (pool pull buyer : Pubkey) (asset : Asset) (outcome : UInt8) (payer : Pubkey)
    (ix : Instruction) : Prop :=
  Deliver.handler.Reads rt ix
    { payer := rw payer true
      pool := ro pool false
      pull := rw pull false
      buyer := rw buyer false
      asset := rw asset.address false
      collection := ro (asset.collection.getD coreId) false
      coreProgram := ro coreId false
      systemProgram := ro systemId false
      eventAuthority := ro eventAuthority false
      program := ro programId false } { outcome } fun _ => True

theorem deliver_delivers (hrt : rt.Lawful) {pool pull buyer payer : Pubkey} {asset : Asset} {outcome : UInt8}
    {ix : Instruction} (h : deliver pool pull buyer asset outcome payer = .ok ix) :
    Delivers rt pool pull buyer asset outcome payer ix := by
  unfold deliver at h
  obtain ⟨_, -, h⟩ := bind_eq_ok.mp h
  obtain rfl := pure_eq_ok.mp h
  apply Handler.Reads.of_pattern hrt rfl (fun _ _ => rfl) (fun _ _ => rfl)
  · exact DeliverAccounts.pattern rfl rfl rfl
  · simp [Deliver.handler, instruction, rw, ro]
  · intro w d hw
    exact Deliver.process_privileged hrt hw ⟨rfl, rfl⟩ rfl

/-! ## All builders -/

/-- Whatever a builder accepts, the program reads as the builder meant it, in every reachable world: handler,
parameters, roles and privileges. Conversely `CreatePool::instructions` accepts only parameters that the
program's own checks accept in some encoding. -/
theorem wire_faithful (hrt : rt.Lawful) :
    (∀ (validate : Pubkey → Bool) (p : CreatePool) (authority operator paymentMint : Pubkey) ixs,
      p.instructions rt validate authority operator paymentMint = .ok ixs →
        p.Created rt authority operator paymentMint ixs) ∧
    (∀ (pool : Pool) tier asset ix, pool.deposit rt tier asset = .ok ix → pool.Deposited rt tier asset ix) ∧
    (∀ (pool : Pool) destination amount,
      pool.Withdrawn rt destination amount (pool.withdraw destination amount)) ∧
    (∀ (pool : Pool) status ix, pool.setStatus status = .ok ix → pool.StatusSet rt status ix) ∧
    (∀ (pool : Pool) item asset ix, pool.reclaim item asset = .ok ix → pool.Reclaimed rt item asset ix) ∧
    (∀ (pool : Pool) buy purchase, pool.buy rt buy = .ok purchase → pool.Bought rt buy purchase) ∧
    (∀ (pool : Pool) pull payer ixs, pool.refund rt pull payer = .ok ixs → pool.Refunded rt pull ixs) ∧
    (∀ (pool : Pool) quote signature asset payer ixs,
      pool.buyback rt quote signature asset payer = .ok ixs →
        pool.BoughtBack rt quote signature asset payer ixs) ∧
    (∀ plan : Settlement, plan.Settles rt plan.instruction) ∧
    (∀ pool pull buyer asset outcome payer ix, deliver pool pull buyer asset outcome payer = .ok ix →
      Delivers rt pool pull buyer asset outcome payer ix) ∧
    (∀ (validate : Pubkey → Bool) (p : CreatePool) (authority operator paymentMint : Pubkey),
      (∀ d, p.Encodes d → ∃ fault, CreatePoolInstructionData.tryFrom
        (CreatePoolInstructionData.layout.encode d) = .error fault) →
          ∃ fault, p.instructions rt validate authority operator paymentMint = .error fault) := by
  refine ⟨?_, ?_, ?_, ?_, ?_, ?_, ?_, ?_, ?_, ?_, ?_⟩
  · exact fun _ _ _ _ _ _ h => CreatePool.instructions_created hrt h
  · exact fun _ _ _ _ h => Pool.deposit_deposited hrt h
  · exact fun pool destination amount => pool.withdraw_withdrawn hrt destination amount
  · exact fun _ _ _ h => Pool.setStatus_statusSet hrt h
  · exact fun _ _ _ _ h => Pool.reclaim_reclaimed hrt h
  · exact fun _ _ _ h => Pool.buy_bought hrt h
  · exact fun _ _ _ _ h => Pool.refund_refunded hrt h
  · exact fun _ _ _ _ _ _ h => Pool.buyback_boughtBack hrt h
  · exact fun plan => plan.instruction_settles hrt
  · exact fun _ _ _ _ _ _ _ h => deliver_delivers hrt h
  · intro validate p authority operator paymentMint hrejected
    cases h : p.instructions rt validate authority operator paymentMint with
    | error fault => exact ⟨fault, rfl⟩
    | ok ixs =>
      -- What the builder accepts has an encoding that the program accepts.
      obtain ⟨d, hencodes, htry⟩ := CreatePool.instructions_accepted h
      obtain ⟨fault, hfault⟩ := hrejected d hencodes
      rw [htry] at hfault
      cases hfault

end GachaRust

/-! ## The sample builders -/

namespace Sample

/-- The position behind the two deposits of the sample pool. -/
def item₂ : Pubkey := hex 32 0xfbd746a52ab66fab473ababa318435abb738060a576223fad314b316823bd7ea

/-- The sample chain with the addresses that the builders derive. -/
def wallets : Localnet where
  addresses := net.addresses ++
    [(([buyer.val, tokenId.val, paymentMint.val, [255]], associatedTokenId), buyerAta),
     (([authority.val, tokenId.val, paymentMint.val, [255]], associatedTokenId), authorityAta),
     (([itemSeed, pool.val, [0], u32.encode 2, [254]], programId), item₂)]
  hashes := net.hashes
  proofs := net.proofs
  signatures := net.signatures
  eventAuthority_known := by decide +kernel

/-- The sample pool's parameters, with a bond of 1000. -/
def params : GachaRust.CreatePool := ⟨1, 100, 50, 10, 1000, [1]⟩

/-- Snapshots of the pool with a purchase, of the same pool retired, of the purchase and of an Item. -/
def poolSnapshot : GachaRust.Pool := ⟨pool, (bought.accounts pool).data⟩
def retiredSnapshot : GachaRust.Pool := ⟨pool, (retired.accounts pool).data⟩
def pullSnapshot : GachaRust.Pull := ⟨pull, (bought.accounts pull).data⟩
def itemSnapshot : GachaRust.Item := ⟨item₁, (retired.accounts item₁).data⟩

def saleQuote : GachaRust.BuybackQuote := ⟨pool, asset₀, 50, 1000, 0⟩

end Sample

namespace GachaRust

/-- Every builder accepts some arguments of the sample chain, and the eleventh part has something to reject. -/
theorem wire_faithful_sample :
    (∃ ixs, Sample.params.instructions Sample.wallets.runtime (fun _ => true) Sample.authority Sample.operator
      Sample.paymentMint = .ok ixs ∧ Sample.params.Created Sample.wallets.runtime Sample.authority
        Sample.operator Sample.paymentMint ixs) ∧
    (∃ ix, Sample.poolSnapshot.deposit Sample.wallets.runtime 0 ⟨Sample.asset₀, Sample.authority, none⟩ =
      .ok ix ∧ Sample.poolSnapshot.Deposited Sample.wallets.runtime 0
        ⟨Sample.asset₀, Sample.authority, none⟩ ix) ∧
    Sample.poolSnapshot.Withdrawn Sample.wallets.runtime Sample.authorityAta 40
      (Sample.poolSnapshot.withdraw Sample.authorityAta 40) ∧
    (∃ ix, Sample.poolSnapshot.setStatus .retired = .ok ix ∧
      Sample.poolSnapshot.StatusSet Sample.wallets.runtime .retired ix) ∧
    (∃ ix, Sample.retiredSnapshot.reclaim Sample.itemSnapshot ⟨Sample.asset₁, Sample.pool, none⟩ = .ok ix ∧
      Sample.retiredSnapshot.Reclaimed Sample.wallets.runtime Sample.itemSnapshot
        ⟨Sample.asset₁, Sample.pool, none⟩ ix) ∧
    (∃ purchase, Sample.poolSnapshot.buy Sample.wallets.runtime ⟨Sample.buyer, 1, Sample.clientSeed⟩ =
      .ok purchase ∧ Sample.poolSnapshot.Bought Sample.wallets.runtime ⟨Sample.buyer, 1, Sample.clientSeed⟩
        purchase) ∧
    (∃ ixs, Sample.poolSnapshot.refund Sample.wallets.runtime Sample.pullSnapshot Sample.buyer = .ok ixs ∧
      Sample.poolSnapshot.Refunded Sample.wallets.runtime Sample.pullSnapshot ixs) ∧
    (∃ ixs, Sample.poolSnapshot.buyback Sample.wallets.runtime Sample.saleQuote Sample.quote
      ⟨Sample.asset₀, Sample.buyer, none⟩ Sample.buyer = .ok ixs ∧
        Sample.poolSnapshot.BoughtBack Sample.wallets.runtime Sample.saleQuote Sample.quote
          ⟨Sample.asset₀, Sample.buyer, none⟩ Sample.buyer ixs) ∧
    Settlement.Settles Sample.wallets.runtime
      ⟨Sample.pool, Sample.pull, Sample.buyer, Sample.operator, Sample.proof, [⟨0, 0, Sample.item₀⟩]⟩
      (Settlement.instruction
        ⟨Sample.pool, Sample.pull, Sample.buyer, Sample.operator, Sample.proof, [⟨0, 0, Sample.item₀⟩]⟩) ∧
    (∃ ix, deliver Sample.pool Sample.pull Sample.buyer ⟨Sample.asset₀, Sample.pool, none⟩ 0 Sample.operator =
      .ok ix ∧ Delivers Sample.wallets.runtime Sample.pool Sample.pull Sample.buyer
        ⟨Sample.asset₀, Sample.pool, none⟩ 0 Sample.operator ix) ∧
    (∃ fault, CreatePool.instructions Sample.wallets.runtime (fun _ => true)
      { Sample.params with weights := List.replicate 300 1 } Sample.authority Sample.operator
        Sample.paymentMint = .error fault) := by
  obtain ⟨hcreate, hdeposit, hwithdraw, hstatus, hreclaim, hbuy, hrefund, hbuyback, hsettle, hdeliver,
    hrejects⟩ := wire_faithful Sample.wallets.runtime_lawful
  refine ⟨?_, ?_, hwithdraw _ _ _, ?_, ?_, ?_, ?_, ?_, hsettle _, ?_, ?_⟩
  · obtain ⟨ixs, h⟩ := isOk_iff.mp (show (Sample.params.instructions Sample.wallets.runtime (fun _ => true)
      Sample.authority Sample.operator Sample.paymentMint).isOk = true by decide +kernel)
    exact ⟨ixs, h, hcreate _ _ _ _ _ _ h⟩
  · obtain ⟨ix, h⟩ := isOk_iff.mp (show (Sample.poolSnapshot.deposit Sample.wallets.runtime 0
      ⟨Sample.asset₀, Sample.authority, none⟩).isOk = true by decide +kernel)
    exact ⟨ix, h, hdeposit _ _ _ _ h⟩
  · obtain ⟨ix, h⟩ := isOk_iff.mp (show (Sample.poolSnapshot.setStatus .retired).isOk = true by decide +kernel)
    exact ⟨ix, h, hstatus _ _ _ h⟩
  · obtain ⟨ix, h⟩ := isOk_iff.mp (show (Sample.retiredSnapshot.reclaim Sample.itemSnapshot
      ⟨Sample.asset₁, Sample.pool, none⟩).isOk = true by decide +kernel)
    exact ⟨ix, h, hreclaim _ _ _ _ h⟩
  · obtain ⟨purchase, h⟩ := isOk_iff.mp (show (Sample.poolSnapshot.buy Sample.wallets.runtime
      ⟨Sample.buyer, 1, Sample.clientSeed⟩).isOk = true by decide +kernel)
    exact ⟨purchase, h, hbuy _ _ _ h⟩
  · obtain ⟨ixs, h⟩ := isOk_iff.mp (show (Sample.poolSnapshot.refund Sample.wallets.runtime
      Sample.pullSnapshot Sample.buyer).isOk = true by decide +kernel)
    exact ⟨ixs, h, hrefund _ _ _ _ h⟩
  · obtain ⟨ixs, h⟩ := isOk_iff.mp (show (Sample.poolSnapshot.buyback Sample.wallets.runtime
      Sample.saleQuote Sample.quote ⟨Sample.asset₀, Sample.buyer, none⟩ Sample.buyer).isOk = true by
        decide +kernel)
    exact ⟨ixs, h, hbuyback _ _ _ _ _ _ h⟩
  · obtain ⟨ix, h⟩ := isOk_iff.mp (show (deliver Sample.pool Sample.pull Sample.buyer
      ⟨Sample.asset₀, Sample.pool, none⟩ 0 Sample.operator).isOk = true by decide +kernel)
    exact ⟨ix, h, hdeliver _ _ _ _ _ _ _ h⟩
  · apply hrejects
    -- A byte cannot count 300 weights.
    intro d hencodes
    have hcount := hencodes.tierCount
    have hlt := d.tierCount.toNat_lt
    rw [List.length_replicate] at hcount
    omega

end GachaRust

end SolanaGacha
