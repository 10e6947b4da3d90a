import SolanaGacha.Ledger.Enabled
import SolanaGacha.Program.Localnet
import SolanaGacha.System.Step

/-!
# Running the program

Executing instructions one after the other is a run of the chain (`World.run_execute`), and a chain that
starts with a list of accounts, none of them the program's, is a genesis (`Localnet.genesis`). Together
they make the states that a concrete runtime computes reachable ones.
-/

namespace SolanaGacha

open Except Layout

/-! ## Execution -/

/-- The instructions one after the other. -/
def World.execute (rt : Runtime) (w : World) : List Instruction → Except Fault World
  | [] => return w
  | ix :: ixs => do (← processInstruction rt w ix).execute rt ixs

/-- No PDA signs an instruction. -/
def Instruction.Unforged (rt : Runtime) (ix : Instruction) : Prop :=
  ∀ info ∈ ix.accounts, info.isSigner = true → ¬rt.IsPda info.key

namespace World

variable {rt : Runtime} {w w' : World}

/-- An instruction that succeeds is a step. -/
theorem step_of_process {ix : Instruction} (hsigners : ix.Unforged rt)
    (h : processInstruction rt w ix = .ok w') :
    ∃ call, ix.parse w = .ok call ∧ Step rt w (.call call) w' := by
  have hprocess := h
  rw [processInstruction_eq] at h
  obtain ⟨call, hparse, -⟩ := bind_eq_ok.mp h
  exact ⟨call, hparse, .call hsigners hparse hprocess⟩

/-- The steps of the instructions one after the other, and the last state. -/
def trace (rt : Runtime) (w : World) : List Instruction → Except Fault (List (World × Event) × World)
  | [] => return ([], w)
  | ix :: ixs => do
    let call ← ix.parse w
    let (steps, last) ← (← processInstruction rt w ix).trace rt ixs
    return ((w, .call call) :: steps, last)

/-- They are a run. -/
theorem run_trace {ixs : List Instruction} {steps : List (World × Event)}
    (hsigners : ∀ ix ∈ ixs, ix.Unforged rt) (h : w.trace rt ixs = .ok (steps, w')) :
    Run (Step rt) w steps w' := by
  induction ixs generalizing w steps with
  | nil =>
    obtain ⟨rfl, rfl⟩ := Prod.mk.inj (pure_eq_ok.mp h)
    exact .nil
  | cons ix ixs ih =>
    obtain ⟨call, hparse, h⟩ := bind_eq_ok.mp h
    obtain ⟨w₁, hprocess, h⟩ := bind_eq_ok.mp h
    obtain ⟨⟨rest, last⟩, hrest, h⟩ := bind_eq_ok.mp h
    obtain ⟨rfl, rfl⟩ := Prod.mk.inj (pure_eq_ok.mp h)
    have hstep : Step rt w (.call call) w₁ := .call (hsigners ix List.mem_cons_self) hparse hprocess
    exact (Run.single hstep).append (ih (fun ix' hix => hsigners ix' (List.mem_cons_of_mem _ hix)) hrest)

/-- Instructions that succeed are a run. -/
theorem run_execute {ixs : List Instruction} (hsigners : ∀ ix ∈ ixs, ix.Unforged rt)
    (h : w.execute rt ixs = .ok w') : ∃ trace, Run (Step rt) w trace w' := by
  induction ixs generalizing w with
  | nil =>
    obtain rfl := pure_eq_ok.mp h
    exact ⟨[], .nil⟩
  | cons ix ixs ih =>
    obtain ⟨w₁, hfirst, hrest⟩ := bind_eq_ok.mp h
    obtain ⟨call, -, hstep⟩ := step_of_process (hsigners ix List.mem_cons_self) hfirst
    obtain ⟨trace, hrun⟩ := ih (fun ix' hix => hsigners ix' (List.mem_cons_of_mem _ hix)) hrest
    exact ⟨_, (Run.single hstep).append hrun⟩

theorem Reached.execute {ixs : List Instruction} (hw : w.Reached rt)
    (hsigners : ∀ ix ∈ ixs, ix.Unforged rt) (h : w.execute rt ixs = .ok w') : w'.Reached rt := by
  obtain ⟨trace, hrun⟩ := run_execute hsigners h
  exact Reachable.run hw hrun

theorem Backed.execute (hrt : rt.Conserves) {ixs : List Instruction} (hw : w.Backed)
    (h : w.execute rt ixs = .ok w') : w'.Backed := by
  induction ixs generalizing w with
  | nil =>
    obtain rfl := pure_eq_ok.mp h
    exact hw
  | cons ix ixs ih =>
    obtain ⟨w₁, hfirst, hrest⟩ := bind_eq_ok.mp h
    exact ih (processInstruction_backed hrt hfirst hw) hrest

/-- Only the clock moves. -/
theorem External.clock (h : ∀ {P mint v token}, rt.IsPda P → rt.ata P mint = some v →
    w.ledger v = .token token → token.owner = P ∧ token.mint = mint) (slot : UInt64) :
    w.External rt { w with slot } where
  program _ _ := .refl _
  assigned _ hne heq := absurd heq hne
  vault := h
  token _ token hk _ := ⟨token, hk, rfl, rfl, UInt64.le_refl _⟩
  asset _ asset hk _ := ⟨asset, hk, rfl⟩

/-- The same state at another slot. -/
theorem Reached.clock (hrt : rt.Lawful) (hw : w.Reached rt) (slot : UInt64) :
    World.Reached rt { w with slot } :=
  Reachable.next hw (.external (.clock (hw.sound hrt).vault slot))

end World

/-! ## Derived addresses -/

theorem Runtime.findProgramAddress_spec {rt : Runtime} {seeds : List (List UInt8)}
    {program key : Pubkey} {bump : UInt8} (h : rt.findProgramAddress seeds program = some (key, bump)) :
    rt.createProgramAddress (seeds ++ [[bump]]) program = some key := by
  obtain ⟨i, -, hi⟩ := List.exists_of_findSome?_eq_some h
  simp only [Option.map_eq_some_iff, Prod.mk.injEq] at hi
  obtain ⟨key', hkey, rfl, rfl⟩ := hi
  exact hkey

theorem Runtime.ata_spec {rt : Runtime} {owner mint key : Pubkey} (h : rt.ata owner mint = some key) :
    ∃ bump : UInt8, rt.createProgramAddress [owner.val, tokenId.val, mint.val, [bump]] associatedTokenId =
      some key := by
  obtain ⟨⟨key', bump⟩, hfind, rfl⟩ := Option.map_eq_some_iff.mp h
  exact ⟨bump, Runtime.findProgramAddress_spec hfind⟩

namespace Localnet

variable (net : Localnet)

theorem mem_addresses {seeds : List (List UInt8)} {program key : Pubkey}
    (h : net.runtime.createProgramAddress seeds program = some key) :
    ((seeds, program), key) ∈ net.addresses := by
  obtain ⟨front, back, heq, -⟩ := List.lookup_eq_some_iff.mp h
  rw [heq]
  simp

/-- Whether the known addresses leave a key to its holder. -/
def holdable (key : Pubkey) : Bool := net.addresses.all fun x => x.1.2 ≠ programId ∨ x.2 ≠ key

theorem not_isPda_of_holdable {key : Pubkey} (h : net.holdable key = true) : ¬net.runtime.IsPda key := by
  rintro ⟨seeds, hseeds⟩
  simpa using List.all_eq_true.mp h _ (net.mem_addresses hseeds)

/-- Whether all signers of an instruction are holders of keys. -/
def unforged (ix : Instruction) : Bool := ix.accounts.all fun info => !info.isSigner || net.holdable info.key

theorem unforged_of_unforged {ix : Instruction} (h : net.unforged ix = true) : ix.Unforged net.runtime := by
  intro info hinfo hsigner
  have hinfo := List.all_eq_true.mp h info hinfo
  rw [hsigner] at hinfo
  exact net.not_isPda_of_holdable (by simpa using hinfo)

/-! ## Transfers -/

theorem transfersAssets : net.runtime.TransfersAssets := by
  intro accounts key payer newOwner asset hentry
  have hasset := Account.entry_eq_asset.mp hentry
  refine ⟨accounts.setData key ((bytes 32).writeAt 1 newOwner (accounts key).data), ?_⟩
  show coreTransfer accounts key (asset.collection.getD coreId) payer asset.owner newOwner = _
  simp [coreTransfer, hasset, Except.toOption]

theorem transfersTokens : net.runtime.TransfersTokens := by
  intro accounts source destination amount s d hs hd hmint hle hfits
  have hs := Account.entry_eq_token.mp hs
  have hd := Account.entry_eq_token.mp hd
  have hleft : s.amount.checkedSub amount = some (s.amount - amount) :=
    if_pos (UInt64.le_iff_toNat_le.mp hle)
  show ∃ accounts', tokenTransfer accounts source destination s.owner amount = some accounts'
  simp only [tokenTransfer, hs, hd, Except.toOption, Option.bind_eq_bind, Option.bind_some, hmint, and_self,
    guard_true, hleft, Option.pure_def]
  split_ifs with heq
  · exact ⟨_, rfl⟩
  · have hsum : d.amount.checkedAdd amount = some (d.amount + amount) := if_pos (hfits heq)
    rw [hsum]
    exact ⟨_, rfl⟩

/-! ## Lamports -/

theorem moveLamports_backed {a a' : Accounts} {sender receiver : Pubkey} {lamports : UInt64}
    (h : moveLamports a sender receiver lamports = some a') (ha : Accounts.Backed a) :
    Accounts.Backed a' := by
  simp only [moveLamports, Option.bind_eq_bind, Option.bind_eq_some_iff, Option.guard_eq_some',
    Option.pure_def, Option.some.injEq, UInt64.checkedSub_eq_some, UInt64.checkedAdd_eq_some] at h
  obtain ⟨-, -, left, hleft, sum, hsum, rfl⟩ := h
  refine ha.of_sum {sender, receiver} ?_ fun key hkey => ?_
  · rcases eq_or_ne sender receiver with rfl | hne
    · simp only [Function.update_self] at hsum
      simp only [Finset.pair_eq_singleton, Finset.sum_singleton, Function.update_self]
      omega
    · rw [Function.update_of_ne hne.symm] at hsum
      rw [Finset.sum_pair hne, Finset.sum_pair hne, Function.update_of_ne hne, Function.update_self,
        Function.update_self]
      simp only
      omega
  · rw [Finset.mem_insert, Finset.mem_singleton, not_or] at hkey
    rw [Function.update_of_ne hkey.2, Function.update_of_ne hkey.1]

/-- A change that keeps the lamports of an account. -/
theorem backed_update {a : Accounts} {key : Pubkey} {account : Account} (ha : Accounts.Backed a)
    (h : account.lamports = (a key).lamports) : Accounts.Backed (Function.update a key account) := by
  refine ha.congr fun k => ?_
  rcases eq_or_ne k key with rfl | hk
  · rw [Function.update_self, h]
  · rw [Function.update_of_ne hk]

theorem conserves : net.runtime.Conserves where
  createAccount h ha := by
    obtain ⟨-, -, h⟩ := Option.bind_eq_some_iff.mp h
    obtain ⟨moved, hmoved, h⟩ := Option.bind_eq_some_iff.mp h
    obtain rfl := Option.some.inj h
    exact backed_update (moveLamports_backed hmoved ha) rfl
  transferLamports := moveLamports_backed
  allocate h ha := by
    obtain ⟨-, -, h⟩ := Option.bind_eq_some_iff.mp h
    obtain rfl := Option.some.inj h
    exact backed_update ha rfl
  assign h ha := by
    obtain ⟨-, -, h⟩ := Option.bind_eq_some_iff.mp h
    obtain rfl := Option.some.inj h
    exact backed_update ha rfl
  tokenTransfer {a a' source destination authority amount} h ha := by
    change tokenTransfer a source destination authority amount = some a' at h
    simp only [tokenTransfer, Option.bind_eq_bind, Option.bind_eq_some_iff, Option.pure_def] at h
    obtain ⟨s, -, d, -, -, -, left, -, h⟩ := h
    split_ifs at h with heq
    · obtain rfl := Option.some.inj h
      exact ha
    · obtain ⟨sum, -, h⟩ := Option.bind_eq_some_iff.mp h
      obtain rfl := Option.some.inj h
      exact backed_update (backed_update ha rfl) rfl
  coreTransfer {a a' asset collection payer authority newOwner} h ha := by
    change coreTransfer a asset collection payer authority newOwner = some a' at h
    simp only [coreTransfer, Option.bind_eq_bind, Option.bind_eq_some_iff, Option.pure_def,
      Option.some.injEq] at h
    obtain ⟨c, -, -, -, rfl⟩ := h
    exact backed_update ha rfl

/-! ## Genesis -/

/-- Nothing was created at the addresses that are not listed. -/
def accounts (known : List (Pubkey × Account)) : Accounts :=
  fun key => (known.lookup key).getD ⟨systemId, 0, []⟩

/-- Listed accounts with a small sum of lamports. -/
theorem backed_accounts {known : List (Pubkey × Account)}
    (h : (known.map fun x => x.2.lamports.toNat).sum < 2 ^ 64) : Accounts.Backed (accounts known) := by
  intro keys
  refine lt_of_le_of_lt ?_ h
  clear h
  induction known with
  | nil => exact (Finset.sum_eq_zero fun key _ => rfl).le
  | cons x known ih =>
    obtain ⟨k, account⟩ := x
    have hle : ∀ key, (accounts ((k, account) :: known) key).lamports.toNat ≤
        (if key = k then account.lamports.toNat else 0) + (accounts known key).lamports.toNat := by
      intro key
      rcases eq_or_ne key k with rfl | hkey
      · simp [accounts]
      · rw [accounts, accounts, List.lookup_cons, beq_eq_false_iff_ne.mpr hkey, if_neg hkey, Nat.zero_add]
    calc ∑ key ∈ keys, (accounts ((k, account) :: known) key).lamports.toNat
        ≤ ∑ key ∈ keys, ((if key = k then account.lamports.toNat else 0) +
            (accounts known key).lamports.toNat) := Finset.sum_le_sum fun key _ => hle key
      _ ≤ account.lamports.toNat + (known.map fun y => y.2.lamports.toNat).sum := by
          rw [Finset.sum_add_distrib, Finset.sum_ite_eq']
          refine Nat.add_le_add ?_ ih
          split_ifs <;> simp
      _ = (((k, account) :: known).map fun y => y.2.lamports.toNat).sum := rfl

/-- Whether no listed account is the program's, and the token accounts at derived addresses belong to the
owners that derive them. -/
def clean (known : List (Pubkey × Account)) : Bool :=
  (known.all fun x => x.2.owner ≠ programId) && net.addresses.all fun x =>
    x.1.2 ≠ associatedTokenId || match (accounts known x.2).entry with
      | .token token => x.1.1.take 3 = [token.owner.val, tokenId.val, token.mint.val]
      | _ => true

/-- A chain that starts with clean accounts is a genesis. -/
theorem genesis {known : List (Pubkey × Account)} (h : net.clean known = true) (slot : UInt64)
    (unixTimestamp : Int64) : World.Genesis net.runtime ⟨accounts known, slot, unixTimestamp, []⟩ := by
  obtain ⟨howners, hvaults⟩ := Bool.and_eq_true_iff.mp h
  refine ⟨fun k hown => ?_, fun {P mint v token} _ hata htoken => ?_⟩
  · simp only [accounts] at hown
    cases hk : known.lookup k with
    | none =>
      rw [hk] at hown
      exact absurd hown systemId_ne_programId
    | some account =>
      rw [hk] at hown
      obtain ⟨front, back, heq, -⟩ := List.lookup_eq_some_iff.mp hk
      have hne := List.all_eq_true.mp howners (k, account) (by rw [heq]; simp)
      exact absurd hown (by simpa using hne)
  · obtain ⟨bump, hbump⟩ := Runtime.ata_spec hata
    have hvault := List.all_eq_true.mp hvaults _ (net.mem_addresses hbump)
    have hentry : (accounts known v).entry = .token token := htoken
    simp only [hentry] at hvault
    simp only [ne_eq, not_true_eq_false, decide_false, List.take_succ_cons, List.take_zero,
      Bool.false_or, decide_eq_true_eq, List.cons.injEq, and_true, true_and] at hvault
    exact ⟨(Subtype.ext hvault.1).symm, (Subtype.ext hvault.2).symm⟩

end Localnet

/-! ## A sample chain -/

namespace Sample

/-- The bytes of a number, most significant first. -/
def hex (n v : ℕ) : FixedBytes n := ⟨(leBytes n v).reverse, by simp⟩

def authority : Pubkey := hex 32 0x8a88e3dd7409f195fd52db2d3cba5d72ca6709bf1d94121bf3748801b40f6f5c
def operator : Pubkey := hex 32 0xfd1724385aa0c75b64fb78cd602fa1d991fdebf76b13c58ed702eac835e9f618
def buyer : Pubkey := hex 32 0x8139770ea87d175f56a35466c34c7ecccb8d8a91b4ee37a25df60f5b8fc9b394
def paymentMint : Pubkey := hex 32 0xed4928c628d1c2c6eae90338905995612959273a5c63f93636c14614ac8737d1
def asset₀ : Pubkey := hex 32 0xca93ac1705187071d67b83c7ff0efe8108e8ec4530575d7726879333dbdabe7c
def asset₁ : Pubkey := hex 32 0x6e7a1cdd29b0b78fd13af4c5598feff4ef2a97166e3ca6f2e4fbfccd80505bf1
def pool : Pubkey := hex 32 0x0d343d188ac2bc1decb59704baf7e00522652b2cdc4d42a3d737759aa1a0d18c
def vault : Pubkey := hex 32 0x24d93eae18ddbb64e127ea0765261334df630646eb79a73e233640694c761bf3
def item₀ : Pubkey := hex 32 0x092c81067e44cc0a6b5ffc826ad7fc05f88b3d32104be27b1eced688da747dd7
def item₁ : Pubkey := hex 32 0x38d07c4bc96793cd3f1a8f58f925df7f4801035c4bfe89205d8f73fee7091955
def pull : Pubkey := hex 32 0x3ec19c7ae1e367519e185dfbf1e859d390f12e8b02f1f8ea65cef27276e42b7e
def buyerAta : Pubkey := hex 32 0x00986a9f842ff1b003c7af9c6107e715f22c1d10702647496098cc0bd6adddca
def authorityAta : Pubkey := hex 32 0xff09065c342ea325b694ca7e5e1774b889b59a9a1c010f48425d8c1b718090e3
def clientSeed : FixedBytes 32 := ⟨List.replicate 32 7, by simp⟩

/-- `SHA-256(pull || client_seed)`. -/
def alpha : FixedBytes 32 := hex 32 0xace8640118bf3f64792a4bc5638aa8eb872a439f4af5b7a649ee6bcabb732421

/-- The operator's proof for `alpha`, and its output. -/
def proof : FixedBytes 80 := hex 80
  (0xa3590c83224bd0aa24f082ba1a9b5b3a01039cc1fe151ec92c7f3a6caac0a8e292b271fdfaeac590 * 2 ^ 320 +
    0xf88c0f68e6836b6054e2860335a2fc03be5d81942e6f830b688758ad3c293ff3f3d6acd404f4a103)

def beta : FixedBytes 64 := hex 64
  (0x258450bff27c34cf2ffa6584b151b209aee712f0ce61e98b731a79b4ceeebde9 * 2 ^ 256 +
    0x7d2b380d3f06ca4fc85df80bf800e8596c2f5b3310e7f42b05e75ddad685998e)

/-- `SHA-256(beta || 0)`. -/
def hash : FixedBytes 32 := hex 32 0x34ddce821061a03f445e1385d024684487902e45063c36d8b2d094a6a6104aa2

/-- The authority's signature of the quote for `asset₀` at 50 tokens, until time 1000, into tier 0. -/
def quote : FixedBytes 64 := hex 64
  (0x6c7a73253e21efa3e2e5e0fe8b97f90629dc603f358c39e6b840919bee414afc * 2 ^ 256 +
    0xad09bbab1a9e21cb87372b3a3b80c4dc21f6251d250160efb8217c42bddc460c)

/-- What the runs of the sample chain evaluate. -/
def net : Localnet where
  addresses :=
    [(([eventAuthoritySeed, [eventAuthorityBump]], programId), eventAuthority),
     (([poolSeed, authority.val, u64.encode 1, [255]], programId), pool),
     (([pool.val, tokenId.val, paymentMint.val, [255]], associatedTokenId), vault),
     (([itemSeed, pool.val, [0], u32.encode 0, [253]], programId), item₀),
     (([itemSeed, pool.val, [0], u32.encode 1, [251]], programId), item₁),
     (([pullSeed, pool.val, clientSeed.val, [255]], programId), pull)]
  hashes := [(pull.val ++ clientSeed.val, alpha), (beta.val ++ [0], hash)]
  proofs := [((operator, alpha, proof), beta)]
  signatures := [(authority, quote, buybackMessage pool asset₀ 50 1000 0)]
  eventAuthority_known := by decide +kernel

/-- A wallet with ten SOL. -/
def wallet : Account := ⟨systemId, 10000000000, []⟩

/-- A token account of the payment mint. -/
def tokens (owner : Pubkey) (amount : UInt64) : Account :=
  ⟨tokenId, 2039280, paymentMint.val ++ owner.val ++ u64.encode amount ++ List.replicate 93 0⟩

/-- An asset without a collection. -/
def asset (owner : Pubkey) : Account := ⟨coreId, 3000000, 1 :: owner.val ++ List.replicate 40 0⟩

def known : List (Pubkey × Account) :=
  [(authority, wallet), (buyer, wallet), (operator, wallet), (vault, tokens pool 1000),
   (buyerAta, tokens buyer 1000), (authorityAta, tokens authority 0), (asset₀, asset authority),
   (asset₁, asset authority)]

/-- The chain at slot 5. -/
def start : World := ⟨Localnet.accounts known, 5, 0, []⟩

theorem start_reached : World.Reached net.runtime start :=
  .of_init (net.genesis (by decide +kernel) 5 0)

/-! The instructions, with their accounts as `(key, isSigner, isWritable)`. -/

def instruction (accounts : List (Pubkey × Bool × Bool)) (data : List UInt8) : Instruction :=
  ⟨(accounts ++ [(eventAuthority, false, false), (programId, false, false)]).map
    fun x => ⟨x.1, x.2.1, x.2.2⟩, data⟩

/-- One tier, price 100, a deadline of 50 slots and a penalty of 10. -/
def createPool : Instruction := instruction
  [(authority, true, true), (pool, false, true), (operator, false, false), (paymentMint, false, false),
   (vault, false, false), (systemId, false, false)]
  (0 :: u64.encode 1 ++ u64.encode 100 ++ u64.encode 50 ++ u64.encode 10 ++ [1] ++ u32.encode 1 ++
    List.replicate 28 0 ++ [255])

def depositItem (item asset : Pubkey) (bump : UInt8) : Instruction := instruction
  [(authority, true, true), (pool, false, true), (item, false, true), (asset, false, true),
   (coreId, false, false), (coreId, false, false), (systemId, false, false)] [1, 0, bump]

def withdraw (amount : UInt64) : Instruction := instruction
  [(authority, true, false), (pool, false, false), (vault, false, true), (authorityAta, false, true),
   (tokenId, false, false)] (2 :: u64.encode amount)

def setStatus (status : UInt8) : Instruction := instruction
  [(authority, true, false), (pool, false, true)] [3, status]

def reclaim (item asset : Pubkey) : Instruction := instruction
  [(authority, true, true), (pool, false, true), (item, false, true), (asset, false, true),
   (coreId, false, false), (coreId, false, false), (systemId, false, false)] [4]

def buy (version : UInt32) : Instruction := instruction
  [(buyer, true, true), (pool, false, true), (pull, false, true), (buyerAta, false, true),
   (vault, false, true), (tokenId, false, false), (systemId, false, false)]
  (10 :: 1 :: clientSeed.val ++ u32.encode version ++ [255])

def refund : Instruction := instruction
  [(pool, false, true), (pull, false, true), (buyer, false, true), (vault, false, true),
   (buyerAta, false, true), (tokenId, false, false)] [11]

def buyback (seller item ata : Pubkey) (bump : UInt8) : Instruction := instruction
  [(seller, true, true), (seller, true, true), (pool, false, true), (item, false, true),
   (asset₀, false, true), (coreId, false, false), (vault, false, true), (ata, false, true),
   (coreId, false, false), (tokenId, false, false), (systemId, false, false)]
  (12 :: 0 :: u64.encode 50 ++ encodeI64 1000 ++ quote.val ++ [bump])

def settle (items : List Pubkey) : Instruction :=
  ⟨([(operator, false, true), (pool, false, true), (pull, false, true)] ++
    items.map (fun item => (item, false, true)) ++
      [(eventAuthority, false, false), (programId, false, false)]).map fun x => ⟨x.1, x.2.1, x.2.2⟩,
    20 :: proof.val⟩

def deliver (i : UInt8) (asset : Pubkey) : Instruction := instruction
  [(operator, true, true), (pool, false, false), (pull, false, true), (buyer, false, true),
   (asset, false, true), (coreId, false, false), (coreId, false, false), (systemId, false, false)] [21, i]

/-- The state after some instructions that succeed. -/
def after (w : World) (ixs : List Instruction) : World :=
  match w.execute net.runtime ixs with
  | .ok w' => w'
  | .error _ => w

/-- Whether some instructions succeed, and no PDA would have to sign them. -/
def succeeds (w : World) (ixs : List Instruction) : Bool :=
  ixs.all net.unforged && match w.execute net.runtime ixs with
    | .ok _ => true
    | .error _ => false

theorem execute_after {w : World} {ixs : List Instruction} (h : succeeds w ixs = true) :
    w.execute net.runtime ixs = .ok (after w ixs) := by
  have hok := (Bool.and_eq_true_iff.mp h).2
  rw [after]
  cases hexecute : w.execute net.runtime ixs with
  | ok w' => rfl
  | error e => simp [hexecute] at hok

theorem unforged_of_succeeds {w : World} {ixs : List Instruction} (h : succeeds w ixs = true) :
    ∀ ix ∈ ixs, ix.Unforged net.runtime := fun ix hix =>
  net.unforged_of_unforged (List.all_eq_true.mp (Bool.and_eq_true_iff.mp h).1 ix hix)

theorem run_after (w : World) (ixs : List Instruction) (h : succeeds w ixs = true) :
    ∃ trace, Run (World.Step net.runtime) w trace (after w ixs) :=
  World.run_execute (unforged_of_succeeds h) (execute_after h)

theorem reached_after {w : World} (hw : w.Reached net.runtime) {ixs : List Instruction}
    (h : succeeds w ixs = true) : World.Reached net.runtime (after w ixs) :=
  hw.execute (unforged_of_succeeds h) (execute_after h)

theorem process_after {w : World} {ix : Instruction} (h : succeeds w [ix] = true) :
    processInstruction net.runtime w ix = .ok (after w [ix]) := by
  obtain ⟨w', hprocess, hdone⟩ := bind_eq_ok.mp (execute_after h)
  rw [← pure_eq_ok.mp hdone]
  exact hprocess

theorem backed_after {w : World} {ixs : List Instruction} (hw : w.Backed) (h : succeeds w ixs = true) :
    (after w ixs).Backed :=
  hw.execute net.conserves (execute_after h)

theorem step_after {w : World} {ix : Instruction} (h : succeeds w [ix] = true) :
    ∃ call, ix.parse w = .ok call ∧ World.Step net.runtime w (.call call) (after w [ix]) :=
  World.step_of_process (unforged_of_succeeds h ix List.mem_cons_self) (process_after h)

/-- A purchase, from what its instruction is parsed to. -/
theorem step_buy (w : World) (ix : Instruction) {p : BuyAccounts → Bool} (h : succeeds w [ix] = true)
    (hparse : (match ix.parse w with | .ok (.buy a _) => p a | _ => false) = true) :
    ∃ a d, p a = true ∧ World.Step net.runtime w (.call (.buy a d)) (after w [ix]) := by
  obtain ⟨call, hcall, hstep⟩ := step_after h
  rw [hcall] at hparse
  cases call with
  | buy a d => exact ⟨a, d, hparse, hstep⟩
  | _ => simp at hparse

/-- A settlement, from what its instruction is parsed to. -/
theorem step_settle (w : World) (ix : Instruction) {p : SettleAccounts → Bool} (h : succeeds w [ix] = true)
    (hparse : (match ix.parse w with | .ok (.settle a _) => p a | _ => false) = true) :
    ∃ a d, p a = true ∧ World.Step net.runtime w (.call (.settle a d)) (after w [ix]) := by
  obtain ⟨call, hcall, hstep⟩ := step_after h
  rw [hcall] at hparse
  cases call with
  | settle a d => exact ⟨a, d, hparse, hstep⟩
  | _ => simp at hparse

/-- A buyback, from what its instruction is parsed to. -/
theorem step_buyback (w : World) (ix : Instruction) {p : BuybackAccounts → Bool} (h : succeeds w [ix] = true)
    (hparse : (match ix.parse w with | .ok (.buyback a _) => p a | _ => false) = true) :
    ∃ a d, p a = true ∧ World.Step net.runtime w (.call (.buyback a d)) (after w [ix]) := by
  obtain ⟨call, hcall, hstep⟩ := step_after h
  rw [hcall] at hparse
  cases call with
  | buyback a d => exact ⟨a, d, hparse, hstep⟩
  | _ => simp at hparse

/-- A property of the Pull at an address. -/
theorem exists_pull {e : Entry} {p : Pull → Bool}
    (h : (match e with | .pull pull => p pull | _ => false) = true) :
    ∃ pull, e = .pull pull ∧ p pull = true := by
  cases e with
  | pull pull => exact ⟨pull, rfl, h⟩
  | _ => simp at h

/-- A property of the pool at an address that is checked on the header. -/
theorem exists_pool {e : Entry} {p : Pool → Bool}
    (h : (match e with | .pool pool _ => p pool | _ => false) = true) :
    ∃ pool index, e = .pool pool index ∧ p pool = true := by
  cases e with
  | pool pool index => exact ⟨pool, index, rfl, h⟩
  | _ => simp at h

/-- A property of the Item at an address. -/
theorem exists_item {e : Entry} {p : Item → Bool}
    (h : (match e with | .item item => p item | _ => false) = true) :
    ∃ item, e = .item item ∧ p item = true := by
  cases e with
  | item item => exact ⟨item, rfl, h⟩
  | _ => simp at h

/-- A property of the token account at an address. -/
theorem exists_token {e : Entry} {p : TokenAccount → Bool}
    (h : (match e with | .token token => p token | _ => false) = true) :
    ∃ token, e = .token token ∧ p token = true := by
  cases e with
  | token token => exact ⟨token, rfl, h⟩
  | _ => simp at h

/-- What holds of the steps of a run that succeeds and that no PDA would have to sign. -/
theorem exists_run (net : Localnet) (w : World) (ixs : List Instruction) (p : List (World × Event) → Bool)
    (hunforged : ixs.all net.unforged = true)
    (h : (match w.trace net.runtime ixs with
      | .ok (steps, _) => p steps
      | .error _ => false) = true) :
    ∃ steps w', Run (World.Step net.runtime) w steps w' ∧ p steps = true := by
  cases htrace : w.trace net.runtime ixs with
  | ok result =>
    obtain ⟨steps, w'⟩ := result
    rw [htrace] at h
    exact ⟨steps, w', World.run_trace (fun ix hix =>
      net.unforged_of_unforged (List.all_eq_true.mp hunforged ix hix)) htrace, h⟩
  | error e =>
    rw [htrace] at h
    cases h

/-- What holds after a run that succeeds and that no PDA would have to sign. -/
theorem exists_reached (net : Localnet) (known : List (Pubkey × Account)) (slot : UInt64) (time : Int64)
    (ixs : List Instruction) (p : World → Bool) (hclean : net.clean known = true)
    (hunforged : ixs.all net.unforged = true) (hrun : (match World.execute net.runtime ⟨Localnet.accounts known, slot, time, []⟩ ixs with
      | .ok w => p w
      | .error _ => false) = true) : ∃ w, World.Reached net.runtime w ∧ p w = true := by
  have hstart : World.Reached net.runtime ⟨Localnet.accounts known, slot, time, []⟩ :=
    .of_init (net.genesis hclean slot time)
  have hsigners : ∀ ix ∈ ixs, ix.Unforged net.runtime := fun ix hix =>
    net.unforged_of_unforged (List.all_eq_true.mp hunforged ix hix)
  cases hexecute : World.execute net.runtime ⟨Localnet.accounts known, slot, time, []⟩ ixs with
  | ok w =>
    rw [hexecute] at hrun
    exact ⟨w, hstart.execute hsigners hexecute, hrun⟩
  | error e =>
    rw [hexecute] at hrun
    cases hrun

/-- An open pool with two items. -/
def opened : World :=
  after start [createPool, depositItem item₀ asset₀ 253, depositItem item₁ asset₁ 251, setStatus 1]

theorem opened_reached : World.Reached net.runtime opened :=
  reached_after start_reached (by decide +kernel)

theorem opened_backed : opened.Backed :=
  backed_after (Localnet.backed_accounts (by decide +kernel)) (by decide +kernel)

/-- A purchase waits. -/
def bought : World := after opened [buy 2]

theorem bought_reached : World.Reached net.runtime bought :=
  reached_after opened_reached (by decide +kernel)

theorem bought_backed : bought.Backed :=
  backed_after opened_backed (by decide +kernel)

theorem bought_pool : ∃ header index, bought.ledger pool = .pool header index ∧ header.pendingDraws = 1 := by
  obtain ⟨header, index, hpool, hpending⟩ := exists_pool (e := bought.ledger pool)
    (p := fun header => header.pendingDraws = 1) (by decide +kernel)
  exact ⟨header, index, hpool, by simpa using hpending⟩

/-- The purchase won the first item. -/
def settled : World := after bought [settle [item₀]]

theorem settled_reached : World.Reached net.runtime settled :=
  reached_after bought_reached (by decide +kernel)

end Sample

end SolanaGacha
