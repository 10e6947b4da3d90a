import SolanaGacha.Sdk.Accepts
import SolanaGacha.Sdk.Batches
import SolanaGacha.System.Deliveries
import SolanaGacha.System.Settlement

/-!
# Delivery recovery

`World.Awaits` lists what is left to deliver of a Pull, with the snapshots of the assets. Every delivery of the
list succeeds and leaves the rest of it (`World.Sound.deliver_next`), and the SDK builds the list again from the
accounts at any time (`World.Awaits.recover`). A settlement leaves the deliveries that its plan has after it, so
a plan that was interrupted is recovered to the instruction (`World.Reached.recovers`).
-/

namespace SolanaGacha

open Except Layout

/-! ## Instructions -/

namespace GachaRust

/-- An instruction as the program receives it. -/
def Instruction.call (ix : Instruction) : SolanaGacha.Instruction := ⟨ix.accounts, ix.data⟩

/-- The delivery of one outcome. -/
def delivery (pool pull buyer payer : Pubkey) (x : ℕ × Asset) : Instruction :=
  instruction [21, UInt8.ofNat x.1]
    [rw payer true, ro pool false, rw pull false, rw buyer false, rw x.2.address false,
      ro (x.2.collection.getD coreId) false, ro coreId false, ro systemId false]

theorem deliver_eq_ok {pool pull buyer payer : Pubkey} {asset : Asset} {i : ℕ} {ix : Instruction} :
    deliver pool pull buyer asset (UInt8.ofNat i) payer = .ok ix ↔
      asset.owner = pool ∧ delivery pool pull buyer payer (i, asset) = ix := by
  unfold deliver
  simp only [bind_eq_ok, failIf_eq_ok, pure_eq_ok, not_not, exists_const]
  rfl

/-- Calls that all succeed. -/
theorem collect_eq_ok {α β : Type} {f : α → Except Fault β} {as : List α} {bs : List β} :
    collect (as.map f) = .ok bs ↔ as.map f = bs.map .ok := by
  induction as generalizing bs with
  | nil =>
    cases bs with
    | nil => exact iff_of_true rfl rfl
    | cons b bs => exact iff_of_false (fun h => nomatch h) (fun h => nomatch h)
  | cons a as ih =>
    rw [List.map_cons, collect]
    simp only [bind_eq_ok, pure_eq_ok, ih]
    constructor
    · rintro ⟨b, hb, rest, hrest, rfl⟩
      rw [hb, hrest, List.map_cons]
    · intro h
      cases bs with
      | nil => cases h
      | cons b bs =>
        obtain ⟨hb, hrest⟩ := List.cons.inj h
        exact ⟨b, hb, bs, hrest, rfl⟩

end GachaRust

/-! ## What the SDK fetches -/

/-- The current snapshot of an asset. -/
def World.asset (w : World) (key : Pubkey) : Except GachaRust.Fault GachaRust.Asset :=
  GachaRust.Asset.fromAccount key (w.accounts key).owner (w.accounts key).data

theorem World.asset_eq_ok {w : World} {key : Pubkey} {asset : GachaRust.Asset} : w.asset key = .ok asset ↔
    w.ledger key = .asset ⟨asset.owner, asset.collection⟩ ∧ asset.address = key := by
  unfold World.asset GachaRust.Asset.fromAccount
  have hentry : ∀ c, w.ledger key = .asset c ↔
      CoreAsset.fromAccount (w.accounts key).owner (w.accounts key).data = .ok c := fun c =>
    Account.entry_eq_asset
  rw [hentry]
  cases hheader : CoreAsset.fromAccount (w.accounts key).owner (w.accounts key).data with
  | error e => simp
  | ok c =>
    simp only [Except.ok.injEq]
    constructor
    · rintro rfl
      exact ⟨rfl, rfl⟩
    · rintro ⟨rfl, rfl⟩
      rfl

/-- Fetch a Pull and the assets of the outcomes that are not delivered, and recover the deliveries. -/
def World.recover (rt : Runtime) (transactionSize : List GachaRust.Instruction → Pubkey → ℕ) (w : World)
    (k payer : Pubkey) : Except GachaRust.Fault (List GachaRust.Asset × List (List GachaRust.Instruction)) := do
  let pull ← GachaRust.Pull.fromAccount rt k (w.accounts k).owner (w.accounts k).data
  let outcomes ← pull.outcomes
  let assets ← GachaRust.collect ((outcomes.filter fun o => o.tier.isSome).map fun o => w.asset o.asset)
  let groups ← pull.deliver transactionSize assets payer
  return (assets, groups)

/-- What is left to deliver: nothing of a Pull that was closed, and the undelivered outcomes of a live one at its
canonical address, with the current snapshots of their assets. -/
inductive World.Awaits (rt : Runtime) (w : World) (P k buyer : Pubkey) : List (ℕ × GachaRust.Asset) → Prop
  | closed (vacant : w.ledger k = .vacant) : Awaits rt w P k buyer []
  | live {pull : Pull} {todo : List (ℕ × GachaRust.Asset)} (entry : w.ledger k = .pull pull)
      (pool : pull.pool = P) (payee : pull.buyer = buyer) (settled : pull.status = statusSettled)
      (canonical : rt.findProgramAddress [pullSeed, pull.pool.val, pull.clientSeed.val] programId =
        some (k, pull.bump))
      (nonempty : todo ≠ []) (undelivered : pull.undelivered = todo.map Prod.fst)
      (prize : ∀ x ∈ todo, pull.promised x.1 = some x.2.address ∧ w.asset x.2.address = .ok x.2) :
      Awaits rt w P k buyer todo

/-! ## Deliveries in order -/

namespace World

variable {rt : Runtime} {w : World} {P k buyer payer : Pubkey}

/-- What is promised is owned by the pool, and the snapshot of its asset says so. -/
theorem Sound.prize_owner (hw : w.Sound rt) {pull : Pull} (hpull : w.ledger k = .pull pull) {i : ℕ}
    {asset : GachaRust.Asset} (hpromised : pull.promised i = some asset.address)
    (hasset : w.asset asset.address = .ok asset) : asset.owner = pull.pool ∧ rt.IsPda pull.pool := by
  have hslot : w.ledger.promised (.outcome k i) = some (asset.address, pull.pool) := by
    rw [Ledger.promised, hpull, Option.map_eq_some_iff]
    exact ⟨asset.address, hpromised, rfl⟩
  obtain ⟨pool, index, c, -, hpda, hentry, howner⟩ := hw.promised_owned hslot
  obtain ⟨hentry', -⟩ := asset_eq_ok.mp hasset
  obtain rfl := Entry.asset.inj (hentry'.symm.trans hentry)
  exact ⟨howner, hpda⟩

/-- The next delivery succeeds: it gives the asset to the buyer, leaves what else the buyer has, and the rest
of the list is left. -/
theorem Sound.deliver_next (hrt : rt.Lawful) (hassets : rt.TransfersAssets) (hlamports : rt.Conserves)
    (hw : w.Sound rt) (hbacked : w.Backed) (hpayer : ¬rt.IsPda payer) {x : ℕ × GachaRust.Asset}
    {rest : List (ℕ × GachaRust.Asset)} (h : w.Awaits rt P k buyer (x :: rest)) :
    ∃ w', processInstruction rt w (GachaRust.delivery P k buyer payer x).call = .ok w' ∧ w'.Sound rt ∧
      w'.Backed ∧ w'.Awaits rt P k buyer rest ∧
      w'.ledger x.2.address = .asset ⟨buyer, x.2.collection⟩ ∧
      ∀ key c, w.ledger key = .asset c → c.owner = buyer → w'.ledger key = .asset c := by
  cases h with
  | @live pull _ entry pool hbuyer settled canonical nonempty undelivered prize =>
    subst pool hbuyer
    obtain ⟨hpromised, hasset⟩ := prize x List.mem_cons_self
    obtain ⟨hentry, -⟩ := asset_eq_ok.mp hasset
    obtain ⟨howner, hpda⟩ := hw.prize_owner entry hpromised hasset
    have hvalid := hw.pull_valid entry
    obtain ⟨w', outcome, hprocess, hsound, hbacked', hrecorded, hledger⟩ :=
      hw.deliver hrt hassets hlamports hbacked entry hpromised hentry hpayer
    have hmarked := Pull.undelivered_marked_head undelivered outcome
    have hne : x.2.address ≠ k := Ledger.ne_of_entry hentry entry (by simp)
    have hdelivered : w'.ledger x.2.address = .asset ⟨pull.buyer, x.2.collection⟩ := by
      rw [hledger, Function.update_of_ne hne, Function.update_self]
    -- Every other asset stays as it is.
    have hothers : ∀ key c, key ≠ x.2.address → w.ledger key = .asset c → w'.ledger key = .asset c := by
      intro key c hkey hentry'
      have hkey' : key ≠ k := Ledger.ne_of_entry hentry' entry (by simp)
      rw [hledger, Function.update_of_ne hkey', Function.update_of_ne hkey, hentry']
    refine ⟨w', hprocess, hsound, hbacked', ?_, hdelivered, fun key c hentry' hbuyer => ?_⟩
    · by_cases hrest : rest = []
      · subst hrest
        apply Awaits.closed
        rw [hledger, Function.update_self, hmarked, List.map_nil, if_pos rfl]
      · have hleft : (pull.marked x.1 outcome).undelivered ≠ [] := by
          rw [hmarked]
          exact fun hnil => hrest (List.map_eq_nil_iff.mp hnil)
        have hentry' : w'.ledger k = .pull (pull.marked x.1 outcome) := by
          rw [hledger, Function.update_self, if_neg hleft]
        refine .live hentry' rfl rfl settled canonical hrest hmarked fun y hy => ?_
        obtain ⟨hpromised', hasset'⟩ := prize y (List.mem_cons_of_mem x hy)
        obtain ⟨hentry'', -⟩ := asset_eq_ok.mp hasset'
        -- Another outcome, so another asset.
        have hnodup : (pull.undelivered).Nodup := List.nodup_range.filter _
        rw [undelivered, List.map_cons, List.nodup_cons] at hnodup
        have hindex : y.1 ≠ x.1 := fun heq => hnodup.1 (heq ▸ List.mem_map_of_mem hy)
        have haddress : y.2.address ≠ x.2.address := by
          intro heq
          have hslot : ∀ {z : ℕ × GachaRust.Asset}, pull.promised z.1 = some z.2.address →
              w.ledger.promised (.outcome k z.1) = some (z.2.address, pull.pool) := by
            intro z hz
            rw [Ledger.promised, entry, Option.map_eq_some_iff]
            exact ⟨_, hz, rfl⟩
          obtain ⟨hsame, -⟩ := hw.promised_unique (hslot hpromised') (heq ▸ hslot hpromised)
          exact hindex (Slot.outcome.inj hsame).2
        exact ⟨Pull.promised_marked_of_ne outcome hpromised' hindex,
          asset_eq_ok.mpr ⟨hothers _ _ haddress hentry'', rfl⟩⟩
    · refine hothers key c (fun hkey => ?_) hentry'
      -- The asset that is delivered is owned by the pool, which is no buyer.
      obtain rfl := Entry.asset.inj (hentry'.symm.trans (hkey ▸ hentry))
      exact hvalid.buyer (hbuyer ▸ howner ▸ hpda)

/-- The first deliveries of the list succeed in order, and leave the others. -/
theorem Sound.deliver_all (hrt : rt.Lawful) (hassets : rt.TransfersAssets) (hlamports : rt.Conserves)
    (hw : w.Sound rt) (hbacked : w.Backed) (hpayer : ¬rt.IsPda payer)
    {front back : List (ℕ × GachaRust.Asset)} (h : w.Awaits rt P k buyer (front ++ back)) :
    ∃ w', w.execute rt (front.map fun x => (GachaRust.delivery P k buyer payer x).call) = .ok w' ∧
      w'.Sound rt ∧ w'.Backed ∧ w'.Awaits rt P k buyer back ∧
      (∀ x ∈ front, w'.ledger x.2.address = .asset ⟨buyer, x.2.collection⟩) ∧
      ∀ key c, w.ledger key = .asset c → c.owner = buyer → w'.ledger key = .asset c := by
  induction front generalizing w with
  | nil => exact ⟨w, rfl, hw, hbacked, h, by simp, fun _ _ hentry _ => hentry⟩
  | cons x front ih =>
    obtain ⟨w₁, hprocess, hw₁, hbacked₁, h₁, hdelivered, hkept⟩ :=
      hw.deliver_next hrt hassets hlamports hbacked hpayer h
    obtain ⟨w', hexecute, hw', hbacked', h', hall, hkept'⟩ := ih hw₁ hbacked₁ h₁
    refine ⟨w', ?_, hw', hbacked', h', fun y hy => ?_, fun key c hentry howner => ?_⟩
    · rw [List.map_cons, execute, hprocess]
      exact hexecute
    · rcases List.mem_cons.mp hy with rfl | hy
      · exact hkept' _ _ hdelivered rfl
      · exact hall y hy
    · exact hkept' key c (hkept key c hentry howner) howner

end World

/-! ## The SDK's list -/

/-- An outcome as the SDK reports it. -/
def Outcome.toClient (outcome : Outcome) : GachaRust.Outcome :=
  ⟨outcome.asset, if outcome.tier ≠ delivered then some outcome.tier else none⟩

/-- The outcome at an index of the layout. -/
def Pull.recorded (pull : Pull) (i : ℕ) : Outcome := pull.outcomes[i]?.getD pull.outcomes[0]

theorem Pull.outcome_eq {pull : Pull} {i : ℕ} (hi : i < 10) : pull.outcome i = .ok (pull.recorded i) := by
  unfold Pull.outcome Pull.recorded
  rw [Vector.getElem?_eq_getElem hi]
  rfl

/-- What is promised is recorded and not delivered. -/
theorem Pull.promised_iff {pull : Pull} (hsettled : pull.status = statusSettled)
    (hcount : pull.count.toNat ≤ 10) {i : ℕ} (hi : i < pull.count.toNat) (asset : Pubkey) :
    pull.promised i = some asset ↔ (pull.recorded i).toClient.tier.isSome = true ∧
      (pull.recorded i).asset = asset := by
  have hrecorded : pull.outcomes[i]? = some (pull.recorded i) := by
    unfold Pull.recorded
    rw [Vector.getElem?_eq_getElem (by omega)]
    rfl
  have htier : (pull.recorded i).toClient.tier.isSome = true ↔ (pull.recorded i).tier ≠ delivered := by
    unfold Outcome.toClient
    split_ifs with h <;> simp [h]
  rw [promised_eq_some, htier]
  constructor
  · rintro ⟨-, -, outcome, ho, hne, hasset⟩
    obtain rfl := Option.some.inj (hrecorded.symm.trans ho)
    exact ⟨hne, hasset⟩
  · rintro ⟨hne, hasset⟩
    exact ⟨hsettled, hi, _, hrecorded, hne, hasset⟩

namespace GachaRust.Pull

variable {snapshot : GachaRust.Pull} {pull : SolanaGacha.Pull} (hheader : snapshot.header = pull)
  (hsettled : pull.status = statusSettled) (hcount : pull.count.toNat ≤ 10)

include hheader hsettled hcount

/-- The outcomes of a settled Pull, in order. -/
theorem outcomes_eq : snapshot.outcomes =
    .ok ((List.range pull.count.toNat).map fun i => (pull.recorded i).toClient) := by
  have hstatus : snapshot.status = .settled := by
    unfold status
    rw [hheader, hsettled]
    rfl
  unfold outcomes
  rw [failIf_neg (not_not.mpr hstatus), ok_bind, hheader, collect_eq_ok, List.map_map]
  apply List.map_congr_left
  intro i hi
  have hlt := List.mem_range.mp hi
  show mapErr .invalidAccount (pull.outcome i) >>= _ = _
  rw [Pull.outcome_eq (by omega)]
  rfl

/-- The assets to fetch, and the instructions for their snapshots, when the list is that of the Pull. -/
theorem deliver_eq {todo : List (ℕ × Asset)} (hundelivered : pull.undelivered = todo.map Prod.fst)
    (hprize : ∀ x ∈ todo, pull.promised x.1 = some x.2.address) (howner : ∀ x ∈ todo, x.2.owner = pull.pool)
    (transactionSize : List Instruction → Pubkey → ℕ) (payer : Pubkey) :
    (((List.range pull.count.toNat).map fun i => (pull.recorded i).toClient).filter fun o => o.tier.isSome).map
        Outcome.asset = todo.map (fun x => x.2.address) ∧
      snapshot.deliver transactionSize (todo.map Prod.snd) payer = batches transactionSize []
        (todo.map (delivery pull.pool snapshot.address pull.buyer payer)) payer := by
  have hleft : (List.range pull.count.toNat).filter (fun i => (pull.recorded i).toClient.tier.isSome) =
      todo.map Prod.fst := by
    rw [← hundelivered, Pull.undelivered]
    apply List.filter_congr
    intro i hi
    rw [Bool.eq_iff_iff, Option.isSome_iff_exists (x := pull.promised i)]
    simp only [Pull.promised_iff hsettled hcount (List.mem_range.mp hi), exists_and_left, exists_eq', and_true]
  have hasset : ∀ x ∈ todo, (pull.recorded x.1).toClient.asset = x.2.address := by
    intro x hx
    obtain ⟨-, hlt, -⟩ := Pull.promised_eq_some.mp (hprize x hx)
    exact ((Pull.promised_iff hsettled hcount hlt _).mp (hprize x hx)).2
  constructor
  · rw [List.filter_map, List.map_map, show (fun o : Outcome => o.tier.isSome) ∘
      (fun i => (pull.recorded i).toClient) = fun i => (pull.recorded i).toClient.tier.isSome from rfl,
      hleft, List.map_map]
    exact List.map_congr_left hasset
  · -- The pending outcomes keep their indices.
    have hpending : (((List.range pull.count.toNat).map fun i => (pull.recorded i).toClient).zipIdx.filter
        fun x => x.1.tier.isSome) = todo.map fun x => ((pull.recorded x.1).toClient, x.1) := by
      have hzip : ((List.range pull.count.toNat).map fun i => (pull.recorded i).toClient).zipIdx =
          (List.range pull.count.toNat).map fun i => ((pull.recorded i).toClient, i) := by
        apply List.ext_getElem
        · simp
        · intro i _ _
          simp
      rw [hzip, List.filter_map, show (fun x : Outcome × ℕ => x.1.tier.isSome) ∘
        (fun i => ((pull.recorded i).toClient, i)) = fun i => (pull.recorded i).toClient.tier.isSome from rfl,
        hleft, List.map_map]
      rfl
    unfold deliver
    rw [outcomes_eq hheader hsettled hcount, ok_bind]
    dsimp only
    rw [hpending, failIf_neg (by simp), ok_bind, hheader, List.zip_map']
    have hcollect : ∀ x ∈ todo, (do
        failIf ((pull.recorded x.1).toClient.asset ≠ x.2.address) (Fault.error .invalidAsset)
        GachaRust.deliver pull.pool snapshot.address pull.buyer x.2 (UInt8.ofNat x.1) payer) =
          .ok (delivery pull.pool snapshot.address pull.buyer payer x) := by
      intro x hx
      rw [failIf_neg (not_not.mpr (hasset x hx)), ok_bind]
      exact deliver_eq_ok.mpr ⟨howner x hx, rfl⟩
    rw [List.map_map, collect_eq_ok.mpr (by
      rw [List.map_map]
      exact List.map_congr_left hcollect), ok_bind]

end GachaRust.Pull

/-- What is known of the size of a transaction: it grows with its instructions, and a single instruction with
ten accounts and two bytes of data fits. -/
structure GachaRust.TransactionSizes (transactionSize : List Instruction → Pubkey → ℕ) (payer : Pubkey) :
    Prop where
  monotonic : Monotonic fun group => transactionSize group payer
  small : ∀ ix : Instruction, ix.accounts.length = 10 → ix.data.length = 2 → transactionSize [ix] payer ≤ 1232

/-- Deliveries alone always fit. -/
theorem GachaRust.TransactionSizes.batches_isOk {transactionSize : List Instruction → Pubkey → ℕ}
    {payer : Pubkey} (h : TransactionSizes transactionSize payer) (pool pull buyer : Pubkey)
    {todo : List (ℕ × Asset)} (hne : todo ≠ []) : ∃ groups,
      batches transactionSize [] (todo.map (delivery pool pull buyer payer)) payer = .ok groups ∧
        groups.flatten = todo.map (delivery pool pull buyer payer) := by
  have hone : ∀ x, transactionSize [delivery pool pull buyer payer x] payer ≤ 1232 := fun x =>
    h.small _ rfl rfl
  obtain ⟨hlarge, -⟩ | ⟨-, groups, hok, hbatched⟩ := batchesOf_eq Fault.panicked
    (Fault.error .transactionTooLarge) h.monotonic [] (todo.map (delivery pool pull buyer payer))
  · obtain ⟨x, rest, rfl⟩ := List.exists_cons_of_ne_nil hne
    rcases hlarge with hlarge | ⟨ix, hmem, hlarge⟩
    · have hle := (h.monotonic.append [] (delivery pool pull buyer payer x)).trans (hone x)
      exact absurd hlarge (Nat.not_lt.mpr hle)
    · obtain ⟨y, -, rfl⟩ := List.mem_map.mp hmem
      exact absurd hlarge (Nat.not_lt.mpr (hone y))
  · exact ⟨groups, hok, hbatched.flatten⟩

namespace World

variable {rt : Runtime} {w : World} {P k buyer payer : Pubkey}
  {transactionSize : List GachaRust.Instruction → Pubkey → ℕ}

/-- The SDK recovers what is left from the accounts. -/
theorem Sound.recover_eq (hw : w.Sound rt) (hsizes : GachaRust.TransactionSizes transactionSize payer)
    {todo : List (ℕ × GachaRust.Asset)} (h : w.Awaits rt P k buyer todo) (hne : todo ≠ []) :
    ∃ groups, recover rt transactionSize w k payer = .ok (todo.map Prod.snd, groups) ∧
      groups.flatten = todo.map (GachaRust.delivery P k buyer payer) := by
  cases h with
  | closed vacant => exact absurd rfl hne
  | @live pull _ entry pool payee settled canonical _ undelivered prize =>
    subst pool payee
    have hcount : pull.count.toNat ≤ 10 := (hw.pull_valid entry).count.2
    obtain ⟨-, hdecode, -, -⟩ := Pull.load_eq_ok.mp (Account.entry_eq_pull.mp entry)
    have hfetch : GachaRust.Pull.fromAccount rt k (w.accounts k).owner (w.accounts k).data =
        .ok ⟨k, (w.accounts k).data⟩ := by
      rw [GachaRust.Pull.fromAccount_eq_ok, hdecode]
      exact ⟨hw.pull_accepted entry canonical, rfl⟩
    have hheader : GachaRust.Pull.header ⟨k, (w.accounts k).data⟩ = pull := hdecode
    obtain ⟨hassets, hdeliver⟩ := GachaRust.Pull.deliver_eq hheader settled hcount undelivered
      (fun x hx => (prize x hx).1) (fun x hx => (hw.prize_owner entry (prize x hx).1 (prize x hx).2).1)
      transactionSize payer
    obtain ⟨groups, hgroups, hflatten⟩ := hsizes.batches_isOk pull.pool k pull.buyer hne
    refine ⟨groups, ?_, hflatten⟩
    unfold recover
    rw [hfetch, ok_bind, GachaRust.Pull.outcomes_eq hheader settled hcount, ok_bind]
    have hcollect : GachaRust.collect ((((List.range pull.count.toNat).map fun i =>
        (pull.recorded i).toClient).filter fun o => o.tier.isSome).map fun o => w.asset o.asset) =
          .ok (todo.map Prod.snd) := by
      rw [GachaRust.collect_eq_ok, List.map_map]
      calc _ = (todo.map fun x => x.2.address).map w.asset := by rw [← hassets, List.map_map]; rfl
        _ = todo.map fun x => w.asset x.2.address := by rw [List.map_map]; rfl
        _ = _ := List.map_congr_left fun x hx => (prize x hx).2
    rw [hcollect, ok_bind, hdeliver, hgroups]
    rfl

/-- What is left to deliver of a live settled Pull at its canonical address. -/
theorem Sound.awaits (hw : w.Sound rt) {pull : Pull} (hpull : w.ledger k = .pull pull)
    (hsettled : pull.status = statusSettled)
    (hcanonical : rt.findProgramAddress [pullSeed, pull.pool.val, pull.clientSeed.val] programId =
      some (k, pull.bump)) (hleft : pull.undelivered ≠ []) :
    ∃ todo, todo.map Prod.fst = pull.undelivered ∧ w.Awaits rt pull.pool k pull.buyer todo ∧
      ∀ x ∈ todo, pull.promised x.1 = some x.2.address := by
  -- Every undelivered outcome has an asset that can be fetched.
  have hasset : ∀ i ∈ pull.undelivered, ∃ asset, pull.promised i = some asset.address ∧
      w.asset asset.address = .ok asset := by
    intro i hi
    obtain ⟨address, hpromised⟩ := Pull.mem_undelivered.mp hi
    have hslot : w.ledger.promised (.outcome k i) = some (address, pull.pool) := by
      rw [Ledger.promised, hpull, Option.map_eq_some_iff]
      exact ⟨address, hpromised, rfl⟩
    obtain ⟨pool, index, c, -, -, hentry, -⟩ := hw.promised_owned hslot
    exact ⟨⟨address, c.owner, c.collection⟩, hpromised, asset_eq_ok.mpr ⟨hentry, rfl⟩⟩
  have hlist : ∀ l : List ℕ, (∀ i ∈ l, i ∈ pull.undelivered) → ∃ todo : List (ℕ × GachaRust.Asset),
      todo.map Prod.fst = l ∧ ∀ x ∈ todo, pull.promised x.1 = some x.2.address ∧
        w.asset x.2.address = .ok x.2 := by
    intro l hl
    induction l with
    | nil => exact ⟨[], rfl, by simp⟩
    | cons i l ih =>
      obtain ⟨todo, hfst, htodo⟩ := ih fun j hj => hl j (List.mem_cons_of_mem i hj)
      obtain ⟨asset, hasset⟩ := hasset i (hl i List.mem_cons_self)
      refine ⟨(i, asset) :: todo, by rw [List.map_cons, hfst], fun x hx => ?_⟩
      rcases List.mem_cons.mp hx with rfl | hx
      · exact hasset
      · exact htodo x hx
  obtain ⟨todo, hfst, htodo⟩ := hlist pull.undelivered fun _ hi => hi
  have hne : todo ≠ [] := fun hnil => hleft (by rw [← hfst, hnil]; rfl)
  exact ⟨todo, hfst, .live hpull rfl rfl hsettled hcanonical hne hfst.symm htodo, fun x hx => (htodo x hx).1⟩

end World

/-! ## The plan of a settlement -/

namespace GachaRust

/-- What `instructions` checks, and the deliveries that follow the settlement. -/
theorem Settlement.instructions_eq_ok {plan : Settlement} {items : List Item} {assets : List Asset}
    {payer : Pubkey} {transactionSize : List Instruction → Pubkey → ℕ} {groups : List (List Instruction)}
    (h : plan.instructions transactionSize items assets payer = .ok groups) :
    items.map Item.address = plan.draws.map Draw.item ∧ assets.length = items.length ∧
      (∀ x ∈ items.zip assets, x.1.header.asset = x.2.address) ∧
      batches transactionSize [plan.instruction] (((items.zip assets).zipIdx.map fun x => (x.2, x.1.2)).map
        (delivery plan.pool plan.pull plan.buyer payer)) payer = .ok groups := by
  unfold instructions at h
  simp only [bind_eq_ok, failIf_eq_ok, not_or, not_not, collect_eq_ok] at h
  obtain ⟨_, ⟨hlength, hitems⟩, _, hassets, deliveries, hcollect, hbatches⟩ := h
  -- One delivery for each item and asset.
  have hone : ∀ x ∈ (items.zip assets).zipIdx, x.1.1.header.asset = x.1.2.address ∧
      ∃ ix, delivery plan.pool plan.pull plan.buyer payer (x.2, x.1.2) = ix ∧
        (failIf (x.1.1.header.asset ≠ x.1.2.address) (Fault.error .invalidAsset) >>= fun _ =>
          deliver plan.pool plan.pull plan.buyer x.1.2 (UInt8.ofNat x.2) payer) = .ok ix := by
    intro x hx
    have hmem := List.mem_map_of_mem (f := fun x : (Item × Asset) × ℕ =>
      failIf (x.1.1.header.asset ≠ x.1.2.address) (Fault.error .invalidAsset) >>= fun _ =>
        deliver plan.pool plan.pull plan.buyer x.1.2 (UInt8.ofNat x.2) payer) hx
    rw [hcollect] at hmem
    obtain ⟨ix, -, hix⟩ := List.mem_map.mp hmem
    obtain ⟨_, hcheck, hdeliver⟩ := bind_eq_ok.mp hix.symm
    obtain ⟨-, rfl⟩ := deliver_eq_ok.mp hdeliver
    rw [failIf_eq_ok, not_not] at hcheck
    exact ⟨hcheck, _, rfl, hix.symm⟩
  have hdeliveries : deliveries = ((items.zip assets).zipIdx.map fun x => (x.2, x.1.2)).map
      (delivery plan.pool plan.pull plan.buyer payer) := by
    have hmap : deliveries.map Except.ok = (((items.zip assets).zipIdx.map fun x => (x.2, x.1.2)).map
        (delivery plan.pool plan.pull plan.buyer payer)).map (Except.ok (ε := Fault)) := by
      rw [← hcollect, List.map_map, List.map_map]
      apply List.map_congr_left
      intro x hx
      obtain ⟨-, ix, rfl, hix⟩ := hone x hx
      exact hix
    exact List.map_injective_iff.mpr (fun _ _ heq => Except.ok.inj heq) hmap
  refine ⟨?_, hassets, fun x hx => ?_, hdeliveries ▸ hbatches⟩
  · apply List.ext_getElem
    · simpa using hlength
    · intro i hi hi'
      rw [List.getElem_map, List.getElem_map]
      rw [List.length_map] at hi hi'
      by_contra hne
      exact hitems ⟨(items[i], plan.draws[i]), List.mem_iff_getElem.mpr ⟨i, by simp; omega, by simp⟩, hne⟩
  · obtain ⟨i, hi, rfl⟩ := List.mem_iff_getElem.mp hx
    exact (hone ((items.zip assets)[i], i) (List.mem_zipIdx_iff_getElem?.mpr (List.getElem?_eq_getElem hi))).1

/-- The accounts that a plan names. -/
theorem Pool.settle_names {rt : Runtime} {pool : Pool} {pull : Pull} {proof : FixedBytes 80}
    {plan : Settlement} (h : pool.settle rt pull proof = .ok plan) : plan.pool = pool.address ∧
      plan.pull = pull.address ∧ plan.buyer = pull.header.buyer ∧ pull.header.pool = pool.address := by
  unfold settle pending at h
  simp only [bind_eq_ok, failIf_eq_ok, not_not, pure_eq_ok] at h
  obtain ⟨_, ⟨_, hpool, -⟩, _, -, _, -, _, -, _, -, rfl⟩ := h
  exact ⟨rfl, rfl, rfl, hpool⟩

theorem Settlement.call_instruction (plan : Settlement) : plan.instruction.call =
    Settle.instruction plan.pool plan.pull plan.operator
      (plan.draws.map fun d => ⟨d.item, false, true⟩) plan.proof :=
  rfl

end GachaRust

/-- The accounts of a settlement by their places. -/
theorem Settle.accounts_of_tryFrom {w : World} {P k operator : Pubkey} {items : List AccountInfo}
    {proof : FixedBytes 80} {a : SettleAccounts}
    (h : SettleAccounts.tryFrom w (Settle.instruction P k operator items proof).accounts = .ok a) :
    Settle.accounts P k operator items = a := by
  have hreverse : (items ++ [(⟨eventAuthority, false, false⟩ : AccountInfo),
      ⟨programId, false, false⟩]).reverse =
        ⟨programId, false, false⟩ :: ⟨eventAuthority, false, false⟩ :: items.reverse := by simp
  unfold SettleAccounts.tryFrom Settle.instruction at h
  simp only [List.cons_append, List.nil_append, hreverse, List.reverse_reverse, bind_eq_ok, failIf_eq_ok,
    pure_eq_ok] at h
  obtain ⟨_, -, _, -, _, -, _, -, _, -, _, -, _, -, _, -, _, -, _, -, rfl⟩ := h
  rfl

namespace World

variable {rt : Runtime} {w : World}

/-- After the settlement, every delivery of the plan is left. -/
theorem Sound.settle_awaits (hrt : rt.Lawful) (hlamports : rt.Conserves) (hw : w.Sound rt)
    (hbacked : w.Backed) {P k : Pubkey} {pull : Pull} (hpull : w.ledger k = .pull pull)
    (hcanonical : rt.findProgramAddress [pullSeed, pull.pool.val, pull.clientSeed.val] programId =
      some (k, pull.bump)) {plan : GachaRust.Settlement} (hP : plan.pool = P) (hk : plan.pull = k)
    {items : List GachaRust.Item} {assets : List GachaRust.Asset}
    (haddress : items.map GachaRust.Item.address = plan.draws.map GachaRust.Draw.item)
    (hlength : assets.length = items.length) (hprize : ∀ x ∈ items.zip assets, x.1.header.asset = x.2.address)
    (hitems : ∀ item ∈ items, item.data = (w.accounts item.address).data)
    (hassets : ∀ asset ∈ assets, w.asset asset.address = .ok asset) {w' : World}
    (hprocess : processInstruction rt w plan.instruction.call = .ok w') :
    w'.Sound rt ∧ w'.Backed ∧
      w'.Awaits rt P k pull.buyer ((items.zip assets).zipIdx.map fun x => (x.2, x.1.2)) := by
  subst hP hk
  rw [GachaRust.Settlement.call_instruction] at hprocess
  have hunforged : Instruction.Unforged rt (Settle.instruction plan.pool plan.pull plan.operator
      (plan.draws.map fun d => ⟨d.item, false, true⟩) plan.proof) := by
    intro info hinfo hsigner
    simp only [Settle.instruction, List.mem_append, List.mem_cons, List.mem_map] at hinfo
    grind
  obtain ⟨call, hparse, hstep⟩ := step_of_process hunforged hprocess
  obtain ⟨a, ha, rfl⟩ := Settle.parse.mp hparse
  obtain rfl := Settle.accounts_of_tryFrom ha
  obtain ⟨-, ⟨pool, index, pull', beta, awards, h⟩, -⟩ := hstep.effect hrt hw
  obtain rfl : pull = pull' := Entry.pull.inj (hpull.symm.trans h.loadedPull)
  have hkeys : awards.map Award.account = items.map GachaRust.Item.address := by
    rw [h.accounts, haddress, Settle.accounts, List.map_map]
    rfl
  have hcount : awards.length = pull.count.toNat := by
    rw [← List.length_map (f := Award.account), h.accounts, List.length_map]
    exact h.count
  have hlen : items.length = awards.length := by
    rw [← List.length_map (f := GachaRust.Item.address), ← hkeys, List.length_map]
  obtain ⟨tiers, index', pendingDraws, nextSettle, -, -, -, -, hledger⟩ := h.ledger
  have hentry : w'.ledger plan.pull = .pull { pull with
      status := statusSettled, outcomes := recordAwards pull.outcomes 0 awards } := by
    rw [hledger]
    exact Function.update_self _ _ _
  -- The asset at each place is that of the award.
  have hplace : ∀ i (hi : i < awards.length) (_ : i < assets.length),
      awards[i].item.asset = assets[i].address := by
    intro i hi hi'
    have hx := hprize (items[i], assets[i]) (List.mem_iff_getElem.mpr ⟨i, by simp; omega, by simp⟩)
    have hkey : awards[i].account = items[i].address := by
      have := congrArg (fun l => l[i]?) hkeys
      simpa [hi, hlen ▸ hi] using this
    obtain ⟨hitem, -⟩ := h.item awards[i] (List.getElem_mem hi)
    obtain ⟨-, hdecode, -, -⟩ := Item.load_eq_ok.mp (Account.entry_eq_item.mp hitem)
    rw [← hx, ← hdecode, hkey, ← hitems items[i] (List.getElem_mem (by omega))]
    rfl
  have hpromised : ∀ i (hi : i < awards.length), Pull.promised { pull with
      status := statusSettled, outcomes := recordAwards pull.outcomes 0 awards } i =
        some awards[i].item.asset := by
    intro i hi
    have htier : awards[i].item.tier ≠ delivered := by
      obtain ⟨-, -, hlive⟩ := Runtime.selections_spec h.selected
      have hlt : awards[i].item.tier.toNat < 8 := (hlive _ (List.mem_map_of_mem (List.getElem_mem hi))).2.1
      intro heq
      rw [heq] at hlt
      exact absurd hlt (by decide)
    have hsmall := h.small
    refine Pull.promised_eq_some.mpr ⟨rfl, hcount ▸ hi, ⟨awards[i].item.tier, awards[i].item.asset⟩, ?_, htier,
      rfl⟩
    show (recordAwards pull.outcomes 0 awards)[i]? = _
    rw [recordAwards_getElem? _ _ _ _ (by omega), if_pos ⟨Nat.zero_le i, by omega⟩, Nat.sub_zero,
      List.getElem?_eq_getElem hi]
    rfl
  have hfst : ((items.zip assets).zipIdx.map fun x => (x.2, x.1.2)).map Prod.fst =
      List.range awards.length := by
    rw [List.map_map, show Prod.fst ∘ (fun x : (GachaRust.Item × GachaRust.Asset) × ℕ => (x.2, x.1.2)) =
      Prod.snd from rfl, List.zipIdx_map_snd, List.length_zip, hlength, Nat.min_self, hlen,
      List.range_eq_range']
  refine ⟨hstep.sound hrt hw, processInstruction_backed hlamports hprocess hbacked,
    .live hentry h.samePool rfl rfl hcanonical ?_ ?_ fun x hx => ?_⟩
  · have hpos := (hw.pull_valid hpull).count.1
    intro hnil
    have := congrArg List.length (hfst.symm.trans (congrArg _ hnil))
    rw [List.length_range] at this
    simp only [List.map_nil, List.length_nil] at this
    omega
  · rw [hfst, Pull.undelivered]
    show (List.range pull.count.toNat).filter _ = _
    rw [← hcount, List.filter_eq_self]
    intro i hi
    rw [hpromised i (List.mem_range.mp hi)]
    rfl
  · obtain ⟨y, hy, rfl⟩ := List.mem_map.mp hx
    obtain ⟨hlt, heq⟩ := List.getElem?_eq_some_iff.mp (List.mem_zipIdx_iff_getElem?.mp hy)
    rw [List.length_zip] at hlt
    have hy' : y.1.2 = assets[y.2] := by rw [← heq, List.getElem_zip]
    rw [hy']
    refine ⟨(hpromised y.2 (by omega)).trans (congrArg some (hplace y.2 (by omega) (by omega))), ?_⟩
    -- A settlement touches no asset.
    obtain ⟨hold, -⟩ := asset_eq_ok.mp (hassets assets[y.2] (List.getElem_mem (by omega)))
    refine asset_eq_ok.mpr ⟨?_, rfl⟩
    rw [hledger, Function.update_of_ne (Ledger.ne_of_entry hold h.loadedPull (by simp)),
      Function.update_of_ne (Ledger.ne_of_entry hold h.loaded (by simp)), Ledger.vacate, if_neg, hold]
    intro hmem
    obtain ⟨award, haward, heq⟩ := List.mem_map.mp hmem
    have hitem := (h.item award haward).1
    rw [heq, hold] at hitem
    cases hitem

/-- In every reachable state, for every live Pull at its canonical address. When it is settled and something is
left to deliver, the SDK recovers one delivery for each undelivered outcome in ascending order; any number of
them executes in order, which gives these assets to the buyer and closes the Pull at the last. When it is
pending and a plan of its settlement was executed up to a group, the SDK recovers the rest of the plan. -/
theorem Reached.recovers (hrt : rt.Lawful) (hcore : rt.TransfersAssets) (hlamports : rt.Conserves)
    {transactionSize : List GachaRust.Instruction → Pubkey → ℕ} {payer : Pubkey}
    (hsizes : GachaRust.TransactionSizes transactionSize payer) (hpayer : ¬rt.IsPda payer)
    (hw : w.Reached rt) (hbacked : w.Backed) {k : Pubkey} {pull : Pull} (hpull : w.ledger k = .pull pull)
    (hcanonical : rt.findProgramAddress [pullSeed, pull.pool.val, pull.clientSeed.val] programId =
      some (k, pull.bump)) :
    (pull.status = statusSettled → pull.undelivered ≠ [] → ∃ assets groups,
      recover rt transactionSize w k payer = .ok (assets, groups) ∧
      assets.length = pull.undelivered.length ∧
      (∀ x ∈ pull.undelivered.zip assets, pull.promised x.1 = some x.2.address) ∧
      groups.flatten =
        (pull.undelivered.zip assets).map (GachaRust.delivery pull.pool k pull.buyer payer) ∧
      ∀ n ≤ pull.undelivered.length, ∃ w',
        w.execute rt ((groups.flatten.take n).map GachaRust.Instruction.call) = .ok w' ∧
        (∀ asset ∈ assets.take n, w'.ledger asset.address = .asset ⟨pull.buyer, asset.collection⟩) ∧
        (n < pull.undelivered.length → ∃ pull', w'.ledger k = .pull pull' ∧
          pull'.undelivered = pull.undelivered.drop n) ∧
        (n = pull.undelivered.length → w'.ledger k = .vacant)) ∧
    ∀ pool proof plan items assets groups,
      GachaRust.Pool.settle rt pool ⟨k, (w.accounts k).data⟩ proof = .ok plan →
      (∀ item ∈ items, item.data = (w.accounts item.address).data) →
      (∀ asset ∈ assets, w.asset asset.address = .ok asset) →
      plan.instructions transactionSize items assets payer = .ok groups →
      ∀ n, 0 < n → n < groups.length → ∀ w',
        w.execute rt ((groups.take n).flatten.map GachaRust.Instruction.call) = .ok w' →
          ∃ assets' recovery, recover rt transactionSize w' k payer = .ok (assets', recovery) ∧
            recovery.flatten = (groups.drop n).flatten := by
  have hsound := hw.sound hrt
  constructor
  · intro hsettled hleft
    obtain ⟨todo, hfst, hawaits, hpromised⟩ := hsound.awaits hpull hsettled hcanonical hleft
    have hne : todo ≠ [] := fun hnil => hleft (by rw [← hfst, hnil]; rfl)
    obtain ⟨groups, hrecover, hflatten⟩ := hsound.recover_eq hsizes hawaits hne
    have hzip : pull.undelivered.zip (todo.map Prod.snd) = todo := by
      rw [← hfst, List.zip_map']
      exact List.map_id _
    have hlength : pull.undelivered.length = todo.length := by rw [← hfst, List.length_map]
    refine ⟨todo.map Prod.snd, groups, hrecover, by rw [List.length_map, hlength], by rwa [hzip],
      by rw [hzip, hflatten], fun n hn => ?_⟩
    -- Execute the first `n` of the list.
    rw [← List.take_append_drop n todo] at hawaits
    obtain ⟨w', hexecute, -, -, hrest, hdelivered, -⟩ :=
      hsound.deliver_all hrt hcore hlamports hbacked hpayer hawaits
    refine ⟨w', ?_, fun asset hasset => ?_, fun hlt => ?_, fun heq => ?_⟩
    · rw [hflatten, ← List.map_take, List.map_map]
      exact hexecute
    · rw [← List.map_take] at hasset
      obtain ⟨x, hx, rfl⟩ := List.mem_map.mp hasset
      exact hdelivered x hx
    · cases hrest' : todo.drop n with
      | nil =>
        have := List.drop_eq_nil_iff.mp hrest'
        omega
      | cons x rest =>
        rw [hrest'] at hrest
        cases hrest with
        | live entry _ _ _ _ _ undelivered _ =>
          exact ⟨_, entry, by rw [undelivered, ← hrest', ← hfst, List.map_drop]⟩
    · rw [List.drop_of_length_le (by omega)] at hrest
      cases hrest with
      | closed vacant => exact vacant
      | live _ _ _ _ _ nonempty _ _ => exact absurd rfl nonempty
  · intro pool proof plan items assets groups hplan hitems hassets hinstructions n hpos hlt w' hexecute
    obtain ⟨-, hk, hbuyer, hP⟩ := GachaRust.Pool.settle_names hplan
    obtain ⟨haddress, hlength, hprize, hbatches⟩ := GachaRust.Settlement.instructions_eq_ok hinstructions
    obtain ⟨-, herror⟩ | ⟨-, groups', hok, hbatched⟩ := batchesOf_eq GachaRust.Fault.panicked
      (GachaRust.Fault.error .transactionTooLarge) hsizes.monotonic [plan.instruction]
      (((items.zip assets).zipIdx.map fun x => (x.2, x.1.2)).map
        (GachaRust.delivery plan.pool plan.pull plan.buyer payer))
    · exact absurd (hbatches.symm.trans herror) (by simp)
    obtain rfl := Except.ok.inj (hbatches.symm.trans hok)
    generalize htodo : ((items.zip assets).zipIdx.map fun x => (x.2, x.1.2)) = todo at hbatched
    -- The groups that were executed are the settlement and the first deliveries.
    have hsplit : (groups.take n).flatten ++ (groups.drop n).flatten = plan.instruction ::
        todo.map (GachaRust.delivery plan.pool plan.pull plan.buyer payer) := by
      rw [← List.flatten_append, List.take_append_drop]
      exact hbatched.flatten
    have hflatten : ∀ l : List (List GachaRust.Instruction), l ≠ [] → (∀ g ∈ l, g ∈ groups) →
        l.flatten ≠ [] := by
      intro l hl hmem hnil
      obtain ⟨g, l', rfl⟩ := List.exists_cons_of_ne_nil hl
      exact hbatched.nonempty g (hmem g List.mem_cons_self) (List.flatten_eq_nil_iff.mp hnil g List.mem_cons_self)
    have htake := hflatten (groups.take n) (fun hnil => by
      have := congrArg List.length hnil
      rw [List.length_take, List.length_nil] at this
      omega) fun g => List.mem_of_mem_take
    have hdrop := hflatten (groups.drop n) (fun hnil => by
      have := congrArg List.length hnil
      rw [List.length_drop, List.length_nil] at this
      omega) fun g => List.mem_of_mem_drop
    obtain ⟨first, executed, hexecuted⟩ := List.exists_cons_of_ne_nil htake
    rw [hexecuted, List.cons_append] at hsplit
    obtain ⟨rfl, hdeliveries⟩ := List.cons.inj hsplit
    obtain ⟨front, back, rfl, rfl, hback⟩ := List.map_eq_append_iff.mp hdeliveries.symm
    have hne : back ≠ [] := by
      rintro rfl
      exact hdrop hback.symm
    rw [hexecuted, List.map_cons, World.execute] at hexecute
    obtain ⟨w₁, hsettle, hfront⟩ := bind_eq_ok.mp hexecute
    have hpool : plan.pool = pull.pool := by
      obtain ⟨hname, -, -, -⟩ := GachaRust.Pool.settle_names hplan
      obtain ⟨-, hdecode, -, -⟩ := Pull.load_eq_ok.mp (Account.entry_eq_pull.mp hpull)
      rw [hname, ← hP, ← hdecode]
      rfl
    have hbuyer' : plan.buyer = pull.buyer := by
      obtain ⟨-, hdecode, -, -⟩ := Pull.load_eq_ok.mp (Account.entry_eq_pull.mp hpull)
      rw [hbuyer, ← hdecode]
      rfl
    obtain ⟨hsound₁, hbacked₁, hawaits⟩ := hsound.settle_awaits hrt hlamports hbacked hpull hcanonical hpool hk
      haddress hlength hprize hitems hassets hsettle
    rw [htodo] at hawaits
    obtain ⟨w₂, hexecute₂, hsound₂, -, hrest, -, -⟩ :=
      hsound₁.deliver_all hrt hcore hlamports hbacked₁ hpayer hawaits
    have hsame : w' = w₂ := by
      rw [hpool, hk, hbuyer', List.map_map] at hfront
      exact Except.ok.inj (hfront.symm.trans hexecute₂)
    subst hsame
    obtain ⟨recovery, hrecover, hrecovery⟩ := hsound₂.recover_eq hsizes hrest hne
    refine ⟨_, recovery, hrecover, ?_⟩
    rw [hrecovery, ← hback, hpool, hk, hbuyer']

/-- The sample purchase is settled and its prize is not delivered; the transaction that delivers it has 405
bytes. -/
theorem Reached.recovers_sample : ∃ assets groups,
    recover Sample.net.runtime (fun group _ => 405 * group.length) Sample.settled Sample.pull Sample.operator =
      .ok (assets, groups) ∧
    assets.length = 1 ∧
    groups.flatten = ([0].zip assets).map
      (GachaRust.delivery Sample.pool Sample.pull Sample.buyer Sample.operator) ∧
    ∃ w', Sample.settled.execute Sample.net.runtime
        ((groups.flatten.take 1).map GachaRust.Instruction.call) = .ok w' ∧
      (∀ asset ∈ assets.take 1, w'.ledger asset.address = .asset ⟨Sample.buyer, asset.collection⟩) ∧
      w'.ledger Sample.pull = .vacant := by
  obtain ⟨pull, hpull, hopen⟩ := Sample.exists_pull (e := Sample.settled.ledger Sample.pull)
    (p := fun pull => pull.status = statusSettled ∧ pull.undelivered = [0] ∧ pull.pool = Sample.pool ∧
      pull.buyer = Sample.buyer ∧ Sample.net.runtime.findProgramAddress
        [pullSeed, pull.pool.val, pull.clientSeed.val] programId = some (Sample.pull, pull.bump))
    (by decide +kernel)
  have hreached := Sample.settled_reached
  have hbacked : Sample.settled.Backed := Sample.backed_after Sample.bought_backed (by decide +kernel)
  generalize Sample.settled = w at *
  simp only [decide_eq_true_eq] at hopen
  obtain ⟨hsettled, hleft, hpool, hbuyer, hcanonical⟩ := hopen
  have hsizes : GachaRust.TransactionSizes (fun group _ => 405 * group.length) Sample.operator := by
    refine ⟨⟨fun group ix => ?_, fun group ix => ?_⟩, fun _ _ _ => show 405 * 1 ≤ 1232 by decide⟩
    · show 405 * group.length ≤ 405 * (group ++ [ix]).length
      rw [List.length_append]
      omega
    · show 405 * group.length ≤ 405 * (ix :: group).length
      rw [List.length_cons]
      omega
  have hpayer : ¬Sample.net.runtime.IsPda Sample.operator :=
    Sample.net.not_isPda_of_holdable (by decide +kernel)
  obtain ⟨hrecover, -⟩ := World.Reached.recovers Sample.net.runtime_lawful Sample.net.transfersAssets
    Sample.net.conserves hsizes hpayer hreached hbacked hpull hcanonical
  obtain ⟨assets, groups, hrun, hlength, -, hflatten, hexecute⟩ := hrecover hsettled (by rw [hleft]; simp)
  obtain ⟨w', hok, hdelivered, -, hclosed⟩ := hexecute 1 (by rw [hleft]; exact le_rfl)
  rw [hleft] at hlength hflatten hclosed
  rw [hpool, hbuyer] at hflatten
  rw [hbuyer] at hdelivered
  exact ⟨assets, groups, hrun, hlength, hflatten, w', hok, hdelivered, hclosed rfl⟩

end World

end SolanaGacha
