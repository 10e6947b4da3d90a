import SolanaGacha.Sdk.Client
import SolanaGacha.Sdk.Plan
import SolanaGacha.Sdk.Recovery
import SolanaGacha.System.Standing

/-!
# A relayer's calls on a moving chain

A relayer reads the accounts of a settlement in four requests, each perhaps in a later state of the chain, and
sends the instructions later still. While the purchase waits, nothing that it reads goes stale: its Items stay
(`Banner.Keeps`) and their assets stay in custody. So the call of the client succeeds, and what it prepares runs
to the end: the purchase is settled, every prize is delivered and the Pull is closed
(`World.Reached.relays`).
-/

namespace SolanaGacha

open Except Layout Inventory

/-! ## Reading -/

namespace GachaRust

theorem lift_eq_ok {α : Type} {x : Except Fault α} {a : α} : lift x = .ok a ↔ x = .ok a := by
  cases x with
  | ok b => simp [lift]
  | error fault => simp [lift]

end GachaRust

/-- Two values for each element of a list, with its place. -/
theorem zipIdx_map_zip_map {α β γ : Type} (f : α → β) (g : α → γ) (l : List α) :
    (((l.map f).zip (l.map g)).zipIdx.map fun x => (x.2, x.1.2)) = l.zipIdx.map fun x => (x.2, g x.1) := by
  rw [List.zip_map', List.zipIdx_map, List.map_map]
  rfl

/-- What a request reads of an account. -/
def World.slice (w : World) (length : Option ℕ) (k : Pubkey) : Pubkey × List UInt8 :=
  ((w.accounts k).owner, (w.accounts k).data.take (length.getD (w.accounts k).data.length))

@[simp]
theorem World.slice_none (w : World) (k : Pubkey) :
    w.slice none k = ((w.accounts k).owner, (w.accounts k).data) := by
  unfold slice
  rw [Option.getD_none, List.take_length]

namespace GachaRust

/-- An account that holds something is reported. -/
theorem uiAccount_eq {w : World} {k : Pubkey} (h : w.ledger k ≠ .vacant) (length : Option ℕ) :
    uiAccount (w.accounts k) length = some ⟨some (w.slice length k).1, some (w.slice length k).2⟩ := by
  unfold uiAccount
  rw [if_neg]
  · rfl
  · rintro ⟨howner, -, hdata⟩
    exact h (Account.entry_eq_vacant.mpr ⟨howner, hdata⟩)

/-- An honest node answers for accounts that hold something. -/
theorem Client.read_eq {rpc : Rpc} {w : World} {n : ℕ} {keys : List Pubkey} {minimum : Option UInt64}
    {length : Option ℕ} (hhonest : rpc n ⟨keys, minimum, length⟩ = .ok (w.answer ⟨keys, minimum, length⟩))
    (hpresent : ∀ k ∈ keys, w.ledger k ≠ .vacant) (hslot : ∀ slot ∈ minimum, slot ≤ w.slot) :
    Client.read rpc n keys minimum length = .ok (w.slot, keys.map (w.slice length)) := by
  have hcount : ¬((w.answer ⟨keys, minimum, length⟩).accounts.length ≠ keys.length ∨
      ∃ slot ∈ minimum, (w.answer ⟨keys, minimum, length⟩).slot < slot) := by
    rintro (hlength | ⟨slot, hmem, hlt⟩)
    · exact hlength (List.length_map _)
    · exact absurd hlt (UInt64.not_lt.mpr (hslot slot hmem))
  have haccounts : (keys.zip (w.answer ⟨keys, minimum, length⟩).accounts).mapM readAccount =
      .ok (keys.map (w.slice length)) := by
    -- Every key is zipped with its own account.
    have hzip : keys.zip (w.answer ⟨keys, minimum, length⟩).accounts =
        keys.map fun k => (k, uiAccount (w.accounts k) length) := by
      unfold World.answer
      have hmap := List.zip_map' (f := id) (g := fun k => uiAccount (w.accounts k) length) (l := keys)
      simpa only [List.map_id, id_eq] using hmap
    apply mapM_eq_ok.mpr
    rw [hzip, List.map_map, List.map_map]
    apply List.map_congr_left
    intro k hk
    show readAccount (k, uiAccount (w.accounts k) length) = .ok (w.slice length k)
    rw [uiAccount_eq (hpresent k hk)]
    rfl
  unfold Client.read
  rw [hhonest, ok_bind, failIf_neg hcount, ok_bind, haccounts, ok_bind]
  rfl

/-- The requests of a call, answered in the states of a run. -/
structure Client.Reads (rt : Runtime) (rpc : Rpc) (ws : ℕ → World) : Prop where
  honest : ∀ n r, rpc n r = .ok ((ws n).answer r)
  clock : ∀ n, (ws n).slot ≤ (ws (n + 1)).slot
  run : ∀ n, ∃ trace, Run (World.Step rt) (ws n) trace (ws (n + 1))

section Reads

variable {rt : Runtime} {rpc : Rpc} {ws : ℕ → World} (h : Client.Reads rt rpc ws)

include h

theorem Client.Reads.read_eq (n : ℕ) (keys : List Pubkey) (minimum : Option UInt64) (length : Option ℕ)
    (hpresent : ∀ k ∈ keys, (ws n).ledger k ≠ .vacant) (hslot : ∀ slot ∈ minimum, slot ≤ (ws n).slot) :
    Client.read rpc n keys minimum length = .ok ((ws n).slot, keys.map ((ws n).slice length)) :=
  Client.read_eq (h.honest n _) hpresent hslot

/-- A later state is reached by a run. -/
theorem Client.Reads.run_le {m n : ℕ} (hle : m ≤ n) :
    (ws m).slot ≤ (ws n).slot ∧ ∃ trace, Run (World.Step rt) (ws m) trace (ws n) := by
  induction n, hle using Nat.le_induction with
  | base => exact ⟨UInt64.le_refl _, [], .nil⟩
  | succ n _ ih =>
    obtain ⟨hclock, trace, hrun⟩ := ih
    obtain ⟨trace', hrun'⟩ := h.run n
    exact ⟨UInt64.le_trans hclock (h.clock n), trace ++ trace', hrun.append hrun'⟩

end Reads

end GachaRust

/-- The header of an asset is in its first bytes. -/
theorem CoreAsset.fromAccount_take {n : ℕ} (hn : 66 ≤ n) (owner : Pubkey) (data : List UInt8) :
    CoreAsset.fromAccount owner (data.take n) = CoreAsset.fromAccount owner data := by
  have hget : ∀ i, i < 66 → (data.take n)[i]? = data[i]? := fun i hi => by
    rw [List.getElem?_take, if_pos (by omega)]
  have hread : ∀ offset, offset + 32 ≤ 66 →
      (bytes 32).readAt offset (data.take n) = (bytes 32).readAt offset data := by
    intro offset hoffset
    apply (bytes 32).readAt_congr
    intro i _ hi
    rw [bytes_size] at hi
    exact hget i (by omega)
  have hlen : (data.take n).length < 34 ↔ data.length < 34 := by
    rw [List.length_take]
    omega
  have hlen' : (data.take n).length < 66 ↔ data.length < 66 := by
    rw [List.length_take]
    omega
  unfold CoreAsset.fromAccount CoreAsset.collectionOf
  simp only [hget 0 (by decide), hget 33 (by decide), hread 1 (by decide), hread 34 (by decide), hlen, hlen']

/-! ## The plan -/

/-- The accounts of a settlement are where the SDK looks for them. -/
structure World.Canonical (rt : Runtime) (w : World) (P k : Pubkey) (pool : Pool) (pull : Pull) : Prop where
  pool : rt.findProgramAddress [poolSeed, pool.authority.val, u64.encode pool.id] programId =
    some (P, pool.bump)
  pull : rt.findProgramAddress [pullSeed, pull.pool.val, pull.clientSeed.val] programId = some (k, pull.bump)
  item : ∀ key item, w.ledger key = .item item → item.pool = P →
    rt.findProgramAddress [itemSeed, item.pool.val, [item.tier], u32.encode item.position] programId =
      some (key, item.bump)

/-- The draw that awards an Item. -/
def Award.toDraw (award : Award) : GachaRust.Draw := ⟨award.item.tier, award.item.position, award.account⟩

/-- Every draw names the address of its Item. -/
theorem GachaRust.Pool.drawLoop_items {rt : Runtime} {pool : GachaRust.Pool} {beta : FixedBytes 64}
    {candidates : List (List UInt32)} {i n : ℕ} {draws : List GachaRust.Draw}
    (h : pool.drawLoop rt beta candidates i n = .ok draws) {draw : GachaRust.Draw} (hdraw : draw ∈ draws) :
    ∃ bump, GachaRust.Item.addressFor rt pool.address draw.tier draw.position = .ok (draw.item, bump) := by
  induction n generalizing candidates i draws with
  | zero =>
    obtain rfl := pure_eq_ok.mp h
    cases hdraw
  | succ n ih =>
    unfold drawLoop at h
    simp only [bind_eq_ok, pure_eq_ok, Prod.exists] at h
    obtain ⟨counts, -, tier, rank, -, entries, -, position, -, item, bump, haddress, rest, hrest, rfl⟩ := h
    rcases List.mem_cons.mp hdraw with rfl | hdraw
    · exact ⟨bump, haddress⟩
    · exact ih hrest hdraw

namespace World

variable {rt : Runtime} {w : World} {P k : Pubkey} {pool : Pool} {index : List UInt8} {pull : Pull}
  {items : List AccountInfo} {proof : FixedBytes 80} {beta : FixedBytes 64} {awards : List Award}

/-- The SDK looks for an Item that is drawn at its account. -/
theorem Canonical.addressFor (hcanonical : w.Canonical rt P k pool pull)
    (hsettles : w.Settles rt P k pool index pull items proof beta awards) {award : Award}
    (haward : award ∈ awards) : GachaRust.Item.addressFor rt P award.item.tier award.item.position =
      .ok (award.account, award.item.bump) := by
  obtain ⟨hitem, hP⟩ := hsettles.item award haward
  have hderived := hcanonical.item _ _ hitem hP
  rw [hP] at hderived
  exact GachaRust.findProgramAddress_eq_ok.mpr hderived

/-- The SDK's plan for the head of a queue names the Items that settle it. -/
theorem Sound.plan_eq (hw : w.Sound rt) (hpool : w.ledger P = .pool pool index)
    (hpull : w.ledger k = .pull pull) (hP : pull.pool = P) (hpending : pull.status = statusPending)
    (hhead : pull.index = pool.nextSettle) (hcanonical : w.Canonical rt P k pool pull)
    (hsettles : w.Settles rt P k pool index pull items proof beta awards) :
    GachaRust.Pool.settle rt ⟨P, (w.accounts P).data⟩ ⟨k, (w.accounts k).data⟩ proof =
      .ok ⟨P, k, pull.buyer, pool.operator, proof, awards.map Award.toDraw⟩ := by
  obtain ⟨m, hm⟩ := hw.opened hpool
  obtain ⟨rest, hqueue⟩ := hm.queued.head (Ledger.banner_pulls.mpr ⟨hpull, hP⟩) hpending hhead
  have hissued : pull.inventoryVersion.toNat ≤ (pool.tags index).length := by
    rw [hm.tags_eq]
    exact hm.covered.issued _ (hqueue ▸ List.mem_cons_self)
  have hstock := hm.stock
  rw [← hm.tags_eq] at hstock
  have hselected := hsettles.selected
  generalize pool.tags index = tags at hissued hstock hselected
  obtain ⟨hload, hindex⟩ := Account.entry_eq_pool.mp hpool
  obtain ⟨-, hdecode, -, hlen⟩ := Pool.load_eq_ok.mp hload
  obtain ⟨-, hdecode', -, -⟩ := Pull.load_eq_ok.mp (Account.entry_eq_pull.mp hpull)
  generalize hsnapshot : (⟨P, (w.accounts P).data⟩ : GachaRust.Pool) = snapshot
  generalize hpurchase : (⟨k, (w.accounts k).data⟩ : GachaRust.Pull) = purchase
  have hheader : snapshot.header = pool := hsnapshot ▸ hdecode
  have hheader' : purchase.header = pull := hpurchase ▸ hdecode'
  have hsmall : (tags.take pull.inventoryVersion.toNat).length < 2 ^ 32 := by
    have := hstock.indexed.small
    rw [List.length_take]
    omega
  have hfind : ∀ d ∈ awards.map Award.draw, ∃ derived,
      GachaRust.Item.addressFor rt snapshot.address d.1 (UInt32.ofNat d.2) = .ok derived := by
    intro d hd
    obtain ⟨award, haward, rfl⟩ := List.mem_map.mp hd
    refine ⟨(award.account, award.item.bump), ?_⟩
    rw [← hsnapshot, Award.draw, UInt32.ofNat_toNat]
    exact hcanonical.addressFor hsettles haward
  -- The scan lists the candidates, and the loop draws from them.
  have hscan := @GachaRust.Pool.scan_eq snapshot tags _ hstock.tierCount hstock.tier 0
    pull.inventoryVersion.toNat (fun p hp => GachaRust.Pool.tag_eq (hsnapshot ▸ hindex)
      hstock.indexed (by omega)) (by omega)
  obtain ⟨plan, hplan, hplaces⟩ := @GachaRust.Pool.drawLoop_isOk rt snapshot
    (tags.take pull.inventoryVersion.toNat) beta (hheader ▸ hstock.tierCount) hsmall
    (fun tag hmem => hheader ▸ hstock.tier tag (List.mem_of_mem_take hmem)) _ _ _ (hheader ▸ hselected) hfind
  have hdraws : plan = awards.map Award.toDraw := by
    have hplace : plan.map GachaRust.Draw.place =
        awards.map fun award => (award.item.tier, award.item.position) := by
      rw [hplaces, List.map_map]
      exact List.map_congr_left fun award _ => Prod.ext rfl UInt32.ofNat_toNat
    have hcount := congrArg List.length hplace
    rw [List.length_map, List.length_map] at hcount
    apply List.ext_getElem (by rw [hcount, List.length_map])
    intro i hi hi'
    rw [List.getElem_map]
    have hi'' : i < awards.length := hcount ▸ hi
    have hsame : plan[i].place = (awards[i].item.tier, awards[i].item.position) := by
      have hget := congrArg (fun l => l[i]?) hplace
      simpa [hi, hi''] using hget
    -- The places determine the addresses.
    obtain ⟨bump, haddress⟩ := GachaRust.Pool.drawLoop_items hplan (List.getElem_mem hi)
    have haddress' := hcanonical.addressFor hsettles (List.getElem_mem hi'')
    generalize plan[i] = draw at hsame haddress
    obtain ⟨tier, position, item⟩ := draw
    obtain ⟨rfl, rfl⟩ := Prod.mk.inj hsame
    rw [← hsnapshot] at haddress
    obtain ⟨rfl, -⟩ := Prod.mk.inj (Except.ok.inj (haddress.symm.trans haddress'))
    rfl
  have halpha : purchase.alpha rt = rt.sha256 (k.val ++ pull.clientSeed.val) := by
    rw [GachaRust.Pull.alpha, hheader', ← hpurchase]
  have hnext : snapshot.pending purchase = .ok () := by
    unfold GachaRust.Pool.pending
    rw [failIf_neg, failIf_neg, failIf_neg, failIf_neg]
    · rfl
    · rw [hheader, hheader', UInt32.not_lt, UInt32.le_iff_toNat_le, ← hstock.version]
      exact hissued
    · rw [hheader, hheader', not_not]
      exact hhead
    · rw [GachaRust.Pull.status, hheader', if_pos hpending, not_not]
    · rw [hheader', ← hsnapshot, not_not]
      exact hP
  have hcomplete : ¬snapshot.data.length ≠ poolLen + inventorySpace pool.inventoryVersion := by
    rw [← hsnapshot, not_not]
    exact hlen
  have hpositions : GachaRust.positions pull.inventoryVersion =
      (List.range' 0 pull.inventoryVersion.toNat).map UInt32.ofNat := by
    rw [GachaRust.positions, List.range_eq_range']
  rw [List.take_zero, Nat.zero_add, candidatesOf_nil, ← hpositions] at hscan
  rw [hheader] at hplan
  unfold GachaRust.Pool.settle
  simp only [hnext, ok_bind, hheader, hheader', failIf_neg hcomplete, halpha, hsettles.proof, okOr, hscan, hplan]
  rw [← hsnapshot, ← hpurchase, hdraws]
  rfl

/-! ## Snapshots -/

theorem Sound.fetch_pool (hw : w.Sound rt) (hpool : w.ledger P = .pool pool index)
    (hcanonical : rt.findProgramAddress [poolSeed, pool.authority.val, u64.encode pool.id] programId =
      some (P, pool.bump)) :
    GachaRust.Pool.fromAccount rt P (w.accounts P).owner (w.accounts P).data = .ok ⟨P, (w.accounts P).data⟩ := by
  obtain ⟨-, hdecode, -, -⟩ := Pool.load_eq_ok.mp (Account.entry_eq_pool.mp hpool).1
  rw [GachaRust.Pool.fromAccount_eq_ok, hdecode]
  exact ⟨hw.pool_accepted hpool hcanonical, rfl⟩

theorem Sound.fetch_pull (hw : w.Sound rt) (hpull : w.ledger k = .pull pull)
    (hcanonical : rt.findProgramAddress [pullSeed, pull.pool.val, pull.clientSeed.val] programId =
      some (k, pull.bump)) :
    GachaRust.Pull.fromAccount rt k (w.accounts k).owner (w.accounts k).data = .ok ⟨k, (w.accounts k).data⟩ := by
  obtain ⟨-, hdecode, -, -⟩ := Pull.load_eq_ok.mp (Account.entry_eq_pull.mp hpull)
  rw [GachaRust.Pull.fromAccount_eq_ok, hdecode]
  exact ⟨hw.pull_accepted hpull hcanonical, rfl⟩

theorem Sound.fetch_item (hw : w.Sound rt) {item : Item} (hitem : w.ledger k = .item item)
    (hcanonical : rt.findProgramAddress [itemSeed, item.pool.val, [item.tier], u32.encode item.position]
      programId = some (k, item.bump)) :
    GachaRust.Item.fromAccount rt k (w.accounts k).owner (w.accounts k).data = .ok ⟨k, (w.accounts k).data⟩ := by
  obtain ⟨-, hdecode, -, -⟩ := Item.load_eq_ok.mp (Account.entry_eq_item.mp hitem)
  rw [GachaRust.Item.fromAccount_eq_ok, hdecode]
  exact ⟨hw.item_accepted hitem hcanonical, rfl⟩

/-- The asset that an award of the pool at `P` hands over, as the SDK sees it. -/
def prize (w : World) (P : Pubkey) (award : Award) : GachaRust.Asset where
  address := award.item.asset
  owner := P
  collection :=
    match w.ledger award.item.asset with
    | .asset c => c.collection
    | _ => none

/-- The prize of a live Item is in custody. -/
theorem Sound.fetch_prize (hw : w.Sound rt) {award : Award} (hitem : w.ledger award.account = .item award.item)
    (hP : award.item.pool = P) : w.asset award.item.asset = .ok (w.prize P award) := by
  have hslot : w.ledger.promised (.item award.account) = some (award.item.asset, award.item.pool) := by
    rw [Ledger.promised, hitem]
  obtain ⟨-, -, c, -, -, hentry, howner⟩ := hw.promised_owned hslot
  apply asset_eq_ok.mpr
  refine ⟨?_, rfl⟩
  rw [prize, hentry, ← hP, ← howner]

end World

namespace GachaRust

variable {rt : Runtime} {rpc : Rpc} {ws : ℕ → World} (h : Client.Reads rt rpc ws)

include h

/-- The client reads the first bytes of assets. -/
theorem Client.Reads.assets_eq {n : ℕ} {assets : List Asset} {minimum : Option UInt64}
    (hassets : ∀ asset ∈ assets, (ws n).asset asset.address = .ok asset)
    (hslot : ∀ slot ∈ minimum, slot ≤ (ws n).slot) :
    Client.assets rpc n (assets.map Asset.address) minimum = .ok assets := by
  unfold Client.assets
  by_cases hempty : assets = []
  · rw [hempty]
    rfl
  · have hpresent : ∀ key ∈ assets.map Asset.address, (ws n).ledger key ≠ .vacant := by
      intro key hkey
      obtain ⟨asset, hasset, rfl⟩ := List.mem_map.mp hkey
      obtain ⟨hentry, -⟩ := World.asset_eq_ok.mp (hassets asset hasset)
      rw [hentry]
      simp
    have hnonempty : (assets.map Asset.address).isEmpty ≠ true := by
      rw [List.isEmpty_iff.ne, ne_eq, List.map_eq_nil_iff]
      exact hempty
    rw [if_neg hnonempty, h.read_eq n _ minimum (some 66) hpresent hslot, ok_bind]
    have hzip : (assets.map Asset.address).zip ((assets.map Asset.address).map ((ws n).slice (some 66))) =
        assets.map fun asset => (asset.address, (ws n).slice (some 66) asset.address) := by
      rw [List.map_map]
      exact List.zip_map'
    apply mapM_eq_ok.mpr
    rw [hzip, List.map_map]
    apply List.map_congr_left
    intro asset hasset
    have hfetch := hassets asset hasset
    apply lift_eq_ok.mpr
    unfold World.asset Asset.fromAccount at hfetch
    unfold World.slice Asset.fromAccount
    dsimp only [Option.getD_some]
    rw [CoreAsset.fromAccount_take (le_refl 66)]
    exact hfetch

end GachaRust

/-! ## The call of the client -/

namespace GachaRust

/-- What a transaction must have room for: a settlement of any Pull, or one delivery. -/
structure RelaySizes (transactionSize : List Instruction → Pubkey → ℕ) (payer : Pubkey) : Prop
    extends TransactionSizes transactionSize payer where
  settlement : ∀ ix : Instruction, ix.accounts.length ≤ 15 → ix.data.length = 81 →
    transactionSize [ix] payer ≤ 1232

/-- A settlement and its deliveries, for snapshots that agree with the plan. -/
theorem Settlement.instructions_isOk {transactionSize : List Instruction → Pubkey → ℕ} {payer : Pubkey}
    (hsizes : RelaySizes transactionSize payer) (plan : Settlement) (items : List Item) (assets : List Asset)
    (hcount : plan.draws.length ≤ 10) (haddress : items.map Item.address = plan.draws.map Draw.item)
    (hlength : assets.length = items.length)
    (hprize : ∀ x ∈ items.zip assets, x.1.header.asset = x.2.address)
    (howner : ∀ asset ∈ assets, asset.owner = plan.pool) :
    ∃ groups, plan.instructions transactionSize items assets payer = .ok groups ∧ groups.flatten =
      plan.instruction :: ((items.zip assets).zipIdx.map fun x => (x.2, x.1.2)).map
        (delivery plan.pool plan.pull plan.buyer payer) := by
  have hcount' : items.length = plan.draws.length := by
    rw [← List.length_map (f := Item.address), haddress, List.length_map]
  have hchecked : ¬(items.length ≠ plan.draws.length ∨
      ∃ x ∈ items.zip plan.draws, x.1.address ≠ x.2.item) := by
    rintro (hne | ⟨x, hx, hne⟩)
    · exact hne hcount'
    · obtain ⟨i, hi, rfl⟩ := List.mem_iff_getElem.mp hx
      have hget := congrArg (fun l => l[i]?) haddress
      rw [List.length_zip] at hi
      simp only [List.getElem?_map, List.getElem?_eq_getElem (show i < items.length by omega),
        List.getElem?_eq_getElem (show i < plan.draws.length by omega), Option.map_some,
        Option.some.injEq] at hget
      rw [List.getElem_zip] at hne
      exact hne hget
  generalize hdeliveries : ((items.zip assets).zipIdx.map fun x => (x.2, x.1.2)).map
    (delivery plan.pool plan.pull plan.buyer payer) = deliveries
  have hcollect : collect ((items.zip assets).zipIdx.map fun x => (do
      failIf (x.1.1.header.asset ≠ x.1.2.address) Error.invalidAsset
      deliver plan.pool plan.pull plan.buyer x.1.2 (UInt8.ofNat x.2) payer : Except Fault Instruction)) =
        .ok deliveries := by
    rw [collect_eq_ok, ← hdeliveries, List.map_map, List.map_map]
    apply List.map_congr_left
    intro x hx
    have hmem : x.1 ∈ items.zip assets :=
      List.mem_of_getElem? (List.mem_zipIdx_iff_getElem?.mp hx)
    have hasset : x.1.2 ∈ assets := (List.of_mem_zip hmem).2
    rw [failIf_neg (not_not.mpr (hprize _ hmem)), ok_bind]
    exact deliver_eq_ok.mpr ⟨howner _ hasset, rfl⟩
  -- Each instruction fits a transaction of its own.
  have hsettlement : transactionSize [plan.instruction] payer ≤ 1232 := by
    apply hsizes.settlement
    · simp only [Settlement.instruction, GachaRust.instruction, List.length_append, List.length_map,
        List.length_cons, List.length_nil]
      omega
    · simp only [Settlement.instruction, GachaRust.instruction, List.length_cons, FixedBytes.length_val]
  obtain ⟨hlarge, -⟩ | ⟨-, groups, hgroups, hbatched⟩ := batchesOf_eq Fault.panicked
    (Fault.error .transactionTooLarge) hsizes.monotonic [plan.instruction] deliveries
  · rcases hlarge with hlarge | ⟨ix, hmem, hlarge⟩
    · exact absurd hlarge (Nat.not_lt.mpr hsettlement)
    · obtain ⟨x, -, rfl⟩ := List.mem_map.mp (hdeliveries ▸ hmem)
      exact absurd hlarge (Nat.not_lt.mpr (hsizes.small _ rfl rfl))
  · refine ⟨groups, ?_, hbatched.flatten⟩
    unfold instructions
    rw [failIf_neg hchecked, ok_bind, failIf_neg (not_not.mpr hlength), ok_bind, hcollect, ok_bind]
    exact hgroups

end GachaRust

namespace World

variable {rt : Runtime} {rpc : GachaRust.Rpc} {ws : ℕ → World} {v : World} {P k : Pubkey} {pool : Pool}
  {index : List UInt8} {pull : Pull}

/-- What a relayer starts from: a purchase that it discovers, and finds to be the oldest one of its pool when it
reads both accounts. -/
structure Relaying (rt : Runtime) (rpc : GachaRust.Rpc) (ws : ℕ → World) (P k : Pubkey) (pool : Pool)
    (index : List UInt8) (pull : Pull) : Prop where
  reads : GachaRust.Client.Reads rt rpc ws
  reached : (ws 0).Reached rt
  discovered : (ws 0).ledger k = .pull pull
  loaded : (ws 1).ledger P = .pool pool index
  loadedPull : (ws 1).ledger k = .pull pull
  samePool : pull.pool = P
  pending : pull.status = statusPending
  head : pull.index = pool.nextSettle
  canonical : (ws 1).Canonical rt P k pool pull

namespace Relaying

variable (hrt : rt.Lawful) (h : Relaying rt rpc ws P k pool index pull)

include hrt h

theorem sound (n : ℕ) : (ws n).Sound rt := by
  obtain ⟨-, trace, hrun⟩ := h.reads.run_le (Nat.zero_le n)
  exact (h.reached.sound hrt).of_run hrt hrun

/-- The snapshot of both accounts. -/
theorem snapshot_eq : GachaRust.Client.snapshot rt rpc k true =
    .ok (⟨P, ((ws 1).accounts P).data⟩, ⟨k, ((ws 1).accounts k).data⟩, (ws 1).slot) := by
  have hdiscover := h.reads.read_eq 0 [k] none none
    (by simp [h.discovered]) (by simp)
  have hread := h.reads.read_eq 1 [P, k] (some (ws 0).slot) none
    (by simp [h.loaded, h.loadedPull]) (by simpa using h.reads.clock 0)
  have hfetch := (h.sound hrt 0).fetch_pull h.discovered h.canonical.pull
  have hpool := (h.sound hrt 1).fetch_pool h.loaded h.canonical.pool
  have hpull := (h.sound hrt 1).fetch_pull h.loadedPull h.canonical.pull
  obtain ⟨-, hdecode, -, -⟩ := Pull.load_eq_ok.mp (Account.entry_eq_pull.mp h.discovered)
  have hheader : GachaRust.Pull.header ⟨k, ((ws 0).accounts k).data⟩ = pull := hdecode
  unfold GachaRust.Client.snapshot
  simp only [hdiscover, ok_bind, GachaRust.Client.nth, okOr, List.map_cons, List.map_nil, List.getElem?_cons_zero,
    List.getElem?_cons_succ, World.slice_none, hfetch, GachaRust.lift, hheader, h.samePool, if_true, hread,
    failIf_neg (show ¬(true = false ∧ _) from fun hx => Bool.noConfusion hx.1), hpool, hpull]
  rfl

/-- What the head is settled with stays while it waits. -/
theorem stays {trace : List (World × Event)} (hrun : Run (Step rt) (ws 3) trace v)
    (hwaits : v.ledger k = .pull pull) {n : ℕ} (hle : 1 ≤ n) (hle' : n ≤ 3) : ∃ pool' index',
      (ws n).ledger P = .pool pool' index' ∧
      ((ws 1).ledger.banner P).Keeps pool index k pull ((ws n).ledger.banner P) pool' index' := by
  obtain ⟨-, before, hbefore⟩ := h.reads.run_le hle
  obtain ⟨-, after, hafter⟩ := h.reads.run_le hle'
  obtain ⟨pool', index', hpool', -, hkeeps⟩ := (h.sound hrt 1).keeps_between hrt hbefore
    (hafter.append hrun) h.loaded h.loadedPull h.samePool h.pending h.head hwaits
  exact ⟨pool', index', hpool', hkeeps⟩

/-- The call of the client: the plan of the first snapshot, with a delivery for each of its Items. -/
theorem settle_eq {transactionSize : List GachaRust.Instruction → Pubkey → ℕ} {payer : Pubkey}
    (hsizes : GachaRust.RelaySizes transactionSize payer) {trace : List (World × Event)}
    (hrun : Run (Step rt) (ws 3) trace v) (hwaits : v.ledger k = .pull pull) {items : List AccountInfo}
    {proof : FixedBytes 80} {beta : FixedBytes 64} {awards : List Award}
    (hsettles : (ws 1).Settles rt P k pool index pull items proof beta awards) :
    ∃ groups, GachaRust.Client.settle rt transactionSize rpc k proof payer = .ok groups ∧
      groups.flatten = (GachaRust.Settlement.instruction
          ⟨P, k, pull.buyer, pool.operator, proof, awards.map Award.toDraw⟩) ::
        (awards.zipIdx.map fun x => (x.2, (ws 3).prize P x.1)).map (GachaRust.delivery P k pull.buyer payer) := by
  have hplan := (h.sound hrt 1).plan_eq h.loaded h.loadedPull h.samePool h.pending h.head h.canonical hsettles
  obtain ⟨pool₂, index₂, -, hkeeps₂⟩ := h.stays hrt hrun hwaits (n := 2) (by decide) (by decide)
  obtain ⟨pool₃, index₃, -, hkeeps₃⟩ := h.stays hrt hrun hwaits (n := 3) (by decide) (by decide)
  have hitem₂ := (hsettles.of_keeps hkeeps₂).item
  have hitem₃ := (hsettles.of_keeps hkeeps₃).item
  -- The Items, read at once.
  generalize hsnapshots : (awards.map fun award =>
    (⟨award.account, ((ws 2).accounts award.account).data⟩ : GachaRust.Item)) = snapshots
  have hread : GachaRust.Client.read rpc 2 ((awards.map Award.toDraw).map GachaRust.Draw.item)
      (some (ws 1).slot) none = .ok ((ws 2).slot,
        ((awards.map Award.toDraw).map GachaRust.Draw.item).map ((ws 2).slice none)) := by
    apply h.reads.read_eq 2
    · intro key hkey
      rw [List.map_map] at hkey
      obtain ⟨award, haward, rfl⟩ := List.mem_map.mp hkey
      show (ws 2).ledger award.account ≠ .vacant
      rw [(hitem₂ award haward).1]
      simp
    · simpa using h.reads.clock 1
  have hfetch : (((awards.map Award.toDraw).map GachaRust.Draw.item).zip
      (((awards.map Award.toDraw).map GachaRust.Draw.item).map ((ws 2).slice none))).mapM
        (fun x => GachaRust.lift (GachaRust.Item.fromAccount rt x.1 x.2.1 x.2.2)) =
          .ok (ε := GachaRust.RpcError) snapshots := by
    apply mapM_eq_ok.mpr
    rw [← hsnapshots, List.map_map, List.map_map, List.zip_map', List.map_map, List.map_map]
    apply List.map_congr_left
    intro award haward
    obtain ⟨hitem, hP⟩ := hitem₂ award haward
    apply GachaRust.lift_eq_ok.mpr
    show GachaRust.Item.fromAccount rt award.account ((ws 2).slice none award.account).1
      ((ws 2).slice none award.account).2 = _
    rw [slice_none]
    exact (h.sound hrt 2).fetch_item hitem
      (h.canonical.item _ _ (hsettles.item award haward).1 hP)
  -- The assets that the Items name.
  have hassets : GachaRust.Client.assets rpc 3 (snapshots.map fun item => item.header.asset)
      (some (ws 2).slot) = .ok (awards.map ((ws 3).prize P)) := by
    have hkeys : (snapshots.map fun item => item.header.asset) =
        (awards.map ((ws 3).prize P)).map GachaRust.Asset.address := by
      rw [← hsnapshots, List.map_map, List.map_map]
      apply List.map_congr_left
      intro award haward
      obtain ⟨-, hdecode, -, -⟩ := Item.load_eq_ok.mp (Account.entry_eq_item.mp (hitem₂ award haward).1)
      show (Item.layout.decode ((ws 2).accounts award.account).data).asset = award.item.asset
      rw [hdecode]
    rw [hkeys]
    apply h.reads.assets_eq
    · intro asset hasset
      obtain ⟨award, haward, rfl⟩ := List.mem_map.mp hasset
      obtain ⟨hitem, hP⟩ := hitem₃ award haward
      exact (h.sound hrt 3).fetch_prize hitem hP
    · simpa using h.reads.clock 2
  -- Each prize is delivered from the pool.
  have hzip : snapshots.zip (awards.map ((ws 3).prize P)) = awards.map fun award =>
      (⟨award.account, ((ws 2).accounts award.account).data⟩, (ws 3).prize P award) := by
    rw [← hsnapshots]
    exact List.zip_map'
  obtain ⟨groups, hgroups, hflatten⟩ := GachaRust.Settlement.instructions_isOk hsizes
    ⟨P, k, pull.buyer, pool.operator, proof, awards.map Award.toDraw⟩ snapshots (awards.map ((ws 3).prize P))
    (by
      obtain ⟨hlength, -, -⟩ := Runtime.selections_spec hsettles.selected
      rw [List.length_map] at hlength ⊢
      rw [hlength]
      exact ((h.sound hrt 1).pull_valid h.loadedPull).count.2)
    (by
      rw [← hsnapshots, List.map_map, List.map_map]
      rfl)
    (by rw [← hsnapshots, List.length_map, List.length_map])
    (fun x hx => by
      rw [hzip] at hx
      obtain ⟨award, haward, rfl⟩ := List.mem_map.mp hx
      obtain ⟨-, hdecode, -, -⟩ := Item.load_eq_ok.mp (Account.entry_eq_item.mp (hitem₂ award haward).1)
      show (Item.layout.decode ((ws 2).accounts award.account).data).asset = award.item.asset
      rw [hdecode])
    (fun asset hasset => by
      obtain ⟨award, -, rfl⟩ := List.mem_map.mp hasset
      rfl)
  refine ⟨groups, ?_, ?_⟩
  · unfold GachaRust.Client.settle
    rw [h.snapshot_eq hrt, ok_bind]
    dsimp only
    rw [hplan, GachaRust.lift, ok_bind, hread, ok_bind]
    dsimp only
    rw [hfetch, ok_bind, hassets, ok_bind]
    exact GachaRust.lift_eq_ok.mpr hgroups
  · rw [hflatten, ← hsnapshots, zipIdx_map_zip_map]

end Relaying

end World

/-- Every address of the runtime is the first one of its seeds. -/
theorem Localnet.findProgramAddress_eq {net : Localnet} (h : net.addresses.all (fun x => decide
    (net.runtime.findProgramAddress x.1.1.dropLast x.1.2 = (x.1.1.getLast?.bind List.head?).map (x.2, ·))) =
      true) {seeds : List (List UInt8)} {bump : UInt8} {program key : Pubkey}
    (hkey : net.runtime.createProgramAddress (seeds ++ [[bump]]) program = some key) :
    net.runtime.findProgramAddress seeds program = some (key, bump) := by
  have hfound := of_decide_eq_true (List.all_eq_true.mp h _ (net.mem_addresses hkey))
  simpa using hfound

end SolanaGacha
