import SolanaGacha.Index.Refinement
import SolanaGacha.System.Custody
import SolanaGacha.System.Isolation
import SolanaGacha.System.Stock

/-!
# Retirement

Once a pool is retired and no purchase waits, its Items are its unsold stock and nothing is added to it.
Each Item can be reclaimed at any time, whatever else happens (`World.Sound.reclaim_isOk`), a run removes
the Items that it reclaims and no others (`World.Sound.retired_run`), and when none is left the index is
empty (`World.Reached.retires`).
-/

namespace SolanaGacha

open Except Layout Inventory

/-! ## The authority -/

/-- A call on a pool finds it, unless it creates it. -/
theorem Call.Effect.loaded {rt : Runtime} {slot : UInt64} {time : Int64} {L L' : Ledger} {call : Call}
    (h : call.Effect rt slot time L L') {P : Pubkey} (hP : call.pool = some P) :
    (∃ a d, call = .createPool a d) ∨ ∃ pool index, L P = .pool pool index := by
  cases call with
  | createPool a d => exact .inl ⟨a, d, rfl⟩
  | event => cases hP
  | depositItem a d =>
    obtain rfl := Option.some.inj hP
    obtain ⟨pool, index, h⟩ := h
    exact .inr ⟨pool, index, h.restocks.loaded⟩
  | withdraw a d =>
    obtain rfl := Option.some.inj hP
    obtain ⟨pool, index, h⟩ := h
    exact .inr ⟨pool, index, h.loaded⟩
  | setStatus a d =>
    obtain rfl := Option.some.inj hP
    obtain ⟨pool, index, h⟩ := h
    exact .inr ⟨pool, index, h.loaded⟩
  | reclaim a =>
    obtain rfl := Option.some.inj hP
    obtain ⟨pool, index, item, h⟩ := h
    exact .inr ⟨pool, index, h.loaded⟩
  | buy a d =>
    obtain rfl := Option.some.inj hP
    obtain ⟨pool, index, pull, h⟩ := h
    exact .inr ⟨pool, index, h.loaded⟩
  | refund a =>
    obtain rfl := Option.some.inj hP
    obtain ⟨pool, index, pull, h⟩ := h
    exact .inr ⟨pool, index, h.loaded⟩
  | buyback a d =>
    obtain rfl := Option.some.inj hP
    obtain ⟨pool, index, h⟩ := h
    obtain ⟨M, hr, -⟩ := h.ledger
    exact .inr ⟨pool, index, hr.loaded⟩
  | settle a d =>
    obtain rfl := Option.some.inj hP
    obtain ⟨pool, index, pull, beta, awards, h⟩ := h
    exact .inr ⟨pool, index, h.loaded⟩
  | deliver a d =>
    obtain rfl := Option.some.inj hP
    obtain ⟨pool, index, pull, outcome, h⟩ := h
    exact .inr ⟨pool, index, h.loaded⟩

namespace World

variable {rt : Runtime} (hrt : rt.Lawful) {w w' : World}

include hrt in
/-- Every pool was created with the signature of its authority. -/
theorem Step.authority (h : w.Sound rt) {call : Call} (hstep : Step rt w (.call call) w') {P : Pubkey}
    {pool' : Pool} {index' : List UInt8} (hnew : ∀ pool index, w.ledger P ≠ .pool pool index)
    (hpool' : w'.ledger P = .pool pool' index') : ¬rt.IsPda pool'.authority := by
  obtain ⟨-, heffect, -⟩ := hstep.effect hrt h
  have hnamed : call.pool = some P := by
    by_contra hother
    have hsame := (Call.Effect.sameBooks heffect hother).pool
    rw [Ledger.banner_pool.mpr hpool'] at hsame
    exact hnew _ _ (Ledger.banner_pool.mp hsame.symm)
  rcases Call.Effect.loaded heffect hnamed with ⟨a, d, rfl⟩ | ⟨pool, index, hpool⟩
  · obtain rfl := Option.some.inj hnamed
    have hledger := CreatePool.Effect.ledger heffect
    rw [hledger, Function.update_self] at hpool'
    obtain ⟨rfl, -⟩ := Entry.pool.inj hpool'
    cases hstep with
    | call signers parse process =>
      have ha := (Instruction.parse_checked parse).1
      unfold CreatePoolAccounts.tryFrom at ha
      split at ha
      · rename_i haccounts
        simp only [bind_eq_ok, failIf_eq_ok, pure_eq_ok, not_not] at ha
        obtain ⟨_, hsigner, _, -, _, -, rfl⟩ := ha
        exact signers _ (by rw [haccounts]; simp) hsigner
      · cases ha
  · exact absurd hpool (hnew pool index)

/-- The seeds of a pool name its authority. -/
theorem Pool.authority_of_signerSeeds {pool pool' : Pool} (h : pool'.signerSeeds = pool.signerSeeds) :
    pool'.authority = pool.authority := by
  unfold Pool.signerSeeds Pool.seeds at h
  simp only [List.cons.injEq] at h
  exact Subtype.ext h.2.1

include hrt in
/-- The authority of a pool is the holder of a key. -/
theorem Reached.authority (hw : w.Reached rt) {P : Pubkey} {pool : Pool} {index : List UInt8}
    (hpool : w.ledger P = .pool pool index) : ¬rt.IsPda pool.authority := by
  refine Reachable.induct (P := fun w => ∀ pool index, w.ledger P = .pool pool index →
    ¬rt.IsPda pool.authority) (fun w h pool index hpool => ?_)
    (fun w event w' hw h hstep pool' index' hpool' => ?_) hw pool index hpool
  · have hforeign := h.foreign P
    rw [hpool] at hforeign
    exact hforeign.elim
  · have hsound := Reached.sound hrt hw
    by_cases hold : ∃ pool index, w.ledger P = .pool pool index
    · obtain ⟨pool, index, hpool⟩ := hold
      obtain ⟨pool₁, index₁, hpool₁, hlater⟩ :=
        (hstep.banner hrt hsound P).later (Ledger.banner_pool.mpr hpool)
      obtain ⟨rfl, rfl⟩ := Entry.pool.inj ((Ledger.banner_pool.mp hpool₁).symm.trans hpool')
      rw [Pool.authority_of_signerSeeds hlater.terms.signerSeeds]
      exact h pool index hpool
    · have hnew : ∀ pool index, w.ledger P ≠ .pool pool index := fun pool index heq =>
        hold ⟨pool, index, heq⟩
      cases event with
      | call call => exact hstep.authority hrt hsound hnew hpool'
      | external =>
        cases hstep with
        | external hexternal =>
          have hbooks := (Ledger.sameBooks hexternal.eq_or_foreign P).pool
          rw [Ledger.banner_pool.mpr hpool'] at hbooks
          exact absurd (Ledger.banner_pool.mp hbooks.symm) (hnew _ _)

end World

/-! ## One reclaim -/

/-- The instruction that reclaims an Item's asset. Only the authority signs it. -/
def Reclaim.instruction (authority pool item asset collection : Pubkey) : Instruction where
  accounts := [⟨authority, true, true⟩, ⟨pool, false, true⟩, ⟨item, false, true⟩, ⟨asset, false, true⟩,
    ⟨collection, false, false⟩, ⟨coreId, false, false⟩, ⟨systemId, false, false⟩,
    ⟨eventAuthority, false, false⟩, ⟨programId, false, false⟩]
  data := [4]

/-- What the handler makes of its accounts. -/
def Reclaim.accounts (authority pool item asset collection : Pubkey) : ReclaimAccounts where
  authority := ⟨authority, true, true⟩
  pool := ⟨pool, false, true⟩
  item := ⟨item, false, true⟩
  asset := ⟨asset, false, true⟩
  collection := ⟨collection, false, false⟩
  coreProgram := ⟨coreId, false, false⟩
  systemProgram := ⟨systemId, false, false⟩
  eventAuthority := ⟨eventAuthority, false, false⟩
  program := ⟨programId, false, false⟩

/-- What a reclaim of an Item does to its pool: it removes the position, the Item and one unit of the tier,
and returns the asset. -/
structure Reclaimed (L L' : Ledger) (P key : Pubkey) (item : Item) (pool : Pool) (index : List UInt8) :
    Prop where
  header : ∃ tiers index', L' P = .pool { pool with tiers } index' ∧
    (∀ p, tagAt index' p = if p = item.position.toNat then 0 else tagAt index p) ∧
    ∀ t (_ : t < 8), tiers[t].weight = pool.tiers[t].weight ∧ pool.tiers[t].remaining.toNat =
      tiers[t].remaining.toNat + if t = item.tier.toNat then 1 else 0
  closed : L' key = .vacant
  asset : ∃ c, L item.asset = .asset c ∧ c.owner = P ∧
    L' item.asset = .asset { c with owner := pool.authority }
  others : ∀ k, k ≠ P → k ≠ key → k ≠ item.asset → L' k = L k

theorem Reclaim.Effect.reclaimed {a : ReclaimAccounts} {pool : Pool} {index : List UInt8} {item : Item}
    {L L' : Ledger} (h : Reclaim.Effect a pool index item L L') (htier : item.tier.toNat < 8)
    (hstock : Stock pool index (pool.tags index)) :
    Reclaimed L L' a.pool.key a.item.key item pool index := by
  obtain ⟨tiers, index', c, hweights, hstock', hasset, howner, rfl⟩ := h.ledger
  have h1 := Ledger.ne_of_entry h.loaded hasset (by simp)
  have h2 := Ledger.ne_of_entry h.loadedItem hasset (by simp)
  have h3 := Ledger.ne_of_entry h.loadedItem h.loaded (by simp)
  rw [← h.sameAsset] at h1 h2 hasset ⊢
  refine ⟨⟨tiers, index', ?_, fun p => ?_, fun t ht => ⟨?_, ?_⟩⟩, Function.update_self _ _ _,
    ⟨c, hasset, howner, ?_⟩, fun k hP hkey hk => ?_⟩
  · rw [Function.update_of_ne h3.symm, Function.update_of_ne h1, Function.update_self]
  · rw [hstock'.indexed.tag, hstock.indexed.tag, Market.getD_set_zero]
  · have hget := congrArg (fun v : Vector UInt32 8 => v[t]) hweights
    simpa using hget
  · have hbefore := hstock.remaining t ht
    have hafter : tiers[t].remaining.toNat = _ := hstock'.remaining t ht
    rw [count_set_zero htier ht h.live] at hafter
    have hpos : item.tier.toNat = t → 0 < (pool.tags index).count (tierTag t) := by
      rintro rfl
      exact count_pos_of_live htier h.live
    split_ifs at hafter ⊢ <;> grind
  · rw [Function.update_of_ne h2.symm, Function.update_self, h.authority]
  · rw [Function.update_of_ne hkey, Function.update_of_ne hk, Function.update_of_ne hP]

/-- A tier with stock left is not empty. -/
theorem Stock.noneRemaining_eq {pool : Pool} {index tags : List UInt8} (h : Stock pool index tags)
    {tier : UInt8} {p : ℕ} (htier : tier.toNat < pool.tierCount.toNat) (hlive : Live tags tier.toNat p) :
    pool.noneRemaining tier = .ok false := by
  have hcount := h.tierCount
  have ht8 : tier.toNat < 8 := by omega
  have hslice : pool.tierSlice = .ok _ := Pool.tierSlice_eq_ok.mpr ⟨hcount, rfl⟩
  have hget : (pool.tiers.toList.take pool.tierCount.toNat)[tier.toNat]? = some pool.tiers[tier.toNat] := by
    rw [List.getElem?_take, if_pos htier, Vector.getElem?_toList, Vector.getElem?_eq_getElem ht8]
  have hleft := h.remaining tier.toNat ht8
  have hpos := count_pos_of_live ht8 hlive
  unfold Pool.noneRemaining
  rw [hslice, ok_bind, hget]
  refine congrArg Except.ok (decide_eq_false fun hzero => ?_)
  rw [hzero] at hleft
  exact hpos.ne hleft

namespace World

variable {rt : Runtime} (hrt : rt.Lawful) {w w' : World}

include hrt in
/-- A reclaim of an Item succeeds when the pool is retired and no draws are pending. -/
theorem Sound.reclaim_isOk (hw : w.Sound rt) (hassets : rt.TransfersAssets) (hlamports : rt.Conserves)
    (hbacked : w.Backed) {P key : Pubkey} {pool : Pool} {index : List UInt8} {item : Item} {c : CoreAsset}
    (hpool : w.ledger P = .pool pool index) (hauthority : ¬rt.IsPda pool.authority)
    (hretired : pool.status = poolRetired) (hsettled : pool.pendingDraws = 0)
    (hitem : w.ledger key = .item item) (hP : item.pool = P) (hasset : w.ledger item.asset = .asset c)
    (howner : c.owner = P) :
    ∃ w', processInstruction rt w (Reclaim.instruction pool.authority P key item.asset
        (c.collection.getD coreId)) = .ok w' ∧
      Step rt w (.call (.reclaim (Reclaim.accounts pool.authority P key item.asset
        (c.collection.getD coreId)))) w' := by
  obtain ⟨m, hm⟩ := hw.opened hpool
  have hbanner := Ledger.banner_items.mpr ⟨hitem, hP⟩
  obtain ⟨-, ht8, hlive, hderived⟩ := hm.shelved.item hbanner
  obtain ⟨hposition, htier⟩ := hm.item_bounds hitem hP
  have htier' := UInt8.lt_iff_toNat_lt.mp htier
  have hload := (Account.entry_eq_pool.mp hpool).1
  have hload' := Account.entry_eq_item.mp hitem
  have hinventory := Inventory.load_of_entry hpool
  have hkey : pool.authority ≠ key := fun heq => hauthority (heq ▸ ⟨_, hderived⟩)
  have haccounts : ReclaimAccounts.tryFrom w
      (Reclaim.instruction pool.authority P key item.asset (c.collection.getD coreId)).accounts =
        .ok (Reclaim.accounts pool.authority P key item.asset (c.collection.getD coreId)) := by
    simp [ReclaimAccounts.tryFrom, Reclaim.instruction, Reclaim.accounts, World.account, hload, hload',
      hretired, hsettled, hP, UInt8.not_le.mpr htier, UInt32.not_le.mpr hposition,
      hm.stock.noneRemaining_eq htier' hlive, failIf]
  -- The position and the unit of its tier are removed.
  obtain ⟨data, hremove, hindexed⟩ := remove_run hm.stock.indexed ht8 hlive
  have hrun : (Inventory.remove item.position item.tier).run ⟨index⟩ = .ok ((), ⟨data⟩) :=
    InventoryM.run_eq_ok.mpr hremove
  have hone : 1 ≤ pool.tiers[item.tier.toNat].remaining.toNat := by
    rw [hm.stock.remaining item.tier.toNat ht8]
    exact count_pos_of_live ht8 hlive
  obtain ⟨left, hleft⟩ := UInt32.checkedSub_isSome (b := 1) hone
  obtain ⟨pool', hcounter⟩ := Pool.updateRemaining_isOk hm.stock.tierCount htier' ht8 (f := (·.checkedSub 1)) hleft
  obtain ⟨tiers, hheader, -⟩ := Pool.updateRemaining_frame hcounter
  have hlength := (Inventory.keepsLength_remove _ _).run hrun
  -- The asset is returned with the signature of the pool.
  have hstored := World.ledger_store_both pool' hpool (by rw [hheader]) (by rw [hheader]) hlength
  generalize hw₁ : (w.store Pool.layout P pool').storeInventory P ⟨data⟩ = w₁ at hstored
  have hbacked₁ : w₁.Backed := hw₁ ▸ (hbacked.store _ _).storeInventory _
  have hasset₁ : w₁.ledger item.asset = .asset c := by
    rw [hstored, Function.update_of_ne (Ledger.ne_of_entry hasset hpool (by simp)), hasset]
  have hseeds : rt.createProgramAddress pool'.signerSeeds programId = some P := by
    rw [hheader]
    exact hm.valid.derived
  obtain ⟨w₂, htransfer⟩ := Runtime.transferAsset_isOk hassets (t := ⟨⟨pool.authority, true, true⟩,
    ⟨P, false, true⟩, ⟨pool.authority, true, true⟩, ⟨item.asset, false, true⟩,
    ⟨c.collection.getD coreId, false, false⟩, ⟨coreId, false, false⟩, ⟨systemId, false, false⟩⟩)
    hseeds hasset₁ howner rfl ⟨rfl, rfl⟩ rfl
  have hbacked₂ := Runtime.transferAsset_backed hlamports htransfer hbacked₁
  obtain ⟨accounts, hclose⟩ := close_isOk w₂.accounts key pool.authority
    (Accounts.Backed.pair hbacked₂ hkey)
  have hparse : Instruction.parse w (Reclaim.instruction pool.authority P key item.asset
      (c.collection.getD coreId)) = .ok (.reclaim (Reclaim.accounts pool.authority P key item.asset
        (c.collection.getD coreId))) := by
    unfold Instruction.parse
    rw [haccounts]
    rfl
  have hprocess : processInstruction rt w (Reclaim.instruction pool.authority P key item.asset
      (c.collection.getD coreId)) = rt.emit { w₂ with accounts } 70 4
        [P.val, item.asset.val, u32.encode item.position] ⟨eventAuthority, false, false⟩
        ⟨programId, false, false⟩ := by
    rw [processInstruction_eq, hparse, ok_bind]
    simp [Call.process, Reclaim.process, Reclaim.accounts, World.account, hload, hload', hinventory, hrun,
      hcounter, hw₁, htransfer, hclose]
  have hdone := hprocess.trans (Runtime.emit_eq hrt 4 (by simp [FixedBytes.length_val]) rfl rfl)
  exact ⟨_, hdone, .call (by simpa [Reclaim.instruction] using hauthority) hparse hdone⟩

end World

/-! ## An empty index -/

/-- No tag, no node and no counter of a pool counts anything. -/
structure Pool.Emptied (pool : Pool) (index : List UInt8) : Prop where
  tag : ∀ p, tagAt index p = 0
  count : ∀ node tier, 0 < node → node ≤ (Inventory.mk index).blocks → tier < 8 →
    Inventory.count ⟨index⟩ node tier = .ok 0
  remaining : ∀ t (_ : t < 8), pool.tiers[t].remaining = 0

/-- A pool without Items counts nothing. -/
theorem Banner.Opened.emptied {rt : Runtime} {P : Pubkey} {S : Banner} {pool : Pool} {index : List UInt8}
    {m : Market UInt8 Ticket} (h : S.Opened rt P pool index m) (hitems : ∀ k, S.items k = none) :
    pool.Emptied index := by
  have hzero : ∀ p, m.stock.getD p 0 = 0 := by
    intro p
    by_contra hne
    obtain ⟨k, item, hk, -⟩ := h.shelved.stocked hne
    simp [hitems] at hk
  have hmem : ∀ tag ∈ m.stock, tag = 0 := by
    intro tag htag
    obtain ⟨p, hp, rfl⟩ := List.mem_iff_getElem.mp htag
    rw [← List.getD_eq_getElem _ 0 hp, hzero]
  have hcount : ∀ {tags : List UInt8} {t : ℕ}, (∀ tag ∈ tags, tag ∈ m.stock) → t < 8 →
      tags.count (tierTag t) = 0 := fun hsub ht => List.count_eq_zero.mpr fun htag =>
    tierTag_ne_zero ht (hmem _ (hsub _ htag))
  constructor
  · intro p
    rw [h.stock.indexed.tag, hzero]
  · intro node tier hnode hle htier
    have hlen := h.stock.indexed.length
    have hblocks : (Inventory.mk index).blocks = (m.stock.length + 63) / 64 := by
      show index.length / 96 = _
      omega
    rw [hblocks] at hle
    rw [count_eq_ok hnode (by omega) htier]
    refine congrArg Except.ok (UInt32.toNat_inj.mp ?_)
    rw [IndexOp.nodeAt_eq_count h.stock.indexed hnode hle htier]
    exact hcount (fun tag htag => List.mem_of_mem_take (List.mem_of_mem_drop htag)) htier
  · intro t ht
    refine UInt32.toNat_inj.mp ((h.stock.remaining t ht).trans ?_)
    exact hcount (fun tag htag => htag) ht

/-! ## Runs of a retired pool -/

/-- The calls that add to the stock or to the queue of a pool. -/
def Call.admits : Call → Bool
  | .depositItem _ _ => true
  | .buy _ _ => true
  | .buyback _ _ => true
  | _ => false

/-- A retired pool admits nothing. -/
theorem Call.Effect.not_admits {rt : Runtime} {slot : UInt64} {time : Int64} {L L' : Ledger} {call : Call}
    (h : call.Effect rt slot time L L') {P : Pubkey} {pool : Pool} {index : List UInt8}
    (hpool : L P = .pool pool index) (hretired : pool.status = poolRetired) (hP : call.pool = some P) :
    call.admits = false := by
  cases call with
  | depositItem a d =>
    obtain rfl := Option.some.inj hP
    obtain ⟨pool', index', h⟩ := h
    obtain ⟨rfl, -⟩ := Entry.pool.inj (hpool.symm.trans h.restocks.loaded)
    exact absurd hretired h.status
  | buy a d =>
    obtain rfl := Option.some.inj hP
    obtain ⟨pool', index', pull, h⟩ := h
    obtain ⟨rfl, -⟩ := Entry.pool.inj (hpool.symm.trans h.loaded)
    exact absurd (h.active.symm.trans hretired) (by decide)
  | buyback a d =>
    obtain rfl := Option.some.inj hP
    obtain ⟨pool', index', h⟩ := h
    obtain ⟨M, hr, -⟩ := h.ledger
    obtain ⟨rfl, -⟩ := Entry.pool.inj (hpool.symm.trans hr.loaded)
    exact absurd (h.active.symm.trans hretired) (by decide)
  | _ => rfl

/-- The Item that an event reclaims from the pool at `P`. -/
def Event.reclaims (P : Pubkey) : Event → Option Pubkey
  | .call (.reclaim a) => if a.pool.key = P then some a.item.key else none
  | _ => none

/-- The Items that a run reclaims from the pool at `P`, in its order. -/
def World.reclaimed (P : Pubkey) (trace : List (World × Event)) : List Pubkey :=
  trace.filterMap fun x => x.2.reclaims P

namespace Event

variable {w : World} {P : Pubkey} {event : Event}

/-- The move of an event that admits nothing to the pool at `P`. -/
theorem move_of_not_admits (h : ∀ call, event = .call call → call.pool = some P → call.admits = false) :
    (∀ tag, event.move w P ≠ .restock tag) ∧ ∀ ticket, event.move w P ≠ .reserve ticket := by
  cases event with
  | external => exact ⟨fun tag heq => (nomatch heq), fun ticket heq => (nomatch heq)⟩
  | call call =>
    cases call with
    | depositItem a d =>
      have hne : a.pool.key ≠ P := fun heq => absurd (h _ rfl (congrArg some heq)) (by simp [Call.admits])
      simp [move, Call.move, hne]
    | buyback a d =>
      have hne : a.pool.key ≠ P := fun heq => absurd (h _ rfl (congrArg some heq)) (by simp [Call.admits])
      simp [move, Call.move, hne]
    | buy a d =>
      have hne : a.pool.key ≠ P := fun heq => absurd (h _ rfl (congrArg some heq)) (by simp [Call.admits])
      simp [move, Call.move, hne]
    | _ =>
      simp only [move, Call.move]
      try split_ifs
      all_goals simp

/-- An event that reclaims an Item withdraws its position. -/
theorem move_of_reclaims {key : Pubkey} (h : event.reclaims P = some key) :
    event.move w P = .withdraw (w.ledger.position key) := by
  cases event with
  | external => cases h
  | call call =>
    cases call with
    | reclaim a =>
      simp only [reclaims] at h
      split_ifs at h with hP
      obtain rfl := Option.some.inj h
      exact if_pos hP
    | _ => cases h

/-- Only a reclaim withdraws a position. -/
theorem reclaims_of_move {p : ℕ} (h : event.move w P = .withdraw p) :
    ∃ a, event = .call (.reclaim a) ∧ a.pool.key = P ∧ event.reclaims P = some a.item.key ∧
      p = w.ledger.position a.item.key := by
  cases event with
  | external => cases h
  | call call =>
    cases call with
    | reclaim a =>
      simp only [move, Call.move] at h
      split_ifs at h with hP
      exact ⟨a, rfl, hP, if_pos hP, (Market.Move.withdraw.inj h).symm⟩
    | _ =>
      simp only [move, Call.move] at h
      try split_ifs at h
      all_goals cases h

end Event

/-- A step of a retired pool without pending draws: nothing is added, and no purchase is settled. -/
theorem Banner.Step.retired {rt : Runtime} {slot : UInt64} {P : Pubkey} {S S' : Banner}
    {move : Market.Move UInt8 Ticket} {pool : Pool} {index : List UInt8} {m : Market UInt8 Ticket}
    (hstep : Step rt slot P S move S') (hopen : S.Opened rt P pool index m)
    (hretired : pool.status = poolRetired) (hsettled : pool.pendingDraws = 0)
    (hrestock : ∀ tag, move ≠ .restock tag) (hreserve : ∀ ticket, move ≠ .reserve ticket) :
    (∃ pool' index', S'.pool = some (pool', index') ∧ pool'.status = poolRetired ∧
        pool'.pendingDraws = 0) ∧
      ((move = .idle ∧ S'.items = S.items) ∨ ∃ key item, move = .withdraw item.position.toNat ∧
        S.items key = some item ∧ S'.items = Function.update S.items key none) := by
  have hqueue := hopen.queue_eq_nil hsettled
  -- The purchase that a refund or a settlement resolves would wait.
  have hnone : ∀ {pool' index'} {key pull}, S.pool = some (pool', index') → S.pulls key = some pull →
      pull.status = statusPending → False := by
    intro pool' index' key pull _ hpull hpending
    obtain ⟨i, hi, -⟩ := hopen.queued.pending hpull hpending
    simp [hqueue] at hi
  cases hstep with
  | idle books assets reserve =>
    exact ⟨⟨pool, index, books.pool.trans hopen.header, hretired, hsettled⟩, .inl ⟨rfl, books.items⟩⟩
  | create new valid stock counters header' items pulls =>
    exact absurd (new.symm.trans hopen.header) (by simp)
  | setStatus header valid terminal header' items pulls assets reserve =>
    obtain ⟨rfl, rfl⟩ := Prod.mk.inj (Option.some.inj (hopen.header.symm.trans header))
    exact ⟨⟨_, _, header', terminal hretired, hsettled⟩, .inl ⟨rfl, items⟩⟩
  | restock => exact absurd rfl (hrestock _)
  | reclaim header settled loaded weights stock header' items pulls assets reserve =>
    obtain ⟨rfl, rfl⟩ := Prod.mk.inj (Option.some.inj (hopen.header.symm.trans header))
    exact ⟨⟨_, _, header', hretired, hsettled⟩, .inr ⟨_, _, rfl, loaded, items⟩⟩
  | buy => exact absurd rfl (hreserve _)
  | refund header loaded pending => exact (hnone header loaded pending).elim
  | settle header loaded pending => exact (hnone header loaded pending).elim
  | deliver header loaded settled inCount recorded undelivered closes header' items pulls assets
      reserve =>
    exact ⟨⟨pool, index, header'.trans hopen.header, hretired, hsettled⟩, .inl ⟨rfl, items⟩⟩

namespace World

variable {rt : Runtime} (hrt : rt.Lawful) {w w' : World} {trace : List (World × Event)} {P : Pubkey}
  {pool : Pool} {index : List UInt8}

include hrt

/-- A step of the chain leaves a retired pool retired, and takes away the Item that it reclaims only. -/
theorem Step.retired (h : w.Sound rt) {event : Event} (hstep : Step rt w event w')
    (hpool : w.ledger P = .pool pool index) (hretired : pool.status = poolRetired)
    (hsettled : pool.pendingDraws = 0) :
    (∃ pool' index', w'.ledger P = .pool pool' index' ∧ pool'.status = poolRetired ∧
        pool'.pendingDraws = 0) ∧
      (∀ key, event.reclaims P = some key → ∃ item, (w.ledger.banner P).items key = some item) ∧
      (w'.ledger.banner P).items = fun k =>
        if event.reclaims P = some k then none else (w.ledger.banner P).items k := by
  obtain ⟨m, hm⟩ := h.opened hpool
  have hbanner := hstep.banner hrt h P
  have hadmits : ∀ call, event = .call call → call.pool = some P → call.admits = false := by
    rintro call rfl hP
    obtain ⟨-, heffect, -⟩ := hstep.effect hrt h
    exact Call.Effect.not_admits heffect hpool hretired hP
  obtain ⟨hrestock, hreserve⟩ := Event.move_of_not_admits (w := w) hadmits
  obtain ⟨⟨pool', index', hheader, hlater⟩, hcases⟩ :=
    hbanner.retired hm hretired hsettled hrestock hreserve
  refine ⟨⟨pool', index', Ledger.banner_pool.mp hheader, hlater⟩, ?_⟩
  rcases hcases with ⟨hidle, hitems⟩ | ⟨key, item, hwithdraw, hitem, hitems⟩
  · have hnone : event.reclaims P = none := by
      cases hreclaims : event.reclaims P with
      | none => rfl
      | some key => exact absurd (hidle.symm.trans (Event.move_of_reclaims hreclaims)) (by simp)
    rw [hnone, hitems]
    exact ⟨fun key hkey => (nomatch hkey), funext fun k => (if_neg (by simp)).symm⟩
  · obtain ⟨a, rfl, rfl, hreclaims, hposition⟩ := Event.reclaims_of_move hwithdraw
    obtain ⟨-, ⟨pool₁, index₁, item₁, heffect⟩, -⟩ := hstep.effect hrt h
    -- Items have different positions, so this is the Item that the call names.
    have hnamed : (w.ledger.banner a.pool.key).items a.item.key = some item₁ :=
      Ledger.banner_items.mpr ⟨heffect.loadedItem, heffect.samePool⟩
    rw [Ledger.position, heffect.loadedItem] at hposition
    obtain rfl := hm.shelved.unique hitem hnamed (UInt32.toNat_inj.mp hposition)
    rw [hreclaims, hitems]
    refine ⟨fun k hk => ?_, funext fun k => ?_⟩
    · obtain rfl := Option.some.inj hk
      exact ⟨item, hitem⟩
    · rw [Function.update_apply]
      exact if_congr ⟨fun heq => congrArg some heq.symm, fun heq => (Option.some.inj heq).symm⟩ rfl rfl

/-- A run from a retired pool without pending draws keeps it so, and takes away the Items that it reclaims
only, each once. -/
theorem Sound.retired_run (h : w.Sound rt) (hpool : w.ledger P = .pool pool index)
    (hretired : pool.status = poolRetired) (hsettled : pool.pendingDraws = 0)
    (hrun : Run (Step rt) w trace w') :
    (∃ pool' index', w'.ledger P = .pool pool' index' ∧ pool'.status = poolRetired ∧
        pool'.pendingDraws = 0) ∧
      (reclaimed P trace).Nodup ∧
      (w'.ledger.banner P).items = fun k =>
        if k ∈ reclaimed P trace then none else (w.ledger.banner P).items k := by
  induction hrun with
  | nil => exact ⟨⟨pool, index, hpool, hretired, hsettled⟩, List.nodup_nil, by simp [reclaimed]⟩
  | @snoc w₁ w₂ event trace run last ih =>
    obtain ⟨⟨pool₁, index₁, hpool₁, hretired₁, hsettled₁⟩, hnodup, hitems⟩ := ih
    obtain ⟨hlater, hlive, hitems'⟩ := last.retired hrt (h.of_run hrt run) hpool₁ hretired₁ hsettled₁
    have htrace : reclaimed P (trace ++ [(w₁, event)]) =
        reclaimed P trace ++ (event.reclaims P).toList := List.filterMap_snoc ..
    rw [htrace]
    refine ⟨hlater, ?_, ?_⟩
    · -- An Item that was reclaimed before is gone.
      refine List.Nodup.append hnodup (by cases event.reclaims P <;> simp) fun key hbefore hkey => ?_
      rw [Option.mem_toList] at hkey
      obtain ⟨item, hitem⟩ := hlive key hkey
      rw [hitems] at hitem
      simp [hbefore] at hitem
    · rw [hitems', hitems]
      funext k
      cases hreclaims : event.reclaims P with
      | none => simp
      | some key => grind

/-- From every reachable state in which a pool is retired and no draws are pending, every run keeps it so.
The Items of the pool are those it started with except the reclaimed ones, and each of them can be reclaimed
with its asset: that takes away its position, the Item and one unit of its tier only. When none is left, the
index is empty. No call adds to the pool, and no reclaim takes an asset of an undelivered outcome. -/
theorem Reached.retires (hassets : rt.TransfersAssets) (hlamports : rt.Conserves) (hw : w.Reached rt)
    (hpool : w.ledger P = .pool pool index) (hretired : pool.status = poolRetired)
    (hsettled : pool.pendingDraws = 0) (hrun : Run (Step rt) w trace w') :
    ∃ pool' index', w'.ledger P = .pool pool' index' ∧ pool'.status = poolRetired ∧
      pool'.pendingDraws = 0 ∧ (reclaimed P trace).Nodup ∧
      (∀ key item, (w'.ledger key = .item item ∧ item.pool = P) ↔
        (w.ledger key = .item item ∧ item.pool = P) ∧ key ∉ reclaimed P trace) ∧
      (w'.Backed → ∀ key item, w'.ledger key = .item item → item.pool = P →
        ∃ c w'', w'.ledger item.asset = .asset c ∧
          processInstruction rt w' (Reclaim.instruction pool'.authority P key item.asset
            (c.collection.getD coreId)) = .ok w'' ∧
          Reclaimed w'.ledger w''.ledger P key item pool' index') ∧
      ((∀ key item, w'.ledger key = .item item → item.pool ≠ P) → pool'.Emptied index') ∧
      (∀ call w'', Step rt w' (.call call) w'' → call.pool = some P → call.admits = false) ∧
      ∀ a w'', Step rt w' (.call (.reclaim a)) w'' → ∀ k i Q,
        w'.ledger.promised (.outcome k i) ≠ some (a.asset.key, Q) := by
  have hreached := hw.run hrun
  have hsound := Reached.sound hrt hreached
  obtain ⟨⟨pool', index', hpool', hretired', hsettled'⟩, hnodup, hitems⟩ :=
    (hw.sound hrt).retired_run hrt hpool hretired hsettled hrun
  obtain ⟨m, hm⟩ := hsound.opened hpool'
  refine ⟨pool', index', hpool', hretired', hsettled', hnodup, fun key item => ?_, fun hbacked key item
    hitem hP => ?_, fun hnone => ?_, fun call w'' hstep hP => ?_, fun a w'' hstep k i Q hpromised => ?_⟩
  · rw [← Ledger.banner_items, hitems, ← Ledger.banner_items]
    by_cases hmem : key ∈ reclaimed P trace <;> simp [hmem]
  · have hpromised : w'.ledger.promised (.item key) = some (item.asset, P) := by
      rw [Ledger.promised, hitem, ← hP]
    obtain ⟨-, -, c, -, -, hasset, howner⟩ := hsound.promised_owned hpromised
    obtain ⟨w'', hprocess, hstep⟩ := hsound.reclaim_isOk hrt hassets hlamports hbacked hpool'
      (Reached.authority hrt hreached hpool') hretired' hsettled' hitem hP hasset howner
    obtain ⟨-, ⟨pool₁, index₁, item₁, heffect⟩, -⟩ := hstep.effect hrt hsound
    obtain ⟨rfl, rfl⟩ := Entry.pool.inj (hpool'.symm.trans heffect.loaded)
    obtain rfl := Entry.item.inj (hitem.symm.trans heffect.loadedItem)
    have htier := (hm.shelved.item (Ledger.banner_items.mpr ⟨hitem, hP⟩)).2.1
    exact ⟨c, w'', hasset, hprocess, heffect.reclaimed htier (hm.tags_eq ▸ hm.stock)⟩
  · refine hm.emptied fun k => ?_
    cases hk : (w'.ledger.banner P).items k with
    | none => rfl
    | some item =>
      obtain ⟨hentry, hP⟩ := Ledger.banner_items.mp hk
      exact absurd hP (hnone k item hentry)
  · obtain ⟨-, heffect, -⟩ := hstep.effect hrt hsound
    exact Call.Effect.not_admits heffect hpool' hretired' hP
  · obtain ⟨-, ⟨pool₁, index₁, item, heffect⟩, -⟩ := hstep.effect hrt hsound
    have hitem : w'.ledger.promised (.item a.item.key) = some (a.asset.key, item.pool) := by
      rw [Ledger.promised, heffect.loadedItem, ← heffect.sameAsset]
    exact absurd (hsound.promised_unique hitem hpromised).1 (by simp)

end World

/-- The sample pool is retired after its purchase was settled. -/
def Sample.retired : World := Sample.after Sample.settled [Sample.setStatus 2]

theorem Sample.retired_reached : World.Reached Sample.net.runtime Sample.retired :=
  Sample.reached_after Sample.settled_reached (by decide +kernel)

theorem Sample.retired_backed : Sample.retired.Backed :=
  Sample.backed_after (Sample.backed_after Sample.bought_backed (by decide +kernel)) (by decide +kernel)

theorem World.Reached.retires_sample : ∃ pool index item c w'',
    Sample.retired.ledger Sample.pool = .pool pool index ∧ pool.status = poolRetired ∧
    Sample.retired.ledger Sample.item₁ = .item item ∧ item.asset = Sample.asset₁ ∧
    Sample.retired.ledger item.asset = .asset c ∧
    processInstruction Sample.net.runtime Sample.retired (Reclaim.instruction pool.authority Sample.pool
      Sample.item₁ item.asset (c.collection.getD coreId)) = .ok w'' ∧
    Reclaimed Sample.retired.ledger w''.ledger Sample.pool Sample.item₁ item pool index := by
  obtain ⟨pool, index, hpool, hretired⟩ := Sample.exists_pool (e := Sample.retired.ledger Sample.pool)
    (p := fun pool => pool.status = poolRetired ∧ pool.pendingDraws = 0) (by decide +kernel)
  obtain ⟨item, hitem, hasset⟩ := Sample.exists_item (e := Sample.retired.ledger Sample.item₁)
    (p := fun item => item.pool = Sample.pool ∧ item.asset = Sample.asset₁) (by decide +kernel)
  simp only [decide_eq_true_eq] at hretired hasset
  have hreached := Sample.retired_reached
  have hbacked := Sample.retired_backed
  generalize Sample.retired = w at *
  obtain ⟨pool', index', hpool', -, -, -, -, hreclaim, -⟩ := World.Reached.retires
    Sample.net.runtime_lawful Sample.net.transfersAssets Sample.net.conserves hreached hpool hretired.1
    hretired.2 .nil
  obtain ⟨rfl, rfl⟩ := Entry.pool.inj (hpool.symm.trans hpool')
  obtain ⟨c, w'', hc, hprocess, hdone⟩ := hreclaim hbacked Sample.item₁ item hitem hasset.1
  exact ⟨pool, index, item, c, w'', hpool, hretired.1, hitem, hasset.2, hc, hprocess, hdone⟩

end SolanaGacha
