import SolanaGacha.Sdk.Snapshot
import SolanaGacha.System.Settlement

/-!
# The SDK's plan is the draw of the handler

The SDK scans the tags and keeps one list of candidates for each tier; the handler reads Fenwick counts,
descends the tree and keeps counts by hand. Both compute the `Runtime.selections` of the pinned prefix:
`Pool.drawLoop_isOk` says it of the SDK and `Runtime.drawnFrom_eq` of the handler, so a settlement's plan
names the Items that the handler awards, in their order (`World.Reached.plans`).
-/

namespace SolanaGacha

open Except Layout Inventory

/-! ## The candidates of a tier -/

namespace Inventory

theorem mem_idxsOf {tags : List UInt8} {tag : UInt8} {p : ℕ} :
    p ∈ tags.idxsOf tag ↔ tags[p]? = some tag := by
  simp only [List.mem_idxsOf_iff_exists_getElem_pos, List.getElem?_eq_some_iff, beq_iff_eq]

/-- Clearing an entry takes it out of the candidates. -/
theorem idxsOf_set_zero {tags : List UInt8} {tag : UInt8} {p : ℕ} (htag : tag ≠ 0) (hp : p < tags.length) :
    (tags.set p 0).idxsOf tag = (tags.idxsOf tag).erase p := by
  refine List.Perm.eq_of_pairwise (fun q q' _ _ h h' => absurd h (by omega)) List.pairwise_idxsOf
    (List.pairwise_idxsOf.sublist List.erase_sublist) ?_
  refine (List.perm_ext_iff_of_nodup List.nodup_idxsOf (List.nodup_idxsOf.erase p)).mpr fun q => ?_
  rw [List.nodup_idxsOf.mem_erase_iff, mem_idxsOf, mem_idxsOf, List.getElem?_set]
  by_cases hq : p = q
  · subst hq
    simp [hp, htag.symm]
  · simp [hq, Ne.symm hq]

/-- The candidates of every tier, as the SDK lists them. -/
def candidatesOf (tags : List UInt8) (tierCount : ℕ) : List (List UInt32) :=
  (List.range tierCount).map fun t => (tags.idxsOf (tierTag t)).map UInt32.ofNat

section Candidates

variable {tags : List UInt8} {tierCount t : ℕ}

@[simp]
theorem length_candidatesOf : (candidatesOf tags tierCount).length = tierCount := by simp [candidatesOf]

theorem getElem?_candidatesOf (ht : t < tierCount) :
    (candidatesOf tags tierCount)[t]? = some ((tags.idxsOf (tierTag t)).map UInt32.ofNat) := by
  rw [candidatesOf, List.getElem?_map, List.getElem?_range ht]
  rfl

/-- No position, no candidate. -/
theorem candidatesOf_nil (tierCount : ℕ) : candidatesOf [] tierCount = List.replicate tierCount [] := by
  unfold candidatesOf
  simp only [List.idxsOf_nil, List.map_nil, List.map_const', List.length_range]

/-- The candidates after a draw. -/
theorem candidatesOf_clear (hcount : tierCount ≤ 8) (ht : t < tierCount) {rank p : ℕ}
    (hp : (tags.idxsOf (tierTag t))[rank]? = some p) :
    (candidatesOf tags tierCount).set t (((tags.idxsOf (tierTag t)).map UInt32.ofNat).eraseIdx rank) =
      candidatesOf (tags.set p 0) tierCount := by
  have hlive := live_of_getElem?_idxsOf hp
  have hlt := lt_length_of_live (by omega) hlive
  refine List.ext_getElem? fun t' => ?_
  rw [List.getElem?_set, length_candidatesOf]
  by_cases ht' : t' < tierCount
  · rw [getElem?_candidatesOf ht', getElem?_candidatesOf ht',
      idxsOf_set_zero (tierTag_ne_zero (by omega)) hlt]
    split_ifs with heq
    · subst heq
      obtain ⟨hrank, hget⟩ := List.getElem?_eq_some_iff.mp hp
      rw [← hget, List.nodup_idxsOf.erase_getElem, List.eraseIdx_map]
    · -- The cleared entry is no candidate of another tier.
      rw [List.erase_of_not_mem]
      rw [mem_idxsOf, (getElem?_idxsOf.mp hp).1, Option.some.injEq, tierTag_inj (by omega) (by omega)]
      exact heq
  · rw [if_neg (by omega), List.getElem?_eq_none (by simp; omega), List.getElem?_eq_none (by simp; omega)]

end Candidates

end Inventory

/-! ## The SDK's plan -/

/-- Where some bump derives an address of the program, `find_program_address` finds one. -/
def Runtime.FindsDerived (rt : Runtime) : Prop := ∀ seeds bump key,
  rt.createProgramAddress (seeds ++ [[bump]]) programId = some key →
    ∃ derived, rt.findProgramAddress seeds programId = some derived

/-- The search tries every bump but zero. -/
theorem Runtime.findProgramAddress_isSome {rt : Runtime} {seeds : List (List UInt8)} {program key : Pubkey}
    {bump : UInt8} (h : rt.createProgramAddress (seeds ++ [[bump]]) program = some key) (hbump : bump ≠ 0) :
    ∃ derived, rt.findProgramAddress seeds program = some derived := by
  unfold findProgramAddress
  rw [← Option.isSome_iff_exists, List.findSome?_isSome_iff]
  have hpos : 0 < bump.toNat := UInt8.pos_iff_ne_zero.mpr hbump
  have hlt := bump.toNat_lt
  refine ⟨255 - bump.toNat, List.mem_range.mpr (by omega), ?_⟩
  have hsame : UInt8.ofNat (255 - (255 - bump.toNat)) = bump := by
    rw [show 255 - (255 - bump.toNat) = bump.toNat by omega, UInt8.ofNat_toNat]
  simp only [hsame, h, Option.map_some, Option.isSome_some]

/-- A runtime whose known addresses have no bump zero. -/
theorem Localnet.findsDerived (net : Localnet)
    (h : net.addresses.all (fun x => x.1.1.getLast? ≠ some [0]) = true) : net.runtime.FindsDerived := by
  intro seeds bump key hkey
  refine Runtime.findProgramAddress_isSome hkey fun hzero => ?_
  have hlast := List.all_eq_true.mp h _ (net.mem_addresses hkey)
  rw [hzero] at hlast
  simp at hlast

namespace GachaRust

/-- The tier and the position of a draw. -/
def Draw.place (draw : Draw) : UInt8 × UInt32 := (draw.tier, draw.position)

namespace Pool

variable {rt : Runtime} {pool : Pool} {tags : List UInt8} {beta : FixedBytes 64}

/-- The counts that a draw reads are those of the tags. -/
theorem candidateCounts_candidatesOf {tierCount : ℕ} (hcount : tierCount ≤ 8)
    (hsmall : tags.length < 2 ^ 32) (htags : ∀ tag ∈ tags, tag.toNat ≤ tierCount) :
    candidateCounts (candidatesOf tags tierCount) = .ok (tally tags) := by
  unfold candidateCounts
  rw [failIf_neg (by rw [length_candidatesOf, maxTiers]; omega), ok_bind]
  refine congrArg Except.ok (eq_tally hsmall fun t ht => ?_)
  rw [Vector.getElem_ofFn, List.getD_eq_getElem?_getD]
  by_cases hlt : t < tierCount
  · rw [getElem?_candidatesOf hlt, Option.getD_some, List.length_map, List.length_idxsOf]
    have hle := List.count_le_length (l := tags) (a := tierTag t)
    exact UInt32.toNat_ofNat_of_lt' (by show _ < 2 ^ 32; omega)
  · -- No tag is that of a tier behind the count.
    rw [List.getElem?_eq_none (by simp; omega), Option.getD_none, eq_comm]
    refine List.count_eq_zero.mpr fun hmem => ?_
    have hle := htags _ hmem
    rw [tierTag_toNat ht] at hle
    omega

/-- The scan finds the candidates of every tier. -/
theorem scan_eq {tierCount : ℕ} (hcount : tierCount ≤ 8) (htags : ∀ tag ∈ tags, tag.toNat ≤ tierCount)
    {start n : ℕ} (hread : ∀ p, p < start + n → pool.tag (UInt32.ofNat p) = .ok (tags.getD p 0)) (hn : start + n ≤ tags.length) :
    pool.scan ((List.range' start n).map UInt32.ofNat) (candidatesOf (tags.take start) tierCount) =
      .ok (candidatesOf (tags.take (start + n)) tierCount) := by
  induction n generalizing start with
  | zero => rfl
  | succ n ih =>
    have hlt : start < tags.length := by omega
    have hget : tags.getD start 0 = tags[start] := by
      rw [List.getD_eq_getElem?_getD, List.getElem?_eq_getElem hlt, Option.getD_some]
    have hnext := @ih (start + 1) (fun p hp => hread p (by omega)) (by omega)
    rw [show start + 1 + n = start + (n + 1) by omega] at hnext
    have hpush : ∀ t, (tags.take (start + 1)).idxsOf (tierTag t) =
        (tags.take start).idxsOf (tierTag t) ++ if tags[start] = tierTag t then [start] else [] := by
      intro t
      rw [List.take_add_one, List.getElem?_eq_getElem hlt, Option.toList_some, List.idxsOf_append,
        List.length_take, min_eq_left hlt.le, Nat.zero_add, List.idxsOf_cons, List.idxsOf_nil]
      simp only [beq_iff_eq]
    rw [List.range'_succ, List.map_cons, scan, hread start (by omega), hget, ok_bind]
    by_cases hzero : tags[start] = 0
    · -- A removed position is pushed to no tier.
      rw [if_pos hzero, ← hnext]
      congr 1
      refine List.map_congr_left fun t ht => ?_
      have htag := tierTag_ne_zero (show t < 8 by have := List.mem_range.mp ht; omega)
      rw [hpush t, if_neg (by rw [hzero]; exact htag.symm), List.append_nil]
    · have hpos : 0 < tags[start].toNat := UInt8.pos_iff_ne_zero.mpr hzero
      have hle := htags _ (List.getElem_mem hlt)
      have htier : tags[start].toNat - 1 < tierCount := by omega
      have htag : tags[start] = tierTag (tags[start].toNat - 1) := by
        rw [← UInt8.toNat_inj, tierTag_toNat (by omega)]
        omega
      rw [if_neg hzero, getElem?_candidatesOf htier, okOr, ok_bind, ← hnext]
      congr 1
      refine List.ext_getElem? fun t => ?_
      rw [List.getElem?_set, length_candidatesOf]
      by_cases ht : t < tierCount
      · rw [getElem?_candidatesOf ht, getElem?_candidatesOf ht, hpush t]
        split_ifs with heq hsame hsame
        · subst heq
          rw [List.map_append]
          rfl
        · exact absurd (heq ▸ htag) hsame
        · rw [htag, tierTag_inj (by omega) (by omega)] at hsame
          exact absurd hsame heq
        · rw [List.append_nil]
      · rw [if_neg (by omega), List.getElem?_eq_none (by simp; omega),
          List.getElem?_eq_none (by simp; omega)]

/-- The SDK's draws are the selections of the tags. -/
theorem drawLoop_isOk (hcount : pool.header.tierCount.toNat ≤ 8) (hsmall : tags.length < 2 ^ 32)
    (htags : ∀ tag ∈ tags, tag.toNat ≤ pool.header.tierCount.toNat) {i n : ℕ} {draws : List (UInt8 × ℕ)}
    (hselected : rt.selections pool.header beta tags i n = .ok draws)
    (hfind : ∀ d ∈ draws, ∃ derived, Item.addressFor rt pool.address d.1 (UInt32.ofNat d.2) = .ok derived) :
    ∃ plan, pool.drawLoop rt beta (candidatesOf tags pool.header.tierCount.toNat) i n = .ok plan ∧
      plan.map Draw.place = draws.map fun d => (d.1, UInt32.ofNat d.2) := by
  induction n generalizing tags i draws with
  | zero =>
    obtain rfl := pure_eq_ok.mp hselected
    exact ⟨[], rfl, rfl⟩
  | succ n ih =>
    obtain ⟨tier, rank, p, rest, hdraw, hp, hrest, rfl⟩ := Runtime.selections_succ_eq_ok.mp hselected
    obtain ⟨-, htier, -⟩ := Pool.draw_spec hdraw
    obtain ⟨⟨item, bump⟩, hitem⟩ := hfind _ List.mem_cons_self
    have hget : ((tags.idxsOf (tierTag tier.toNat)).map UInt32.ofNat)[rank.toNat]? =
        some (UInt32.ofNat p) := by rw [List.getElem?_map, hp, Option.map_some]
    obtain ⟨plan, hplan, hplaces⟩ := @ih (tags.set p 0) (by rwa [List.length_set])
      (fun tag hmem => by
        rcases List.mem_or_eq_of_mem_set hmem with hmem | rfl
        · exact htags tag hmem
        · exact Nat.zero_le _) _ _ hrest fun d hd => hfind d (List.mem_cons_of_mem _ hd)
    refine ⟨⟨tier, UInt32.ofNat p, item⟩ :: plan, ?_, by rw [List.map_cons, hplaces]; rfl⟩
    unfold drawLoop
    simp only [candidateCounts_candidatesOf hcount hsmall htags, hdraw, mapErr, ok_bind,
      getElem?_candidatesOf htier, okOr, hget, hitem, candidatesOf_clear hcount htier hp, hplan]
    rfl

end Pool

end GachaRust

/-! ## The handler's draws -/

namespace Runtime

variable {rt : Runtime} {beta : FixedBytes 64}

/-- The tiers and positions of the handler's draws: the body of its loop, without what it does to the Item
account at the place of each draw. -/
def drawnFrom (rt : Runtime) (beta : FixedBytes 64) :
    DrawState → ℕ → ℕ → Except Fault (List (UInt8 × UInt32))
  | _, _, 0 => return []
  | s, i, n + 1 => do
    let hash := rt.sha256 (beta.val ++ [UInt8.ofNat i])
    let (tier, rank) ← s.pool.draw hash s.available
    let (position, inventory) ← (Inventory.take tier rank).run s.inventory
    let count ← okOr .panicked s.available[tier.toNat]?
    let left ← okOr .panicked (count.checkedSub 1)
    let available := s.available.setIfInBounds tier.toNat left
    let pool ← s.pool.updateRemaining tier (·.checkedSub 1)
    let rest ← drawnFrom rt beta { s with pool, inventory, available } (i + 1) n
    return (tier, position) :: rest

/-- The tiers and positions that `draw` computes for a pull. -/
def drawn (rt : Runtime) (pool : Pool) (inventory : Inventory) (pull : Pull) (accounts : Accounts)
    (beta : FixedBytes 64) : Except Fault (List (UInt8 × UInt32)) := do
  let available ← inventory.counts pull.inventoryVersion
  rt.drawnFrom beta ⟨pool, inventory, pull, accounts, available⟩ 0 pull.count.toNat

/-- The handler's draws are the selections of the prefix. -/
theorem drawnFrom_eq {s : DrawState} {tags : List UInt8} {cutoff i n : ℕ} {draws : List (UInt8 × ℕ)}
    (hstock : Stock s.pool s.inventory.data tags) (havailable : s.available = tally (tags.take cutoff))
    (hselected : rt.selections s.pool beta (tags.take cutoff) i n = .ok draws) :
    rt.drawnFrom beta s i n = .ok (draws.map fun d => (d.1, UInt32.ofNat d.2)) := by
  induction n generalizing s tags i draws with
  | zero =>
    obtain rfl := pure_eq_ok.mp hselected
    rfl
  | succ n ih =>
    obtain ⟨tier, rank, p, rest, hdraw, hp, hrest, rfl⟩ := selections_succ_eq_ok.mp hselected
    obtain ⟨pool, inventory, count, left, drawn, htake, hcount, hleft, hcounter⟩ :=
      drawnOne_isOk hstock havailable hdraw hp
    rw [← List.take_set, ← selections_congr drawn.draw] at hrest
    have hlater := ih (s := { s with
      pool, inventory, available := s.available.setIfInBounds tier.toNat left }) drawn.stock
      drawn.available hrest
    unfold drawnFrom
    simp only [havailable ▸ hdraw, ok_bind, htake, hcount, okOr, hleft, hcounter, hlater]
    rfl

end Runtime

/-! ## One plan -/

namespace GachaRust.Pool

/-- The SDK reads the tags of the index. -/
theorem tag_eq {pool : GachaRust.Pool} {index tags : List UInt8} (hindex : pool.data.drop poolLen = index)
    (h : Indexed index tags) {p : ℕ} (hp : p < tags.length) :
    pool.tag (UInt32.ofNat p) = .ok (tags.getD p 0) := by
  have hp32 : (UInt32.ofNat p).toNat = p := UInt32.toNat_ofNat_of_lt' (hp.trans h.small)
  have hlt : tagOffset p < index.length := by
    rw [h.length, tagOffset_eq]
    omega
  have hget : index[tagOffset p]? = some (tags.getD p 0) := by
    rw [← h.tag p, tagAt, List.getElem?_eq_getElem hlt, Option.getD_some]
  rw [← hindex, List.getElem?_drop] at hget
  unfold tag
  rw [hp32, show poolLen + p / inventoryTagsPerBlock * inventoryBlockLen + inventoryCountsLen +
    p % inventoryTagsPerBlock = poolLen + tagOffset p by rw [tagOffset]; omega, hget]
  rfl

end GachaRust.Pool

namespace World

variable {rt : Runtime} (hrt : rt.Lawful) {w : World}

include hrt in
/-- In every reachable state whose oldest purchase is pending, and for every verified output: the SDK has a
plan for it from the bytes of the two accounts, the plan's draws are those that the handler computes, and
the Items with which the handler's draw succeeds are those of the plan, in its order. -/
theorem Reached.plans (hw : w.Reached rt) (hfinds : rt.FindsDerived) {P k : Pubkey} {pool : Pool}
    {index : List UInt8} {pull : Pull} (hpool : w.ledger P = .pool pool index)
    (hpull : w.ledger k = .pull pull) (hP : pull.pool = P) (hpending : pull.status = statusPending)
    (hhead : pull.index = pool.nextSettle) {proof : FixedBytes 80} {beta : FixedBytes 64}
    (hproof : rt.verifyProof pool.operator (rt.sha256 (k.val ++ pull.clientSeed.val)) proof = some beta) :
    ∃ plan : GachaRust.Settlement,
      GachaRust.Pool.settle rt ⟨P, (w.accounts P).data⟩ ⟨k, (w.accounts k).data⟩ proof = .ok plan ∧
      rt.drawn pool ⟨index⟩ pull w.accounts beta = .ok (plan.draws.map GachaRust.Draw.place) ∧
      ∀ items operator s, items.length = pull.count.toNat →
        rt.draw pool ⟨index⟩ pull w.accounts P items operator beta = .ok s →
          ∃ awards : List Award, awards.map Award.account = items.map AccountInfo.key ∧
            (∀ award ∈ awards, w.ledger award.account = .item award.item) ∧
            (awards.map fun award => (award.item.tier, award.item.position)) =
              plan.draws.map GachaRust.Draw.place := by
  obtain ⟨m, hm⟩ := (hw.sound hrt).opened hpool
  obtain ⟨draws, hdraws⟩ := hm.head_selections hpull hP hpending hhead beta
  obtain ⟨-, -, hlive⟩ := Runtime.selections_spec hdraws
  obtain ⟨rest, hqueue⟩ := hm.queued.head (Ledger.banner_pulls.mpr ⟨hpull, hP⟩) hpending hhead
  have hissued := hm.covered.issued _ (hqueue ▸ List.mem_cons_self)
  have hstock := hm.stock
  have hshelved := hm.shelved
  rw [← hm.tags_eq] at hstock hissued hshelved
  generalize pool.tags index = tags at hstock hissued hshelved hdraws hlive
  change pull.inventoryVersion.toNat ≤ tags.length at hissued
  obtain ⟨hload, hindex⟩ := Account.entry_eq_pool.mp hpool
  obtain ⟨-, hdecode, -, hlen⟩ := Pool.load_eq_ok.mp hload
  obtain ⟨-, hdecode', -, -⟩ := Pull.load_eq_ok.mp (Account.entry_eq_pull.mp hpull)
  generalize hsnapshot : (⟨P, (w.accounts P).data⟩ : GachaRust.Pool) = snapshot
  generalize hpurchase : (⟨k, (w.accounts k).data⟩ : GachaRust.Pull) = purchase
  have hheader : snapshot.header = pool := hsnapshot ▸ hdecode
  have hheader' : purchase.header = pull := hpurchase ▸ hdecode'
  have hsmall : (tags.take pull.inventoryVersion.toNat).length < 2 ^ 32 := by
    have := hstock.indexed.small
    rw [List.length_take]
    omega
  -- The Items that were drawn were created at derived addresses.
  have hfind : ∀ d ∈ draws, ∃ derived,
      GachaRust.Item.addressFor rt snapshot.address d.1 (UInt32.ofNat d.2) = .ok derived := by
    intro d hd
    obtain ⟨-, htier, hd⟩ := hlive d hd
    have hlt := lt_length_of_live htier hd
    rw [List.length_take] at hlt
    rw [Live, List.getD_eq_getElem?_getD, List.getElem?_take,
      if_pos (hlt.trans_le (min_le_left _ _)), ← List.getD_eq_getElem?_getD] at hd
    obtain ⟨awards, hdraw, hawards⟩ := @Shelved.awards _ _ _ _ hshelved [d] (by simpa using ⟨htier, hd⟩)
    obtain ⟨award, rfl, rfl⟩ := List.map_eq_singleton_iff.mp hdraw
    obtain ⟨-, -, -, hderived⟩ := hshelved.item (hawards award List.mem_cons_self)
    obtain ⟨derived, hderived⟩ := hfinds
      [itemSeed, P.val, [award.item.tier], u32.encode award.item.position] award.item.bump _ hderived
    refine ⟨derived, ?_⟩
    rw [← hsnapshot, GachaRust.Item.addressFor, GachaRust.findProgramAddress, Award.draw,
      UInt32.ofNat_toNat, hderived]
    rfl
  -- The SDK's scan and its draws.
  have hscan := @GachaRust.Pool.scan_eq snapshot tags _ hstock.tierCount hstock.tier 0
    pull.inventoryVersion.toNat (fun p hp => GachaRust.Pool.tag_eq (hsnapshot ▸ hindex)
      hstock.indexed (by omega)) (by omega)
  obtain ⟨plan, hplan, hplaces⟩ := @GachaRust.Pool.drawLoop_isOk rt snapshot
    (tags.take pull.inventoryVersion.toNat) beta (hheader ▸ hstock.tierCount) hsmall
    (fun tag hmem => hheader ▸ hstock.tier tag (List.mem_of_mem_take hmem)) _ _ _ (hheader ▸ hdraws) hfind
  refine ⟨⟨P, k, pull.buyer, pool.operator, proof, plan⟩, ?_, ?_, fun items operator s hcount hdraw => ?_⟩
  · have halpha : purchase.alpha rt = rt.sha256 (k.val ++ pull.clientSeed.val) := by
      rw [GachaRust.Pull.alpha, hheader', ← hpurchase]
    have hnext : snapshot.pending purchase = .ok () := by
      unfold GachaRust.Pool.pending
      rw [failIf_neg, failIf_neg, failIf_neg, failIf_neg]
      · rfl
      · rw [hheader, hheader', UInt32.not_lt, UInt32.le_iff_toNat_le, ← hstock.version]
        exact hissued
      · rw [hheader, hheader', not_not]
        exact hhead
      · rw [GachaRust.Pull.status, hheader', if_pos hpending, not_not]
      · rw [hheader', ← hsnapshot, not_not]
        exact hP
    have hcomplete : ¬snapshot.data.length ≠ poolLen + inventorySpace pool.inventoryVersion := by
      rw [← hsnapshot, not_not]
      exact hlen
    have hpositions : GachaRust.positions pull.inventoryVersion =
        (List.range' 0 pull.inventoryVersion.toNat).map UInt32.ofNat := by
      rw [GachaRust.positions, List.range_eq_range']
    rw [List.take_zero, Nat.zero_add, candidatesOf_nil, ← hpositions] at hscan
    rw [hheader] at hplan
    unfold GachaRust.Pool.settle
    simp only [hnext, ok_bind, hheader, hheader', failIf_neg hcomplete, halpha, hproof, okOr, hscan, hplan]
    rw [← hsnapshot, ← hpurchase]
    rfl
  · obtain ⟨v, hv, hcounts⟩ := counts_eq_ok hstock.indexed hissued
    obtain rfl := eq_tally hsmall hcounts
    rw [Runtime.drawn, show Inventory.counts ⟨index⟩ pull.inventoryVersion = .ok _ from hv, ok_bind, hplaces]
    exact Runtime.drawnFrom_eq hstock rfl hdraws
  · obtain ⟨awards, hkeys, drew⟩ := Runtime.draw_ok hstock hissued hdraw
    have hselected := drew.selected
    have hlength : awards.length = pull.count.toNat := by
      rw [← List.length_map (f := Award.account), hkeys, List.length_map, hcount]
    rw [hlength, hdraws] at hselected
    refine ⟨awards, hkeys, drew.item, ?_⟩
    rw [hplaces, Except.ok.inj hselected, List.map_map]
    exact List.map_congr_left fun award _ => Prod.ext rfl (UInt32.ofNat_toNat).symm

omit hrt in
/-- The plan of the sample purchase. -/
theorem Reached.plans_sample : ∃ (pool : Pool) (index : List UInt8) (pull : Pull)
    (plan : GachaRust.Settlement), Sample.bought.ledger Sample.pool = .pool pool index ∧
      Sample.bought.ledger Sample.pull = .pull pull ∧ pull.count = 1 ∧
      GachaRust.Pool.settle Sample.net.runtime ⟨Sample.pool, (Sample.bought.accounts Sample.pool).data⟩
        ⟨Sample.pull, (Sample.bought.accounts Sample.pull).data⟩ Sample.proof = .ok plan ∧
      Sample.net.runtime.drawn pool ⟨index⟩ pull Sample.bought.accounts Sample.beta =
        .ok (plan.draws.map GachaRust.Draw.place) ∧
      ∀ items operator s, items.length = pull.count.toNat →
        Sample.net.runtime.draw pool ⟨index⟩ pull Sample.bought.accounts Sample.pool items operator
          Sample.beta = .ok s →
          ∃ awards : List Award, awards.map Award.account = items.map AccountInfo.key ∧
            (∀ award ∈ awards, Sample.bought.ledger award.account = .item award.item) ∧
            (awards.map fun award => (award.item.tier, award.item.position)) =
              plan.draws.map GachaRust.Draw.place := by
  obtain ⟨pool, index, hpool, hhead⟩ := Sample.exists_pool (e := Sample.bought.ledger Sample.pool)
    (p := fun pool => pool.nextSettle = 0 ∧ pool.operator = Sample.operator) (by decide +kernel)
  obtain ⟨pull, hpull, hopen⟩ := Sample.exists_pull (e := Sample.bought.ledger Sample.pull)
    (p := fun pull => pull.pool = Sample.pool ∧ pull.status = statusPending ∧ pull.index = 0 ∧
      pull.count = 1 ∧ pull.clientSeed = Sample.clientSeed) (by decide +kernel)
  simp only [decide_eq_true_eq] at hhead hopen
  obtain ⟨hnext, hoperator⟩ := hhead
  obtain ⟨hP, hpending, hindex, hcount, hseed⟩ := hopen
  have hreached := Sample.bought_reached
  have hproof : Sample.net.runtime.verifyProof Sample.operator
      (Sample.net.runtime.sha256 (Sample.pull.val ++ Sample.clientSeed.val)) Sample.proof =
        some Sample.beta := by decide +kernel
  generalize Sample.bought = w at *
  obtain ⟨plan, hplan⟩ := Reached.plans Sample.net.runtime_lawful hreached
    (Sample.net.findsDerived (by decide +kernel)) hpool hpull hP hpending (hindex.trans hnext.symm)
    (hoperator ▸ hseed ▸ hproof)
  exact ⟨pool, index, pull, plan, hpool, hpull, hcount, hplan⟩

end World

end SolanaGacha
