import SolanaGacha.Sdk.KitDecode
import SolanaGacha.System.Localnet

/-!
# The two SDKs agree

Both SDKs accept the same accounts, since both decoders have the same condition. On what is accepted, one draw
of each selects the same candidate (`GachaRust.Pool.draw_agrees`), so their loops compute the same plan or
fail alike, and the balances are the same numbers (`Runtime.sdks_agree`).
-/

namespace SolanaGacha

open Except Layout Inventory

/-! ## Results -/

namespace GachaRust

/-- The error code of the same name. -/
def Error.code : Error → GachaKit.ErrorCode
  | .invalidAccount => .invalidAccount
  | .invalidArgument => .invalidArgument
  | .invalidProof => .invalidProof
  | .wrongPool => .wrongPool
  | .notPending => .notPending
  | .notSettled => .notSettled
  | .notNextInQueue => .notNextInQueue
  | .missingInventory => .missingInventory
  | .invalidItem => .invalidItem
  | .invalidAsset => .invalidAsset
  | .invalidPoolStatus => .invalidPoolStatus
  | .pendingPurchases => .pendingPurchases
  | .transactionTooLarge => .transactionTooLarge

/-- The same snapshots and plans in the other SDK. -/
def Pool.toKit (pool : Pool) : GachaKit.Pool := ⟨pool.address, pool.data⟩
def Pull.toKit (pull : Pull) : GachaKit.Pull := ⟨pull.address, pull.data⟩
def Item.toKit (item : Item) : GachaKit.Item := ⟨item.address, item.data⟩
def Asset.toKit (asset : Asset) : GachaKit.Asset := ⟨asset.address, asset.owner, asset.collection⟩
def Draw.toKit (draw : Draw) : GachaKit.Draw := ⟨draw.tier.toNat, draw.position.toNat, draw.item⟩

def Settlement.toKit (plan : Settlement) : GachaKit.Settlement :=
  ⟨plan.pool, plan.pull, plan.buyer, plan.operator, plan.proof, plan.draws.map Draw.toKit⟩

end GachaRust

/-- Both calls return the same, or both fail with the same error code. -/
def Agrees {α β : Type} (same : α → β) : Except GachaRust.Fault α → Except GachaKit.Thrown β → Prop
  | .ok a, y => y = .ok (same a)
  | .error (.error e), y => y = .error (.client e.code)
  | .error .panicked, _ => False

/-- Both calls fail, for want of the address of an Item. -/
def Unlocated {α β : Type} (rt : Runtime) (pool : Pubkey) (x : Except GachaRust.Fault α)
    (y : Except GachaKit.Thrown β) : Prop :=
  x = .error .panicked ∧ (∃ e, y = .error e) ∧ ∃ tier position,
    rt.findProgramAddress [itemSeed, pool.val, [tier], u32.encode position] programId = none

section Agrees

variable {α β γ δ : Type} {same : α → β} {same' : γ → δ} {rt : Runtime} {pool : Pubkey}

/-- The two cases. -/
theorem Agrees.eq_or_eq {x : Except GachaRust.Fault α} {y : Except GachaKit.Thrown β} (h : Agrees same x y) :
    (∃ a, x = .ok a ∧ y = .ok (same a)) ∨
      ∃ e : GachaRust.Error, x = .error (.error e) ∧ y = .error (.client e.code) := by
  cases x with
  | ok a => exact .inl ⟨a, rfl, h⟩
  | error fault =>
    cases fault with
    | error e => exact .inr ⟨e, rfl, h⟩
    | panicked => exact h.elim

/-- A check that both make. -/
theorem Agrees.check {c c' : Prop} [Decidable c] [Decidable c'] (hc : c ↔ c') {e : GachaRust.Error}
    {code : GachaKit.ErrorCode} (hcode : e.code = code) {f : Unit → Except GachaRust.Fault α}
    {g : Unit → Except GachaKit.Thrown β} (h : ¬c → Agrees same (f ()) (g ()) ∨ Unlocated rt pool (f ()) (g ())) :
    Agrees same (failIf c (.error e) >>= f) (failIf c' (.client code) >>= g) ∨
      Unlocated rt pool (failIf c (.error e) >>= f) (failIf c' (.client code) >>= g) := by
  by_cases hcase : c
  · subst hcode
    rw [failIf, failIf, if_pos hcase, if_pos (hc.mp hcase)]
    exact .inl rfl
  · rw [failIf_neg hcase, failIf_neg fun hcase' => hcase (hc.mpr hcase')]
    exact h hcase

/-- What is made of both results. -/
theorem Agrees.map {x : Except GachaRust.Fault α} {y : Except GachaKit.Thrown β} {f : α → γ} {g : β → δ}
    (hfg : ∀ a, g (same a) = same' (f a)) (h : Agrees same x y ∨ Unlocated rt pool x y) :
    Agrees same' (x >>= fun a => return f a) (y >>= fun b => return g b) ∨
      Unlocated rt pool (x >>= fun a => return f a) (y >>= fun b => return g b) := by
  rcases h with h | ⟨rfl, ⟨e, rfl⟩, hnone⟩
  · obtain ⟨a, rfl, rfl⟩ | ⟨e, rfl, rfl⟩ := h.eq_or_eq
    · exact .inl (congrArg Except.ok (hfg a))
    · exact .inl rfl
  · exact .inr ⟨rfl, ⟨e, rfl⟩, hnone⟩

end Agrees

/-! ## One draw -/

namespace GachaRust.Pool

/-- The weights of the tiers that still have candidates add up to the same total. -/
theorem total_eq (tiers : List Tier) (counts : List UInt32) (candidates : List (List ℕ))
    (hlen : tiers.length = candidates.length) (hle : candidates.length ≤ counts.length)
    (hcount : ∀ t (_ : t < counts.length) (_ : t < candidates.length),
      counts[t].toNat = candidates[t].length) :
    (((tiers.zip counts).filter fun x => 0 < x.2).map fun x => x.1.weight.toNat).sum =
      (((tiers.map fun tier => tier.weight.toNat).zip candidates).map fun x =>
        if x.2.length = 0 then 0 else x.1).sum := by
  induction tiers generalizing counts candidates with
  | nil => simp
  | cons tier tiers ih =>
    cases candidates with
    | nil => simp at hlen
    | cons list candidates =>
      cases counts with
      | nil => simp at hle
      | cons count counts =>
        have hfirst : count.toNat = list.length := hcount 0 (Nat.succ_pos _) (Nat.succ_pos _)
        have hzero : count = 0 ↔ list.length = 0 := by
          rw [← hfirst, ← UInt32.toNat_inj]
          rfl
        rw [Pool.drawTotal_cons, List.map_cons, List.zip_cons_cons, List.map_cons, List.sum_cons]
        rw [ih counts candidates (Nat.succ.inj hlen) (Nat.le_of_succ_le_succ hle) fun t ht ht' =>
          hcount (t + 1) (Nat.succ_lt_succ ht) (Nat.succ_lt_succ ht')]
        simp only [hzero]

/-- Both walks stop at the same tier. -/
theorem walk_eq {remaining : Vector UInt32 8} {tiers : List Tier} {candidates : List (List ℕ)} {i roll : ℕ}
    {tier : UInt8} (hlen : tiers.length = candidates.length) (hfits : i + tiers.length ≤ 8)
    (hcount : ∀ t (_ : i + t < 8) (_ : t < candidates.length), remaining[i + t].toNat = candidates[t].length)
    (h : Pool.drawTierWalk remaining tiers i roll = .ok tier) :
    GachaKit.Pool.walk ((tiers.map fun tier => tier.weight.toNat).zip candidates) i roll = tier.toNat := by
  induction tiers generalizing candidates i roll with
  | nil => simp [Pool.drawTierWalk] at h
  | cons first tiers ih =>
    cases candidates with
    | nil => simp at hlen
    | cons list candidates =>
      rw [List.length_cons] at hfits
      have hi : i < 8 := by omega
      have hfirst : remaining[i].toNat = list.length := hcount 0 hi (Nat.succ_pos _)
      have hzero : remaining[i] = 0 ↔ list.length = 0 := by
        rw [← hfirst, ← UInt32.toNat_inj]
        rfl
      have hrest : ∀ t (_ : i + 1 + t < 8) (_ : t < candidates.length),
          remaining[i + 1 + t].toNat = candidates[t].length := fun t ht ht' => by
        have := hcount (t + 1) (by omega) (Nat.succ_lt_succ ht')
        simp only [Nat.add_assoc, Nat.add_comm 1 t]
        exact this
      rw [Pool.drawTierWalk, Vector.getElem?_eq_getElem hi, okOr, ok_bind] at h
      rw [List.map_cons, List.zip_cons_cons, GachaKit.Pool.walk]
      simp only [hzero] at h
      split_ifs at h ⊢ with hempty hroll
      · exact ih (Nat.succ.inj hlen) (by omega) hrest h
      · obtain rfl := pure_eq_ok.mp h
        exact (UInt8.toNat_ofNat_of_lt' (by show i < 256; omega)).symm
      · exact ih (Nat.succ.inj hlen) (by omega) hrest h

/-- Candidates as the other SDK holds them. -/
def toNumbers (candidates : List (List UInt32)) : List (List ℕ) := candidates.map (·.map UInt32.toNat)

/-- The weights as the other SDK reads them. -/
def weightsOf (header : SolanaGacha.Pool) : List ℕ :=
  (header.tiers.toList.take header.tierCount.toNat).map fun tier => tier.weight.toNat

section Draws

variable {header : SolanaGacha.Pool} {candidates : List (List UInt32)}
  (hcount : header.tierCount.toNat ≤ 8) (hlen : candidates.length = header.tierCount.toNat)
  (hsmall : ∀ entries ∈ candidates, entries.length < 2 ^ 32)

include hcount hlen hsmall

/-- One draw of each SDK from the same candidates: both find none left, or select the same one. -/
theorem draw_agrees (hash : FixedBytes 32) : ∃ counts, candidateCounts candidates = .ok counts ∧
    let total := (((weightsOf header).zip (toNumbers candidates)).map fun x =>
      if x.2.length = 0 then 0 else x.1).sum
    (total = 0 ∧ header.draw hash counts = .error GachaError.soldOut) ∨
      (total ≠ 0 ∧ ∃ tier rank entries position, header.draw hash counts = .ok (tier, rank) ∧
        candidates[tier.toNat]? = some entries ∧ entries[rank.toNat]? = some position ∧
        tier.toNat < header.tierCount.toNat ∧
        GachaKit.Pool.walk ((weightsOf header).zip (toNumbers candidates)) 0
          (GachaKit.readU64 hash.val 0 % total) = tier.toNat ∧
        GachaKit.number (GachaKit.readU64 hash.val 8 % entries.length) = rank.toNat) := by
  generalize hcounts : (Vector.ofFn fun tier : Fin 8 =>
    UInt32.ofNat (candidates.getD tier []).length) = counts
  refine ⟨counts, ?_, ?_⟩
  · unfold candidateCounts
    rw [failIf_neg (by rw [hlen, maxTiers]; omega), ok_bind, ← hcounts]
    rfl
  have hget : ∀ t (_ : t < 8) (ht : t < candidates.length), counts[t].toNat = candidates[t].length := by
    intro t ht8 ht
    have := hsmall _ (List.getElem_mem ht)
    rw [← hcounts, Vector.getElem_ofFn, List.getD_eq_getElem?_getD, List.getElem?_eq_getElem ht,
      Option.getD_some]
    exact UInt32.toNat_ofNat_of_lt' this
  generalize htiers : header.tiers.toList.take header.tierCount.toNat = tiers
  have hlength : tiers.length = header.tierCount.toNat := by
    rw [← htiers, List.length_take, Vector.length_toList, min_eq_left hcount]
  have hslice : header.tierSlice = .ok tiers := Pool.tierSlice_eq_ok.mpr ⟨hcount, htiers⟩
  have hweights : weightsOf header = tiers.map fun tier => tier.weight.toNat := by
    rw [weightsOf, htiers]
  -- Both sums are over the tiers with candidates.
  have htotal : Pool.drawTotal tiers counts = (((weightsOf header).zip (toNumbers candidates)).map fun x =>
      if x.2.length = 0 then 0 else x.1).sum := by
    rw [hweights]
    refine total_eq tiers counts.toList (toNumbers candidates) (by simp [toNumbers, hlength, hlen])
      (by simp [toNumbers, hlen, hcount]) fun t ht ht' => ?_
    rw [toNumbers, List.length_map] at ht'
    simp only [Vector.getElem_toList, toNumbers, List.getElem_map, List.length_map]
    exact hget t (by simpa using ht) ht'
  intro total
  have htotal' : Pool.drawTotal tiers counts = total := htotal
  by_cases hzero : total = 0
  · refine .inl ⟨hzero, ?_⟩
    simp only [Pool.draw, Pool.drawTier, hslice, ok_bind, htotal', failIf, if_pos hzero, error_bind]
  refine .inr ⟨hzero, ?_⟩
  obtain ⟨tier, hwalk⟩ := Pool.drawTierWalk_isOk counts tiers 0 ((u64.readAt 0 hash.val).toNat % total)
    (by omega) (by
      rw [List.drop_zero]
      show _ < Pool.drawTotal tiers counts
      rw [htotal']
      exact Nat.mod_lt _ (Nat.pos_of_ne_zero hzero))
  obtain ⟨-, hlt, count, hcandidates, hne⟩ := Pool.drawTierWalk_spec hwalk (by omega)
  have ht : tier.toNat < candidates.length := by omega
  have ht8 : tier.toNat < 8 := by omega
  rw [Vector.getElem?_eq_getElem ht8, Option.some.injEq] at hcandidates
  subst hcandidates
  have hsize := hget tier.toNat ht8 ht
  have hbound := hsmall _ (List.getElem_mem ht)
  have hpos : 0 < candidates[tier.toNat].length := by
    rw [← hsize]
    exact UInt32.pos_iff_ne_zero.mpr hne
  have hmod := Nat.mod_lt (u64.readAt 8 hash.val).toNat hpos
  have hrank : (UInt32.ofNat ((u64.readAt 8 hash.val).toNat % candidates[tier.toNat].length)).toNat =
      (u64.readAt 8 hash.val).toNat % candidates[tier.toNat].length :=
    UInt32.toNat_ofNat_of_lt' (hmod.trans hbound)
  refine ⟨tier, UInt32.ofNat ((u64.readAt 8 hash.val).toNat % candidates[tier.toNat].length),
    candidates[tier.toNat], candidates[tier.toNat][(u64.readAt 8 hash.val).toNat %
      candidates[tier.toNat].length], ?_, List.getElem?_eq_getElem ht, ?_, by omega, ?_, ?_⟩
  · simp only [Pool.draw, Pool.drawTier, hslice, ok_bind, htotal', failIf_neg hzero, hwalk,
      Vector.getElem?_eq_getElem ht8, okOr, failIf_neg hne, hsize]
    rfl
  · rw [hrank]
    exact List.getElem?_eq_getElem hmod
  · rw [GachaKit.readU64_eq (by simp), hweights]
    refine walk_eq (by simp [toNumbers, hlength, hlen]) (by omega)
      (fun t ht ht' => ?_) hwalk
    rw [toNumbers, List.length_map] at ht'
    simp only [Nat.zero_add, toNumbers, List.getElem_map, List.length_map]
    exact hget t (by omega) ht'
  · rw [GachaKit.readU64_eq (by simp), hrank, GachaKit.number, if_pos (by omega)]

end Draws

/-- The candidates after a draw. -/
theorem toNumbers_set (candidates : List (List UInt32)) (t rank : ℕ) (entries : List UInt32) :
    toNumbers (candidates.set t (entries.eraseIdx rank)) =
      (toNumbers candidates).set t ((entries.map UInt32.toNat).eraseIdx rank) := by
  rw [toNumbers, List.map_set, List.eraseIdx_map]
  rfl

/-- Both loops draw the same from the same candidates. -/
theorem drawLoop_agrees {rt : Runtime} {pool : GachaRust.Pool} {beta : FixedBytes 64}
    {candidates : List (List UInt32)} (hcount : pool.header.tierCount.toNat ≤ 8)
    (hlen : candidates.length = pool.header.tierCount.toNat)
    (hsmall : ∀ entries ∈ candidates, entries.length < 2 ^ 32) (i n : ℕ) :
    let x := pool.drawLoop rt beta candidates i n
    let y := GachaKit.Pool.select rt beta (weightsOf pool.header) (toNumbers candidates) i n >>=
      pool.toKit.locate rt
    Agrees (List.map Draw.toKit) x y ∨ Unlocated rt pool.address x y := by
  induction n generalizing candidates i with
  | zero => exact .inl rfl
  | succ n ih =>
    intro x y
    obtain ⟨counts, hcounts, hdraw⟩ := draw_agrees hcount hlen hsmall
      (rt.sha256 (beta.val ++ [UInt8.ofNat i]))
    generalize hx : x = x'
    generalize hy : y = y'
    simp only [x, y, drawLoop, GachaKit.Pool.select, hcounts, ok_bind] at hx hy
    rcases hdraw with ⟨hzero, hsold⟩ | ⟨hzero, tier, rank, entries, position, hdraw, hentries, hposition, htier,
      hwalk, hrank⟩
    · -- No tier has a candidate left.
      rw [hsold] at hx
      rw [failIf, if_pos hzero] at hy
      subst hx hy
      exact .inl rfl
    · have hlist : (toNumbers candidates)[tier.toNat]? = some (entries.map UInt32.toNat) := by
        rw [toNumbers, List.getElem?_map, hentries]
        rfl
      have hrank' : rank.toNat < entries.length := (List.getElem?_eq_some_iff.mp hposition).1
      have hget : (entries.map UInt32.toNat)[rank.toNat]? = some position.toNat := by
        rw [List.getElem?_map, hposition]
        rfl
      rw [hdraw] at hx
      simp only [mapErr, ok_bind, hentries, okOr, hposition] at hx
      simp only [failIf_neg hzero, ok_bind, hwalk, hlist, okOr, List.length_map, hrank,
        failIf_neg (show ¬entries.length = 0 by omega), hget, ← toNumbers_set, bind_assoc, pure_bind,
        GachaKit.Pool.locate] at hy
      have haddress : GachaKit.Item.addressFor rt pool.toKit.address tier.toNat position.toNat =
          GachaKit.pda rt [itemSeed, pool.address.val, [tier], u32.encode position] :=
        GachaKit.Item.addressFor_eq pool.address (by omega) position
      rw [haddress, GachaKit.pda] at hy
      rw [Item.addressFor, findProgramAddress] at hx
      cases hfind : rt.findProgramAddress [itemSeed, pool.address.val, [tier], u32.encode position]
          programId with
      | none =>
        -- The Item that was drawn has no address, which both notice, one of them after its last draw.
        rw [hfind] at hx hy
        refine .inr ⟨hx.symm, ?_, tier, position, hfind⟩
        subst hy
        cases GachaKit.Pool.select rt beta (weightsOf pool.header) _ (i + 1) n with
        | error e => exact ⟨e, rfl⟩
        | ok selected => exact ⟨.other, rfl⟩
      | some derived =>
        rw [hfind] at hx hy
        have hrest := @ih (candidates.set tier.toNat (entries.eraseIdx rank.toNat))
          (by rw [List.length_set, hlen]) (fun list hmem => by
            rcases List.mem_or_eq_of_mem_set hmem with hmem | rfl
            · exact hsmall list hmem
            · have := hsmall entries (List.mem_of_getElem? hentries)
              rw [List.length_eraseIdx_of_lt hrank']
              omega) (i + 1)
        subst hx hy
        have hmap := Agrees.map
          (f := fun draws => (⟨tier, position, derived.1⟩ : Draw) :: draws)
          (g := fun draws => (⟨tier.toNat, position.toNat, derived.1⟩ : GachaKit.Draw) :: draws)
          (fun _ => show _ = List.map Draw.toKit _ from rfl) hrest
        rw [bind_assoc] at hmap
        exact hmap

/-- Both scans push the same positions. -/
theorem scan_agrees {pool : GachaRust.Pool} {tag : UInt32 → UInt8} {ps : List UInt32}
    {candidates : List (List UInt32)} (hread : ∀ p ∈ ps, pool.tag p = .ok (tag p))
    (hkit : ∀ p ∈ ps, pool.toKit.tag p.toNat = (tag p).toNat)
    (htier : ∀ p ∈ ps, (tag p).toNat ≤ candidates.length) {bound : ℕ}
    (hbound : ∀ entries ∈ candidates, entries.length ≤ bound) :
    ∃ scanned, pool.scan ps candidates = .ok scanned ∧
      pool.toKit.scan (ps.map UInt32.toNat) (toNumbers candidates) = .ok (toNumbers scanned) ∧
      scanned.length = candidates.length ∧ ∀ entries ∈ scanned, entries.length ≤ bound + ps.length := by
  induction ps generalizing candidates bound with
  | nil => exact ⟨candidates, rfl, rfl, rfl, hbound⟩
  | cons p ps ih =>
    have hread' := fun q hq => hread q (List.mem_cons_of_mem p hq)
    have hkit' := fun q hq => hkit q (List.mem_cons_of_mem p hq)
    have htier' := fun q hq => htier q (List.mem_cons_of_mem p hq)
    have hle := htier p List.mem_cons_self
    rw [scan, hread p List.mem_cons_self, ok_bind, List.map_cons, GachaKit.Pool.scan,
      hkit p List.mem_cons_self]
    by_cases hzero : tag p = 0
    · obtain ⟨scanned, hscan, hscan', hlen, hentries⟩ := ih hread' hkit' htier' hbound
      refine ⟨scanned, ?_, ?_, hlen, fun entries hmem => ?_⟩
      · rw [if_pos hzero, hscan]
      · rw [hzero, if_neg (by simp)]
        exact hscan'
      · have := hentries entries hmem
        rw [List.length_cons]
        omega
    · have hpos : 0 < (tag p).toNat := UInt8.pos_iff_ne_zero.mpr hzero
      have hlt : (tag p).toNat - 1 < candidates.length := by omega
      have hentry := hbound _ (List.getElem_mem hlt)
      obtain ⟨scanned, hscan, hscan', hlen, hentries⟩ :=
        @ih (candidates.set ((tag p).toNat - 1) (candidates[(tag p).toNat - 1] ++ [p])) hread' hkit'
          (by rwa [List.length_set]) (bound + 1) (fun entries hmem => by
            rcases List.mem_or_eq_of_mem_set hmem with hmem | rfl
            · exact (hbound entries hmem).trans (Nat.le_succ _)
            · rw [List.length_append, List.length_singleton]
              omega)
      refine ⟨scanned, ?_, ?_, by rw [hlen, List.length_set], fun entries hmem => ?_⟩
      · rw [if_neg hzero, List.getElem?_eq_getElem hlt, okOr, ok_bind, hscan]
      · have hlist : (toNumbers candidates)[(tag p).toNat - 1]? =
            some (candidates[(tag p).toNat - 1].map UInt32.toNat) := by
          rw [toNumbers, List.getElem?_map, List.getElem?_eq_getElem hlt]
          rfl
        have hset : (toNumbers candidates).set ((tag p).toNat - 1)
            (candidates[(tag p).toNat - 1].map UInt32.toNat ++ [p.toNat]) =
              toNumbers (candidates.set ((tag p).toNat - 1) (candidates[(tag p).toNat - 1] ++ [p])) := by
          rw [toNumbers, toNumbers, List.map_set, List.map_append]
          rfl
        rw [if_pos hpos, hlist, okOr, ok_bind, hset]
        exact hscan'
      · have := hentries entries hmem
        rw [List.length_cons]
        omega

/-! ## Settlements -/

section Accepted

variable {rt : Runtime} {owner : Pubkey} {pool : GachaRust.Pool}
  (hpool : PoolAccepted rt pool.address owner pool.data pool.header)

include hpool

/-- The scan of the pinned positions, in both SDKs. -/
theorem pinned_agrees (hcomplete : pool.data.length = poolLen + inventorySpace pool.header.inventoryVersion)
    {version : UInt32} (hversion : version ≤ pool.header.inventoryVersion) :
    ∃ scanned, pool.scan (positions version) (List.replicate pool.header.tierCount.toNat []) = .ok scanned ∧
      pool.toKit.scan (List.range version.toNat) (pool.toKit.tiers.map fun _ => []) =
        .ok (toNumbers scanned) ∧
      scanned.length = pool.header.tierCount.toNat ∧ ∀ entries ∈ scanned, entries.length < 2 ^ 32 := by
  have hle := UInt32.le_iff_toNat_le.mp hversion
  have hmem : ∀ p ∈ positions version, p.toNat < version.toNat := by
    intro p hp
    obtain ⟨q, hq, rfl⟩ := List.mem_map.mp hp
    have hlt := List.mem_range.mp hq
    rwa [UInt32.toNat_ofNat_of_lt' (hlt.trans version.toNat_lt)]
  obtain ⟨scanned, hscan, hscan', hlen, hentries⟩ := @scan_agrees pool
    (fun p => tagAt (pool.data.drop poolLen) p.toNat) (positions version)
    (List.replicate pool.header.tierCount.toNat [])
    (fun p hp => by
      have hread := tag_eq_tagAt hcomplete ((hmem p hp).trans_le hle)
      rwa [UInt32.ofNat_toNat] at hread)
    (fun p _ => GachaKit.Pool.tag_eq p.toNat)
    (fun p hp => by
      -- A position was issued, so there are tags, and they were checked.
      have hlt := (hmem p hp).trans_le hle
      have hlong : poolLen < pool.data.length := by
        rw [hcomplete]
        show 256 < 256 + (_ + 63) / 64 * 96
        omega
      rw [List.length_replicate]
      exact (hpool.tags hlong).tier _ (List.mem_map.mpr ⟨p.toNat, List.mem_range.mpr hlt, rfl⟩))
    0 (fun entries hmem => by rw [List.eq_of_mem_replicate hmem]; rfl)
  have hnumbers : (positions version).map UInt32.toNat = List.range version.toNat := by
    rw [positions, List.map_map]
    refine (List.map_congr_left fun p hp => ?_).trans (List.map_id _)
    exact UInt32.toNat_ofNat_of_lt' ((List.mem_range.mp hp).trans version.toNat_lt)
  have hempty : toNumbers (List.replicate pool.header.tierCount.toNat []) =
      pool.toKit.tiers.map fun _ => [] := by
    have hcount : pool.toKit.header.tierCount.toNat ≤ 8 := hpool.tierCount.2
    rw [@GachaKit.Pool.tiers_eq pool.toKit hpool.length hcount, List.map_const', List.length_map,
      List.length_take, Vector.length_toList, min_eq_left hcount, toNumbers, List.map_replicate]
    rfl
  rw [List.length_replicate] at hlen
  refine ⟨scanned, hscan, by rw [← hnumbers, ← hempty]; exact hscan', hlen, fun entries hmem => ?_⟩
  have hbound := hentries entries hmem
  rw [positions, List.length_map, List.length_range] at hbound
  have := version.toNat_lt
  omega

/-- The plans of two accepted snapshots. -/
theorem settle_agrees {pull : GachaRust.Pull} {pullOwner : Pubkey}
    (hpull : PullAccepted rt pull.address pullOwner pull.data pull.header) (proof : FixedBytes 80) :
    Agrees Settlement.toKit (pool.settle rt pull proof) (pool.toKit.settle rt pull.toKit proof) ∨
      Unlocated rt pool.address (pool.settle rt pull proof) (pool.toKit.settle rt pull.toKit proof) := by
  have hlen : poolLen ≤ pool.toKit.data.length := hpool.length
  have hlen' : pullLen ≤ pull.toKit.data.length := hpull.length.ge
  have hheader : pool.toKit.header = pool.header := rfl
  have hheader' : pull.toKit.header = pull.header := rfl
  have hversion := GachaKit.Pool.inventoryVersion_eq hlen
  have hversion' := GachaKit.Pull.inventoryVersion_eq hlen'
  rw [hheader] at hversion
  rw [hheader'] at hversion'
  unfold settle GachaKit.Pool.settle pending GachaKit.Pool.pending
  simp only [bind_assoc]
  refine Agrees.check ?_ rfl fun _ => Agrees.check ?_ rfl fun _ => Agrees.check ?_ rfl fun _ =>
    Agrees.check ?_ rfl fun hissued => Agrees.check ?_ rfl fun hcomplete => ?_
  · rw [GachaKit.Pull.pool_eq]
    rfl
  · rw [Ne, Ne, GachaKit.Pull.status_eq_pending, hheader', Pull.status]
    split_ifs with h <;> simp [h]
  · rw [GachaKit.Pull.index_eq hlen', GachaKit.Pool.nextSettle_eq hlen, Ne, Ne, UInt64.toNat_inj]
    rfl
  · rw [hversion, hversion', UInt32.lt_iff_toNat_lt]
  · rw [hversion]
    rfl
  rw [not_not] at hcomplete
  obtain ⟨scanned, hscan, hscan', hcount, hsmall⟩ :=
    pinned_agrees hpool hcomplete (UInt32.not_lt.mp hissued)
  have halpha : pull.toKit.alpha rt = pull.alpha rt := by
    rw [GachaKit.Pull.alpha, GachaKit.Pull.clientSeed_eq hlen']
    rfl
  have hweights : pool.toKit.tiers.map GachaKit.Tier.weight = weightsOf pool.header := by
    rw [GachaKit.Pool.tiers_eq hlen hpool.tierCount.2, List.map_map]
    rfl
  rw [GachaKit.Pool.operator_eq, halpha, hversion', hweights, GachaKit.Pull.count_eq,
    GachaKit.Pull.buyer_eq, hheader, hheader']
  cases rt.verifyProof pool.header.operator (pull.alpha rt) proof with
  | none => exact .inl rfl
  | some beta =>
    simp only [okOr, ok_bind, hscan, hscan']
    have hdraws := @drawLoop_agrees rt pool beta _ hpool.tierCount.2 hcount hsmall 0 pull.header.count.toNat
    have hmap := Agrees.map
      (f := fun draws => (⟨pool.address, pull.address, pull.header.buyer, pool.header.operator, proof,
        draws⟩ : Settlement))
      (g := fun draws => (⟨pool.address, pull.address, pull.header.buyer, pool.header.operator, proof,
        draws⟩ : GachaKit.Settlement)) (fun _ => show _ = Settlement.toKit _ from rfl) hdraws
    rw [bind_assoc] at hmap
    exact hmap

/-! ## Balances -/

omit hpool in
/-- Rounding to a double changes no number that is small, and makes no large one small. -/
theorem min_number (a b : ℕ) :
    min 10 (min (GachaKit.number a) (GachaKit.number b)) = min 10 (min a b) := by
  have hround : ∀ n, GachaKit.number n = n ∨ (10 ≤ GachaKit.number n ∧ 10 ≤ n) := by
    intro n
    unfold GachaKit.number
    split_ifs with hsmall
    · exact .inl rfl
    refine .inr ⟨?_, by omega⟩
    -- The quotient by the unit has 53 bits.
    have hlog : 53 ≤ n.log2 := (Nat.le_log2 (by omega)).mpr (by omega)
    have hle := Nat.log2_self_le (show n ≠ 0 by omega)
    have hunit : 0 < 2 ^ (n.log2 - 52) := Nat.two_pow_pos _
    have hquotient : 2 ^ 52 ≤ n / 2 ^ (n.log2 - 52) := by
      rw [Nat.le_div_iff_mul_le hunit, ← pow_add, show 52 + (n.log2 - 52) = n.log2 by omega]
      exact hle
    dsimp only
    generalize 2 ^ (n.log2 - 52) = unit at hunit hquotient
    have hmul : 10 ≤ n / unit * unit :=
      calc 10 ≤ 2 ^ 52 * 1 := by omega
        _ ≤ n / unit * unit := Nat.mul_le_mul hquotient hunit
    split_ifs
    · exact hmul
    · rw [Nat.add_mul]
      omega
  have ha := hround a
  have hb := hround b
  omega

/-- The reserve of the pending purchases, unless it is too large. -/
theorem refundAmount_eq (count : UInt64) : pool.header.refundAmount count =
    if (pool.header.price.toNat + pool.header.bondPerDraw.toNat) * count.toNat < 2 ^ 64 then
      .ok ((pool.header.price + pool.header.bondPerDraw) * count)
    else .error .arithmeticOverflow := by
  have hfits : pool.header.price.toNat + pool.header.bondPerDraw.toNat < 2 ^ 64 := by
    have := hpool.refund
    omega
  have hsum : (pool.header.price + pool.header.bondPerDraw).toNat =
      pool.header.price.toNat + pool.header.bondPerDraw.toNat := by
    rw [UInt64.toNat_add, Nat.mod_eq_of_lt hfits]
  unfold Pool.refundAmount UInt64.checkedAdd
  rw [if_pos hfits, Option.bind_some, UInt64.checkedMul, hsum]
  split_ifs <;> rfl

/-- What is spendable. -/
theorem spendableBalance_agrees (balance : UInt64) :
    Agrees UInt64.toNat (pool.spendableBalance balance) (pool.toKit.spendableBalance balance.toNat) := by
  have hlen : poolLen ≤ pool.toKit.data.length := hpool.length
  have hheader : pool.toKit.header = pool.header := rfl
  have hbalance := balance.toNat_lt
  have hfits : pool.header.price.toNat + pool.header.bondPerDraw.toNat < 2 ^ 64 := by
    have := hpool.refund
    omega
  unfold spendableBalance GachaKit.Pool.spendableBalance
  rw [refundAmount_eq hpool, failIf_neg (by unfold GachaKit.maxU64; omega), ok_bind,
    GachaKit.Pool.pendingDraws_eq hlen, GachaKit.Pool.price_eq hlen, GachaKit.Pool.bondPerDraw_eq hlen, hheader]
  dsimp only
  rw [Nat.mul_comm pool.header.pendingDraws.toNat]
  by_cases hreserve :
      (pool.header.price.toNat + pool.header.bondPerDraw.toNat) * pool.header.pendingDraws.toNat < 2 ^ 64
  · rw [if_pos hreserve, failIf_neg (by unfold GachaKit.maxU64; omega), ok_bind]
    have hamount : ((pool.header.price + pool.header.bondPerDraw) * pool.header.pendingDraws).toNat =
        (pool.header.price.toNat + pool.header.bondPerDraw.toNat) * pool.header.pendingDraws.toNat := by
      rw [UInt64.toNat_mul, UInt64.toNat_add, Nat.mod_eq_of_lt hfits, Nat.mod_eq_of_lt hreserve]
    rw [← hamount]
    generalize (pool.header.price + pool.header.bondPerDraw) * pool.header.pendingDraws = reserved
    refine congrArg Except.ok ?_
    by_cases hle : reserved ≤ balance
    · have hle' := UInt64.le_iff_toNat_le.mp hle
      rw [if_pos hle, UInt64.toNat_sub_of_le _ _ hle]
      split_ifs <;> omega
    · have hgt : balance.toNat < reserved.toNat := UInt64.lt_iff_toNat_lt.mp (UInt64.not_le.mp hle)
      rw [if_neg hle, if_neg (by omega)]
      rfl
  · rw [if_neg hreserve, failIf, if_pos (by unfold GachaKit.maxU64; omega)]
    rfl

omit hpool in
/-- The least of the three fits a byte. -/
theorem availableDraws_toNat (free funded : UInt64) :
    (min (min free funded) (UInt64.ofNat maxCount)).toUInt8.toNat =
      min 10 (min free.toNat funded.toNat) := by
  have hmin : ∀ a b : UInt64, (min a b).toNat = min a.toNat b.toNat := by
    intro a b
    change (if a ≤ b then a else b).toNat = _
    split_ifs with h
    · have := UInt64.le_iff_toNat_le.mp h
      omega
    · have := UInt64.lt_iff_toNat_lt.mp (UInt64.not_le.mp h)
      omega
  have hcount : (UInt64.ofNat maxCount).toNat = 10 := by decide
  rw [UInt64.toNat_toUInt8, hmin, hmin, hcount]
  omega

/-- How many draws are available. -/
theorem availableDraws_agrees (balance : UInt64) :
    Agrees UInt8.toNat (pool.availableDraws balance) (pool.toKit.availableDraws balance.toNat) := by
  have hlen : poolLen ≤ pool.toKit.data.length := hpool.length
  have hheader : pool.toKit.header = pool.header := rfl
  have hstatus : pool.status = .active ↔ pool.toKit.status = some .active := by
    unfold status GachaKit.Pool.status
    rw [GachaKit.Pool.status_eq, hheader]
    have hle : pool.header.status.toNat ≤ 2 := UInt8.le_iff_toNat_le.mp hpool.status
    obtain h | h | h : pool.header.status = 0 ∨ pool.header.status = 1 ∨ pool.header.status = 2 := by
      simp only [← UInt8.toNat_inj]
      show _ = 0 ∨ _ = 1 ∨ _ = 2
      omega
    all_goals
      rw [h]
      decide
  unfold availableDraws GachaKit.Pool.availableDraws
  by_cases hactive : pool.status = .active
  swap
  · rw [if_pos hactive, if_pos fun h => hactive (hstatus.mpr h)]
    rfl
  rw [if_neg (not_not.mpr hactive), if_neg (not_not.mpr (hstatus.mp hactive))]
  -- The stock is a sum of at most eight counters.
  generalize htiers : pool.header.tiers.toList.take pool.header.tierCount.toNat = tiers
  have hremaining : pool.header.remaining = .ok (tiers.map fun tier => tier.remaining.toNat).sum := by
    unfold Pool.remaining
    rw [Pool.tierSlice_eq_ok.mpr ⟨hpool.tierCount.2, htiers⟩]
    rfl
  have hsum : pool.toKit.tiers.map GachaKit.Tier.remaining = tiers.map fun tier => tier.remaining.toNat := by
    rw [GachaKit.Pool.tiers_eq hlen hpool.tierCount.2, hheader, htiers, List.map_map]
    rfl
  have hsmall : (tiers.map fun tier => tier.remaining.toNat).sum < 2 ^ 64 := by
    have hle := List.sum_le_card_nsmul (tiers.map fun tier => tier.remaining.toNat) (2 ^ 32) fun n hn => by
      obtain ⟨tier, -, rfl⟩ := List.mem_map.mp hn
      exact tier.remaining.toNat_lt.le
    have hlength : tiers.length ≤ 8 := by
      rw [← htiers, List.length_take, Vector.length_toList]
      omega
    rw [List.length_map, smul_eq_mul] at hle
    omega
  have hspendable := spendableBalance_agrees hpool balance
  rw [hremaining, hsum, GachaKit.Pool.pendingDraws_eq hlen, hheader, GachaKit.Pool.bondPerDraw_eq hlen, hheader]
  generalize (tiers.map fun tier => tier.remaining.toNat).sum = stock at hsmall
  have hstock : (UInt64.ofNat stock).toNat = stock := UInt64.toNat_ofNat_of_lt' hsmall
  simp only [mapErr, ok_bind]
  by_cases hle : pool.header.pendingDraws.toNat ≤ stock
  swap
  · have hnone : (UInt64.ofNat stock).checkedSub pool.header.pendingDraws = none :=
      if_neg (by rwa [hstock])
    have hfail : failIf ((stock : ℤ) - (pool.header.pendingDraws.toNat : ℤ) < 0)
        (GachaKit.Thrown.client .invalidAccount) = .error (.client .invalidAccount) := if_pos (by omega)
    rw [hnone, hfail]
    rfl
  have hfree : (UInt64.ofNat stock).checkedSub pool.header.pendingDraws =
      some (UInt64.ofNat stock - pool.header.pendingDraws) := if_pos (by rwa [hstock])
  have hpass : failIf ((stock : ℤ) - (pool.header.pendingDraws.toNat : ℤ) < 0)
      (GachaKit.Thrown.client .invalidAccount) = .ok () := if_neg (by omega)
  rw [hfree, hpass]
  simp only [okOr, ok_bind]
  have hbond : pool.header.bondPerDraw ≠ 0 := hpool.bondPerDraw
  have hbond' : pool.header.bondPerDraw.toNat ≠ 0 := fun h => hbond (UInt64.toNat_inj.mp h)
  have hstock' : ((stock : ℤ) - pool.header.pendingDraws.toNat).toNat =
      (UInt64.ofNat stock - pool.header.pendingDraws).toNat := by
    rw [UInt64.toNat_sub_of_le _ _ (UInt64.le_iff_toNat_le.mpr (by omega)), hstock]
    omega
  rw [failIf_neg hbond, failIf_neg hbond', hstock']
  generalize UInt64.ofNat stock - pool.header.pendingDraws = free
  generalize pool.header.bondPerDraw = bond
  generalize pool.spendableBalance balance = x at hspendable ⊢
  generalize pool.toKit.spendableBalance balance.toNat = y at hspendable ⊢
  obtain ⟨spendable, rfl, rfl⟩ | ⟨e, rfl, rfl⟩ := hspendable.eq_or_eq
  · refine congrArg Except.ok ?_
    rw [min_number, ← UInt64.toNat_div]
    exact (availableDraws_toNat free (spendable / bond)).symm
  · rfl

end Accepted

end GachaRust.Pool

/-! ## Both SDKs -/

/-- Two calls that accept under the same condition return the same snapshots. -/
theorem toOption_eq {α β ε δ : Type} {x : Except ε α} {y : Except δ β} {same : α → β} {c : Prop} {a : α}
    (hx : ∀ a', x = .ok a' ↔ c ∧ a = a') (hy : ∀ b, y = .ok b ↔ c ∧ same a = b) :
    y.toOption = x.toOption.map same := by
  by_cases hc : c
  · rw [(hx a).mpr ⟨hc, rfl⟩, (hy (same a)).mpr ⟨hc, rfl⟩]
    rfl
  · cases x with
    | ok a' => exact absurd ((hx a').mp rfl).1 hc
    | error _ =>
      cases y with
      | ok b => exact absurd ((hy b).mp rfl).1 hc
      | error _ => rfl

namespace Runtime

open GachaRust

variable (rt : Runtime) (address owner : Pubkey) (data : List UInt8)

/-- The TypeScript SDK returns the snapshots of the Rust SDK. -/
structure SameSnapshots : Prop where
  pool : (GachaKit.Pool.fromAccount rt address owner data).toOption =
    (Pool.fromAccount rt address owner data).toOption.map Pool.toKit
  pull : (GachaKit.Pull.fromAccount rt address owner data).toOption =
    (Pull.fromAccount rt address owner data).toOption.map Pull.toKit
  item : (GachaKit.Item.fromAccount rt address owner data).toOption =
    (Item.fromAccount rt address owner data).toOption.map Item.toKit
  asset : (GachaKit.Asset.fromAccount address owner data).toOption =
    (Asset.fromAccount address owner data).toOption.map Asset.toKit

theorem sameSnapshots : rt.SameSnapshots address owner data where
  pool := toOption_eq (fun _ => Pool.fromAccount_eq_ok) fun _ => GachaKit.Pool.fromAccount_eq_ok
  pull := toOption_eq (fun _ => Pull.fromAccount_eq_ok) fun _ => GachaKit.Pull.fromAccount_eq_ok
  item := toOption_eq (fun _ => Item.fromAccount_eq_ok) fun _ => GachaKit.Item.fromAccount_eq_ok
  asset := by
    unfold Asset.fromAccount
    cases hheader : CoreAsset.fromAccount owner data with
    | ok header =>
      rw [GachaKit.Asset.fromAccount_eq_ok.mpr ⟨header, hheader, rfl⟩]
      rfl
    | error e =>
      cases hkit : GachaKit.Asset.fromAccount address owner data with
      | ok asset =>
        obtain ⟨header, hok, -⟩ := GachaKit.Asset.fromAccount_eq_ok.mp hkit
        rw [hheader] at hok
        cases hok
      | error _ => rfl

/-- For any address, owner and bytes, both SDKs accept the same snapshots, and on the pools that they accept
they agree: on both balances for every balance of the vault, and for every accepted pull and proof on the
plan of the settlement or on the error. Both calls abort where no bump derives an Item's address. -/
theorem sdks_agree : rt.SameSnapshots address owner data ∧
    ∀ pool, Pool.fromAccount rt address owner data = .ok pool →
      (∀ balance : UInt64,
        Agrees UInt64.toNat (pool.spendableBalance balance) (pool.toKit.spendableBalance balance.toNat) ∧
        Agrees UInt8.toNat (pool.availableDraws balance) (pool.toKit.availableDraws balance.toNat)) ∧
      ∀ pullAddress pullOwner pullData pull, Pull.fromAccount rt pullAddress pullOwner pullData = .ok pull →
        ∀ proof, Agrees Settlement.toKit (pool.settle rt pull proof) (pool.toKit.settle rt pull.toKit proof) ∨
          Unlocated rt pool.address (pool.settle rt pull proof) (pool.toKit.settle rt pull.toKit proof) := by
  refine ⟨rt.sameSnapshots address owner data, fun pool hpool => ?_⟩
  obtain ⟨haccepted, rfl⟩ := Pool.fromAccount_eq_ok.mp hpool
  refine ⟨fun balance => ⟨@Pool.spendableBalance_agrees rt owner ⟨address, data⟩ haccepted balance,
    @Pool.availableDraws_agrees rt owner ⟨address, data⟩ haccepted balance⟩, ?_⟩
  intro pullAddress pullOwner pullData pull hpull proof
  obtain ⟨haccepted', rfl⟩ := Pull.fromAccount_eq_ok.mp hpull
  exact @Pool.settle_agrees rt owner ⟨address, data⟩ haccepted ⟨pullAddress, pullData⟩ pullOwner haccepted' proof

/-- The agreement on the sample purchase, from the accounts of both. -/
theorem sdks_agree_sample : ∃ pool pull plan,
    Pool.fromAccount Sample.net.runtime Sample.pool programId (Sample.bought.accounts Sample.pool).data =
      .ok pool ∧
    Pull.fromAccount Sample.net.runtime Sample.pull programId (Sample.bought.accounts Sample.pull).data =
      .ok pull ∧
    pool.settle Sample.net.runtime pull Sample.proof = .ok plan ∧ plan.draws.length = 1 ∧
    pool.toKit.settle Sample.net.runtime pull.toKit Sample.proof = .ok plan.toKit := by
  have hrun : (do
      let pool ← Pool.fromAccount Sample.net.runtime Sample.pool programId
        (Sample.bought.accounts Sample.pool).data
      let pull ← Pull.fromAccount Sample.net.runtime Sample.pull programId
        (Sample.bought.accounts Sample.pull).data
      let plan ← pool.settle Sample.net.runtime pull Sample.proof
      return plan.draws.length) = .ok 1 := by decide +kernel
  obtain ⟨pool, hpool, hrun⟩ := bind_eq_ok.mp hrun
  obtain ⟨pull, hpull, hrun⟩ := bind_eq_ok.mp hrun
  obtain ⟨plan, hplan, hrun⟩ := bind_eq_ok.mp hrun
  refine ⟨pool, pull, plan, hpool, hpull, hplan, Except.ok.inj hrun, ?_⟩
  have hagree := (sdks_agree _ _ _ _).2 pool hpool |>.2 _ _ _ pull hpull Sample.proof
  rw [hplan] at hagree
  rcases hagree with hagree | ⟨hpanic, -⟩
  · exact hagree
  · cases hpanic

end Runtime

end SolanaGacha
