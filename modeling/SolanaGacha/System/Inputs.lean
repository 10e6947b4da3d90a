import SolanaGacha.System.Deliveries
import SolanaGacha.System.Purchases

/-!
# VRF inputs

The input of a purchase is `SHA-256(pull || client_seed)`, and its draws are fixed by the operator's proof for
it. A live Pull keeps its address from being bought again, but a refund and the last delivery close the Pull, and
then the same seed buys at the same address: the input repeats, and its output is known
(`World.Genesis.input_reused`). The address is the only place where a purchase leaves a trace, so this is the
only way: in every run whose purchases name no address that an earlier step closed, no input is bought twice and
none is settled twice (`World.Reached.inputs_fresh`).
-/

namespace SolanaGacha

open Except Layout

/-! ## What a run buys, settles and closes -/

/-- What the VRF input hashes. -/
def inputMessage (x : Pubkey × FixedBytes 32) : List UInt8 := x.1.val ++ x.2.val

/-- The VRF input of the Pull at an address with a seed. -/
def Runtime.input (rt : Runtime) (x : Pubkey × FixedBytes 32) : FixedBytes 32 := rt.sha256 (inputMessage x)

/-- The address and the seed of the Pull that a step buys in the pool at `P`. -/
def Event.bought (P : Pubkey) : Event → Option (Pubkey × FixedBytes 32)
  | .call (.buy a d) => if a.pool.key = P then some (a.pull.key, d.clientSeed) else none
  | _ => none

/-- The address and the seed of the Pull of the pool at `P` that a step settles. -/
def Event.settled (w : World) (P : Pubkey) : Event → Option (Pubkey × FixedBytes 32)
  | .call (.settle a _) =>
    ((w.ledger.banner P).pulls a.pull.key).map fun pull => (a.pull.key, pull.clientSeed)
  | _ => none

/-- The address of the Pull of the pool at `P` that a step closes: a refund, or the delivery of the last
outcome. -/
def Event.closed (w : World) (P : Pubkey) : Event → Option Pubkey
  | .call (.refund a) => ((w.ledger.banner P).pulls a.pull.key).map fun _ => a.pull.key
  | .call (.deliver a d) => ((w.ledger.banner P).pulls a.pull.key).bind fun pull =>
    if pull.undelivered = [d.outcome.toNat] then some a.pull.key else none
  | _ => none

/-- The Pulls that a run buys in the pool at `P`. -/
def World.bought (P : Pubkey) (trace : List (World × Event)) : List (Pubkey × FixedBytes 32) :=
  trace.filterMap fun x => x.2.bought P

/-- The Pulls of the pool at `P` that a run settles. -/
def World.settled (P : Pubkey) (trace : List (World × Event)) : List (Pubkey × FixedBytes 32) :=
  trace.filterMap fun x => x.2.settled x.1 P

/-- The addresses of the Pulls of the pool at `P` that a run closes. -/
def World.closed (P : Pubkey) (trace : List (World × Event)) : List Pubkey :=
  trace.filterMap fun x => x.2.closed x.1 P

/-- No purchase names the address of a Pull of the pool that a step before it closed. -/
def World.AvoidsClosed (P : Pubkey) (trace : List (World × Event)) : Prop :=
  ∀ before x after, trace = before ++ x :: after → ∀ k seed, x.2.bought P = some (k, seed) →
    k ∉ World.closed P before

/-- The condition on one step after the other. -/
theorem World.avoidsClosed_snoc {P : Pubkey} {trace : List (World × Event)} {x : World × Event} :
    World.AvoidsClosed P (trace ++ [x]) ↔ World.AvoidsClosed P trace ∧
      ∀ k seed, x.2.bought P = some (k, seed) → k ∉ World.closed P trace := by
  constructor
  · intro h
    constructor
    · intro before y after heq
      apply h before y (after ++ [x])
      rw [heq, List.append_assoc, List.cons_append]
    · exact h trace x [] rfl
  · rintro ⟨hfront, hlast⟩ before y after heq
    rcases List.eq_nil_or_concat after with rfl | ⟨front, z, rfl⟩
    · obtain ⟨rfl, hx⟩ := List.append_inj' heq rfl
      obtain rfl := List.singleton_inj.mp hx
      exact hlast
    · rw [List.concat_eq_append, ← List.cons_append, ← List.append_assoc] at heq
      obtain ⟨rfl, -⟩ := List.append_inj' heq rfl
      exact hfront before y front rfl

/-- The condition, step by step. -/
theorem World.avoidsClosed_iff {P : Pubkey} {steps : List (World × Event)} :
    World.AvoidsClosed P steps ↔ ∀ i (hi : i < steps.length), ∀ x ∈ (steps[i].2.bought P),
      x.1 ∉ World.closed P (steps.take i) := by
  constructor
  · intro h i hi x hx
    exact h (steps.take i) steps[i] (steps.drop (i + 1)) (by simp) x.1 x.2 hx
  · rintro h before x after rfl k seed hbought
    have hclosed := h before.length (by simp) (k, seed)
    rw [List.getElem_append_right (Nat.le_refl _), List.take_left] at hclosed
    apply hclosed
    simpa using hbought

instance World.decidableAvoidsClosed (P : Pubkey) (steps : List (World × Event)) :
    Decidable (World.AvoidsClosed P steps) := decidable_of_iff' _ World.avoidsClosed_iff

/-! ## The Pulls of a pool -/

/-- What a step does to the Pulls of a pool, with what it buys, settles and closes. -/
inductive PullStep (pulls : Pubkey → Option Pull) : Option (Pubkey × FixedBytes 32) →
    Option (Pubkey × FixedBytes 32) → Option Pubkey → (Pubkey → Option Pull) → Prop
  | keep : PullStep pulls none none none pulls
  | buy {k : Pubkey} {seed : FixedBytes 32} {pull : Pull} (vacant : pulls k = none) :
      PullStep pulls (some (k, seed)) none none (Function.update pulls k (some pull))
  | settle {k : Pubkey} {pull pull' : Pull} (live : pulls k = some pull) (pending : pull.status = statusPending)
      (done : pull'.status = statusSettled) :
      PullStep pulls none (some (k, pull.clientSeed)) none (Function.update pulls k (some pull'))
  | deliver {k : Pubkey} {pull pull' : Pull} (live : pulls k = some pull) (done : pull'.status = statusSettled) :
      PullStep pulls none none none (Function.update pulls k (some pull'))
  | close (k : Pubkey) : PullStep pulls none none (some k) (Function.update pulls k none)

/-- The Pulls after a run that bought, settled and closed some: nothing lives at a closed address, and what was
bought or settled lives until it is closed. -/
structure PullHistory (pulls : Pubkey → Option Pull) (bought settled : List (Pubkey × FixedBytes 32))
    (closed : List Pubkey) : Prop where
  gone : ∀ k ∈ closed, pulls k = none
  live : ∀ x ∈ bought, x.1 ∈ closed ∨ (pulls x.1).isSome = true
  done : ∀ x ∈ settled, x.1 ∈ closed ∨ ∃ pull, pulls x.1 = some pull ∧ pull.status = statusSettled
  boughtOnce : (bought.map Prod.fst).Nodup
  settledOnce : (settled.map Prod.fst).Nodup

namespace PullHistory

variable {pulls pulls' : Pubkey → Option Pull} {bought settled : List (Pubkey × FixedBytes 32)}
  {closed : List Pubkey}

theorem start (pulls : Pubkey → Option Pull) : PullHistory pulls [] [] [] where
  gone _ hk := absurd hk List.not_mem_nil
  live _ hx := absurd hx List.not_mem_nil
  done _ hx := absurd hx List.not_mem_nil
  boughtOnce := List.nodup_nil
  settledOnce := List.nodup_nil

/-- A key that a list does not have, behind it. -/
theorem nodup_snoc {l : List (Pubkey × FixedBytes 32)} {k : Pubkey} (seed : FixedBytes 32)
    (hl : (l.map Prod.fst).Nodup) (hk : k ∉ l.map Prod.fst) : ((l ++ [(k, seed)]).map Prod.fst).Nodup := by
  rw [List.map_append, List.map_singleton, List.nodup_append_comm]
  exact List.nodup_cons.mpr ⟨hk, hl⟩

variable (h : PullHistory pulls bought settled closed) {k : Pubkey} {pull pull' : Pull}

include h

theorem ne_of_closed (live : pulls k = some pull) {k' : Pubkey} (hk' : k' ∈ closed) : k' ≠ k := by
  rintro rfl
  rw [h.gone k' hk'] at live
  cases live

/-- A settlement or a delivery writes the Pull. -/
theorem write (live : pulls k = some pull) (done : pull'.status = statusSettled) :
    PullHistory (Function.update pulls k (some pull')) bought settled closed where
  gone k' hk' := by
    rw [Function.update_of_ne (h.ne_of_closed live hk')]
    exact h.gone k' hk'
  live x hx := by
    rw [Function.update_apply]
    split_ifs with hk
    · exact .inr rfl
    · exact h.live x hx
  done x hx := by
    rw [Function.update_apply]
    split_ifs with hk
    · exact .inr ⟨pull', rfl, done⟩
    · exact h.done x hx
  boughtOnce := h.boughtOnce
  settledOnce := h.settledOnce

/-- A pending Pull was not settled yet: what was settled at its address would still be there, or be closed. -/
theorem not_settled (live : pulls k = some pull) (pending : pull.status = statusPending) :
    k ∉ settled.map Prod.fst := by
  intro hmem
  obtain ⟨x, hx, rfl⟩ := List.mem_map.mp hmem
  rcases h.done x hx with hgone | ⟨pull', hlive, hdone⟩
  · exact h.ne_of_closed live hgone rfl
  · obtain rfl := Option.some.inj (live.symm.trans hlive)
    rw [pending] at hdone
    exact absurd hdone (by decide)

theorem settle (live : pulls k = some pull) (pending : pull.status = statusPending)
    (done : pull'.status = statusSettled) (seed : FixedBytes 32) :
    PullHistory (Function.update pulls k (some pull')) bought (settled ++ [(k, seed)]) closed := by
  have hwritten := h.write live done
  refine ⟨hwritten.gone, hwritten.live, fun x hx => ?_, h.boughtOnce,
    nodup_snoc seed h.settledOnce (h.not_settled live pending)⟩
  rcases List.mem_append.mp hx with hx | hx
  · exact hwritten.done x hx
  · obtain rfl := List.mem_singleton.mp hx
    exact .inr ⟨pull', Function.update_self .., done⟩

/-- A purchase at an address that was not closed: a Pull bought there before would still live there. -/
theorem buy (vacant : pulls k = none) (hclosed : k ∉ closed) (seed : FixedBytes 32) :
    PullHistory (Function.update pulls k (some pull)) (bought ++ [(k, seed)]) settled closed := by
  have hnew : k ∉ bought.map Prod.fst := by
    intro hmem
    obtain ⟨x, hx, rfl⟩ := List.mem_map.mp hmem
    rcases h.live x hx with hgone | hlive
    · exact hclosed hgone
    · rw [vacant] at hlive
      cases hlive
  refine ⟨fun k' hk' => ?_, fun x hx => ?_, fun x hx => ?_, nodup_snoc seed h.boughtOnce hnew, h.settledOnce⟩
  · have hne : k' ≠ k := by
      rintro rfl
      exact hclosed hk'
    rw [Function.update_of_ne hne]
    exact h.gone k' hk'
  · rw [Function.update_apply]
    split_ifs with hk
    · exact .inr rfl
    · rcases List.mem_append.mp hx with hx | hx
      · exact h.live x hx
      · obtain rfl := List.mem_singleton.mp hx
        exact absurd rfl hk
  · refine (h.done x hx).imp_right ?_
    rintro ⟨pull', hlive, hdone⟩
    have hne : x.1 ≠ k := by
      intro heq
      rw [heq, vacant] at hlive
      cases hlive
    rw [Function.update_of_ne hne]
    exact ⟨pull', hlive, hdone⟩

theorem close : PullHistory (Function.update pulls k none) bought settled (closed ++ [k]) := by
  refine ⟨fun k' hk' => ?_, fun x hx => ?_, fun x hx => ?_, h.boughtOnce, h.settledOnce⟩
  all_goals
    rw [Function.update_apply]
    split_ifs with hk
  · rfl
  · exact h.gone k' ((List.mem_append.mp hk').resolve_right fun hmem => hk (List.mem_singleton.mp hmem))
  · exact .inl (List.mem_append_right _ (List.mem_singleton.mpr hk))
  · exact (h.live x hx).imp_left (List.mem_append_left _)
  · exact .inl (List.mem_append_right _ (List.mem_singleton.mpr hk))
  · exact (h.done x hx).imp_left (List.mem_append_left _)

/-- A step that does not buy at a closed address. -/
theorem step {b s : Option (Pubkey × FixedBytes 32)} {c : Option Pubkey} (hstep : PullStep pulls b s c pulls')
    (havoids : ∀ k seed, b = some (k, seed) → k ∉ closed) :
    PullHistory pulls' (bought ++ b.toList) (settled ++ s.toList) (closed ++ c.toList) := by
  cases hstep with
  | keep =>
    simp only [Option.toList_none, List.append_nil]
    exact h
  | @buy k seed pull vacant =>
    simp only [Option.toList_none, Option.toList_some, List.append_nil]
    exact h.buy vacant (havoids k seed rfl) seed
  | settle live pending done =>
    simp only [Option.toList_none, Option.toList_some, List.append_nil]
    exact h.settle live pending done _
  | deliver live done =>
    simp only [Option.toList_none, List.append_nil]
    exact h.write live done
  | close =>
    simp only [Option.toList_none, Option.toList_some, List.append_nil]
    exact h.close

end PullHistory

/-! ## Steps -/

/-- The delivery of the last outcome leaves nothing. -/
theorem Pull.undelivered_eq_singleton {pull : Pull} {i : ℕ} (hi : i ∈ pull.undelivered) :
    pull.undelivered = [i] ↔ (pull.undelivered.filter fun j => j ≠ i) = [] := by
  have hnodup : pull.undelivered.Nodup := List.nodup_range.filter _
  constructor
  · intro h
    rw [h]
    simp
  · intro h
    apply List.perm_singleton.mp
    rw [List.perm_ext_iff_of_nodup hnodup (List.nodup_singleton i)]
    intro j
    rw [List.mem_singleton]
    constructor
    · intro hj
      by_contra hne
      have hmem : j ∈ pull.undelivered.filter fun j => j ≠ i := List.mem_filter.mpr ⟨hj, by simpa using hne⟩
      rw [h] at hmem
      cases hmem
    · rintro rfl
      exact hi

/-- What a delivery writes: it closes the Pull exactly with the last outcome. -/
theorem Deliver.Effect.closes {a : DeliverAccounts} {d : DeliverInstructionData} {pool : Pool}
    {index : List UInt8} {pull : Pull} {outcome : Outcome} {L L' : Ledger}
    (h : Deliver.Effect a d pool index pull outcome L L') :
    (L'.banner a.pool.key).pulls = Function.update (L.banner a.pool.key).pulls a.pull.key
      (if pull.undelivered = [d.outcome.toNat] then none else some (pull.marked d.outcome.toNat outcome)) := by
  obtain ⟨all, hall, hpulls⟩ := h.pulls
  have hpromised : pull.promised d.outcome.toNat = some outcome.asset :=
    Pull.promised_eq_some.mpr ⟨h.settled, h.inCount, outcome, h.recorded, h.undelivered, rfl⟩
  have hiff : all = true ↔ pull.undelivered = [d.outcome.toNat] := by
    rw [Pull.undelivered_eq_singleton (Pull.mem_undelivered.mpr ⟨_, hpromised⟩),
      ← Pull.undelivered_marked outcome]
    exact Pull.allDelivered_iff h.settled hall
  rw [hpulls]
  exact congrArg _ (if_congr hiff rfl rfl)

namespace World

variable {rt : Runtime} (hrt : rt.Lawful) {w w' : World} {event : Event}

include hrt

/-- Every step does one of these things to the Pulls of a pool. -/
theorem Step.pullStep (hsound : w.Sound rt) (hstep : Step rt w event w') (P : Pubkey) :
    PullStep (w.ledger.banner P).pulls (event.bought P) (event.settled w P) (event.closed w P)
      (w'.ledger.banner P).pulls := by
  cases event with
  | external =>
    cases hstep with
    | external hexternal =>
      rw [(Ledger.sameBooks hexternal.eq_or_foreign P).pulls]
      exact .keep
  | call c =>
    obtain ⟨-, heffect, -⟩ := hstep.effect hrt hsound
    by_cases hP : c.pool = some P
    · cases c with
      | buy a d =>
        obtain ⟨pool, index, pull, hb⟩ := heffect
        obtain rfl := Option.some.inj hP
        have hvacant : (w.ledger.banner a.pool.key).pulls a.pull.key = none := by
          show (w.ledger a.pull.key).pull? a.pool.key = none
          rw [hb.vacant]
          rfl
        have hbought : Event.bought a.pool.key (.call (.buy a d)) = some (a.pull.key, d.clientSeed) :=
          if_pos rfl
        rw [hbought, hb.pulls]
        exact .buy hvacant
      | refund a =>
        obtain ⟨pool, index, pull, hr⟩ := heffect
        obtain rfl := Option.some.inj hP
        have hlive := Ledger.banner_pulls.mpr ⟨hr.loadedPull, hr.samePool⟩
        have hclosed : Event.closed w a.pool.key (.call (.refund a)) = some a.pull.key :=
          congrArg (Option.map fun _ => a.pull.key) hlive
        rw [hclosed, hr.pulls]
        exact .close a.pull.key
      | settle a d =>
        obtain ⟨pool, index, pull, beta, awards, hs⟩ := heffect
        obtain rfl := Option.some.inj hP
        have hlive := Ledger.banner_pulls.mpr ⟨hs.loadedPull, hs.samePool⟩
        have hsettled : Event.settled w a.pool.key (.call (.settle a d)) = some (a.pull.key, pull.clientSeed) :=
          congrArg (Option.map fun u : Pull => (a.pull.key, u.clientSeed)) hlive
        rw [hsettled, hs.pulls]
        exact .settle hlive hs.pending rfl
      | deliver a d =>
        obtain ⟨pool, index, pull, outcome, hd⟩ := heffect
        obtain rfl := Option.some.inj hP
        have hlive := Ledger.banner_pulls.mpr ⟨hd.loadedPull, hd.samePool⟩
        have hclosed : Event.closed w a.pool.key (.call (.deliver a d)) =
            if pull.undelivered = [d.outcome.toNat] then some a.pull.key else none :=
          congrArg (Option.bind · _) hlive
        rw [hclosed, hd.closes]
        split_ifs with hlast
        · exact .close a.pull.key
        · exact .deliver hlive hd.settled
      | _ =>
        rw [Call.Effect.samePulls heffect rfl P]
        exact .keep
    · -- The Pulls of other pools are no Pulls of this one.
      have hother : ∀ {k Q : Pubkey} {pull : Pull}, w.ledger k = .pull pull → pull.pool = Q →
          c.pool = some Q → (w.ledger.banner P).pulls k = none := by
        intro k Q pull hk hQ hcall
        rw [Option.eq_none_iff_forall_ne_some]
        intro pull' hk'
        obtain ⟨hlive, rfl⟩ := Ledger.banner_pulls.mp hk'
        obtain rfl := Entry.pull.inj (hk.symm.trans hlive)
        exact hP (hQ ▸ hcall)
      rw [(heffect.sameBooks hP).pulls]
      cases c with
      | buy a d =>
        have hbought : Event.bought P (.call (.buy a d)) = none := if_neg fun heq => hP (congrArg some heq)
        rw [hbought]
        exact .keep
      | refund a =>
        obtain ⟨pool, index, pull, hr⟩ := heffect
        have hclosed : Event.closed w P (.call (.refund a)) = none :=
          congrArg (Option.map fun _ => a.pull.key) (hother hr.loadedPull hr.samePool rfl)
        rw [hclosed]
        exact .keep
      | settle a d =>
        obtain ⟨pool, index, pull, beta, awards, hs⟩ := heffect
        have hsettled : Event.settled w P (.call (.settle a d)) = none :=
          congrArg (Option.map fun u : Pull => (a.pull.key, u.clientSeed))
            (hother hs.loadedPull hs.samePool rfl)
        rw [hsettled]
        exact .keep
      | deliver a d =>
        obtain ⟨pool, index, pull, outcome, hd⟩ := heffect
        have hclosed : Event.closed w P (.call (.deliver a d)) = none :=
          congrArg (Option.bind · _) (hother hd.loadedPull hd.samePool rfl)
        rw [hclosed]
        exact .keep
      | _ => exact .keep

/-- A run that avoids the closed addresses: every step of it is one of `PullStep`. -/
theorem Sound.pullHistory (h : w.Sound rt) {P : Pubkey} {trace : List (World × Event)}
    (hrun : Run (Step rt) w trace w') (havoids : AvoidsClosed P trace) :
    PullHistory (w'.ledger.banner P).pulls (bought P trace) (settled P trace) (closed P trace) := by
  induction hrun with
  | nil => exact .start _
  | @snoc u u' event trace run last ih =>
    obtain ⟨hfront, hlast⟩ := avoidsClosed_snoc.mp havoids
    have hstep := last.pullStep hrt (h.of_run hrt run) P
    unfold bought settled closed
    simp only [List.filterMap_snoc]
    exact (ih hfront).step hstep hlast

omit hrt in
/-- Distinct addresses have distinct inputs where the hash has no collision. -/
theorem nodup_inputs {xs ys : List (Pubkey × FixedBytes 32)} (hxs : xs ⊆ ys) (hkeys : (xs.map Prod.fst).Nodup)
    (hsha : ∀ x ∈ ys, ∀ y ∈ ys, rt.sha256 (inputMessage x) = rt.sha256 (inputMessage y) →
      inputMessage x = inputMessage y) : (xs.map rt.input).Nodup := by
  apply List.Nodup.map_on _ (.of_map _ hkeys)
  intro x hx y hy heq
  have hmessage := hsha x (hxs hx) y (hxs hy) heq
  unfold inputMessage at hmessage
  -- Both parts of the message have a fixed length.
  obtain ⟨hkey, hseed⟩ := List.append_inj hmessage (x.1.property.trans y.1.property.symm)
  exact Prod.ext (Subtype.ext hkey) (Subtype.ext hseed)

/-- In every run from a reachable state whose purchases of a pool name no address that an earlier step closed,
all purchases of the pool have different VRF inputs, and so have all its settlements. The hash is assumed to
have no collision among them. -/
theorem Reached.inputs_fresh (hw : w.Reached rt) {trace : List (World × Event)}
    (hrun : Run (Step rt) w trace w') (P : Pubkey) (havoids : AvoidsClosed P trace)
    (hsha : ∀ x ∈ bought P trace ++ settled P trace, ∀ y ∈ bought P trace ++ settled P trace,
      rt.sha256 (inputMessage x) = rt.sha256 (inputMessage y) → inputMessage x = inputMessage y) :
    ((bought P trace).map rt.input).Nodup ∧ ((settled P trace).map rt.input).Nodup := by
  have hhistory := (hw.sound hrt).pullHistory hrt hrun havoids
  constructor
  · exact nodup_inputs (List.subset_append_left _ _) hhistory.boughtOnce hsha
  · exact nodup_inputs (List.subset_append_right _ _) hhistory.settledOnce hsha

end World

/-! ## Two purchases -/

namespace Sample

/-- Another seed, the Pull that it derives, and `SHA-256(pull || client_seed)`. -/
def freshSeed : FixedBytes 32 := ⟨List.replicate 32 10, by simp⟩
def freshPull : Pubkey := hex 32 0x184d61c5a41fb63442ad37a55bfcca3a4c9807983b34fc8d253eb8b34c7ddf9d
def freshAlpha : FixedBytes 32 := hex 32 0x23de5ecbf4f829cbb41259d94154dbee6c62ab15272c7789b9273598a149f0bd

/-- The sample chain with both purchases. -/
def freshNet : Localnet where
  addresses := net.addresses ++ [(([pullSeed, pool.val, freshSeed.val, [255]], programId), freshPull)]
  hashes := net.hashes ++ [(freshPull.val ++ freshSeed.val, freshAlpha)]
  proofs := net.proofs
  signatures := net.signatures
  eventAuthority_known := by decide +kernel

/-- A purchase with the other seed. -/
def freshBuy : Instruction := instruction
  [(buyer, true, true), (pool, false, true), (freshPull, false, true), (buyerAta, false, true),
   (vault, false, true), (tokenId, false, false), (systemId, false, false)]
  (10 :: 1 :: freshSeed.val ++ u32.encode 2 ++ [255])

/-- A purchase that is settled and delivered, up to the close of its Pull. -/
def resolved : List Instruction :=
  [createPool, depositItem item₀ asset₀ 253, depositItem item₁ asset₁ 251, setStatus 1, buy 2,
   settle [item₀], deliver 0 asset₀]

end Sample

namespace World

/-- The sample purchase and then one with another seed. -/
theorem Reached.inputs_fresh_sample : ∃ trace w', Run (Step Sample.freshNet.runtime) Sample.start trace w' ∧
    (bought Sample.pool trace).length = 2 ∧ closed Sample.pool trace = [Sample.pull] ∧
    ((bought Sample.pool trace).map Sample.freshNet.runtime.input).Nodup ∧
    ((settled Sample.pool trace).map Sample.freshNet.runtime.input).Nodup := by
  obtain ⟨trace, w', hrun, htrace⟩ := Sample.exists_run Sample.freshNet Sample.start
    (Sample.resolved ++ [Sample.freshBuy])
    (fun trace => AvoidsClosed Sample.pool trace ∧ closed Sample.pool trace = [Sample.pull] ∧
      bought Sample.pool trace ++ settled Sample.pool trace =
        [(Sample.pull, Sample.clientSeed), (Sample.freshPull, Sample.freshSeed),
         (Sample.pull, Sample.clientSeed)] ∧ (bought Sample.pool trace).length = 2)
    (by decide +kernel) (by decide +kernel)
  obtain ⟨havoids, hclosed, hrecord, hlength⟩ := of_decide_eq_true htrace
  have hstart : Sample.start.Reached Sample.freshNet.runtime :=
    .of_init (Sample.freshNet.genesis (by decide +kernel) 5 0)
  refine ⟨trace, w', hrun, hlength, hclosed, ?_⟩
  apply Reached.inputs_fresh Sample.freshNet.runtime_lawful hstart hrun Sample.pool havoids
  rw [hrecord]
  decide +kernel

/-- The same purchase again after its Pull was closed: it is bought and settled with an input whose output is
known. -/
theorem Genesis.input_reused : ∃ trace w', Sample.start.Genesis Sample.net.runtime ∧
    Run (Step Sample.net.runtime) Sample.start trace w' ∧
    ¬((bought Sample.pool trace).map Sample.net.runtime.input).Nodup ∧
    ¬((settled Sample.pool trace).map Sample.net.runtime.input).Nodup := by
  obtain ⟨trace, w', hrun, htrace⟩ := Sample.exists_run Sample.net Sample.start
    (Sample.resolved ++ [Sample.buy 2, Sample.settle [Sample.item₁]])
    (fun trace => ¬((bought Sample.pool trace).map Sample.net.runtime.input).Nodup ∧
      ¬((settled Sample.pool trace).map Sample.net.runtime.input).Nodup)
    (by decide +kernel) (by decide +kernel)
  exact ⟨trace, w', Sample.net.genesis (by decide +kernel) 5 0, hrun, of_decide_eq_true htrace⟩

end World

end SolanaGacha
