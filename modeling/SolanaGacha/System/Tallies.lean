import SolanaGacha.System.Standing

/-!
# The header of a pool is the tally of its history

Each counter of a pool is the sum of what the instructions of its history did: positions issued, purchases,
purchases resolved, draws sold and released, stock that is left. One step changes a counter by its share of the
call (`Event.tally`), which the market of the pool shows (`World.Step.tally`), and the books of a run balance
when those of every step do (`Run.balance`). What a call shows of itself, its data and its accounts, is all that
the tally reads of it, so anybody who watches the chain can check the header (`World.Genesis.tallies`).

After a retirement the shares that would let the pool grow are zero, so a retired pool only runs out
(`World.Reached.runs_out`).
-/

namespace SolanaGacha

open Except Layout Inventory

/-! ## Tallies -/

/-- What a call does to the counters of a pool. -/
structure Tally where
  /-- Positions that a deposit or a buyback issues. -/
  restocks : ℕ := 0
  purchases : ℕ := 0
  /-- Draws that are sold. -/
  draws : ℕ := 0
  /-- Purchases that are settled or refunded. -/
  resolved : ℕ := 0
  /-- Draws of the purchase that is settled or refunded. -/
  released : ℕ := 0
  /-- Prizes that are awarded. -/
  awarded : ℕ := 0
  reclaimed : ℕ := 0
  /-- Draws that are refunded. -/
  refunded : ℕ := 0
  /-- Tokens that the authority takes out of the vault. -/
  withdrawn : ℕ := 0
  /-- Tokens that sellers get. -/
  spent : ℕ := 0

/-- The draws of a purchase. -/
def Ledger.draws (L : Ledger) (key : Pubkey) : ℕ :=
  match L key with
  | .pull pull => pull.count.toNat
  | _ => 0

/-- The share of a call in the counters of the pool at `P`. -/
def Call.tally (L : Ledger) (P : Pubkey) : Call → Tally
  | .depositItem a _ => if a.pool.key = P then { restocks := 1 } else {}
  | .buyback a d => if a.pool.key = P then { restocks := 1, spent := d.price.toNat } else {}
  | .reclaim a => if a.pool.key = P then { reclaimed := 1 } else {}
  | .buy a d => if a.pool.key = P then { purchases := 1, draws := d.count.toNat } else {}
  | .refund a =>
    if a.pool.key = P then
      { resolved := 1, released := L.draws a.pull.key, refunded := L.draws a.pull.key }
    else {}
  | .settle a _ =>
    if a.pool.key = P then
      { resolved := 1, released := L.draws a.pull.key, awarded := a.items.length }
    else {}
  | .withdraw a d =>
    -- A withdrawal into the vault itself moves nothing.
    if a.pool.key = P ∧ a.vault.key ≠ a.destination.key then { withdrawn := d.amount.toNat } else {}
  | .createPool _ _ => {}
  | .setStatus _ _ => {}
  | .deliver _ _ => {}
  | .event => {}

def Event.tally (w : World) (P : Pubkey) : Event → Tally
  | .call c => c.tally w.ledger P
  | .external => {}

/-- The sum of one share over the steps of a run. -/
def tallied (f : Tally → ℕ) (P : Pubkey) (trace : List (World × Event)) : ℕ :=
  (trace.map fun x => f (x.2.tally x.1 P)).sum

theorem tallied_snoc (f : Tally → ℕ) (P : Pubkey) (trace : List (World × Event)) (w : World) (e : Event) :
    tallied f P (trace ++ [(w, e)]) = tallied f P trace + f (e.tally w P) := by
  unfold tallied
  rw [List.map_append, List.sum_append, List.map_singleton, List.sum_singleton]

/-! ## The share of a step -/

/-- A number of the header of the pool at `P`, zero before it is created. -/
def Ledger.counter (f : Pool → ℕ) (P : Pubkey) (L : Ledger) : ℕ := ((L P).pool?.map fun x => f x.1).getD 0

theorem Ledger.counter_eq {f : Pool → ℕ} {L : Ledger} {P : Pubkey} {pool : Pool} {index : List UInt8}
    (h : L P = .pool pool index) : L.counter f P = f pool := by
  unfold counter
  rw [h]
  rfl

/-- The stock of the header that is left. -/
def Pool.left (pool : Pool) : ℕ := (pool.remaining.toOption).getD 0

/-- A counter of the header, read off the market that the pool represents. -/
theorem Banner.Represents.counter {rt : Runtime} {L : Ledger} {P : Pubkey} {m : Market UInt8 Ticket}
    (h : (L.banner P).Represents rt P m) {f : Pool → ℕ} {g : Market UInt8 Ticket → ℕ}
    (hopened : ∀ pool index, (L.banner P).Opened rt P pool index m → f pool = g m)
    (hempty : g ⟨[], [], 0⟩ = 0) : L.counter f P = g m := by
  cases h with
  | empty pool =>
    rw [hempty]
    unfold Ledger.counter
    rw [show (L P).pool? = none from pool]
    rfl
  | @opened pool index _ h =>
    rw [Ledger.counter_eq (Ledger.banner_pool.mp h.header)]
    exact hopened pool index h

namespace World

variable {rt : Runtime} (hrt : rt.Lawful) {w w' : World} {e : Event} {P : Pubkey} {m : Market UInt8 Ticket}

/-- What a call shows of its move. -/
theorem tally_move (w : World) (e : Event) (P : Pubkey) :
    (e.tally w P).restocks = (e.move w P).issues ∧ (e.tally w P).purchases = (e.move w P).accepts ∧
      (e.tally w P).draws = (e.move w P).reserves ∧ (e.tally w P).resolved = (e.move w P).resolves := by
  cases e with
  | external => exact ⟨rfl, rfl, rfl, rfl⟩
  | call c =>
    unfold Event.tally Event.move
    cases c with
    | depositItem a d | buyback a d | reclaim a | buy a d | refund a | settle a d | withdraw a d =>
      simp only [Call.tally, Call.move]
      split_ifs <;> exact ⟨rfl, rfl, rfl, rfl⟩
    | createPool a d | setStatus a d | deliver a d | event => exact ⟨rfl, rfl, rfl, rfl⟩

include hrt

/-- The purchase that a call resolves is the oldest one. -/
theorem Step.released (h : w.Sound rt) (hstep : Step rt w e w') (hm : (w.ledger.banner P).Represents rt P m) :
    (e.tally w P).released = m.released (e.move w P) := by
  have hhead : ∀ {key : Pubkey} {pool : Pool} {index : List UInt8} {pull : Pull},
      w.ledger P = .pool pool index → w.ledger key = .pull pull → pull.pool = P →
        pull.status = statusPending → pull.index = pool.nextSettle → w.ledger.draws key = m.headCount := by
    intro key pool index pull hpool hpull hP hpending hhead
    have hopen := hm.of_header (Ledger.banner_pool.mpr hpool)
    obtain ⟨rest, hqueue⟩ := hopen.queued.head (Ledger.banner_pulls.mpr ⟨hpull, hP⟩) hpending hhead
    unfold Ledger.draws Market.headCount
    rw [hpull, hqueue]
    rfl
  cases e with
  | external => rfl
  | call c =>
    obtain ⟨-, heffect, -⟩ := hstep.effect hrt h
    unfold Event.tally Event.move
    cases c with
    | refund a =>
      simp only [Call.tally, Call.move]
      split_ifs with hP
      · obtain ⟨pool, index, pull, heffect⟩ := heffect
        subst hP
        exact hhead heffect.loaded heffect.loadedPull heffect.samePool heffect.pending heffect.head
      · rfl
    | settle a d =>
      simp only [Call.tally, Call.move]
      split_ifs with hP
      · obtain ⟨pool, index, pull, beta, awards, heffect⟩ := heffect
        subst hP
        exact hhead heffect.loaded heffect.loadedPull heffect.samePool heffect.pending heffect.head
      · rfl
    | depositItem a d | buyback a d | reclaim a | buy a d | withdraw a d =>
      simp only [Call.tally, Call.move]
      split_ifs <;> rfl
    | createPool a d | setStatus a d | deliver a d | event => rfl

/-- What is restocked counts, and what is awarded or reclaimed was there. -/
theorem Step.stock (h : w.Sound rt) (hstep : Step rt w e w') (hm : (w.ledger.banner P).Represents rt P m) :
    (e.tally w P).restocks = (e.move w P).adds ∧
      (e.tally w P).awarded + (e.tally w P).reclaimed = m.taken (e.move w P) := by
  have htier : ∀ {tier : UInt8}, tier.toNat < 8 → (Market.Move.restock (ω := Ticket) (tierTag tier.toNat)).adds = 1 :=
    fun hlt => if_neg (tierTag_ne_zero hlt)
  cases e with
  | external => exact ⟨rfl, rfl⟩
  | call c =>
    obtain ⟨-, heffect, -⟩ := hstep.effect hrt h
    have hrestock : ∀ {item asset giver : Pubkey} {tier bump : UInt8} {pool : Pool} {index : List UInt8}
        {M : Ledger}, Restocks rt w.ledger P item asset giver tier bump pool index M → tier.toNat < 8 := by
      intro item asset giver tier bump pool index M hr
      have hopen := hm.of_header (Ledger.banner_pool.mpr hr.loaded)
      obtain ⟨pool', index', c, hrestocked, -⟩ := hr.ledger
      obtain ⟨hlt, -⟩ := hopen.stock.restock hrestocked
      exact hlt.trans_le hopen.stock.tierCount
    unfold Event.tally Event.move
    cases c with
    | depositItem a d =>
      simp only [Call.tally, Call.move]
      split_ifs with hP
      · obtain ⟨pool, index, heffect⟩ := heffect
        subst hP
        exact ⟨(htier (hrestock heffect.restocks)).symm, rfl⟩
      · exact ⟨rfl, rfl⟩
    | buyback a d =>
      simp only [Call.tally, Call.move]
      split_ifs with hP
      · obtain ⟨pool, index, heffect⟩ := heffect
        subst hP
        obtain ⟨M, hr, -⟩ := heffect.ledger
        exact ⟨(htier (hrestock hr)).symm, rfl⟩
      · exact ⟨rfl, rfl⟩
    | reclaim a =>
      simp only [Call.tally, Call.move]
      split_ifs with hP
      · obtain ⟨pool, index, item, heffect⟩ := heffect
        subst hP
        have hopen := hm.of_header (Ledger.banner_pool.mpr heffect.loaded)
        have hitem := Ledger.banner_items.mpr ⟨heffect.loadedItem, heffect.samePool⟩
        obtain ⟨-, hlt, hlive, -⟩ := hopen.shelved.item hitem
        have hposition : w.ledger.position a.item.key = item.position.toNat := by
          unfold Ledger.position
          rw [heffect.loadedItem]
        have hmem : item.position.toNat ∈ Market.candidates m.stock m.stock.length := by
          apply Market.mem_candidates.mpr
          rw [show m.stock.getD item.position.toNat 0 = _ from hlive]
          exact ⟨hopen.shelved.lt_length hitem, tierTag_ne_zero hlt⟩
        rw [hposition]
        exact ⟨rfl, (if_pos hmem).symm⟩
      · exact ⟨rfl, rfl⟩
    | settle a d =>
      simp only [Call.tally, Call.move]
      split_ifs
      · exact ⟨rfl, (List.length_map _).symm⟩
      · exact ⟨rfl, rfl⟩
    | buy a d | refund a | withdraw a d =>
      simp only [Call.tally, Call.move]
      split_ifs <;> exact ⟨rfl, rfl⟩
    | createPool a d | setStatus a d | deliver a d | event => exact ⟨rfl, rfl⟩

/-- One step changes every counter of a pool by its share of the step. -/
theorem Step.tally (h : w.Sound rt) (hstep : Step rt w e w') (P : Pubkey) :
    w'.ledger.counter (fun pool => pool.inventoryVersion.toNat) P =
        w.ledger.counter (fun pool => pool.inventoryVersion.toNat) P + (e.tally w P).restocks ∧
      w'.ledger.counter (fun pool => pool.nextIndex.toNat) P =
        w.ledger.counter (fun pool => pool.nextIndex.toNat) P + (e.tally w P).purchases ∧
      w'.ledger.counter (fun pool => pool.nextSettle.toNat) P =
        w.ledger.counter (fun pool => pool.nextSettle.toNat) P + (e.tally w P).resolved ∧
      w'.ledger.counter (fun pool => pool.pendingDraws.toNat) P + (e.tally w P).released =
        w.ledger.counter (fun pool => pool.pendingDraws.toNat) P + (e.tally w P).draws ∧
      w'.ledger.counter Pool.left P + ((e.tally w P).awarded + (e.tally w P).reclaimed) =
        w.ledger.counter Pool.left P + (e.tally w P).restocks := by
  obtain ⟨m, hm⟩ := h.banner P
  obtain ⟨m', hmove, hm'⟩ := hstep.market hrt h hm
  obtain ⟨hissues, haccepts, hreserves, hresolves⟩ := tally_move w e P
  obtain ⟨hadds, htaken⟩ := hstep.stock hrt h hm
  have hcovered : m.Covered := by
    cases hm with
    | empty => exact ⟨by simp, List.Pairwise.nil, fun front order back hq => by simp at hq⟩
    | opened hopen => exact hopen.covered
  -- The counters are quantities of the market, before and after.
  have hversion : ∀ {L : Ledger} {m : Market UInt8 Ticket}, (L.banner P).Represents rt P m →
      L.counter (fun pool => pool.inventoryVersion.toNat) P = m.stock.length := fun hm =>
    hm.counter (g := fun m => m.stock.length) (fun _ _ hopen => hopen.stock.version.symm) rfl
  have hnext : ∀ {L : Ledger} {m : Market UInt8 Ticket}, (L.banner P).Represents rt P m →
      L.counter (fun pool => pool.nextIndex.toNat) P = m.accepted := fun hm =>
    hm.counter (g := Market.accepted) (fun _ _ hopen => hopen.queued.next) rfl
  have hserved : ∀ {L : Ledger} {m : Market UInt8 Ticket}, (L.banner P).Represents rt P m →
      L.counter (fun pool => pool.nextSettle.toNat) P = m.served := fun hm =>
    hm.counter (g := Market.served) (fun _ _ hopen => hopen.queued.served.symm) rfl
  have hpending : ∀ {L : Ledger} {m : Market UInt8 Ticket}, (L.banner P).Represents rt P m →
      L.counter (fun pool => pool.pendingDraws.toNat) P = Market.demand m.queue := fun hm =>
    hm.counter (g := fun m => Market.demand m.queue) (fun _ _ hopen => hopen.queued.draws) rfl
  have hleft : ∀ {L : Ledger} {m : Market UInt8 Ticket}, (L.banner P).Represents rt P m →
      L.counter Pool.left P = m.left := fun hm =>
    hm.counter (g := Market.left) (fun pool index hopen => by
      unfold Pool.left
      rw [hopen.stock.remaining_eq]
      rfl) rfl
  rw [hversion hm, hversion hm', hnext hm, hnext hm', hserved hm, hserved hm', hpending hm, hpending hm',
    hleft hm, hleft hm', hissues, haccepts, hresolves, hreserves, hstep.released hrt h hm, htaken]
  refine ⟨hmove.length_stock, hmove.accepted, hmove.served_eq, hmove.demand, ?_⟩
  rw [← hissues, hadds]
  exact hmove.left hcovered

/-! ## Runs -/

variable {trace : List (World × Event)} {pool pool' : Pool} {index index' : List UInt8}

/-- Over a run every counter changes by the tally of its share. -/
theorem Sound.counters_of_run (h : w.Sound rt) (hrun : Run (Step rt) w trace w') (P : Pubkey) :
    w'.ledger.counter (fun pool => pool.inventoryVersion.toNat) P =
        w.ledger.counter (fun pool => pool.inventoryVersion.toNat) P + tallied Tally.restocks P trace ∧
      w'.ledger.counter (fun pool => pool.nextIndex.toNat) P =
        w.ledger.counter (fun pool => pool.nextIndex.toNat) P + tallied Tally.purchases P trace ∧
      w'.ledger.counter (fun pool => pool.nextSettle.toNat) P =
        w.ledger.counter (fun pool => pool.nextSettle.toNat) P + tallied Tally.resolved P trace ∧
      w'.ledger.counter (fun pool => pool.pendingDraws.toNat) P + tallied Tally.released P trace =
        w.ledger.counter (fun pool => pool.pendingDraws.toNat) P + tallied Tally.draws P trace ∧
      w'.ledger.counter Pool.left P + (tallied Tally.awarded P trace + tallied Tally.reclaimed P trace) =
        w.ledger.counter Pool.left P + tallied Tally.restocks P trace := by
  have hbalance : ∀ (amount : World → ℕ) (debit credit : Tally → ℕ),
      (∀ v e v', v.Sound rt → Step rt v e v' →
        amount v' + debit (e.tally v P) = amount v + credit (e.tally v P)) →
      amount w' + tallied debit P trace = amount w + tallied credit P trace := fun _ _ _ hstep =>
    hrun.balance (P := World.Sound rt) (fun _ _ _ hv hlast => hlast.sound hrt hv) hstep h
  have hnothing : tallied (fun _ => 0) P trace = 0 := by
    unfold tallied
    rw [List.map_const', List.sum_replicate, smul_zero]
  have hboth : tallied (fun t => t.awarded + t.reclaimed) P trace =
      tallied Tally.awarded P trace + tallied Tally.reclaimed P trace := List.sum_map_add
  rw [← hboth]
  have hversion := hbalance (fun v => v.ledger.counter (fun pool => pool.inventoryVersion.toNat) P)
    (fun _ => 0) Tally.restocks fun v e v' hv hstep => (hstep.tally hrt hv P).1
  have hnext := hbalance (fun v => v.ledger.counter (fun pool => pool.nextIndex.toNat) P)
    (fun _ => 0) Tally.purchases fun v e v' hv hstep => (hstep.tally hrt hv P).2.1
  have hserved := hbalance (fun v => v.ledger.counter (fun pool => pool.nextSettle.toNat) P)
    (fun _ => 0) Tally.resolved fun v e v' hv hstep => (hstep.tally hrt hv P).2.2.1
  have hpending := hbalance (fun v => v.ledger.counter (fun pool => pool.pendingDraws.toNat) P)
    Tally.released Tally.draws fun v e v' hv hstep => (hstep.tally hrt hv P).2.2.2.1
  have hleft := hbalance (fun v => v.ledger.counter Pool.left P) (fun t => t.awarded + t.reclaimed)
    Tally.restocks fun v e v' hv hstep => (hstep.tally hrt hv P).2.2.2.2
  rw [hnothing, Nat.add_zero] at hversion hnext hserved
  exact ⟨hversion, hnext, hserved, hpending, hleft⟩

/-- In every run from a genesis, the header of every pool is the tally of the run. -/
theorem Genesis.tallies (h : w.Genesis rt) (hrun : Run (Step rt) w trace w')
    (hpool : w'.ledger P = .pool pool index) :
    pool.inventoryVersion.toNat = tallied Tally.restocks P trace ∧
      pool.nextIndex.toNat = tallied Tally.purchases P trace ∧
      pool.nextSettle.toNat = tallied Tally.resolved P trace ∧
      pool.pendingDraws.toNat + tallied Tally.released P trace = tallied Tally.draws P trace ∧
      ∃ left, pool.remaining = .ok left ∧
        left + (tallied Tally.awarded P trace + tallied Tally.reclaimed P trace) =
          tallied Tally.restocks P trace := by
  have hnew : ∀ f : Pool → ℕ, w.ledger.counter f P = 0 := by
    intro f
    unfold Ledger.counter
    rw [((h.foreign P).reads P).1]
    rfl
  obtain ⟨hversion, hnext, hserved, hpending, hleft⟩ := h.sound.counters_of_run hrt hrun P
  simp only [hnew, Nat.zero_add, Ledger.counter_eq hpool] at hversion hnext hserved hpending hleft
  obtain ⟨m, hm⟩ := (h.sound.of_run hrt hrun).opened hpool
  have hremaining := hm.stock.remaining_eq
  unfold Pool.left at hleft
  rw [hremaining] at hleft
  exact ⟨hversion, hnext, hserved, hpending, _, hremaining, hleft⟩

omit hrt in
/-- The sample pool, after two deposits and a purchase. -/
theorem Genesis.tallies_sample : ∃ trace pool index,
    Run (Step Sample.net.runtime) Sample.start trace Sample.bought ∧
    Sample.bought.ledger Sample.pool = .pool pool index ∧ pool.inventoryVersion = 2 ∧
    pool.inventoryVersion.toNat = tallied Tally.restocks Sample.pool trace ∧
    pool.nextIndex.toNat = tallied Tally.purchases Sample.pool trace ∧
    pool.nextSettle.toNat = tallied Tally.resolved Sample.pool trace ∧
    pool.pendingDraws.toNat + tallied Tally.released Sample.pool trace = tallied Tally.draws Sample.pool trace ∧
    ∃ left, pool.remaining = .ok left ∧
      left + (tallied Tally.awarded Sample.pool trace + tallied Tally.reclaimed Sample.pool trace) =
        tallied Tally.restocks Sample.pool trace := by
  obtain ⟨before, hbefore⟩ := Sample.run_after Sample.start [Sample.createPool,
    Sample.depositItem Sample.item₀ Sample.asset₀ 253, Sample.depositItem Sample.item₁ Sample.asset₁ 251,
    Sample.setStatus 1] (by decide +kernel)
  obtain ⟨purchase, hpurchase⟩ := Sample.run_after Sample.opened [Sample.buy 2] (by decide +kernel)
  have hrun : Run (Step Sample.net.runtime) Sample.start (before ++ purchase) Sample.bought :=
    hbefore.append hpurchase
  obtain ⟨pool, index, hpool, hversion⟩ := Sample.exists_pool (e := Sample.bought.ledger Sample.pool)
    (p := fun pool => pool.inventoryVersion = 2) (by decide +kernel)
  have hgenesis : Sample.start.Genesis Sample.net.runtime := Sample.net.genesis (by decide +kernel) 5 0
  generalize Sample.bought = w at *
  exact ⟨_, pool, index, hrun, hpool, by simpa using hversion,
    Genesis.tallies Sample.net.runtime_lawful hgenesis hrun hpool⟩

/-! ## Retirement -/

/-- Nothing is added to a retired pool and nothing is bought from it. -/
theorem Step.tally_of_retired (h : w.Sound rt) (hstep : Step rt w e w') (hpool : w.ledger P = .pool pool index)
    (hretired : pool.status = poolRetired) :
    (e.tally w P).restocks = 0 ∧ (e.tally w P).purchases = 0 ∧ (e.tally w P).draws = 0 := by
  have hsame : ∀ {pool' : Pool} {index' : List UInt8}, w.ledger P = .pool pool' index' →
      pool'.status = poolRetired := by
    intro pool' index' hpool'
    obtain ⟨rfl, -⟩ := Entry.pool.inj (hpool.symm.trans hpool')
    exact hretired
  have hinactive : ∀ {pool' : Pool} {index' : List UInt8}, w.ledger P = .pool pool' index' →
      pool'.status ≠ poolActive := by
    intro pool' index' hpool' hactive
    rw [hsame hpool'] at hactive
    exact absurd hactive (by decide)
  cases e with
  | external => exact ⟨rfl, rfl, rfl⟩
  | call c =>
    obtain ⟨-, heffect, -⟩ := hstep.effect hrt h
    unfold Event.tally
    cases c with
    | depositItem a d =>
      simp only [Call.tally]
      split_ifs with hP
      · obtain ⟨pool', index', heffect⟩ := heffect
        subst hP
        exact absurd (hsame heffect.restocks.loaded) heffect.status
      · exact ⟨rfl, rfl, rfl⟩
    | buyback a d =>
      simp only [Call.tally]
      split_ifs with hP
      · obtain ⟨pool', index', heffect⟩ := heffect
        subst hP
        obtain ⟨M, hr, -⟩ := heffect.ledger
        exact absurd heffect.active (hinactive hr.loaded)
      · exact ⟨rfl, rfl, rfl⟩
    | buy a d =>
      simp only [Call.tally]
      split_ifs with hP
      · obtain ⟨pool', index', pull, heffect⟩ := heffect
        subst hP
        exact absurd heffect.active (hinactive heffect.loaded)
      · exact ⟨rfl, rfl, rfl⟩
    | reclaim a | refund a | settle a d | withdraw a d =>
      simp only [Call.tally]
      split_ifs <;> exact ⟨rfl, rfl, rfl⟩
    | createPool a d | setStatus a d | deliver a d | event => exact ⟨rfl, rfl, rfl⟩

/-- A pool that is retired stays so in every run, with the terms that it had. No position is issued and nothing
is bought any more, and every draw that is released and every prize that is awarded or reclaimed is one less. -/
theorem Reached.runs_out (hw : w.Reached rt) (hpool : w.ledger P = .pool pool index)
    (hretired : pool.status = poolRetired) (hrun : Run (Step rt) w trace w') :
    ∃ pool' index', w'.ledger P = .pool pool' index' ∧ pool'.status = poolRetired ∧
      pool.SameTerms pool' ∧ pool'.nextIndex = pool.nextIndex ∧
      pool'.inventoryVersion = pool.inventoryVersion ∧
      pool'.nextSettle.toNat = pool.nextSettle.toNat + tallied Tally.resolved P trace ∧
      pool'.pendingDraws.toNat + tallied Tally.released P trace = pool.pendingDraws.toNat ∧
      ∃ left left', pool.remaining = .ok left ∧ pool'.remaining = .ok left' ∧
        left' + (tallied Tally.awarded P trace + tallied Tally.reclaimed P trace) = left := by
  have hsound := hw.sound hrt
  have hnothing : tallied Tally.restocks P trace = 0 ∧ tallied Tally.purchases P trace = 0 ∧
      tallied Tally.draws P trace = 0 := by
    induction hrun with
    | nil => exact ⟨rfl, rfl, rfl⟩
    | @snoc v v' e trace run last ih =>
      obtain ⟨pool₁, index₁, hpool₁, hlater⟩ := hsound.later hrt hpool run
      obtain ⟨h1, h2, h3⟩ := last.tally_of_retired hrt (hsound.of_run hrt run) hpool₁ (hlater.retired hretired)
      obtain ⟨ih1, ih2, ih3⟩ := ih
      simp only [tallied_snoc, ih1, ih2, ih3, h1, h2, h3, and_self]
  obtain ⟨hrestocks, hpurchases, hdraws⟩ := hnothing
  obtain ⟨pool', index', hpool', hlater⟩ := hsound.later hrt hpool hrun
  obtain ⟨hversion, hnext, hserved, hpending, hleft⟩ := hsound.counters_of_run hrt hrun P
  simp only [Ledger.counter_eq hpool, Ledger.counter_eq hpool', hrestocks, hpurchases, hdraws, Nat.add_zero]
    at hversion hnext hserved hpending hleft
  obtain ⟨m, hm⟩ := hsound.opened hpool
  obtain ⟨m', hm'⟩ := (hsound.of_run hrt hrun).opened hpool'
  have hremaining := hm.stock.remaining_eq
  have hremaining' := hm'.stock.remaining_eq
  unfold Pool.left at hleft
  rw [hremaining, hremaining'] at hleft
  exact ⟨pool', index', hpool', hlater.retired hretired, hlater.terms, UInt64.toNat_inj.mp hnext,
    UInt32.toNat_inj.mp hversion, hserved, hpending, _, _, hremaining, hremaining', hleft⟩

omit hrt in
/-- The sample pool is retired while a purchase waits, which is settled then. -/
theorem Reached.runs_out_sample : ∃ retired settled trace pool index,
    Run (Step Sample.net.runtime) retired trace settled ∧ retired.ledger Sample.pool = .pool pool index ∧
    pool.pendingDraws = 1 ∧
    ∃ pool' index', settled.ledger Sample.pool = .pool pool' index' ∧ pool'.status = poolRetired ∧
      pool.SameTerms pool' ∧ pool'.nextIndex = pool.nextIndex ∧
      pool'.inventoryVersion = pool.inventoryVersion ∧
      pool'.nextSettle.toNat = pool.nextSettle.toNat + tallied Tally.resolved Sample.pool trace ∧
      pool'.pendingDraws.toNat + tallied Tally.released Sample.pool trace = pool.pendingDraws.toNat ∧
      ∃ left left', pool.remaining = .ok left ∧ pool'.remaining = .ok left' ∧
        left' + (tallied Tally.awarded Sample.pool trace + tallied Tally.reclaimed Sample.pool trace) = left := by
  obtain ⟨trace, hrun⟩ := Sample.run_after (Sample.after Sample.bought [Sample.setStatus 2])
    [Sample.settle [Sample.item₀]] (by decide +kernel)
  obtain ⟨pool, index, hpool, hretired⟩ := Sample.exists_pool
    (e := (Sample.after Sample.bought [Sample.setStatus 2]).ledger Sample.pool)
    (p := fun pool => pool.status = poolRetired ∧ pool.pendingDraws = 1) (by decide +kernel)
  have hreached : World.Reached Sample.net.runtime (Sample.after Sample.bought [Sample.setStatus 2]) :=
    Sample.reached_after Sample.bought_reached (by decide +kernel)
  simp only [decide_eq_true_eq] at hretired
  generalize Sample.after (Sample.after Sample.bought [Sample.setStatus 2]) [Sample.settle [Sample.item₀]] = v at *
  generalize Sample.after Sample.bought [Sample.setStatus 2] = w at *
  exact ⟨w, v, trace, pool, index, hrun, hpool, hretired.2,
    Reached.runs_out Sample.net.runtime_lawful hreached hpool hretired.1 hrun⟩

end World

end SolanaGacha
