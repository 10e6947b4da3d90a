import SolanaGacha.System.Queue
import SolanaGacha.System.Stock

/-!
# What a purchase draws from

A purchase draws from the positions that were live when it was bought, less those that were awarded in
between, all of them to purchases before it; and no position of a pool is ever awarded twice
(`World.Reached.draws_pinned`).
-/

namespace SolanaGacha

open Except Layout Inventory

/-- The positions of the pool at `P` that the settlements of a run award, in their order. -/
def World.awarded (P : Pubkey) (trace : List (World × Event)) : List ℕ :=
  trace.flatMap fun x => (x.2.move x.1 P).awarded

theorem World.awarded_eq {rt : Runtime} {P : Pubkey} {trace : List (World × Event)}
    {moves : List (Market UInt8 Ticket × Market.Move UInt8 Ticket)}
    (h : List.Forall₂ (fun x y => (x.1.ledger.banner P).Represents rt P y.1 ∧ y.2 = x.2.move x.1 P)
      trace moves) : World.awarded P trace = Market.awarded moves := by
  induction h with
  | nil => rfl
  | cons hxy _ ih =>
    rw [awarded, Market.awarded, List.flatMap_cons, List.flatMap_cons, hxy.2]
    exact congrArg _ ih

theorem Banner.Represents.covered {rt : Runtime} {P : Pubkey} {S : Banner} {m : Market UInt8 Ticket}
    (h : S.Represents rt P m) : m.Covered := by
  cases h with
  | empty => exact ⟨by simp, by simp, by simp⟩
  | opened h => exact h.covered

namespace World

variable {rt : Runtime} (hrt : rt.Lawful) {w w₁ w₂ w₃ : World} {trace : List (World × Event)} {P : Pubkey}

include hrt

/-- A settlement of a purchase is the settlement of the oldest one. -/
theorem Step.settled_head (h : w.Sound rt) {b : SettleAccounts} {e : SettleInstructionData}
    (hstep : Step rt w (.call (.settle b e)) w₁) {pull : Pull} (hpull : w.ledger b.pull.key = .pull pull) :
    ∃ pool index pool' index', w.ledger b.pool.key = .pool pool index ∧
      w₁.ledger b.pool.key = .pool pool' index' ∧ pull.pool = b.pool.key ∧
      pull.status = statusPending ∧ pull.index = pool.nextSettle ∧
      pull.index.toNat + 1 = pool'.nextSettle.toNat := by
  obtain ⟨-, heffect, -⟩ := hstep.effect hrt h
  obtain ⟨pool, index, pull', beta, awards, hset⟩ := heffect
  obtain rfl : pull = pull' := Entry.pull.inj (hpull.symm.trans hset.loadedPull)
  obtain ⟨tiers, index', pendingDraws, nextSettle, -, hnext, -, -, hledger⟩ := hset.ledger
  have hne := Ledger.ne_of_entry hset.loaded hset.loadedPull (by simp)
  refine ⟨pool, index, { pool with tiers, pendingDraws, nextSettle }, index', hset.loaded, ?_,
    hset.samePool, hset.pending, hset.head, hnext⟩
  rw [hledger, Function.update_of_ne hne, Function.update_self]

/-- A purchase that is settled draws from what was live right after it was bought, less what was awarded
in between. -/
theorem Sound.drawn_from (hsound : w.Sound rt) {a : BuyAccounts} {d : BuyInstructionData}
    (hbuy : Step rt w (.call (.buy a d)) w₁) (hrun : Run (Step rt) w₁ trace w₂) {b : SettleAccounts}
    {e : SettleInstructionData} (hsettle : Step rt w₂ (.call (.settle b e)) w₃)
    (hpool : b.pool.key = a.pool.key) {bought pull : Pull} (hbought : w₁.ledger a.pull.key = .pull bought)
    (hpull : w₂.ledger b.pull.key = .pull pull) (hindex : pull.index = bought.index) :
    ∃ pool₁ index₁ pool₂ index₂, w₁.ledger a.pool.key = .pool pool₁ index₁ ∧
      w₂.ledger a.pool.key = .pool pool₂ index₂ ∧
      pool₂.live index₂ pull.inventoryVersion = pool₁.live index₁ pool₁.inventoryVersion \
        (awarded a.pool.key trace).toFinset ∧
      (awarded a.pool.key [(w₂, .call (.settle b e))]).Nodup ∧
      (awarded a.pool.key [(w₂, .call (.settle b e))]).length = pull.count.toNat ∧
      ∀ p ∈ awarded a.pool.key [(w₂, .call (.settle b e))],
        p ∈ pool₂.live index₂ pull.inventoryVersion := by
  have hsound₁ := hbuy.sound hrt hsound
  have hsound₂ := hsound₁.of_run hrt hrun
  obtain ⟨pool₂, index₂, pool₃, index₃, hpool₂, hpool₃, hsame, hpending, hhead, -⟩ :=
    hsettle.settled_head hrt hsound₂ hpull
  rw [hpool] at hpool₂ hpool₃ hsame
  -- The purchase is the last order right after it was accepted, and the first one now.
  obtain ⟨m, hm⟩ := hsound.banner a.pool.key
  obtain ⟨m₁, hmove, hm₁⟩ := hbuy.market hrt hsound hm
  rw [Event.move, Call.move, if_pos rfl] at hmove
  obtain ⟨moves, m₂, hmoves, hm₂, hall⟩ := hsound₁.run hrt hrun hm₁
  obtain ⟨m₃, hmove₃, -⟩ := hsettle.market hrt hsound₂ hm₂
  have hopened₂ := hm₂.of_header (Ledger.banner_pool.mpr hpool₂)
  obtain ⟨pool₁, index₁, hpool₁⟩ : ∃ pool₁ index₁, w₁.ledger a.pool.key = .pool pool₁ index₁ := by
    obtain ⟨-, heffect, -⟩ := hbuy.effect hrt hsound
    obtain ⟨pool, index, new, hnew⟩ := heffect
    obtain ⟨pool₁, index₁, hpool₁, -⟩ := hsound.later hrt hnew.loaded (.single hbuy)
    exact ⟨pool₁, index₁, hpool₁⟩
  have hopened₁ := hm₁.of_header (Ledger.banner_pool.mpr hpool₁)
  generalize hticket : (⟨a.pull.key, d.count.toNat, d.inventoryVersion.toNat⟩ : Ticket) = ticket at hmove
  have hkey : ticket.pull = a.pull.key := hticket ▸ rfl
  cases hmove with
  | reserve _ version stock =>
    have hlast : (m.queue ++ [ticket])[m.queue.length]? = some ticket := by simp
    obtain ⟨pull₁, hpull₁, -, hplace, -⟩ := hopened₁.queued.ticket hlast
    rw [hkey] at hpull₁
    obtain rfl : bought = pull₁ := Entry.pull.inj (hbought.symm.trans (Ledger.banner_pulls.mp hpull₁).1)
    have hserved : m₂.served = m.served + m.queue.length := by
      rw [hopened₂.queued.served, ← hhead, hindex, hplace]
    obtain ⟨⟨front, back, hqueue, hfront⟩, hcandidates⟩ :=
      Market.candidates_of_run hmoves
        (show m.queue ++ [ticket] = m.queue ++ ticket :: [] from rfl) version.le hserved.le
    obtain rfl : front = [] := List.eq_nil_of_length_eq_zero (by
      simp only at hfront
      omega)
    obtain ⟨rest, hqueue'⟩ :=
      hopened₂.queued.head (Ledger.banner_pulls.mpr ⟨hpull, hsame⟩) hpending hhead
    obtain rfl : ticket = pull.ticket b.pull.key :=
      (List.cons.inj (hqueue.symm.trans hqueue')).1
    have hlive : pool₂.live index₂ pull.inventoryVersion =
        Market.candidates m₂.stock pull.inventoryVersion.toNat := by
      rw [Pool.live, hopened₂.tags_eq]
    refine ⟨pool₁, index₁, pool₂, index₂, hpool₁, hpool₂, ?_, ?_⟩
    · have hversion : pull.inventoryVersion.toNat = pool₁.inventoryVersion.toNat :=
        version.trans hopened₁.stock.version
      rw [hlive, Pool.live, hopened₁.tags_eq, awarded_eq hall, ← hversion]
      exact hcandidates
    · have hawarded : awarded a.pool.key [(w₂, .call (.settle b e))] =
          b.items.map fun item => w₂.ledger.position item.key := by
        simp [awarded, Event.move, Call.move, hpool, Market.Move.awarded]
      rw [Event.move, Call.move, if_pos hpool] at hmove₃
      rw [hawarded, hlive]
      cases hmove₃ with
      | award order rest' _ queue length nodup candidate =>
        obtain rfl : pull.ticket b.pull.key = order := (List.cons.inj (hqueue'.symm.trans queue)).1
        exact ⟨nodup, length, candidate⟩

/-- A settlement before that of a purchase is the settlement of an earlier one. -/
theorem Sound.settled_earlier (hsound : w.Sound rt) (hrun : Run (Step rt) w trace w₂) {b : SettleAccounts}
    {e : SettleInstructionData} (hsettle : Step rt w₂ (.call (.settle b e)) w₃) {pull : Pull}
    (hpull : w₂.ledger b.pull.key = .pull pull) (hb : b.pool.key = P) {x : World × Event} (hx : x ∈ trace)
    {c : SettleAccounts} {f : SettleInstructionData} (hcall : x.2 = .call (.settle c f))
    (hc : c.pool.key = P) : ∃ earlier, x.1.ledger c.pull.key = .pull earlier ∧ earlier.index < pull.index := by
  obtain ⟨pool₂, index₂, -, -, hpool₂, -, -, -, hhead, -⟩ :=
    hsettle.settled_head hrt (hsound.of_run hrt hrun) hpull
  rw [hb] at hpool₂
  obtain ⟨v, event⟩ := x
  obtain rfl : event = .call (.settle c f) := hcall
  obtain ⟨before, back, rfl⟩ := List.append_of_mem hx
  obtain ⟨v', hbefore, hstep, hback⟩ := hrun.split
  have hsound' := hsound.of_run hrt hbefore
  obtain ⟨-, heffect, -⟩ := hstep.effect hrt hsound'
  obtain ⟨pool, index, earlier, beta, awards, hset⟩ := heffect
  obtain ⟨pool, index, pool', index', -, hpool', -, -, -, hnext⟩ :=
    hstep.settled_head hrt hsound' hset.loadedPull
  rw [hc] at hpool'
  obtain ⟨pool₄, index₄, hpool₄, hlater⟩ := (hstep.sound hrt hsound').later hrt hpool' hback
  obtain ⟨rfl, rfl⟩ := Entry.pool.inj (hpool₄.symm.trans hpool₂)
  refine ⟨earlier, hset.loadedPull, UInt64.lt_iff_toNat_lt.mpr ?_⟩
  have := hlater.nextSettle
  rw [hhead]
  omega

/-- In every run no position of a pool is awarded twice. -/
theorem Sound.awarded_once (h : w.Sound rt) (hrun : Run (Step rt) w trace w₁) :
    (awarded P trace).Nodup := by
  obtain ⟨m, hm⟩ := h.banner P
  obtain ⟨moves, m', hmoves, -, hall⟩ := h.run hrt hrun hm
  rw [awarded_eq hall]
  exact (Market.nodup_awarded hmoves hm.covered).1

/-- In every run from a reachable state no position of a pool is awarded twice, and a purchase that is
settled draws from the positions that were live right after it was bought, less those that were awarded in
between, all of them to earlier purchases: it is awarded as many distinct ones of them as it asked for. -/
theorem Reached.draws_pinned (hw : w.Reached rt) (P : Pubkey) :
    (∀ trace w', Run (Step rt) w trace w' → (awarded P trace).Nodup) ∧
    ∀ before w₀ w₁ trace w₂ w₃ a d b e bought pull, Run (Step rt) w before w₀ →
      Step rt w₀ (.call (.buy a d)) w₁ → a.pool.key = P → w₁.ledger a.pull.key = .pull bought →
      Run (Step rt) w₁ trace w₂ → Step rt w₂ (.call (.settle b e)) w₃ → b.pool.key = P →
      w₂.ledger b.pull.key = .pull pull → pull.index = bought.index →
      (∃ pool₁ index₁ pool₂ index₂, w₁.ledger P = .pool pool₁ index₁ ∧ w₂.ledger P = .pool pool₂ index₂ ∧
        pool₂.live index₂ pull.inventoryVersion = pool₁.live index₁ pool₁.inventoryVersion \
          (awarded P trace).toFinset ∧
        (awarded P [(w₂, .call (.settle b e))]).Nodup ∧
        (awarded P [(w₂, .call (.settle b e))]).length = pull.count.toNat ∧
        ∀ p ∈ awarded P [(w₂, .call (.settle b e))], p ∈ pool₂.live index₂ pull.inventoryVersion) ∧
      ∀ x ∈ trace, ∀ c f, x.2 = .call (.settle c f) → c.pool.key = P →
        ∃ earlier, x.1.ledger c.pull.key = .pull earlier ∧ earlier.index < pull.index := by
  have hsound := hw.sound hrt
  refine ⟨fun trace w' => hsound.awarded_once hrt, fun before w₀ w₁ trace w₂ w₃ a d b e bought pull hbefore
    hbuy ha hbought hrun hsettle hb hpull hindex => ⟨?_, fun x hx c f hcall hc => ?_⟩⟩
  · subst ha
    exact (hsound.of_run hrt hbefore).drawn_from hrt hbuy hrun hsettle hb hbought hpull hindex
  · exact ((hsound.of_run hrt hbefore).of_run hrt (.single hbuy)).settled_earlier hrt hrun hsettle hpull hb hx
      hcall hc

omit hrt in
/-- The sample purchase, with a pause of the pool before its settlement. -/
theorem Reached.draws_pinned_sample : ∃ a d w₁ trace w₂ b e w₃ bought pull,
    Step Sample.net.runtime Sample.opened (.call (.buy a d)) w₁ ∧ Run (Step Sample.net.runtime) w₁ trace w₂ ∧
    Step Sample.net.runtime w₂ (.call (.settle b e)) w₃ ∧ w₁.ledger a.pull.key = .pull bought ∧
    w₂.ledger b.pull.key = .pull pull ∧ pull.index = bought.index ∧
    ∃ pool₁ index₁ pool₂ index₂, w₁.ledger Sample.pool = .pool pool₁ index₁ ∧
      w₂.ledger Sample.pool = .pool pool₂ index₂ ∧
      pool₂.live index₂ pull.inventoryVersion = pool₁.live index₁ pool₁.inventoryVersion \
        (awarded Sample.pool trace).toFinset ∧
      (awarded Sample.pool [(w₂, .call (.settle b e))]).Nodup ∧
      (awarded Sample.pool [(w₂, .call (.settle b e))]).length = pull.count.toNat ∧
      ∀ p ∈ awarded Sample.pool [(w₂, .call (.settle b e))],
        p ∈ pool₂.live index₂ pull.inventoryVersion := by
  obtain ⟨a, d, ha, hbuy⟩ := Sample.step_buy Sample.opened (Sample.buy 2)
    (p := fun a => a.pool.key = Sample.pool ∧ a.pull.key = Sample.pull) (by decide +kernel) (by decide +kernel)
  obtain ⟨trace, hrun⟩ := Sample.run_after Sample.bought [Sample.setStatus 0] (by decide +kernel)
  obtain ⟨b, e, hb, hsettle⟩ := Sample.step_settle (Sample.after Sample.bought [Sample.setStatus 0])
    (Sample.settle [Sample.item₀]) (p := fun b => b.pool.key = Sample.pool ∧ b.pull.key = Sample.pull)
    (by decide +kernel) (by decide +kernel)
  obtain ⟨bought, hbought, hindex⟩ := Sample.exists_pull (e := Sample.bought.ledger Sample.pull)
    (p := fun pull => pull.index = 0) (by decide +kernel)
  obtain ⟨pull, hpull, hindex'⟩ := Sample.exists_pull
    (e := (Sample.after Sample.bought [Sample.setStatus 0]).ledger Sample.pull)
    (p := fun pull => pull.index = 0) (by decide +kernel)
  simp only [decide_eq_true_eq] at ha hb hindex hindex'
  have hbought : Sample.bought.ledger a.pull.key = .pull bought := ha.2 ▸ hbought
  have hpull : (Sample.after Sample.bought [Sample.setStatus 0]).ledger b.pull.key = .pull pull :=
    hb.2 ▸ hpull
  refine ⟨a, d, _, trace, _, b, e, _, bought, pull, hbuy, hrun, hsettle, hbought, hpull,
    hindex'.trans hindex.symm, ?_⟩
  exact ((Reached.draws_pinned Sample.net.runtime_lawful Sample.opened_reached Sample.pool).2 [] _ _ trace _ _
    a d b e bought pull .nil hbuy ha.1 hbought hrun hsettle hb.1 hpull (hindex'.trans hindex.symm)).1

end World

end SolanaGacha
