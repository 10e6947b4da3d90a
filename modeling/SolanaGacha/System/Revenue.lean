import SolanaGacha.System.Tallies
import SolanaGacha.System.Vault

/-!
# The money of a pool

What a vault holds is the price of every draw that was sold, less what refunds, withdrawals and buybacks paid,
plus what others put in. One step moves exactly its share (`World.Step.vault`), and the books of a run balance
when those of every step do (`Run.balance`). With the reserve that a vault always has, everything that was paid
out and everything that is still owed came in before (`World.Reached.revenue`).
-/

namespace SolanaGacha

open Except Layout

/-! ## Payments -/

/-- A payment moves its amount from one account to another, and changes no other balance. -/
theorem Ledger.Paid.balance {rt : Runtime} {L L' : Ledger} {source destination authority : Pubkey}
    {amount : UInt64} (h : L.Paid rt source destination authority amount L') (v : Pubkey) :
    (L' v).balance + (if v = source ∧ source ≠ destination then amount.toNat else 0) =
      (L v).balance + (if v = destination ∧ source ≠ destination then amount.toNat else 0) := by
  obtain ⟨s, d, hs, hd, -, -, hamount, hcase⟩ := h
  rcases hcase with ⟨heq, rfl⟩ | ⟨hne, hfits, rfl⟩
  · rw [if_neg fun hx => hx.2 heq, if_neg fun hx => hx.2 heq]
  · simp only [Function.update_apply, hne, ne_eq, not_false_eq_true, and_true]
    split_ifs with hvd hvs hvs
    · exact absurd (hvs.symm.trans hvd) hne
    · rw [hvd, hd]
      simp only [Entry.balance, UInt64.toNat_add, Nat.mod_eq_of_lt hfits, Nat.add_zero]
    · rw [hvs, hs]
      simp only [Entry.balance, UInt64.toNat_sub_of_le _ _ (UInt64.le_iff_toNat_le.mpr hamount)]
      omega
    · rfl

namespace Ledger.Vaults

variable {rt : Runtime} {L M L' : Ledger} (hV : L.Vaults rt) {P : Pubkey} {pool : Pool} {index : List UInt8}
  (hP : L P = .pool pool index) (htokens : L.SameTokens M) {source destination authority : Pubkey}
  {amount : UInt64} (h : M.Paid rt source destination authority amount L')

include hV hP htokens h

/-- Out of a vault its pool pays. -/
theorem authority_of_source (hsource : pool.vault = source) : authority = P := by
  obtain ⟨s, d, hs, -, -, hauthority, -⟩ := h
  rw [← hsource] at hs
  obtain ⟨hpda, howner⟩ := hV.owner hP (htokens.token.mp hs)
  exact (hauthority hpda).trans howner

/-- A payment by somebody else to somebody else leaves the vault alone. -/
theorem balance_of_ne (hauthority : authority ≠ P) (hdestination : pool.vault ≠ destination) :
    (L' pool.vault).balance = (L pool.vault).balance := by
  have hbalance := h.balance pool.vault
  rw [if_neg fun hx => hauthority (hV.authority_of_source hP htokens h hx.1),
    if_neg fun hx => hdestination hx.1, htokens.balance] at hbalance
  exact hbalance

omit htokens h in
/-- The account of somebody who is no PDA is no vault. -/
theorem ne_of_owner {v : Pubkey} {token : TokenAccount} (htoken : L v = .token token)
    (howner : ¬rt.IsPda token.owner) : pool.vault ≠ v := by
  rintro rfl
  exact howner (hV.owner hP htoken).1

omit htokens h in
/-- Two pools have two vaults. -/
theorem vault_ne {Q : Pubkey} {pool' : Pool} {index' : List UInt8} (hQ : L Q = .pool pool' index') (hne : Q ≠ P)
    {token : TokenAccount} (htoken : L pool'.vault = .token token) : pool.vault ≠ pool'.vault := by
  intro heq
  have howner := (hV.owner hQ htoken).2
  have howner' := (hV.owner hP (heq ▸ htoken)).2
  exact hne (howner.symm.trans howner')

end Ledger.Vaults

/-! ## Steps -/

/-- Whether an event is a purchase. -/
def Event.isBuy : Event → Bool
  | .call (.buy _ _) => true
  | _ => false

/-- What puts tokens into the vault of the pool at `P` besides its sales: somebody outside of the program, or
the authority of another pool that withdraws to it. -/
def Event.Donates (P vault : Pubkey) : Event → Prop
  | .external => True
  | .call (.withdraw a _) => a.pool.key ≠ P ∧ a.destination.key = vault
  | .call _ => False

/-- What a call takes out of the vault of a pool with these terms. -/
def Tally.paid (t : Tally) (pool : Pool) : ℕ :=
  (pool.price.toNat + pool.bondPerDraw.toNat) * t.refunded + t.withdrawn + t.spent

namespace World

variable {rt : Runtime} (hrt : rt.Lawful) {w w' : World} {e : Event} {P : Pubkey} {pool : Pool}
  {index : List UInt8}

include hrt

/-- A call that others cannot pay into moves its share exactly. -/
theorem Step.vault (h : w.Sound rt) (hstep : Step rt w e w') (hpool : w.ledger P = .pool pool index) :
    (w.ledger pool.vault).balance + pool.price.toNat * (e.tally w P).draws ≤
        (w'.ledger pool.vault).balance + (e.tally w P).paid pool ∧
      (¬e.Donates P pool.vault → (w.ledger pool.vault).balance + pool.price.toNat * (e.tally w P).draws =
        (w'.ledger pool.vault).balance + (e.tally w P).paid pool) := by
  have hV := h.vaults
  have hsame : ∀ {pool' : Pool} {index' : List UInt8}, w.ledger P = .pool pool' index' → pool' = pool :=
    fun hpool' => (Entry.pool.inj (hpool'.symm.trans hpool)).1
  -- A step whose share is nothing keeps the balance.
  have hquiet : (w'.ledger pool.vault).balance = (w.ledger pool.vault).balance → ∀ t : Tally, t.draws = 0 →
      t.paid pool = 0 → (w.ledger pool.vault).balance + pool.price.toNat * t.draws ≤
          (w'.ledger pool.vault).balance + t.paid pool ∧
        (¬e.Donates P pool.vault → (w.ledger pool.vault).balance + pool.price.toNat * t.draws =
          (w'.ledger pool.vault).balance + t.paid pool) := by
    intro heq t hdraws hpaid
    rw [hdraws, hpaid, heq]
    exact ⟨le_rfl, fun _ => rfl⟩
  have hnone : ∀ {r f d a c : ℕ}, ({ restocks := r, resolved := f, released := d, awarded := a, reclaimed := c } :
      Tally).paid pool = 0 := by
    intro r f d a c
    unfold Tally.paid
    simp
  cases e with
  | external =>
    cases hstep with
    | external hexternal =>
      refine ⟨?_, fun hdonates => absurd trivial hdonates⟩
      show (w.ledger pool.vault).balance + pool.price.toNat * 0 ≤ (w'.ledger pool.vault).balance + Tally.paid {} pool
      rw [Nat.mul_zero, hnone]
      rcases Nat.eq_zero_or_pos (w.ledger pool.vault).balance with hzero | hpos
      · rw [hzero]
        exact Nat.zero_le _
      · obtain ⟨token, htoken, -⟩ := Entry.token_of_balance hpos
        obtain ⟨token', htoken', -, -, hle⟩ := hexternal.token _ _ htoken (hV.owner hpool htoken).1
        rw [htoken, htoken']
        exact UInt64.le_iff_toNat_le.mp hle
  | call c =>
    obtain ⟨-, heffect, hgiver⟩ := hstep.effect hrt h
    unfold Event.tally
    cases c with
    | withdraw a d =>
      obtain ⟨pool', index', heffect⟩ := heffect
      have hbalance := heffect.paid.balance pool.vault
      simp only [Call.tally]
      by_cases hP : a.pool.key = P
      · have hvault : pool.vault = a.vault.key := by
          rw [← hsame (hP ▸ heffect.loaded)]
          exact heffect.vault
        -- Its own authority takes the amount, unless the destination is the vault.
        by_cases hself : a.vault.key = a.destination.key
        · rw [if_neg fun hx => hx.2 hself, if_neg fun hx => hx.2 hself] at hbalance
          rw [if_neg fun hx => hx.2 hself]
          exact hquiet hbalance _ rfl hnone
        · rw [if_pos ⟨hvault, hself⟩, if_neg fun hx => hself (hvault.symm.trans hx.1)] at hbalance
          rw [if_pos ⟨hP, hself⟩]
          have hpaid : Tally.paid { withdrawn := d.amount.toNat } pool = d.amount.toNat := by
            unfold Tally.paid
            simp
          rw [hpaid, Nat.mul_zero]
          exact ⟨hbalance.ge, fun _ => hbalance.symm⟩
      · rw [if_neg fun hx => hP hx.1]
        rw [if_neg fun hx => hP (hV.authority_of_source hpool (fun _ => rfl) heffect.paid hx.1)] at hbalance
        refine ⟨?_, fun hdonates => ?_⟩
        · rw [hnone]
          simp only [Nat.mul_zero, Nat.add_zero] at hbalance ⊢
          omega
        · rw [if_neg fun hx => hdonates ⟨hP, hx.1.symm⟩] at hbalance
          exact ((hquiet hbalance _ rfl hnone).2 hdonates)
    | buy a d =>
      obtain ⟨pool', index', pull, heffect⟩ := heffect
      obtain ⟨pendingDraws, nextIndex, amount, reserved, token, left, -, -, -, -, hamount, -, htoken, -, hpaid⟩ :=
        heffect.ledger
      have hopen : w.ledger.SameTokens (Function.update (Function.update w.ledger a.pull.key (.pull pull))
          a.pool.key (.pool { pool' with pendingDraws, nextIndex } index')) :=
        Ledger.read_update₂ Entry.token? (by rw [heffect.vacant]; rfl) (by rw [heffect.loaded]; rfl)
      have hpda : rt.IsPda P := (hV.valid hpool).isPda
      have hbuyer : a.buyer.key ≠ P := fun heq => hgiver a.buyer rfl (heq ▸ hpda)
      simp only [Call.tally]
      split_ifs with hP
      · obtain rfl := hsame (hP ▸ heffect.loaded)
        have hsource : pool'.vault ≠ a.buyerAta.key := fun hx =>
          hbuyer (hV.authority_of_source hpool hopen hpaid hx)
        have hbalance := hpaid.balance pool'.vault
        rw [if_neg fun hx => hsource hx.1, if_pos ⟨heffect.vault, fun hx => hsource (heffect.vault.trans hx.symm)⟩,
          hopen.balance] at hbalance
        have hprice := Pool.payment_eq_ok.mp hamount
        rw [UInt8.toNat_toUInt64] at hprice
        have hzero : Tally.paid { purchases := 1, draws := d.count.toNat } pool' = 0 := by
          unfold Tally.paid
          simp
        rw [hzero]
        simp only [hprice]
        exact ⟨hbalance.ge, fun _ => hbalance.symm⟩
      · refine hquiet (hV.balance_of_ne hpool hopen hpaid hbuyer ?_) _ rfl hnone
        rw [← heffect.vault] at htoken ⊢
        exact hV.vault_ne hpool heffect.loaded hP htoken
    | refund a =>
      obtain ⟨pool', index', pull, heffect⟩ := heffect
      obtain ⟨amount, pendingDraws, nextSettle, M, hamount, -, -, hpaid, hledger⟩ := heffect.ledger
      obtain ⟨token, htoken, howner⟩ := heffect.destination
      have hopen : w.ledger.SameTokens (Function.update w.ledger a.pool.key
          (.pool { pool' with pendingDraws, nextSettle } index')) :=
        Ledger.read_update Entry.token? (by rw [heffect.loaded]; rfl)
      have hne := Ledger.ne_of_entry heffect.loadedPull heffect.loaded (by simp)
      have hM := hpaid.of_pull (by rw [Function.update_of_ne hne, heffect.loadedPull])
      have hclose : M.SameTokens (Function.update M a.pull.key .vacant) :=
        Ledger.read_update Entry.token? (by rw [hM]; rfl)
      obtain ⟨m, hm⟩ := h.opened heffect.loaded
      have hbuyer := (hm.pull (Ledger.banner_pulls.mpr ⟨heffect.loadedPull, heffect.samePool⟩)).buyer
      have hdestination : pool.vault ≠ a.buyerAta.key := hV.ne_of_owner hpool htoken (howner ▸ hbuyer)
      simp only [Call.tally]
      split_ifs with hP
      · obtain rfl := hsame (hP ▸ heffect.loaded)
        have hbalance := hpaid.balance pool'.vault
        have hsource : pool'.vault = a.vault.key := heffect.vault
        rw [if_pos ⟨hsource, fun hx => hdestination (hsource.trans hx)⟩, if_neg fun hx => hdestination hx.1,
          hopen.balance] at hbalance
        have hcount := (Pool.refundAmount_eq_ok.mp hamount).2
        rw [UInt8.toNat_toUInt64] at hcount
        have hdraws : w.ledger.draws a.pull.key = pull.count.toNat := by
          unfold Ledger.draws
          rw [heffect.loadedPull]
        have hshare : Tally.paid { resolved := 1, released := pull.count.toNat, refunded := pull.count.toNat } pool' =
            amount.toNat := by
          unfold Tally.paid
          rw [← hcount, Nat.add_zero, Nat.add_zero]
        rw [hdraws, hshare, hledger, hclose.balance, Nat.mul_zero]
        exact ⟨hbalance.ge, fun _ => hbalance.symm⟩
      · refine hquiet ?_ _ rfl hnone
        rw [hledger, hclose.balance]
        exact hV.balance_of_ne hpool hopen hpaid hP hdestination
    | buyback a d =>
      obtain ⟨pool', index', heffect⟩ := heffect
      obtain ⟨M, hr, hpaid⟩ := heffect.ledger
      obtain ⟨token, htoken, howner⟩ := heffect.destination
      have hdestination : pool.vault ≠ a.destination.key :=
        hV.ne_of_owner hpool htoken (howner ▸ hgiver a.seller rfl)
      simp only [Call.tally]
      split_ifs with hP
      · obtain rfl := hsame (hP ▸ hr.loaded)
        have hbalance := hpaid.balance pool'.vault
        have hsource : pool'.vault = a.vault.key := heffect.vault
        rw [if_pos ⟨hsource, fun hx => hdestination (hsource.trans hx)⟩, if_neg fun hx => hdestination hx.1,
          hr.sameTokens.balance] at hbalance
        have hshare : Tally.paid { restocks := 1, spent := d.price.toNat } pool' = d.price.toNat := by
          unfold Tally.paid
          simp
        rw [hshare, Nat.mul_zero]
        exact ⟨hbalance.ge, fun _ => hbalance.symm⟩
      · exact hquiet (hV.balance_of_ne hpool hr.sameTokens hpaid hP hdestination) _ rfl hnone
    | depositItem a d | reclaim a | settle a d =>
      have hbalance := (Call.Effect.sameTokens heffect rfl).balance pool.vault
      simp only [Call.tally]
      split_ifs <;> exact hquiet hbalance _ rfl hnone
    | createPool a d | setStatus a d | deliver a d | event =>
      exact hquiet ((Call.Effect.sameTokens heffect rfl).balance pool.vault) _ rfl hnone

/-! ## Runs -/

variable {trace : List (World × Event)}

/-- The shares of a run. -/
theorem Sound.vault_of_run (h : w.Sound rt) (hpool : w.ledger P = .pool pool index)
    (hrun : Run (Step rt) w trace w') :
    (w.ledger pool.vault).balance + pool.price.toNat * tallied Tally.draws P trace ≤
        (w'.ledger pool.vault).balance + tallied (fun t => t.paid pool) P trace ∧
      ((∀ x ∈ trace, ¬x.2.Donates P pool.vault) →
        (w.ledger pool.vault).balance + pool.price.toNat * tallied Tally.draws P trace =
          (w'.ledger pool.vault).balance + tallied (fun t => t.paid pool) P trace) := by
  induction hrun with
  | nil => exact ⟨le_rfl, fun _ => rfl⟩
  | @snoc v v' e trace run last ih =>
    obtain ⟨pool₁, index₁, hpool₁, hlater⟩ := h.later hrt hpool run
    -- The terms are the ones that the pool was created with.
    have hvault : pool₁.vault = pool.vault := hlater.terms.vault
    have hpaid : (e.tally v P).paid pool₁ = (e.tally v P).paid pool := by
      unfold Tally.paid
      rw [hlater.terms.price, hlater.terms.bondPerDraw]
    have hstep := last.vault hrt (h.of_run hrt run) hpool₁
    rw [hvault, hpaid, hlater.terms.price] at hstep
    obtain ⟨hle, heq⟩ := ih
    simp only [tallied_snoc, Nat.mul_add]
    refine ⟨by omega, fun hdonates => ?_⟩
    have hbefore := heq fun x hx => hdonates x (List.mem_append_left _ hx)
    have hlast := hstep.2 (hdonates (v, e) (List.mem_append_right _ (List.mem_singleton_self _)))
    omega

/-- Over every run of a pool, what its vault held and the price of every draw that was sold is what the vault
holds and what refunds, withdrawals and buybacks took; others can only add to it. Without such gifts, all that
was paid out and the refund of every draw that is still pending came from there. -/
theorem Reached.revenue (hw : w.Reached rt) (hpool : w.ledger P = .pool pool index)
    (hrun : Run (Step rt) w trace w') :
    ∃ pool' index', w'.ledger P = .pool pool' index' ∧ pool'.vault = pool.vault ∧
      (w.ledger pool.vault).balance + pool.price.toNat * tallied Tally.draws P trace ≤
        (w'.ledger pool.vault).balance +
          ((pool.price.toNat + pool.bondPerDraw.toNat) * tallied Tally.refunded P trace +
            tallied Tally.withdrawn P trace + tallied Tally.spent P trace) ∧
      ((∀ x ∈ trace, ¬x.2.Donates P pool.vault) →
        (w.ledger pool.vault).balance + pool.price.toNat * tallied Tally.draws P trace =
            (w'.ledger pool.vault).balance +
              ((pool.price.toNat + pool.bondPerDraw.toNat) * tallied Tally.refunded P trace +
                tallied Tally.withdrawn P trace + tallied Tally.spent P trace) ∧
          pool'.reserve + ((pool.price.toNat + pool.bondPerDraw.toNat) * tallied Tally.refunded P trace +
              tallied Tally.withdrawn P trace + tallied Tally.spent P trace) ≤
            (w.ledger pool.vault).balance + pool.price.toNat * tallied Tally.draws P trace) := by
  have hsound := hw.sound hrt
  obtain ⟨pool', index', hpool', hlater⟩ := hsound.later hrt hpool hrun
  obtain ⟨hle, heq⟩ := hsound.vault_of_run hrt hpool hrun
  have hshares : tallied (fun t => t.paid pool) P trace =
      (pool.price.toNat + pool.bondPerDraw.toNat) * tallied Tally.refunded P trace +
        tallied Tally.withdrawn P trace + tallied Tally.spent P trace := by
    unfold tallied Tally.paid
    rw [List.sum_map_add, List.sum_map_add, List.sum_map_mul_left]
  rw [hshares] at hle heq
  have hvault : pool'.vault = pool.vault := hlater.terms.vault
  obtain ⟨m, hm⟩ := (hsound.of_run hrt hrun).opened hpool'
  have hfunded := hm.funded
  rw [Ledger.banner_vault hpool', Ledger.banner_reserve hpool', hvault] at hfunded
  refine ⟨pool', index', hpool', hvault, hle, fun hdonates => ⟨heq hdonates, ?_⟩⟩
  rw [heq hdonates]
  show pool'.reserve + _ ≤ _
  exact Nat.add_le_add_right hfunded _

omit hrt in
/-- A purchase of one draw from the sample pool. -/
theorem Reached.revenue_sample : ∃ w trace pool index pool' index',
    Run (Step Sample.net.runtime) Sample.opened trace w ∧
    Sample.opened.ledger Sample.pool = .pool pool index ∧ w.ledger Sample.pool = .pool pool' index' ∧
    (Sample.opened.ledger pool.vault).balance + pool.price.toNat * tallied Tally.draws Sample.pool trace =
      (w.ledger pool.vault).balance +
        ((pool.price.toNat + pool.bondPerDraw.toNat) * tallied Tally.refunded Sample.pool trace +
          tallied Tally.withdrawn Sample.pool trace + tallied Tally.spent Sample.pool trace) ∧
    pool'.reserve + ((pool.price.toNat + pool.bondPerDraw.toNat) * tallied Tally.refunded Sample.pool trace +
        tallied Tally.withdrawn Sample.pool trace + tallied Tally.spent Sample.pool trace) ≤
      (Sample.opened.ledger pool.vault).balance + pool.price.toNat * tallied Tally.draws Sample.pool trace := by
  obtain ⟨trace, w, hrun, hbuys⟩ := Sample.exists_run Sample.net Sample.opened [Sample.buy 2]
    (fun steps => steps.all fun x => x.2.isBuy) (by decide +kernel) (by decide +kernel)
  obtain ⟨pool, index, hpool, -⟩ := Sample.exists_pool (e := Sample.opened.ledger Sample.pool)
    (p := fun _ => true) (by decide +kernel)
  have hreached := Sample.opened_reached
  generalize Sample.opened = start at *
  obtain ⟨pool', index', hpool', -, -, hexact⟩ :=
    Reached.revenue Sample.net.runtime_lawful hreached hpool hrun
  obtain ⟨hequal, hcovered⟩ := hexact fun x hx hdonates => by
    have hbuy := List.all_eq_true.mp hbuys x hx
    obtain ⟨v, e⟩ := x
    cases e with
    | external => cases hbuy
    | call c =>
      cases c with
      | buy a d => exact hdonates
      | _ => cases hbuy
  exact ⟨w, trace, pool, index, pool', index', hrun, hpool, hpool', hequal, hcovered⟩

end World

end SolanaGacha
