import SolanaGacha.Banner.Calls
import SolanaGacha.Banner.Sound

/-!
# The chain as a transition system

A step of the chain is an instruction of the program that succeeds, or anything else (`External`), which
the runtime restricts: it changes no account of the program, and cannot move what a PDA owns. From a
genesis without accounts of the program, every pool represents a market in every reachable state, and a
run of the chain is a run of each of these markets (`World.Sound.run`).
-/

namespace SolanaGacha

open Except Layout Inventory

/-! ## Steps -/

/-- What happens on chain. -/
inductive Event
  | call (call : Call)
  /-- Anything but an instruction of the program that succeeds. -/
  | external

/-- What other programs, and the runtime itself, can do. -/
structure World.External (rt : Runtime) (w w' : World) : Prop where
  /-- Only the program changes its accounts. -/
  program : ∀ k, (w.accounts k).owner = programId → (w'.accounts k).SameState (w.accounts k)
  /-- An account that is assigned to the program holds zero bytes. -/
  assigned : ∀ k, (w.accounts k).owner ≠ programId → (w'.accounts k).owner = programId →
    ∃ n, (w'.accounts k).data = List.replicate n 0
  /-- The associated token account of a PDA is one of its own. -/
  vault : ∀ {P mint v token}, rt.IsPda P → rt.ata P mint = some v → w'.ledger v = .token token →
    token.owner = P ∧ token.mint = mint
  /-- From a token account of a PDA only the PDA transfers, and it cannot be closed without it. -/
  token : ∀ k token, w.ledger k = .token token → rt.IsPda token.owner →
    ∃ token', w'.ledger k = .token token' ∧ token'.owner = token.owner ∧ token'.mint = token.mint ∧
      token.amount ≤ token'.amount
  /-- An asset of a PDA moves with the signature of the PDA only. -/
  asset : ∀ k asset, w.ledger k = .asset asset → rt.IsPda asset.owner →
    ∃ asset', w'.ledger k = .asset asset' ∧ asset'.owner = asset.owner

/-- A step of the chain. An instruction is signed by whoever holds a key, which is nobody for a PDA. -/
inductive World.Step (rt : Runtime) (w : World) : Event → World → Prop
  | call {ix : Instruction} {call : Call} {w' : World}
      (signers : ∀ info ∈ ix.accounts, info.isSigner = true → ¬rt.IsPda info.key)
      (parse : ix.parse w = .ok call) (process : processInstruction rt w ix = .ok w') :
      Step rt w (.call call) w'
  | external {w' : World} (h : w.External rt w') : Step rt w .external w'

/-- The chain before the first instruction of the program. -/
structure World.Genesis (rt : Runtime) (w : World) : Prop where
  program : ∀ k, (w.accounts k).owner = programId → ∃ n, (w.accounts k).data = List.replicate n 0
  vault : ∀ {P mint v token}, rt.IsPda P → rt.ata P mint = some v → w.ledger v = .token token →
    token.owner = P ∧ token.mint = mint

/-- The states that the chain can reach. -/
abbrev World.Reached (rt : Runtime) (w : World) : Prop :=
  Reachable (World.Genesis rt) (World.Step rt) w

/-- The move of an event in the market of the pool at `P`. -/
def Event.move (w : World) (P : Pubkey) : Event → Market.Move UInt8 Ticket
  | .call c => c.move w.ledger P
  | .external => .idle

/-! ## Token accounts -/

/-- Token accounts keep their owners and mints. -/
def Ledger.KeepsOwners (L L' : Ledger) : Prop := ∀ k token', L' k = .token token' →
  ∃ token, L k = .token token ∧ token.owner = token'.owner ∧ token.mint = token'.mint

namespace Ledger

variable {rt : Runtime} {L M L' : Ledger}

theorem KeepsOwners.trans (h : L.KeepsOwners M) (h' : M.KeepsOwners L') : L.KeepsOwners L' := by
  intro k token' hk
  obtain ⟨token, hM, ho, hm⟩ := h' k token' hk
  obtain ⟨token₀, hL, ho', hm'⟩ := h k token hM
  exact ⟨token₀, hL, ho'.trans ho, hm'.trans hm⟩

theorem SameTokens.keepsOwners (h : L.SameTokens M) : L.KeepsOwners M :=
  fun _ token hk => ⟨token, h.token.mp hk, rfl, rfl⟩

theorem Paid.keepsOwners {source destination authority : Pubkey} {amount : UInt64}
    (h : L.Paid rt source destination authority amount L') : L.KeepsOwners L' := by
  intro k token' hk
  rcases h.eq_or_tokens k with heq | ⟨s, s', hs, hs', howner, hmint⟩
  · exact ⟨token', heq ▸ hk, rfl, rfl⟩
  · obtain rfl : s' = token' := Entry.token.inj (hs'.symm.trans hk)
    exact ⟨s, hs, howner.symm, hmint.symm⟩

end Ledger

/-- The calls that move tokens. -/
def Call.isPayment : Call → Bool
  | .withdraw _ _ => true
  | .buy _ _ => true
  | .refund _ => true
  | .buyback _ _ => true
  | _ => false

section Tokens

variable {rt : Runtime} {slot : UInt64} {time : Int64} {L L' : Ledger} {call : Call}
  (h : call.Effect rt slot time L L')

include h

/-- The other calls leave all token accounts alone. -/
theorem Call.Effect.sameTokens (hquiet : call.isPayment = false) : L.SameTokens L' := by
  cases call with
  | createPool a d =>
    obtain ⟨pool, rfl, -⟩ := CreatePool.Effect.fresh h
    exact Ledger.read_update Entry.token? (by rw [h.vacant]; rfl)
  | depositItem a d =>
    obtain ⟨pool, index, h⟩ := h
    exact h.restocks.sameTokens
  | setStatus a d =>
    obtain ⟨pool, index, h⟩ := h
    rw [h.ledger]
    exact Ledger.read_update Entry.token? (by rw [h.loaded]; rfl)
  | reclaim a =>
    obtain ⟨pool, index, item, h⟩ := h
    obtain ⟨tiers, index', asset, -, -, hasset, -, rfl⟩ := h.ledger
    exact Ledger.read_update₃ Entry.token? (by rw [h.loaded]; rfl)
      (by rw [hasset]; rfl) (by rw [h.loadedItem]; rfl)
  | settle a d =>
    obtain ⟨pool, index, pull, beta, awards, h⟩ := h
    obtain ⟨tiers, index', pendingDraws, nextSettle, -, -, -, -, rfl⟩ := h.ledger
    have hvacate : L.SameTokens (L.vacate (awards.map Award.account)) := by
      refine Ledger.read_vacate Entry.token? fun k hk => ?_
      obtain ⟨award, haward, rfl⟩ := List.mem_map.mp hk
      rw [(h.item award haward).1]
      rfl
    intro k
    refine (Ledger.read_update₂ Entry.token? ?_ ?_ k).trans (hvacate k)
    · rw [hvacate, h.loaded]
      rfl
    · rw [hvacate, h.loadedPull]
      rfl
  | deliver a d =>
    obtain ⟨pool, index, pull, outcome, h⟩ := h
    obtain ⟨asset, all, hasset, -, -, rfl⟩ := h.ledger
    refine Ledger.read_update₂ Entry.token? (by rw [hasset]; rfl) ?_
    rw [h.loadedPull]
    split_ifs <;> rfl
  | event =>
    obtain rfl := h
    exact fun _ => rfl
  | withdraw a d => cases hquiet
  | buy a d => cases hquiet
  | refund a => cases hquiet
  | buyback a d => cases hquiet

/-- No call changes the owner or the mint of a token account. -/
theorem Call.Effect.keepsOwners : L.KeepsOwners L' := by
  cases call with
  | withdraw a d =>
    obtain ⟨pool, index, h⟩ := h
    exact h.paid.keepsOwners
  | buy a d =>
    obtain ⟨pool, index, pull, h⟩ := h
    obtain ⟨pendingDraws, nextIndex, amount, reserved, token, left, -, -, -, -, -, -, -, -, hpaid⟩ :=
      h.ledger
    refine Ledger.KeepsOwners.trans (Ledger.SameTokens.keepsOwners ?_) hpaid.keepsOwners
    exact Ledger.read_update₂ Entry.token? (by rw [h.vacant]; rfl) (by rw [h.loaded]; rfl)
  | refund a =>
    obtain ⟨pool, index, pull, h⟩ := h
    obtain ⟨amount, pendingDraws, nextSettle, M, -, -, -, hpaid, rfl⟩ := h.ledger
    have hne := Ledger.ne_of_entry h.loadedPull h.loaded (by simp)
    have hM := hpaid.of_pull (by rw [Function.update_of_ne hne, h.loadedPull])
    refine Ledger.KeepsOwners.trans (Ledger.SameTokens.keepsOwners ?_)
      (hpaid.keepsOwners.trans (Ledger.SameTokens.keepsOwners ?_))
    · exact Ledger.read_update Entry.token? (by rw [h.loaded]; rfl)
    · exact Ledger.read_update Entry.token? (by rw [hM]; rfl)
  | buyback a d =>
    obtain ⟨pool, index, h⟩ := h
    obtain ⟨M, hr, hpaid⟩ := h.ledger
    exact hr.sameTokens.keepsOwners.trans hpaid.keepsOwners
  | _ => exact (Call.Effect.sameTokens h rfl).keepsOwners

end Tokens

/-! ## External steps -/

/-- An account of the program that holds zero bytes is none of its kinds. -/
theorem Account.entry_of_zeros {account : Account} (hown : account.owner = programId) {n : ℕ}
    (hdata : account.data = List.replicate n 0) : account.entry = .other := by
  have hversion : u8.decode account.data = 0 := by
    rw [hdata]
    cases n <;> rfl
  have hne : ∀ {v : UInt8}, v ≠ 0 → u8.decode account.data ≠ v := fun hv heq => hv (heq ▸ hversion)
  have hspec := @entry_spec account
  cases hentry : account.entry with
  | other => rfl
  | vacant =>
    rw [hentry] at hspec
    exact absurd (hspec.1.symm.trans hown) systemId_ne_programId
  | pool pool index =>
    rw [hentry] at hspec
    obtain ⟨-, rfl, hv, -⟩ := Pool.load_eq_ok.mp hspec.1
    exact absurd hv (hne (by decide))
  | item item =>
    rw [hentry] at hspec
    obtain ⟨-, rfl, hv, -⟩ := Item.load_eq_ok.mp hspec
    exact absurd hv (hne (by decide))
  | pull pull =>
    rw [hentry] at hspec
    obtain ⟨-, rfl, hv, -⟩ := Pull.load_eq_ok.mp hspec
    exact absurd hv (hne (by decide))
  | token token =>
    rw [hentry] at hspec
    exact absurd ((TokenAccount.load_eq_ok.mp hspec).1.symm.trans hown) tokenId_ne_programId
  | asset asset =>
    rw [hentry] at hspec
    exact absurd ((owner_of_fromAccount hspec).symm.trans hown) coreId_ne_programId

/-- An account of another program is none of the program's kinds. -/
theorem Account.foreign_of_owner {account : Account} (hown : account.owner ≠ programId) :
    account.entry.Foreign := by
  have hspec := @entry_spec account
  cases hentry : account.entry with
  | pool pool index =>
    rw [hentry] at hspec
    exact absurd (Pool.load_eq_ok.mp hspec.1).1 hown
  | item item =>
    rw [hentry] at hspec
    exact absurd (Item.load_eq_ok.mp hspec).1 hown
  | pull pull =>
    rw [hentry] at hspec
    exact absurd (Pull.load_eq_ok.mp hspec).1 hown
  | _ => trivial

theorem World.Genesis.foreign {rt : Runtime} {w : World} (h : w.Genesis rt) (k : Pubkey) :
    (w.ledger k).Foreign := by
  by_cases hown : (w.accounts k).owner = programId
  · obtain ⟨n, hdata⟩ := h.program k hown
    show (w.accounts k).entry.Foreign
    rw [Account.entry_of_zeros hown hdata]
    trivial
  · exact Account.foreign_of_owner hown

namespace World.External

variable {rt : Runtime} {w w' : World} (h : w.External rt w')

include h

theorem eq_or_foreign (k : Pubkey) :
    w'.ledger k = w.ledger k ∨ ((w.ledger k).Foreign ∧ (w'.ledger k).Foreign) := by
  by_cases hown : (w.accounts k).owner = programId
  · exact .inl (h.program k hown).entry_eq
  · refine .inr ⟨Account.foreign_of_owner hown, ?_⟩
    by_cases hown' : (w'.accounts k).owner = programId
    · obtain ⟨n, hdata⟩ := h.assigned k hown hown'
      show (w'.accounts k).entry.Foreign
      rw [Account.entry_of_zeros hown' hdata]
      trivial
    · exact Account.foreign_of_owner hown'

/-- Nothing outside of the program is a step of a banner. -/
theorem banner (hV : w.ledger.Vaults rt) (P : Pubkey) :
    Banner.Step rt w.slot P (w.ledger.banner P) .idle (w'.ledger.banner P) := by
  have hbooks := Ledger.sameBooks h.eq_or_foreign P
  refine .idle hbooks (fun hpool k hk => ?_)
    (Ledger.keepsReserve_of_le hbooks.pool fun pool index hpool => ?_)
  · obtain ⟨⟨pool, index⟩, hsome⟩ := Option.isSome_iff_exists.mp hpool
    have hpda := (hV.valid (Ledger.banner_pool.mp hsome)).isPda
    cases hentry : w.ledger k with
    | asset asset =>
      have hown : (w.ledger k).OwnedBy P := hk
      rw [hentry] at hown
      have howner : asset.owner = P := hown
      obtain ⟨asset', hentry', howner'⟩ := h.asset k asset hentry (howner ▸ hpda)
      show (w'.ledger k).OwnedBy P
      rw [hentry']
      exact howner'.trans howner
    | _ =>
      have hown : (w.ledger k).OwnedBy P := hk
      rw [hentry] at hown
      exact hown.elim
  · cases hentry : w.ledger pool.vault with
    | token token =>
      obtain ⟨token', hentry', -, -, hle⟩ := h.token _ token hentry (hV.owner hpool hentry).1
      rw [hentry']
      exact UInt64.le_iff_toNat_le.mp hle
    | _ => exact Nat.zero_le _

end World.External

/-! ## Every reachable state -/

/-- The invariant of the chain: every pool represents a market. -/
structure World.Sound (rt : Runtime) (w : World) : Prop where
  vault : ∀ {P mint v token}, rt.IsPda P → rt.ata P mint = some v → w.ledger v = .token token →
    token.owner = P ∧ token.mint = mint
  banner : ∀ P, ∃ m, (w.ledger.banner P).Represents rt P m

/-- The account that gives something signed the instruction. -/
theorem Call.giver_mem {w : World} {infos : List AccountInfo} {call : Call}
    (h : call.Checked w infos) {info : AccountInfo} (hg : call.giver = some info) :
    info ∈ infos ∧ info.isSigner = true := by
  cases call with
  | depositItem a d =>
    obtain rfl := Option.some.inj hg
    have ha := h.1
    unfold DepositItemAccounts.tryFrom at ha
    split at ha
    · simp only [bind_eq_ok, failIf_eq_ok, pure_eq_ok, not_not] at ha
      obtain ⟨_, hsigner, _, -, _, -, _, -, _, -, rfl⟩ := ha
      exact ⟨by simp, hsigner⟩
    · cases ha
  | buy a d =>
    obtain rfl := Option.some.inj hg
    have ha := h.1
    unfold BuyAccounts.tryFrom at ha
    split at ha
    · simp only [bind_eq_ok, failIf_eq_ok, pure_eq_ok, not_not] at ha
      obtain ⟨_, hsigner, _, -, _, -, _, -, _, -, _, -, rfl⟩ := ha
      exact ⟨by simp, hsigner⟩
    · cases ha
  | buyback a d =>
    obtain rfl := Option.some.inj hg
    have ha := h.1
    unfold BuybackAccounts.tryFrom at ha
    split at ha
    · simp only [bind_eq_ok, failIf_eq_ok, pure_eq_ok, not_not, not_or] at ha
      obtain ⟨_, ⟨-, hsigner⟩, _, -, _, -, _, -, _, -, _, -, _, -, rfl⟩ := ha
      exact ⟨by simp, hsigner⟩
    · cases ha
  | _ => cases hg

namespace World

variable {rt : Runtime} (hrt : rt.Lawful) {w w' : World} {event : Event}

theorem Genesis.sound (h : w.Genesis rt) : w.Sound rt where
  vault := h.vault
  banner P := ⟨_, .empty ((h.foreign P).reads P).1 (fun k => ((h.foreign k).reads P).2.1)
    fun k => ((h.foreign k).reads P).2.2⟩

namespace Sound

/-- The invariant of the pool at an address. -/
theorem opened (h : w.Sound rt) {P : Pubkey} {pool : Pool} {index : List UInt8}
    (hpool : w.ledger P = .pool pool index) :
    ∃ m, (w.ledger.banner P).Opened rt P pool index m := by
  obtain ⟨m, hm⟩ := h.banner P
  exact ⟨m, hm.of_header (Ledger.banner_pool.mpr hpool)⟩

theorem vaults (h : w.Sound rt) : w.ledger.Vaults rt where
  valid hpool := by
    obtain ⟨m, hm⟩ := h.opened hpool
    exact hm.valid
  owned := h.vault

theorem counted (h : w.Sound rt) : w.ledger.Counted where
  stock hpool := by
    obtain ⟨m, hm⟩ := h.opened hpool
    rw [hm.tags_eq]
    exact hm.stock
  version {key pull pool index} hpull hpending hpool := by
    obtain ⟨m, hm⟩ := h.opened hpool
    obtain ⟨i, hi, -⟩ := hm.queued.pending (Ledger.banner_pulls.mpr ⟨hpull, rfl⟩) hpending
    have hissued := hm.covered.issued _ (List.mem_of_getElem? hi)
    rw [hm.stock.version] at hissued
    exact hissued

end Sound

include hrt in
/-- What an instruction did, in a sound state. -/
theorem Step.effect (h : w.Sound rt) {call : Call} (hstep : Step rt w (.call call) w') :
    w.SameClock w' ∧ call.Effect rt w.slot w.unixTimestamp w.ledger w'.ledger ∧
      ∀ info, call.giver = some info → ¬rt.IsPda info.key := by
  cases hstep with
  | call signers parse process =>
    have hchecked := Instruction.parse_checked parse
    rw [processInstruction_eq, parse, ok_bind] at process
    obtain ⟨hclock, heffect⟩ := Call.process_ok hrt h.counted hchecked process
    refine ⟨hclock, heffect, fun info hg => ?_⟩
    obtain ⟨hmem, hsigner⟩ := Call.giver_mem hchecked hg
    exact signers info hmem hsigner

include hrt in
/-- Every step of the chain is a step of every banner. -/
theorem Step.banner (h : w.Sound rt) (hstep : Step rt w event w') (P : Pubkey) :
    Banner.Step rt w.slot P (w.ledger.banner P) (event.move w P) (w'.ledger.banner P) := by
  cases event with
  | call c =>
    obtain ⟨-, heffect, hgiver⟩ := hstep.effect hrt h
    exact heffect.banner h.vaults P hgiver
  | external =>
    cases hstep with
    | external hexternal => exact hexternal.banner h.vaults P

include hrt in
/-- Every step of the chain is a move of every market. -/
theorem Step.market (h : w.Sound rt) (hstep : Step rt w event w') {P : Pubkey}
    {m : Market UInt8 Ticket} (hm : (w.ledger.banner P).Represents rt P m) :
    ∃ m', Market.Step m (event.move w P) m' ∧ (w'.ledger.banner P).Represents rt P m' :=
  (hstep.banner hrt h P).represents hm

include hrt in
theorem Step.sound (h : w.Sound rt) (hstep : Step rt w event w') : w'.Sound rt where
  vault {P mint v token} hpda hata htoken := by
    cases event with
    | call c =>
      obtain ⟨-, heffect, -⟩ := hstep.effect hrt h
      obtain ⟨token₀, hold, howner, hmint⟩ := heffect.keepsOwners v token htoken
      rw [← howner, ← hmint]
      exact h.vault hpda hata hold
    | external =>
      cases hstep with
      | external hexternal => exact hexternal.vault hpda hata htoken
  banner P := by
    obtain ⟨m, hm⟩ := h.banner P
    obtain ⟨m', -, hm'⟩ := hstep.market hrt h hm
    exact ⟨m', hm'⟩

include hrt in
theorem Reached.sound (h : Reached rt w) : w.Sound rt :=
  h.induct (fun _ => Genesis.sound) fun _ _ _ _ hs hstep => hstep.sound hrt hs

/-! ## Runs -/

variable {trace : List (World × Event)}

include hrt in
theorem Sound.of_run (h : w.Sound rt) (hrun : Run (Step rt) w trace w') : w'.Sound rt :=
  hrun.preserves (fun _ _ _ hs hstep => hstep.sound hrt hs) h

include hrt in
/-- A run of the chain is a run of the market of every pool. -/
theorem Sound.run (h : w.Sound rt) (hrun : Run (Step rt) w trace w') {P : Pubkey}
    {m : Market UInt8 Ticket} (hm : (w.ledger.banner P).Represents rt P m) :
    ∃ moves m', Run Market.Step m moves m' ∧ (w'.ledger.banner P).Represents rt P m' ∧
      List.Forall₂ (fun x y => (x.1.ledger.banner P).Represents rt P y.1 ∧ y.2 = x.2.move x.1 P)
        trace moves := by
  obtain ⟨moves, m', hmoves, ⟨-, hm'⟩, hall⟩ := hrun.simulate
    Market.Step (fun w m => w.Sound rt ∧ (w.ledger.banner P).Represents rt P m) (fun w e => e.move w P) (fun w e w' m hR hstep => by
      obtain ⟨m', hmove, hm'⟩ := hstep.market hrt hR.1 hR.2
      exact ⟨m', hmove, hstep.sound hrt hR.1, hm'⟩) ⟨h, hm⟩
  exact ⟨moves, m', hmoves, hm', hall.imp fun x y hxy => ⟨hxy.1.2, hxy.2⟩⟩

end World

end SolanaGacha
