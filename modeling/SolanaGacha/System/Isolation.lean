import SolanaGacha.System.Localnet

/-!
# Outflows and isolation

A call writes accounts of the pool that it names and accounts of other programs (`Ledger.Within`), so it
leaves the books of every other pool alone. What a pool holds leaves it for the reasons of `Call.Pays` and
`Call.Releases` only (`World.Reached.isolated`).
-/

namespace SolanaGacha

open Except Layout

/-- The pool that a call names. -/
def Call.pool : Call → Option Pubkey
  | .createPool a _ => some a.pool.key
  | .depositItem a _ => some a.pool.key
  | .withdraw a _ => some a.pool.key
  | .setStatus a _ => some a.pool.key
  | .reclaim a => some a.pool.key
  | .buy a _ => some a.pool.key
  | .refund a => some a.pool.key
  | .buyback a _ => some a.pool.key
  | .settle a _ => some a.pool.key
  | .deliver a _ => some a.pool.key
  | .event => none

/-! ## What a call writes -/

/-- No account of a pool other than the one at `Q`. -/
def Entry.OfPool (Q k : Pubkey) : Entry → Prop
  | .pool _ _ => k = Q
  | .item i => i.pool = Q
  | .pull u => u.pool = Q
  | _ => True

/-- Only accounts of the pool at `Q` and of other programs are written. -/
def Ledger.Within (Q : Pubkey) (L L' : Ledger) : Prop :=
  ∀ k, L' k = L k ∨ ((L k).OfPool Q k ∧ (L' k).OfPool Q k)

namespace Ledger.Within

variable {rt : Runtime} {P Q k : Pubkey} {L M L' : Ledger}

theorem refl (Q : Pubkey) (L : Ledger) : L.Within Q L := fun _ => .inl rfl

theorem trans (h : L.Within Q M) (h' : M.Within Q L') : L.Within Q L' := by
  intro k
  rcases h k with heq | ⟨hL, hM⟩
  · rw [← heq]
    exact h' k
  · rcases h' k with heq' | ⟨-, hL'⟩
    · exact .inr ⟨hL, heq' ▸ hM⟩
    · exact .inr ⟨hL, hL'⟩

/-- One write. -/
theorem update {e : Entry} (e' : Entry) (hk : L k = e) (h : e.OfPool Q k) (h' : e'.OfPool Q k) :
    L.Within Q (Function.update L k e') := by
  intro k'
  rcases eq_or_ne k' k with rfl | hne
  · rw [Function.update_self]
    exact .inr ⟨hk ▸ h, h'⟩
  · exact .inl (Function.update_of_ne hne _ _)

theorem vacate {keys : List Pubkey} (h : ∀ k ∈ keys, (L k).OfPool Q k) : L.Within Q (L.vacate keys) := by
  intro k
  rw [Ledger.vacate]
  split_ifs with hk
  · exact .inr ⟨h k hk, trivial⟩
  · exact .inl rfl

theorem of_paid {source destination authority : Pubkey} {amount : UInt64}
    (h : L.Paid rt source destination authority amount L') : L.Within Q L' := by
  intro k
  rcases h.eq_or_tokens k with heq | ⟨s, s', hs, hs', -⟩
  · exact .inl heq
  · rw [hs, hs']
    exact .inr ⟨trivial, trivial⟩

theorem of_restocks {item asset giver : Pubkey} {tier bump : UInt8} {pool : Pool} {index : List UInt8}
    (h : Restocks rt L Q item asset giver tier bump pool index M) : L.Within Q M := by
  obtain ⟨pool', index', c, -, hasset, -, rfl⟩ := h.ledger
  have h1 := Ledger.ne_of_entry h.loaded hasset (by simp)
  have h2 := Ledger.ne_of_entry h.vacant hasset (by simp)
  have h3 := Ledger.ne_of_entry h.vacant h.loaded (by simp)
  refine ((update (.asset _) hasset trivial trivial).trans
    (update (e := .pool pool index) (.pool _ _) ?_ rfl rfl)).trans
      (update (e := .vacant) (.item _) ?_ trivial rfl)
  · rw [Function.update_of_ne h1, h.loaded]
  · rw [Function.update_of_ne h3, Function.update_of_ne h2, h.vacant]

/-- The books of another pool do not notice. -/
theorem sameBooks (h : L.Within Q L') (hP : P ≠ Q) : (L.banner P).SameBooks (L'.banner P) := by
  have hnone : ∀ {k} {e : Entry}, e.OfPool Q k → e.item? P = none ∧ e.pull? P = none ∧
      (k = P → e.pool? = none) := by
    intro k e he
    cases e with
    | pool pool index => exact ⟨rfl, rfl, fun hk => absurd (hk.symm.trans he) hP⟩
    | item item => exact ⟨if_neg fun hi => hP (hi.symm.trans he), rfl, fun _ => rfl⟩
    | pull pull => exact ⟨rfl, if_neg fun hi => hP (hi.symm.trans he), fun _ => rfl⟩
    | _ => exact ⟨rfl, rfl, fun _ => rfl⟩
  refine Ledger.sameBooks_of_reads ?_ fun k => ?_
  · rcases h P with heq | ⟨hL, hL'⟩
    · rw [heq]
    · rw [(hnone hL).2.2 rfl, (hnone hL').2.2 rfl]
  · rcases h k with heq | ⟨hL, hL'⟩
    · rw [heq]
      exact ⟨rfl, rfl⟩
    · rw [(hnone hL).1, (hnone hL').1, (hnone hL).2.1, (hnone hL').2.1]
      exact ⟨rfl, rfl⟩

end Ledger.Within

section Calls

variable {rt : Runtime} {slot : UInt64} {time : Int64} {L L' : Ledger} {call : Call}
  (h : call.Effect rt slot time L L')

include h

/-- A call writes accounts of the pool that it names and of other programs. -/
theorem Call.Effect.within {Q : Pubkey} (hQ : call.pool = some Q) : L.Within Q L' := by
  cases call with
  | createPool a d =>
    obtain rfl := Option.some.inj hQ
    obtain ⟨pool, rfl, -⟩ := CreatePool.Effect.fresh h
    exact .update _ h.vacant trivial rfl
  | depositItem a d =>
    obtain rfl := Option.some.inj hQ
    obtain ⟨pool, index, h⟩ := h
    exact .of_restocks h.restocks
  | withdraw a d =>
    obtain ⟨pool, index, h⟩ := h
    exact .of_paid h.paid
  | setStatus a d =>
    obtain rfl := Option.some.inj hQ
    obtain ⟨pool, index, h⟩ := h
    rw [h.ledger]
    exact .update _ h.loaded rfl rfl
  | reclaim a =>
    obtain rfl := Option.some.inj hQ
    obtain ⟨pool, index, item, h⟩ := h
    obtain ⟨tiers, index', asset, -, -, hasset, -, rfl⟩ := h.ledger
    have h1 := Ledger.ne_of_entry hasset h.loaded (by simp)
    have h2 := Ledger.ne_of_entry h.loadedItem hasset (by simp)
    have h3 := Ledger.ne_of_entry h.loadedItem h.loaded (by simp)
    refine ((Ledger.Within.update (.pool _ _) h.loaded rfl rfl).trans
      (.update (e := .asset asset) (.asset _) ?_ trivial trivial)).trans
        (.update (e := .item item) .vacant ?_ h.samePool trivial)
    · rw [Function.update_of_ne h1, hasset]
    · rw [Function.update_of_ne h2, Function.update_of_ne h3, h.loadedItem]
  | buy a d =>
    obtain rfl := Option.some.inj hQ
    obtain ⟨pool, index, pull, h⟩ := h
    obtain ⟨pendingDraws, nextIndex, amount, reserved, token, left, -, -, -, -, -, -, -, -, hpaid⟩ :=
      h.ledger
    have hne := Ledger.ne_of_entry h.loaded h.vacant (by simp)
    have hpull : pull.pool = a.pool.key := congrArg Pull.pool h.populated
    refine ((Ledger.Within.update (.pull pull) h.vacant trivial hpull).trans
      (.update (e := .pool pool index) (.pool _ _) ?_ rfl rfl)).trans (.of_paid hpaid)
    rw [Function.update_of_ne hne, h.loaded]
  | refund a =>
    obtain rfl := Option.some.inj hQ
    obtain ⟨pool, index, pull, h⟩ := h
    obtain ⟨amount, pendingDraws, nextSettle, M, -, -, -, hpaid, rfl⟩ := h.ledger
    have hne := Ledger.ne_of_entry h.loadedPull h.loaded (by simp)
    have hM := hpaid.of_pull (by rw [Function.update_of_ne hne, h.loadedPull])
    exact ((Ledger.Within.update (.pool _ _) h.loaded rfl rfl).trans (.of_paid hpaid)).trans
      (.update .vacant hM h.samePool trivial)
  | buyback a d =>
    obtain rfl := Option.some.inj hQ
    obtain ⟨pool, index, h⟩ := h
    obtain ⟨M, hr, hpaid⟩ := h.ledger
    exact (Ledger.Within.of_restocks hr).trans (.of_paid hpaid)
  | settle a d =>
    obtain rfl := Option.some.inj hQ
    obtain ⟨pool, index, pull, beta, awards, h⟩ := h
    obtain ⟨tiers, index', pendingDraws, nextSettle, -, -, -, -, rfl⟩ := h.ledger
    have hitems : ∀ k ∈ awards.map Award.account, ∃ item, L k = .item item ∧ item.pool = a.pool.key := by
      intro k hk
      obtain ⟨award, haward, rfl⟩ := List.mem_map.mp hk
      exact ⟨_, h.item award haward⟩
    have hkept : ∀ {k e}, L k = e → (∀ item, e ≠ .item item) →
        L.vacate (awards.map Award.account) k = e := by
      intro k e he hne
      refine (if_neg fun hk => ?_).trans he
      obtain ⟨item, hk, -⟩ := hitems k hk
      exact hne item (he.symm.trans hk)
    have hne := Ledger.ne_of_entry h.loadedPull h.loaded (by simp)
    refine ((Ledger.Within.vacate fun k hk => ?_).trans
      (.update (.pool _ _) (hkept h.loaded (by simp)) rfl rfl)).trans
        (.update (e := .pull pull) (.pull _) ?_ h.samePool h.samePool)
    · obtain ⟨item, hk, hpool⟩ := hitems k hk
      rw [hk]
      exact hpool
    · rw [Function.update_of_ne hne, hkept h.loadedPull (by simp)]
  | deliver a d =>
    obtain rfl := Option.some.inj hQ
    obtain ⟨pool, index, pull, outcome, h⟩ := h
    obtain ⟨asset, all, hasset, -, -, rfl⟩ := h.ledger
    have hne := Ledger.ne_of_entry h.loadedPull hasset (by simp)
    refine (Ledger.Within.update (.asset _) hasset trivial trivial).trans
      (.update (e := .pull pull) _ ?_ h.samePool ?_)
    · rw [Function.update_of_ne hne, h.loadedPull]
    · split_ifs
      · trivial
      · exact h.samePool
  | event => cases hQ

/-- The books of a pool change only in a call that names it. -/
theorem Call.Effect.sameBooks {P : Pubkey} (hP : call.pool ≠ some P) :
    (L.banner P).SameBooks (L'.banner P) := by
  cases hpool : call.pool with
  | some Q =>
    refine (Call.Effect.within h hpool).sameBooks ?_
    rintro rfl
    exact hP hpool
  | none =>
    cases call with
    | event =>
      obtain rfl := h
      exact .refl _
    | _ => cases hpool

end Calls

/-! ## What a vault pays -/

/-- The calls that take tokens out of the vault of the pool at `B`. -/
inductive Call.Pays (rt : Runtime) (time : Int64) (L L' : Ledger) (B : Pubkey) (pool : Pool) : Call → Prop
  /-- The head of the queue gets its price and bond back. -/
  | refund {a : RefundAccounts} {pull : Pull} {token : TokenAccount} (named : a.pool.key = B)
      (loaded : L a.pull.key = .pull pull) (samePool : pull.pool = B)
      (pending : pull.status = statusPending) (head : pull.index = pool.nextSettle)
      (destination : L a.buyerAta.key = .token token) (owner : token.owner = pull.buyer)
      (paid : (L pool.vault).balance = (L' pool.vault).balance +
        (pool.price.toNat + pool.bondPerDraw.toNat) * pull.count.toNat)
      (received : (L' a.buyerAta.key).balance = (L a.buyerAta.key).balance +
        (pool.price.toNat + pool.bondPerDraw.toNat) * pull.count.toNat) :
      Pays rt time L L' B pool (.refund a)
  /-- The authority takes what is not reserved. -/
  | withdraw {a : WithdrawAccounts} {d : WithdrawInstructionData} (named : a.pool.key = B)
      (signer : a.authority.isSigner = true) (authority : pool.authority = a.authority.key)
      (paid : (L pool.vault).balance = (L' pool.vault).balance + d.amount.toNat)
      (surplus : (L.banner B).reserve + d.amount.toNat ≤ (L pool.vault).balance) :
      Pays rt time L L' B pool (.withdraw a d)
  /-- A seller hands an asset over for the price that the authority signed. -/
  | buyback {a : BuybackAccounts} {d : BuybackInstructionData} {token : TokenAccount} {c : CoreAsset}
      (named : a.pool.key = B)
      (quote : rt.verifySignature pool.authority d.signature
        (buybackMessage B a.asset.key d.price d.expiresAt d.tier) = true)
      (unexpired : time < d.expiresAt)
      (paid : (L pool.vault).balance = (L' pool.vault).balance + d.price.toNat)
      (surplus : (L.banner B).reserve + d.price.toNat ≤ (L pool.vault).balance)
      (signer : a.seller.isSigner = true) (destination : L a.destination.key = .token token)
      (owner : token.owner = a.seller.key)
      (received : (L' a.destination.key).balance = (L a.destination.key).balance + d.price.toNat)
      (asset : L a.asset.key = .asset c) (seller : c.owner = a.seller.key)
      (taken : L' a.asset.key = .asset { c with owner := B }) : Pays rt time L L' B pool (.buyback a d)

/-- A payment takes from its source only, and asks the owner of the source. -/
theorem Ledger.Paid.of_balance_lt {rt : Runtime} {L L' : Ledger} {source destination authority : Pubkey}
    {amount : UInt64} (h : L.Paid rt source destination authority amount L') {v : Pubkey}
    (hlt : (L' v).balance < (L v).balance) :
    v = source ∧ source ≠ destination ∧ (L v).balance = (L' v).balance + amount.toNat ∧
      ∃ s, L v = .token s ∧ (rt.IsPda s.owner → authority = s.owner) := by
  obtain ⟨s, d, hs, hd, -, hauthority, hamount, hcase⟩ := h
  rcases hcase with ⟨-, rfl⟩ | ⟨hne, hfits, rfl⟩
  · exact absurd hlt (lt_irrefl _)
  · simp only [Function.update_apply] at hlt ⊢
    split_ifs at hlt ⊢ with hvd hvs
    · subst hvd
      rw [hd] at hlt
      simp only [Entry.balance, UInt64.toNat_add, Nat.mod_eq_of_lt hfits] at hlt
      omega
    · subst hvs
      refine ⟨rfl, hne, ?_, s, hs, hauthority⟩
      rw [hs]
      simp only [Entry.balance, UInt64.toNat_sub_of_le _ _ hamount]
      have := UInt64.le_iff_toNat_le.mp hamount
      omega
    · exact absurd hlt (lt_irrefl _)

/-- From a vault only a call on its pool pays. -/
theorem Ledger.Vaults.paid {rt : Runtime} {L M L' : Ledger} (hV : L.Vaults rt) {B : Pubkey} {pool : Pool}
    {index : List UInt8} (hB : L B = .pool pool index) (htokens : L.SameTokens M)
    {source destination authority : Pubkey} {amount : UInt64}
    (h : M.Paid rt source destination authority amount L')
    (hlt : (L' pool.vault).balance < (L pool.vault).balance) :
    authority = B ∧ rt.IsPda B ∧ pool.vault = source ∧ source ≠ destination ∧
      (L pool.vault).balance = (L' pool.vault).balance + amount.toNat := by
  rw [← htokens.balance] at hlt ⊢
  obtain ⟨hsource, hne, hpaid, s, hs, hauthority⟩ := h.of_balance_lt hlt
  obtain ⟨hpda, howner⟩ := hV.owner hB (htokens.token.mp hs)
  have heq := hauthority hpda
  exact ⟨heq.trans howner, howner ▸ hpda, hsource, hne, hpaid⟩

/-- A vault pays in a refund, a withdrawal or a buyback. -/
theorem Call.Effect.pays {rt : Runtime} {slot : UInt64} {time : Int64} {L L' : Ledger} {call : Call}
    (h : call.Effect rt slot time L L') (hV : L.Vaults rt)
    (hgiver : ∀ info, call.giver = some info → ¬rt.IsPda info.key) {B : Pubkey} {pool : Pool}
    {index : List UInt8} (hB : L B = .pool pool index)
    (hlt : (L' pool.vault).balance < (L pool.vault).balance) : call.Pays rt time L L' B pool := by
  have hquiet : ¬L.SameTokens L' := fun hsame => (hsame.balance pool.vault ▸ hlt).false
  cases call with
  | withdraw a d =>
    obtain ⟨pool', index', h⟩ := h
    obtain ⟨rfl, -, -, -, hpaid⟩ := hV.paid hB (fun _ => rfl) h.paid hlt
    obtain ⟨rfl, rfl⟩ := Entry.pool.inj (hB.symm.trans h.loaded)
    obtain ⟨token, reserved, htoken, hreserved, hsurplus⟩ := h.surplus
    refine .withdraw rfl h.signer h.authority hpaid ?_
    rw [Ledger.banner_reserve hB, (Pool.refundAmount_eq_ok.mp hreserved).2, h.vault, htoken]
    exact hsurplus
  | buy a d =>
    obtain ⟨pool', index', pull, h⟩ := h
    obtain ⟨pendingDraws, nextIndex, amount, reserved, token, left, -, -, -, -, -, -, -, -, hpaid⟩ :=
      h.ledger
    obtain ⟨heq, hpda, -⟩ := hV.paid hB (Ledger.read_update₂ Entry.token? (by rw [h.vacant]; rfl)
      (by rw [h.loaded]; rfl)) hpaid hlt
    exact absurd (heq ▸ hpda) (hgiver _ rfl)
  | refund a =>
    obtain ⟨pool', index', pull, h⟩ := h
    obtain ⟨amount, pendingDraws, nextSettle, M, hamount, -, -, hpaid, rfl⟩ := h.ledger
    have hne := Ledger.ne_of_entry h.loadedPull h.loaded (by simp)
    have hM := hpaid.of_pull (by rw [Function.update_of_ne hne, h.loadedPull])
    have hclose : M.SameTokens (Function.update M a.pull.key .vacant) :=
      Ledger.read_update Entry.token? (by rw [hM]; rfl)
    have hopen : L.SameTokens (Function.update L a.pool.key
        (.pool { pool' with pendingDraws, nextSettle } index')) :=
      Ledger.read_update Entry.token? (by rw [h.loaded]; rfl)
    rw [hclose.balance] at hlt
    obtain ⟨rfl, -, hsource, hother, hpaid'⟩ := hV.paid hB hopen hpaid hlt
    obtain ⟨rfl, rfl⟩ := Entry.pool.inj (hB.symm.trans h.loaded)
    obtain ⟨token, htoken, howner⟩ := h.destination
    have hcount : amount.toNat = (pool.price.toNat + pool.bondPerDraw.toNat) * pull.count.toNat := by
      rw [← (Pool.refundAmount_eq_ok.mp hamount).2, UInt8.toNat_toUInt64]
    refine .refund rfl h.loadedPull h.samePool h.pending h.head htoken howner ?_ ?_
    · rw [hclose.balance, hpaid', hcount]
    · rw [hclose.balance, hpaid.balance_destination hother, hopen.balance, hcount]
  | buyback a d =>
    obtain ⟨pool', index', h⟩ := h
    obtain ⟨M, hr, hpaid⟩ := h.ledger
    obtain ⟨rfl, -, hsource, hother, hpaid'⟩ := hV.paid hB hr.sameTokens hpaid hlt
    obtain ⟨rfl, rfl⟩ := Entry.pool.inj (hB.symm.trans hr.loaded)
    obtain ⟨token, reserved, htoken, hreserved, hsurplus⟩ := h.surplus
    obtain ⟨destination, hdestination, howner⟩ := h.destination
    obtain ⟨-, -, c, -, hc, hseller, -, -, hM, -⟩ := hr.entries
    refine .buyback rfl h.quote h.unexpired hpaid' ?_ h.signer.2 hdestination howner ?_ hc hseller ?_
    · rw [Ledger.banner_reserve hB, (Pool.refundAmount_eq_ok.mp hreserved).2, h.vault, htoken]
      exact hsurplus
    · rw [hpaid.balance_destination hother, hr.sameTokens.balance]
    · rcases hpaid.eq_or_tokens a.asset.key with heq | ⟨s, s', hs, -⟩
      · exact heq.trans hM
      · exact absurd (hs.symm.trans hM) (by simp)
  | _ => exact absurd (Call.Effect.sameTokens h rfl) hquiet

/-! ## What leaves custody -/

/-- The calls that take an asset `k` away from the pool at `B`. -/
inductive Call.Releases (L L' : Ledger) (B : Pubkey) (pool : Pool) (k : Pubkey) (c : CoreAsset) :
    Call → Prop
  /-- The buyer gets an outcome that was recorded for the asset. -/
  | deliver {a : DeliverAccounts} {d : DeliverInstructionData} {pull : Pull} {outcome : Outcome}
      (named : a.pool.key = B) (loaded : L a.pull.key = .pull pull) (samePool : pull.pool = B)
      (settled : pull.status = statusSettled) (inCount : d.outcome.toNat < pull.count.toNat)
      (recorded : pull.outcomes[d.outcome.toNat]? = some outcome) (undelivered : outcome.tier ≠ delivered)
      (asset : outcome.asset = k) (buyer : L' k = .asset { c with owner := pull.buyer }) :
      Releases L L' B pool k c (.deliver a d)
  /-- The authority takes an unsold asset back. -/
  | reclaim {a : ReclaimAccounts} {item : Item} (named : a.pool.key = B)
      (signer : a.authority.isSigner = true) (authority : pool.authority = a.authority.key)
      (retired : pool.status = poolRetired) (settled : pool.pendingDraws = 0)
      (loaded : L a.item.key = .item item) (samePool : item.pool = B) (asset : item.asset = k)
      (taken : L' k = .asset { c with owner := pool.authority }) : Releases L L' B pool k c (.reclaim a)

/-- A write elsewhere. -/
theorem Ledger.update_of_entry {L : Ledger} {k k₀ : Pubkey} {e d : Entry} (e' : Entry) (h : L k = e)
    (h₀ : L k₀ = d) (hne : e ≠ d) : Function.update L k₀ e' k = e :=
  (Function.update_of_ne (Ledger.ne_of_entry h h₀ hne) _ _).trans h

/-- A restock leaves what the giver does not own. -/
theorem Restocks.asset_kept {rt : Runtime} {L M : Ledger} {Q item asset giver : Pubkey} {tier bump : UInt8}
    {pool : Pool} {index : List UInt8} (h : Restocks rt L Q item asset giver tier bump pool index M)
    {k : Pubkey} {c : CoreAsset} (hk : L k = .asset c) (hc : c.owner ≠ giver) : M k = .asset c := by
  obtain ⟨pool', index', c', -, hasset, howner, -, -, -, hrest⟩ := h.entries
  rw [hrest k, hk]
  · exact Ledger.ne_of_entry hk h.loaded (by simp)
  · exact Ledger.ne_of_entry hk h.vacant (by simp)
  · rintro rfl
    obtain rfl := Entry.asset.inj (hk.symm.trans hasset)
    exact hc howner

theorem Ledger.Paid.asset_kept {rt : Runtime} {L L' : Ledger} {source destination authority : Pubkey}
    {amount : UInt64} (h : L.Paid rt source destination authority amount L') {k : Pubkey} {c : CoreAsset}
    (hk : L k = .asset c) : L' k = .asset c := by
  rcases h.eq_or_tokens k with heq | ⟨s, s', hs, -⟩
  · exact heq.trans hk
  · exact absurd (hs.symm.trans hk) (by simp)

/-- An asset leaves in a delivery or a reclaim. -/
theorem Call.Effect.releases {rt : Runtime} {slot : UInt64} {time : Int64} {L L' : Ledger} {call : Call}
    (h : call.Effect rt slot time L L')
    (hgiver : ∀ info, call.giver = some info → ¬rt.IsPda info.key) {B : Pubkey} (hpda : rt.IsPda B)
    {pool : Pool} {index : List UInt8} (hB : L B = .pool pool index) {k : Pubkey} {c : CoreAsset}
    (hk : L k = .asset c) (hown : c.owner = B) (hleft : L' k ≠ .asset c) :
    call.Releases L L' B pool k c := by
  have hother : ∀ info, call.giver = some info → c.owner ≠ info.key := fun info hg heq =>
    hgiver info hg (heq ▸ hown ▸ hpda)
  cases call with
  | createPool a d =>
    obtain ⟨pool', rfl, -⟩ := CreatePool.Effect.fresh h
    exact absurd (Ledger.update_of_entry _ hk h.vacant (by simp)) hleft
  | depositItem a d =>
    obtain ⟨pool', index', h⟩ := h
    exact absurd (h.restocks.asset_kept hk (hother _ rfl)) hleft
  | withdraw a d =>
    obtain ⟨pool', index', h⟩ := h
    exact absurd (h.paid.asset_kept hk) hleft
  | setStatus a d =>
    obtain ⟨pool', index', h⟩ := h
    exact absurd (h.ledger ▸ Ledger.update_of_entry _ hk h.loaded (by simp)) hleft
  | reclaim a =>
    obtain ⟨pool', index', item, h⟩ := h
    obtain ⟨tiers, index'', c', -, -, hasset, howner, rfl⟩ := h.ledger
    have hk1 := Ledger.update_of_entry (.pool { pool' with tiers } index'') hk h.loaded (by simp)
    rcases eq_or_ne k a.asset.key with rfl | hne
    · obtain rfl := Entry.asset.inj (hk.symm.trans hasset)
      obtain rfl : a.pool.key = B := howner.symm.trans hown
      obtain ⟨rfl, rfl⟩ := Entry.pool.inj (hB.symm.trans h.loaded)
      refine .reclaim rfl h.signer h.authority h.retired h.settled h.loadedItem h.samePool h.sameAsset ?_
      rw [Function.update_of_ne (Ledger.ne_of_entry hk h.loadedItem (by simp)), Function.update_self,
        h.authority]
    · refine absurd ?_ hleft
      rw [Function.update_of_ne (Ledger.ne_of_entry hk h.loadedItem (by simp)),
        Function.update_of_ne hne, hk1]
  | buy a d =>
    obtain ⟨pool', index', pull, h⟩ := h
    obtain ⟨pendingDraws, nextIndex, amount, reserved, token, left, -, -, -, -, -, -, -, -, hpaid⟩ :=
      h.ledger
    have hne := Ledger.ne_of_entry h.loaded h.vacant (by simp)
    refine absurd (hpaid.asset_kept (Ledger.update_of_entry (d := .pool pool' index') _
      (Ledger.update_of_entry _ hk h.vacant (by simp)) ?_ (by simp))) hleft
    rw [Function.update_of_ne hne, h.loaded]
  | refund a =>
    obtain ⟨pool', index', pull, h⟩ := h
    obtain ⟨amount, pendingDraws, nextSettle, M, -, -, -, hpaid, rfl⟩ := h.ledger
    have hne := Ledger.ne_of_entry h.loadedPull h.loaded (by simp)
    have hM := hpaid.of_pull (by rw [Function.update_of_ne hne, h.loadedPull])
    exact absurd (Ledger.update_of_entry _ (hpaid.asset_kept
      (Ledger.update_of_entry _ hk h.loaded (by simp))) hM (by simp)) hleft
  | buyback a d =>
    obtain ⟨pool', index', h⟩ := h
    obtain ⟨M, hr, hpaid⟩ := h.ledger
    exact absurd (hpaid.asset_kept (hr.asset_kept hk (hother _ rfl))) hleft
  | settle a d =>
    obtain ⟨pool', index', pull, beta, awards, h⟩ := h
    obtain ⟨tiers, index'', pendingDraws, nextSettle, -, -, -, -, rfl⟩ := h.ledger
    refine absurd ?_ hleft
    rw [Function.update_of_ne (Ledger.ne_of_entry hk h.loadedPull (by simp)),
      Function.update_of_ne (Ledger.ne_of_entry hk h.loaded (by simp)), Ledger.vacate, if_neg, hk]
    intro hmem
    obtain ⟨award, haward, rfl⟩ := List.mem_map.mp hmem
    exact absurd (hk.symm.trans (h.item award haward).1) (by simp)
  | deliver a d =>
    obtain ⟨pool', index', pull, outcome, h⟩ := h
    obtain ⟨c', all, hasset, howner, -, rfl⟩ := h.ledger
    have hpull := Ledger.ne_of_entry hk h.loadedPull (by simp)
    rw [Function.update_of_ne hpull] at hleft
    rcases eq_or_ne k a.asset.key with rfl | hne
    · obtain rfl := Entry.asset.inj (hk.symm.trans hasset)
      obtain rfl : a.pool.key = B := howner.symm.trans hown
      refine .deliver rfl h.loadedPull h.samePool h.settled h.inCount h.recorded h.undelivered h.asset ?_
      rw [Function.update_of_ne hpull, Function.update_self, h.buyer]
    · exact absurd ((Function.update_of_ne hne _ _).trans hk) hleft
  | event =>
    obtain rfl := h
    exact absurd hk hleft

/-! ## Every reachable state -/

/-- In every reachable state, whatever an instruction that succeeds is given: a vault pays, and an asset
leaves its pool, only as `Pays` and `Releases` say, and the books of a pool change only in an instruction
that names it. -/
theorem World.Reached.isolated {rt : Runtime} (hrt : rt.Lawful) {w w' : World} (hw : w.Reached rt)
    {ix : Instruction} (hsigners : ix.Unforged rt) (h : processInstruction rt w ix = .ok w') :
    ∃ call, ix.parse w = .ok call ∧ ∀ B pool index, w.ledger B = .pool pool index →
      ((w'.ledger pool.vault).balance < (w.ledger pool.vault).balance →
        call.Pays rt w.unixTimestamp w.ledger w'.ledger B pool) ∧
      (∀ k c, w.ledger k = .asset c → c.owner = B → (∀ c', w'.ledger k = .asset c' → c'.owner ≠ B) →
        call.Releases w.ledger w'.ledger B pool k c) ∧
      (call.pool ≠ some B → (w.ledger.banner B).SameBooks (w'.ledger.banner B)) := by
  have hsound := hw.sound hrt
  obtain ⟨call, hparse, hstep⟩ := World.step_of_process hsigners h
  obtain ⟨-, heffect, hgiver⟩ := hstep.effect hrt hsound
  refine ⟨call, hparse, fun B pool index hB =>
    ⟨fun hlt => ?_, fun k c hk hown hleft => ?_, fun hother => ?_⟩⟩
  · exact heffect.pays hsound.vaults hgiver hB hlt
  · exact heffect.releases hgiver (hsound.vaults.valid hB).isPda hB hk hown fun hk' => hleft c hk' hown
  · exact heffect.sameBooks hother

/-- A withdrawal from the sample pool. -/
theorem World.Reached.isolated_sample : ∃ call pool index,
    (Sample.withdraw 5).parse Sample.opened = .ok call ∧
    Sample.opened.ledger Sample.pool = .pool pool index ∧
    call.Pays Sample.net.runtime Sample.opened.unixTimestamp Sample.opened.ledger
      (Sample.after Sample.opened [Sample.withdraw 5]).ledger Sample.pool pool := by
  have hsucceeds : Sample.succeeds Sample.opened [Sample.withdraw 5] = true := by decide +kernel
  obtain ⟨call, hparse, hisolated⟩ := World.Reached.isolated Sample.net.runtime_lawful
    Sample.opened_reached (Sample.unforged_of_succeeds hsucceeds _ List.mem_cons_self) (Sample.process_after hsucceeds)
  obtain ⟨pool, index, hpool, hvault⟩ := Sample.exists_pool (e := Sample.opened.ledger Sample.pool)
    (p := fun pool => pool.vault = Sample.vault) (by decide +kernel)
  refine ⟨call, pool, index, hparse, hpool, (hisolated _ _ _ hpool).1 ?_⟩
  rw [of_decide_eq_true hvault]
  decide +kernel

end SolanaGacha
