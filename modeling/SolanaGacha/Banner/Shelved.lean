import SolanaGacha.Banner.Step

/-!
# Items and Pulls agree with the market

Three invariants of a banner, each with one lemma for every change that a step makes to it. `Shelved`:
the Items are the positions that are left. `Queued`: the pending Pulls are the orders that wait, numbered
without gaps. `Held`: the pool owns what its Items and outcomes promise, and promises nothing twice.
-/

namespace SolanaGacha

open Except Layout Inventory

/-! ## Items -/

/-- The Items of a pool are the positions that its tags show as available. -/
structure Shelved (rt : Runtime) (P : Pubkey) (items : Pubkey → Option Item) (tags : List UInt8) :
    Prop where
  item : ∀ {k item}, items k = some item → item.pool = P ∧ item.tier.toNat < 8 ∧
    Live tags item.tier.toNat item.position.toNat ∧
      rt.createProgramAddress (Item.seeds P item.tier item.position item.bump) programId = some k
  stocked : ∀ {p}, tags.getD p 0 ≠ 0 → ∃ k item, items k = some item ∧ item.position.toNat = p
  unique : ∀ {k k' item item'}, items k = some item → items k' = some item' →
    item.position = item'.position → k = k'

namespace Shelved

variable {rt : Runtime} {P : Pubkey} {items : Pubkey → Option Item} {tags : List UInt8}

/-- The position of an Item was issued. -/
theorem lt_length (h : Shelved rt P items tags) {k : Pubkey} {item : Item} (hk : items k = some item) :
    item.position.toNat < tags.length := by
  obtain ⟨-, htier, hlive, -⟩ := h.item hk
  exact lt_length_of_live htier hlive

/-- The Item of a new position. -/
theorem restock (h : Shelved rt P items tags) {k asset : Pubkey} {tier bump : UInt8} {position : UInt32}
    (htier : tier.toNat < 8) (hposition : tags.length = position.toNat)
    (hderived : rt.createProgramAddress (Item.seeds P tier position bump) programId = some k)
    (hvacant : items k = none) :
    Shelved rt P (Function.update items k (some (Item.fresh bump tier position P asset)))
      (tags ++ [tierTag tier.toNat]) := by
  have hold : ∀ {k' item}, items k' = some item → k' ≠ k ∧ item.position.toNat < tags.length :=
    fun {k' item} hk' => ⟨fun heq => by simp [heq, hvacant] at hk', h.lt_length hk'⟩
  refine ⟨fun {k' item} hk' => ?_, fun {p} hp => ?_, fun {k₁ k₂ item₁ item₂} h₁ h₂ heq => ?_⟩
  · rw [Function.update_apply] at hk'
    split_ifs at hk' with hkk
    · obtain rfl := Option.some.inj hk'
      refine ⟨rfl, htier, ?_, hkk ▸ hderived⟩
      show (tags ++ [tierTag tier.toNat]).getD position.toNat 0 = tierTag tier.toNat
      rw [← hposition, List.getD_append_right _ _ _ _ le_rfl, Nat.sub_self]
      rfl
    · obtain ⟨hpool, hitem, hlive, hd⟩ := h.item hk'
      refine ⟨hpool, hitem, ?_, hd⟩
      rw [Live, List.getD_append _ _ _ _ (hold hk').2]
      exact hlive
  · rcases lt_or_ge p tags.length with hlt | hge
    · rw [List.getD_append _ _ _ _ hlt] at hp
      obtain ⟨k', item, hk', rfl⟩ := h.stocked hp
      exact ⟨k', item, by rw [Function.update_of_ne (hold hk').1, hk'], rfl⟩
    · have hlen : p = tags.length := by
        by_contra hne
        rw [List.getD_eq_default _ _ (by rw [List.length_append, List.length_singleton]; omega)] at hp
        exact hp rfl
      exact ⟨k, _, Function.update_self _ _ _, by rw [hlen, hposition]; rfl⟩
  · rw [Function.update_apply] at h₁ h₂
    split_ifs at h₁ h₂ with hk₁ hk₂ hk₂
    · rw [hk₁, hk₂]
    · obtain rfl := Option.some.inj h₁
      have hlt := (hold h₂).2
      rw [← heq, hposition] at hlt
      exact absurd hlt (lt_irrefl _)
    · obtain rfl := Option.some.inj h₂
      have hlt := (hold h₁).2
      rw [heq, hposition] at hlt
      exact absurd hlt (lt_irrefl _)
    · exact h.unique h₁ h₂ heq

/-- An Item is closed with its position. -/
theorem take (h : Shelved rt P items tags) {k : Pubkey} {item : Item} (hk : items k = some item) :
    Shelved rt P (Function.update items k none) (tags.set item.position.toNat 0) := by
  have hold : ∀ {k' item'}, Function.update items k none k' = some item' →
      k' ≠ k ∧ items k' = some item' := by
    intro k' item' hk'
    rw [Function.update_apply] at hk'
    split_ifs at hk' with hkk
    exact ⟨hkk, hk'⟩
  refine ⟨fun {k' item'} hk' => ?_, fun {p} hp => ?_, fun {k₁ k₂ item₁ item₂} h₁ h₂ heq => ?_⟩
  · obtain ⟨hne, hk'⟩ := hold hk'
    obtain ⟨hpool, htier, hlive, hd⟩ := h.item hk'
    refine ⟨hpool, htier, ?_, hd⟩
    rw [Live, Market.getD_set_zero, if_neg]
    · exact hlive
    · exact fun heq => hne (h.unique hk' hk (UInt32.toNat_inj.mp heq))
  · rw [Market.getD_set_zero] at hp
    split_ifs at hp with hpp
    · exact absurd rfl hp
    · obtain ⟨k', item', hk', rfl⟩ := h.stocked hp
      refine ⟨k', item', ?_, rfl⟩
      rw [Function.update_of_ne, hk']
      rintro rfl
      exact hpp (by rw [Option.some.inj (hk'.symm.trans hk)])
  · exact h.unique (hold h₁).2 (hold h₂).2 heq

/-- The Items of some awards are closed with their positions. -/
theorem clear (h : Shelved rt P items tags) {awards : List Award}
    (hitem : ∀ award ∈ awards, items award.account = some award.item)
    (hnodup : (awards.map Award.account).Nodup) :
    Shelved rt P (fun k => if k ∈ awards.map Award.account then none else items k)
      (Market.clear tags (Award.positions awards)) := by
  induction awards generalizing items tags with
  | nil => simpa [Award.positions, Market.clear] using h
  | cons award awards ih =>
    rw [List.map_cons, List.nodup_cons] at hnodup
    have hfirst := h.take (hitem award List.mem_cons_self)
    have hrest := ih hfirst (fun later hlater => ?_) hnodup.2
    · have hfun : (fun k => if k ∈ awards.map Award.account then none else
          Function.update items award.account none k) =
          fun k => if k ∈ (award :: awards).map Award.account then none else items k := by
        funext k
        by_cases hk : k = award.account <;> simp [hk]
      rw [hfun] at hrest
      exact hrest
    · rw [Function.update_of_ne]
      · exact hitem later (List.mem_cons_of_mem _ hlater)
      · intro heq
        exact hnodup.1 (heq ▸ List.mem_map_of_mem hlater)

end Shelved

/-! ## The queue -/

/-- The Pulls of a pool are its queue. -/
structure Queued (pool : Pool) (pulls : Pubkey → Option Pull) (m : Market UInt8 Ticket) : Prop where
  served : m.served = pool.nextSettle.toNat
  next : pool.nextIndex.toNat = m.served + m.queue.length
  draws : pool.pendingDraws.toNat = Market.demand m.queue
  ticket : ∀ {i ticket}, m.queue[i]? = some ticket → ∃ pull, pulls ticket.pull = some pull ∧
    pull.status = statusPending ∧ pull.index.toNat = m.served + i ∧ pull.ticket ticket.pull = ticket
  pending : ∀ {k pull}, pulls k = some pull → pull.status = statusPending →
    ∃ i, m.queue[i]? = some (pull.ticket k) ∧ pull.index.toNat = m.served + i
  settled : ∀ {k pull}, pulls k = some pull → pull.status ≠ statusPending →
    pull.index.toNat < m.served
  distinct : ∀ {k k' pull pull'}, pulls k = some pull → pulls k' = some pull' →
    pull.index = pull'.index → k = k'

namespace Queued

variable {pool : Pool} {pulls : Pubkey → Option Pull} {m : Market UInt8 Ticket}

/-- The index of a Pull was issued. -/
theorem index_lt (h : Queued pool pulls m) {k : Pubkey} {pull : Pull} (hk : pulls k = some pull) :
    pull.index.toNat < pool.nextIndex.toNat := by
  rw [h.next]
  by_cases hpending : pull.status = statusPending
  · obtain ⟨i, hi, hindex⟩ := h.pending hk hpending
    obtain ⟨hlt, -⟩ := List.getElem?_eq_some_iff.mp hi
    omega
  · have := h.settled hk hpending
    omega

/-- The head of the queue. -/
theorem head (h : Queued pool pulls m) {k : Pubkey} {pull : Pull} (hk : pulls k = some pull)
    (hpending : pull.status = statusPending) (hhead : pull.index = pool.nextSettle) :
    ∃ rest, m.queue = pull.ticket k :: rest := by
  obtain ⟨i, hi, hindex⟩ := h.pending hk hpending
  obtain rfl : i = 0 := by
    rw [hhead, ← h.served] at hindex
    omega
  cases hq : m.queue with
  | nil => simp [hq] at hi
  | cons first rest =>
    rw [hq] at hi
    exact ⟨rest, by rw [Option.some.inj hi]⟩

/-- A purchase joins the queue. -/
theorem push (h : Queued pool pulls m) {k : Pubkey} {pull : Pull} {pendingDraws nextIndex : UInt64}
    (hvacant : pulls k = none) (hpending : pull.status = statusPending)
    (hplace : pull.index = pool.nextIndex)
    (hdraws : pool.pendingDraws.toNat + pull.count.toNat = pendingDraws.toNat)
    (hnext : pool.nextIndex.toNat + 1 = nextIndex.toNat) :
    Queued { pool with pendingDraws, nextIndex } (Function.update pulls k (some pull))
      { m with queue := m.queue ++ [pull.ticket k] } := by
  have hindex : pull.index.toNat = m.served + m.queue.length := by rw [hplace, h.next]
  have hold : ∀ {k' pull'}, pulls k' = some pull' → k' ≠ k ∧ pull'.index ≠ pull.index := by
    intro k' pull' hk'
    refine ⟨fun heq => by simp [heq, hvacant] at hk', fun heq => ?_⟩
    have hlt := h.index_lt hk'
    rw [heq, hplace] at hlt
    exact lt_irrefl _ hlt
  have hcases : ∀ {k' pull'}, Function.update pulls k (some pull) k' = some pull' →
      (k' = k ∧ pull' = pull) ∨ (k' ≠ k ∧ pulls k' = some pull') := by
    intro k' pull' hk'
    rw [Function.update_apply] at hk'
    split_ifs at hk' with hkk
    · exact .inl ⟨hkk, (Option.some.inj hk').symm⟩
    · exact .inr ⟨hkk, hk'⟩
  refine ⟨h.served, ?_, ?_, fun {i ticket} hi => ?_, fun {k' pull'} hk' hstatus => ?_,
    fun {k' pull'} hk' hstatus => ?_, fun {k₁ k₂ pull₁ pull₂} h₁ h₂ heq => ?_⟩
  · show nextIndex.toNat = m.served + (m.queue ++ [pull.ticket k]).length
    rw [List.length_append, List.length_singleton, ← hnext, h.next, Nat.add_assoc]
  · show pendingDraws.toNat = Market.demand (m.queue ++ [pull.ticket k])
    rw [Market.demand_append, ← hdraws, h.draws]
    rfl
  · rw [List.getElem?_append] at hi
    split_ifs at hi with hlt
    · obtain ⟨pull', hp, hs, hix, ht⟩ := h.ticket hi
      exact ⟨pull', by rw [Function.update_of_ne (hold hp).1, hp], hs, hix, ht⟩
    · obtain ⟨hi', rfl⟩ := List.getElem?_eq_some_iff.mp hi
      rw [List.length_singleton] at hi'
      refine ⟨pull, by simp [Pull.ticket], hpending, ?_, by simp [Pull.ticket]⟩
      show pull.index.toNat = m.served + i
      omega
  · rcases hcases hk' with ⟨rfl, rfl⟩ | ⟨hne, hk'⟩
    · exact ⟨m.queue.length, by simp, hindex⟩
    · obtain ⟨i, hi, hix⟩ := h.pending hk' hstatus
      obtain ⟨hlt, -⟩ := List.getElem?_eq_some_iff.mp hi
      exact ⟨i, by rw [List.getElem?_append_left hlt, hi], hix⟩
  · rcases hcases hk' with ⟨rfl, rfl⟩ | ⟨hne, hk'⟩
    · exact absurd hpending hstatus
    · exact h.settled hk' hstatus
  · rcases hcases h₁ with ⟨rfl, rfl⟩ | ⟨hne₁, ho₁⟩
    · rcases hcases h₂ with ⟨rfl, rfl⟩ | ⟨hne₂, ho₂⟩
      · rfl
      · exact absurd heq.symm (hold ho₂).2
    · rcases hcases h₂ with ⟨rfl, rfl⟩ | ⟨hne₂, ho₂⟩
      · exact absurd heq (hold ho₁).2
      · exact h.distinct ho₁ ho₂ heq

/-- The head of the queue leaves it, settled or closed. -/
theorem pop (h : Queued pool pulls m) (pool' : Pool) {k : Pubkey} {pull : Pull} {rest : List Ticket}
    {pendingDraws nextSettle : UInt64} {left : Option Pull} (hk : pulls k = some pull)
    (hhead : pull.index = pool.nextSettle) (hqueue : m.queue = pull.ticket k :: rest)
    (hdraws : pool.pendingDraws.toNat = pull.count.toNat + pendingDraws.toNat)
    (hnext : pull.index.toNat + 1 = nextSettle.toNat)
    (hleft : ∀ pull', left = some pull' → pull'.status ≠ statusPending ∧ pull'.index = pull.index)
    (hpool : pool'.nextSettle = nextSettle ∧ pool'.pendingDraws = pendingDraws ∧
      pool'.nextIndex = pool.nextIndex) {stock : List UInt8} :
    Queued pool' (Function.update pulls k left) ⟨stock, rest, m.served + 1⟩ := by
  have hserved : pull.index.toNat = m.served := by rw [hhead, h.served]
  have hcases : ∀ {k' pull'}, Function.update pulls k left k' = some pull' →
      (k' = k ∧ left = some pull') ∨ (k' ≠ k ∧ pulls k' = some pull') := by
    intro k' pull' hk'
    rw [Function.update_apply] at hk'
    split_ifs at hk' with hkk
    · exact .inl ⟨hkk, hk'⟩
    · exact .inr ⟨hkk, hk'⟩
  refine ⟨?_, ?_, ?_, fun {i ticket} hi => ?_, fun {k' pull'} hk' hstatus => ?_,
    fun {k' pull'} hk' hstatus => ?_, fun {k₁ k₂ pull₁ pull₂} h₁ h₂ heq => ?_⟩
  · show m.served + 1 = pool'.nextSettle.toNat
    rw [hpool.1, ← hnext, hserved]
  · show pool'.nextIndex.toNat = m.served + 1 + rest.length
    rw [hpool.2.2, h.next, hqueue, List.length_cons]
    omega
  · have hold := h.draws
    rw [hqueue, Market.demand_cons, hdraws] at hold
    show pool'.pendingDraws.toNat = Market.demand rest
    rw [hpool.2.1]
    exact Nat.add_left_cancel hold
  · obtain ⟨pull', hp, hs, hix, ht⟩ := h.ticket (show m.queue[i + 1]? = some ticket by
      rw [hqueue]
      exact hi)
    refine ⟨pull', ?_, hs, hix.trans (by show m.served + (i + 1) = m.served + 1 + i; omega), ht⟩
    rw [Function.update_of_ne, hp]
    intro heq
    obtain rfl : pull' = pull := Option.some.inj ((heq ▸ hp).symm.trans hk)
    omega
  · rcases hcases hk' with ⟨-, hl⟩ | ⟨hne, hk'⟩
    · exact absurd hstatus (hleft pull' hl).1
    · obtain ⟨i, hi, hix⟩ := h.pending hk' hstatus
      cases i with
      | zero =>
        rw [hqueue] at hi
        have hticket : pull.ticket k = pull'.ticket k' := Option.some.inj hi
        exact absurd (congrArg Ticket.pull hticket).symm hne
      | succ i =>
        rw [hqueue] at hi
        exact ⟨i, hi, hix.trans (by show m.served + (i + 1) = m.served + 1 + i; omega)⟩
  · rcases hcases hk' with ⟨-, hl⟩ | ⟨hne, hk'⟩
    · rw [(hleft pull' hl).2, hserved]
      exact Nat.lt_succ_self _
    · exact (h.settled hk' hstatus).trans (Nat.lt_succ_self _)
  · rcases hcases h₁ with ⟨rfl, hl₁⟩ | ⟨hne₁, ho₁⟩
    · rcases hcases h₂ with ⟨rfl, hl₂⟩ | ⟨hne₂, ho₂⟩
      · rfl
      · exact h.distinct hk ho₂ ((hleft _ hl₁).2.symm.trans heq)
    · rcases hcases h₂ with ⟨rfl, hl₂⟩ | ⟨hne₂, ho₂⟩
      · exact h.distinct ho₁ hk (heq.trans (hleft _ hl₂).2)
      · exact h.distinct ho₁ ho₂ heq

/-- A settled Pull is rewritten or closed. -/
theorem deliver (h : Queued pool pulls m) {k : Pubkey} {pull : Pull} {left : Option Pull}
    (hk : pulls k = some pull) (hsettled : pull.status ≠ statusPending)
    (hleft : ∀ pull', left = some pull' → pull'.status ≠ statusPending ∧ pull'.index = pull.index) :
    Queued pool (Function.update pulls k left) m := by
  have hcases : ∀ {k' pull'}, Function.update pulls k left k' = some pull' →
      ∃ old, pulls k' = some old ∧ old.index = pull'.index ∧
        ((k' = k ∧ pull'.status ≠ statusPending) ∨ old = pull') := by
    intro k' pull' hk'
    rw [Function.update_apply] at hk'
    split_ifs at hk' with hkk
    · exact ⟨pull, hkk ▸ hk, (hleft pull' hk').2.symm, .inl ⟨hkk, (hleft pull' hk').1⟩⟩
    · exact ⟨pull', hk', rfl, .inr rfl⟩
  refine ⟨h.served, h.next, h.draws, fun {i ticket} hi => ?_, fun {k' pull'} hk' hstatus => ?_,
    fun {k' pull'} hk' hstatus => ?_, fun {k₁ k₂ pull₁ pull₂} h₁ h₂ heq => ?_⟩
  · obtain ⟨pull', hp, hs, hix, ht⟩ := h.ticket hi
    refine ⟨pull', ?_, hs, hix, ht⟩
    rw [Function.update_of_ne, hp]
    intro heq
    exact hsettled (Option.some.inj (hk.symm.trans (heq ▸ hp)) ▸ hs)
  · obtain ⟨old, hold, -, ⟨-, hne⟩ | rfl⟩ := hcases hk'
    · exact absurd hstatus hne
    · exact h.pending hold hstatus
  · obtain ⟨old, hold, hindex, ⟨rfl, -⟩ | rfl⟩ := hcases hk'
    · obtain rfl : pull = old := Option.some.inj (hk.symm.trans hold)
      rw [← hindex]
      exact h.settled hold hsettled
    · exact h.settled hold hstatus
  · obtain ⟨old₁, hold₁, hi₁, -⟩ := hcases h₁
    obtain ⟨old₂, hold₂, hi₂, -⟩ := hcases h₂
    exact h.distinct hold₁ hold₂ (hi₁.trans (heq.trans hi₂.symm))

/-- Changes of the header that no counter of the queue shows. -/
theorem congr (h : Queued pool pulls m) {pool' : Pool} {stock : List UInt8}
    (hpool : pool'.nextSettle = pool.nextSettle ∧ pool'.pendingDraws = pool.pendingDraws ∧
      pool'.nextIndex = pool.nextIndex) : Queued pool' pulls { m with stock } :=
  ⟨by rw [hpool.1]; exact h.served, by rw [hpool.2.2]; exact h.next, by rw [hpool.2.1]; exact h.draws,
    h.ticket, h.pending, h.settled, h.distinct⟩

end Queued

end SolanaGacha
