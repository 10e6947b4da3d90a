import SolanaGacha.Banner.Step

/-!
# Calls are steps of every banner

A call that succeeds is a step of the pool that it names, and an idle one of every other pool
(`Call.Effect.banner`). For the other pools the reason is always the same: the accounts that are written
record another pool, what is given comes from a signer, and what is paid comes from a signer or from the
vault of the pool that is named.
-/

namespace SolanaGacha

open Except Layout Inventory

/-! ## Vaults -/

/-- Pools are valid, and a vault is a token account of its pool. -/
structure Ledger.Vaults (rt : Runtime) (L : Ledger) : Prop where
  valid : ∀ {P pool index}, L P = .pool pool index → pool.Valid rt P
  owned : ∀ {P mint v token}, rt.IsPda P → rt.ata P mint = some v → L v = .token token →
    token.owner = P ∧ token.mint = mint

theorem Ledger.Vaults.owner {rt : Runtime} {L : Ledger} (h : L.Vaults rt) {P : Pubkey} {pool : Pool}
    {index : List UInt8} (hpool : L P = .pool pool index) {token : TokenAccount}
    (htoken : L pool.vault = .token token) : rt.IsPda token.owner ∧ token.owner = P := by
  have hvalid := h.valid hpool
  have howner := (h.owned hvalid.isPda hvalid.vault htoken).1
  exact ⟨howner ▸ hvalid.isPda, howner⟩

/-- The signer whose asset or payment a pool receives. -/
def Call.giver : Call → Option AccountInfo
  | .depositItem a _ => some a.authority
  | .buy a _ => some a.buyer
  | .buyback a _ => some a.seller
  | _ => none

namespace Ledger

variable {L L' : Ledger} {P k : Pubkey}

/-! ## Unchanged readings -/

/-- A reading that an update leaves alone. -/
theorem read_update {β : Type*} (f : Entry → β) {e : Entry} (h : f e = f (L k)) (k' : Pubkey) :
    f (Function.update L k e k') = f (L k') := by
  rcases eq_or_ne k' k with rfl | hk
  · rw [Function.update_self, h]
  · rw [Function.update_of_ne hk]

theorem read_update₂ {β : Type*} (f : Entry → β) {k₁ k₂ : Pubkey} {e₁ e₂ : Entry} (h₁ : f e₁ = f (L k₁))
    (h₂ : f e₂ = f (L k₂)) (k : Pubkey) :
    f (Function.update (Function.update L k₁ e₁) k₂ e₂ k) = f (L k) :=
  (read_update f (h₂.trans (read_update f h₁ k₂).symm) k).trans (read_update f h₁ k)

theorem read_update₃ {β : Type*} (f : Entry → β) {k₁ k₂ k₃ : Pubkey} {e₁ e₂ e₃ : Entry}
    (h₁ : f e₁ = f (L k₁)) (h₂ : f e₂ = f (L k₂)) (h₃ : f e₃ = f (L k₃)) (k : Pubkey) :
    f (Function.update (Function.update (Function.update L k₁ e₁) k₂ e₂) k₃ e₃ k) = f (L k) :=
  (read_update f (h₃.trans (read_update₂ f h₁ h₂ k₃).symm) k).trans (read_update₂ f h₁ h₂ k)

/-- A reading that closing accounts leaves alone. -/
theorem read_vacate {β : Type*} (f : Entry → β) {keys : List Pubkey}
    (h : ∀ k ∈ keys, f (L k) = f .vacant) (k : Pubkey) : f (L.vacate keys k) = f (L k) := by
  rw [vacate]
  split_ifs with hk
  · exact (h k hk).symm
  · rfl

/-- The same token accounts. -/
def SameTokens (L L' : Ledger) : Prop := ∀ k, (L' k).token? = (L k).token?

theorem SameTokens.balance (h : L.SameTokens L') (k : Pubkey) : (L' k).balance = (L k).balance :=
  Entry.balance_congr (h k)

theorem SameTokens.token (h : L.SameTokens L') {k : Pubkey} {token : TokenAccount} :
    L' k = .token token ↔ L k = .token token := by
  rw [← Entry.token?_eq_some, ← Entry.token?_eq_some, h k]

/-- Updates that a banner does not read. -/
theorem sameBooks_of_reads (hpool : (L' P).pool? = (L P).pool?)
    (h : ∀ k, (L' k).item? P = (L k).item? P ∧ (L' k).pull? P = (L k).pull? P) :
    (L.banner P).SameBooks (L'.banner P) :=
  ⟨hpool, funext fun k => (h k).1, funext fun k => (h k).2⟩

theorem keepsAssets_of_eq (h : ∀ k, (L' k).OwnedBy P ↔ (L k).OwnedBy P) :
    (L.banner P).KeepsAssets (L'.banner P) :=
  fun _ k hk => (h k).mpr hk

/-- The vault of a pool whose header keeps its vault address. -/
theorem keepsReserve_of_le (hpool : (L'.banner P).pool = (L.banner P).pool)
    (h : ∀ pool index, L P = .pool pool index → (L pool.vault).balance ≤ (L' pool.vault).balance) :
    (L.banner P).KeepsReserve (L'.banner P) := by
  cases hP : (L.banner P).pool with
  | none =>
    refine .inl ((Eq.le ?_).trans (Nat.zero_le _))
    show ((L P).pool?.map _).getD 0 = 0
    rw [show (L P).pool? = none from hP]
    rfl
  | some x =>
    obtain ⟨pool, index⟩ := x
    have hold := banner_pool.mp hP
    have hnew := banner_pool.mp (hpool.trans hP)
    rw [Banner.KeepsReserve, banner_vault hold, banner_vault hnew]
    exact .inl (h pool index hold)

theorem vault_eq {pool pool' : Pool} {index index' : List UInt8} (h : L P = .pool pool index)
    (h' : L' P = .pool pool' index') (hvault : pool'.vault = pool.vault)
    (hbalance : (L' pool.vault).balance = (L pool.vault).balance) :
    (L'.banner P).vault = (L.banner P).vault := by
  rw [banner_vault h, banner_vault h', hvault, hbalance]

/-- A payment by an account other than the pool, after changes to other accounts. -/
theorem Paid.keepsReserve {rt : Runtime} (hV : L.Vaults rt) {M : Ledger}
    {source destination authority : Pubkey} {amount : UInt64} (htokens : L.SameTokens M)
    (h : M.Paid rt source destination authority amount L')
    (hother : (L.banner P).pool.isSome → P ≠ authority)
    (hpool : (L'.banner P).pool = (L.banner P).pool) : (L.banner P).KeepsReserve (L'.banner P) := by
  refine keepsReserve_of_le hpool fun pool index hP => ?_
  rw [← htokens.balance]
  refine h.balance_le fun token ht => ?_
  obtain ⟨hpda, howner⟩ := hV.owner hP (htokens.token.mp ht)
  exact ⟨hpda, howner ▸ hother (by rw [banner_pool.mpr hP]; rfl)⟩

/-- A payment leaves what is no token account. -/
theorem Paid.of_pull {rt : Runtime} {source destination authority : Pubkey} {amount : UInt64}
    (h : L.Paid rt source destination authority amount L') {pull : Pull} (hk : L k = .pull pull) :
    L' k = .pull pull := by
  rcases h.eq_or_tokens k with heq | ⟨s, s', hs, -⟩
  · exact heq.trans hk
  · exact absurd (hs.symm.trans hk) (by simp)

end Ledger

/-! ## Restocks -/

namespace Restocks

variable {rt : Runtime} {L M : Ledger} {Q itemKey assetKey giver : Pubkey} {tier bump : UInt8}
  {pool : Pool} {index : List UInt8}
  (h : Restocks rt L Q itemKey assetKey giver tier bump pool index M)

include h

/-- The entries after a restock. -/
theorem entries : ∃ pool' index' asset, Restocked pool index tier pool' index' ∧
    L assetKey = .asset asset ∧ asset.owner = giver ∧ M Q = .pool pool' index' ∧
    M itemKey = .item (Item.fresh bump tier pool.inventoryVersion Q assetKey) ∧
    M assetKey = .asset { asset with owner := Q } ∧
    ∀ k, k ≠ Q → k ≠ itemKey → k ≠ assetKey → M k = L k := by
  obtain ⟨pool', index', asset, hr, hasset, howner, rfl⟩ := h.ledger
  have h1 := Ledger.ne_of_entry h.vacant h.loaded (by simp)
  have h2 := Ledger.ne_of_entry h.vacant hasset (by simp)
  have h3 := Ledger.ne_of_entry h.loaded hasset (by simp)
  refine ⟨pool', index', asset, hr, hasset, howner, ?_, Function.update_self _ _ _, ?_,
    fun k hk1 hk2 hk3 => ?_⟩
  · rw [Function.update_of_ne h1.symm, Function.update_self]
  · rw [Function.update_of_ne h2.symm, Function.update_of_ne h3.symm, Function.update_self]
  · rw [Function.update_of_ne hk2, Function.update_of_ne hk1, Function.update_of_ne hk3]

/-- A reading that no part of a restock changes. -/
theorem read {β : Type*} (f : Entry → β)
    (hpool : ∀ pool' index', f (.pool pool' index') = f (.pool pool index))
    (hitem : f (.item (Item.fresh bump tier pool.inventoryVersion Q assetKey)) = f .vacant)
    (hasset : ∀ asset, f (.asset { asset with owner := Q }) = f (.asset asset)) (k : Pubkey) :
    f (M k) = f (L k) := by
  obtain ⟨pool', index', asset, -, hA, -, rfl⟩ := h.ledger
  refine Ledger.read_update₃ f ?_ ?_ ?_ k
  · rw [hA, hasset]
  · rw [h.loaded, hpool]
  · rw [h.vacant, hitem]

theorem sameTokens : L.SameTokens M := h.read Entry.token? (fun _ _ => rfl) rfl (fun _ => rfl)

/-- A restock of another pool. -/
theorem sameBooks {P : Pubkey} (hP : P ≠ Q) : (L.banner P).SameBooks (M.banner P) := by
  obtain ⟨pool', index', asset, -, hA, -, -, hI, hA', hrest⟩ := h.entries
  refine Ledger.sameBooks_of_reads ?_ fun k => ⟨?_, ?_⟩
  · by_cases h2 : P = itemKey
    · rw [h2, hI, h.vacant]
      rfl
    · by_cases h3 : P = assetKey
      · rw [h3, hA, hA']
        rfl
      · rw [hrest P hP h2 h3]
  · refine h.read (Entry.item? P) (fun _ _ => rfl) ?_ (fun _ => rfl) k
    exact if_neg hP.symm
  · exact h.read (Entry.pull? P) (fun _ _ => rfl) rfl (fun _ => rfl) k

theorem keepsAssets {P : Pubkey} (hgiver : (L.banner P).pool.isSome → giver ≠ P) :
    (L.banner P).KeepsAssets (M.banner P) := by
  obtain ⟨pool', index', asset, -, hA, howner, -, -, hA', hrest⟩ := h.entries
  intro hpool k hk
  have hown : (L k).OwnedBy P := hk
  show (M k).OwnedBy P
  rw [hrest k]
  · exact hown
  · rintro rfl
    rw [h.loaded] at hown
    exact hown
  · rintro rfl
    rw [h.vacant] at hown
    exact hown
  · rintro rfl
    rw [hA] at hown
    exact hgiver hpool (howner.symm.trans hown)

/-- A restock of the pool itself, when the reserve is kept. -/
theorem step {slot : UInt64} (hgiver : giver ≠ Q) {L' : Ledger} (hbooks : (M.banner Q).SameBooks (L'.banner Q))
    (hassets : (L'.banner Q).assets = (M.banner Q).assets)
    (hreserve : (L.banner Q).KeepsReserve (L'.banner Q)) :
    Banner.Step rt slot Q (L.banner Q) (.restock (tierTag tier.toNat)) (L'.banner Q) := by
  have hkeeps := h.keepsAssets (P := Q) fun _ => hgiver
  obtain ⟨pool', index', asset, hr, hA, howner, hQ, hI, hA', hrest⟩ := h.entries
  refine .restock (Ledger.banner_pool.mpr h.loaded) hr h.derived
    ?_ (?_ : assetKey ∉ (L.banner Q).assets) (hbooks.pool.trans (Ledger.banner_pool.mpr hQ)) (hbooks.items.trans ?_)
    (hbooks.pulls.trans ?_) ?_ hreserve
  · show (L itemKey).item? Q = none
    rw [h.vacant]
    rfl
  · show ¬(L assetKey).OwnedBy Q
    rw [hA]
    exact fun hown => hgiver (howner.symm.trans hown)
  · funext k
    show (M k).item? Q = Function.update (L.banner Q).items itemKey _ k
    rw [Function.update_apply]
    split_ifs with hk
    · rw [hk, hI]
      exact if_pos rfl
    · show (M k).item? Q = (L k).item? Q
      by_cases h1 : k = Q
      · rw [h1, hQ, h.loaded]
        rfl
      · by_cases h3 : k = assetKey
        · rw [h3, hA, hA']
          rfl
        · rw [hrest k h1 hk h3]
  · exact funext fun k => h.read (Entry.pull? Q) (fun _ _ => rfl) rfl (fun _ => rfl) k
  · rw [hassets]
    refine Set.insert_subset ?_ (hkeeps (by rw [Ledger.banner_pool.mpr h.loaded]; rfl))
    show (M assetKey).OwnedBy Q
    rw [hA']
    rfl

end Restocks

end SolanaGacha
