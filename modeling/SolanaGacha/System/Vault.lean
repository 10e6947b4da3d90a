import SolanaGacha.System.Localnet

/-!
# The vault of a pool

Every instruction keeps the vault above the price and the penalty of all pending draws, and nothing else
can take from it. So in every reachable state the reserve is there, `spendable` has a result, and a refund
whose accounts pass their checks is funded (`World.Reached.vault_solvent`).
-/

namespace SolanaGacha

open Except Layout

/-- The price and the penalty of all pending draws. -/
def Pool.reserve (pool : Pool) : ℕ :=
  (pool.price.toNat + pool.bondPerDraw.toNat) * pool.pendingDraws.toNat

theorem Entry.token_of_balance {e : Entry} (h : 0 < e.balance) :
    ∃ token, e = .token token ∧ e.balance = token.amount.toNat := by
  cases e with
  | token token => exact ⟨token, rfl, rfl⟩
  | _ => exact absurd h (Nat.lt_irrefl 0)

namespace Banner.Opened

variable {rt : Runtime} {L : Ledger} {P : Pubkey} {pool : Pool} {index : List UInt8}
  {m : Market UInt8 Ticket} (h : (L.banner P).Opened rt P pool index m)

include h

/-- While draws are pending, the vault is a token account that holds the reserve. -/
theorem vault_covers (hpending : pool.pendingDraws ≠ 0) :
    ∃ token, L pool.vault = .token token ∧ pool.reserve ≤ token.amount.toNat := by
  have hpool := Ledger.banner_pool.mp h.header
  have hfunded := h.funded
  rw [Ledger.banner_vault hpool, Ledger.banner_reserve hpool] at hfunded
  have hprice : 0 < pool.price.toNat := UInt64.pos_iff_ne_zero.mpr h.valid.price
  have hdraws : 0 < pool.pendingDraws.toNat := UInt64.pos_iff_ne_zero.mpr hpending
  have hreserve : 0 < pool.reserve := Nat.mul_pos (by omega) hdraws
  obtain ⟨token, htoken, hbalance⟩ := Entry.token_of_balance (hreserve.trans_le hfunded)
  exact ⟨token, htoken, hbalance ▸ hfunded⟩

/-- The price and the penalty of any number of pending draws fit `u64`. -/
theorem refundAmount_isOk {count : UInt64} (hcount : count.toNat ≤ pool.pendingDraws.toNat) :
    ∃ amount, pool.refundAmount count = .ok amount ∧
      amount.toNat = (pool.price.toNat + pool.bondPerDraw.toNat) * count.toNat := by
  have hfits : (pool.price.toNat + pool.bondPerDraw.toNat) * count.toNat < 2 ^ 64 := by
    rcases eq_or_ne pool.pendingDraws 0 with hzero | hne
    · rw [hzero] at hcount
      rw [Nat.le_zero.mp hcount, Nat.mul_zero]
      decide
    · obtain ⟨token, -, hle⟩ := h.vault_covers hne
      exact ((Nat.mul_le_mul_left _ hcount).trans hle).trans_lt token.amount.toNat_lt
  have hterms : pool.price.toNat + pool.bondPerDraw.toNat < 2 ^ 64 := by
    have := h.valid.refund
    rw [maxCount] at this
    omega
  refine ⟨UInt64.ofNat ((pool.price.toNat + pool.bondPerDraw.toNat) * count.toNat),
    Pool.refundAmount_eq_ok.mpr ⟨hterms, ?_⟩, ?_⟩
  · rw [UInt64.toNat_ofNat_of_lt' hfits]
  · rw [UInt64.toNat_ofNat_of_lt' hfits]

end Banner.Opened

/-- In every reachable state the vault covers the price and the penalty of all pending draws: the reserve
fits `u64`, `spendable` is what the vault holds above it, and a refund whose accounts pass their checks is
funded. -/
theorem World.Reached.vault_solvent {rt : Runtime} (hrt : rt.Lawful) {w : World} (hw : w.Reached rt)
    {P : Pubkey} {pool : Pool} {index : List UInt8} (hpool : w.ledger P = .pool pool index) :
    (pool.pendingDraws ≠ 0 → ∃ token free, w.ledger pool.vault = .token token ∧
      pool.reserve ≤ token.amount.toNat ∧ pool.reserve < 2 ^ 64 ∧
      spendable pool (w.accounts pool.vault) = .ok free ∧
        free.toNat = token.amount.toNat - pool.reserve) ∧
    ∀ infos a, a.pool.key = P → RefundAccounts.tryFrom w infos = .ok a → ∃ pull amount token,
      w.ledger a.pull.key = .pull pull ∧ pool.refundAmount pull.count.toUInt64 = .ok amount ∧
        amount.toNat = (pool.price.toNat + pool.bondPerDraw.toNat) * pull.count.toNat ∧
        w.ledger a.vault.key = .token token ∧ amount ≤ token.amount := by
  obtain ⟨m, hm⟩ := (hw.sound hrt).opened hpool
  refine ⟨fun hpending => ?_, fun infos a hP ha => ?_⟩
  · obtain ⟨token, htoken, hle⟩ := hm.vault_covers hpending
    obtain ⟨reserved, hreserved, heq⟩ := hm.refundAmount_isOk le_rfl
    have hfree : (token.amount - reserved).toNat = token.amount.toNat - pool.reserve := by
      rw [UInt64.toNat_sub_of_le _ _ (UInt64.le_iff_toNat_le.mpr (heq ▸ hle)), heq]
      rfl
    refine ⟨token, token.amount - reserved, htoken, hle, hle.trans_lt token.amount.toNat_lt,
      spendable_eq_ok.mpr ⟨token, reserved, htoken, hreserved, ?_⟩, hfree⟩
    rw [hfree, heq]
    exact (Nat.add_sub_of_le hle).symm
  · obtain ⟨pool', pull, hload, hpull, hsame, hstatus, hhead, -, -, hvault, -⟩ :=
      RefundAccounts.of_tryFrom ha
    subst hP
    obtain rfl := World.pool_load_of_entry hpool hload
    have hpull' := Ledger.banner_pulls.mpr ⟨World.pull_load hpull, hsame⟩
    obtain ⟨rest, hqueue⟩ := hm.queued.head hpull' hstatus hhead
    have hdraws := hm.queued.draws
    rw [hqueue, Market.demand_cons] at hdraws
    have hcount : pull.count.toUInt64.toNat ≤ pool'.pendingDraws.toNat := by
      rw [hdraws, UInt8.toNat_toUInt64]
      exact Nat.le_add_right _ _
    have hpos := (hm.pull hpull').count.1
    obtain ⟨token, htoken, hle⟩ := hm.vault_covers fun hzero => by
      rw [hzero, UInt8.toNat_toUInt64] at hcount
      exact not_le.mpr hpos hcount
    obtain ⟨amount, hamount, heq⟩ := hm.refundAmount_isOk hcount
    refine ⟨pull, amount, token, World.pull_load hpull, hamount, ?_, hvault ▸ htoken,
      UInt64.le_iff_toNat_le.mpr ?_⟩
    · rw [heq, UInt8.toNat_toUInt64]
    · rw [heq]
      exact (Nat.mul_le_mul_left _ hcount).trans hle

theorem World.Reached.vault_solvent_sample : ∃ pool index,
    Sample.bought.ledger Sample.pool = .pool pool index ∧ pool.pendingDraws = 1 ∧
    (pool.pendingDraws ≠ 0 → ∃ token free, Sample.bought.ledger pool.vault = .token token ∧
      pool.reserve ≤ token.amount.toNat ∧ pool.reserve < 2 ^ 64 ∧
      spendable pool (Sample.bought.accounts pool.vault) = .ok free ∧
        free.toNat = token.amount.toNat - pool.reserve) ∧
    ∀ infos a, a.pool.key = Sample.pool → RefundAccounts.tryFrom Sample.bought infos = .ok a →
      ∃ pull amount token, Sample.bought.ledger a.pull.key = .pull pull ∧
        pool.refundAmount pull.count.toUInt64 = .ok amount ∧
        amount.toNat = (pool.price.toNat + pool.bondPerDraw.toNat) * pull.count.toNat ∧
        Sample.bought.ledger a.vault.key = .token token ∧ amount ≤ token.amount := by
  obtain ⟨pool, index, hpool, hpending⟩ := Sample.bought_pool
  exact ⟨pool, index, hpool, hpending,
    World.Reached.vault_solvent Sample.net.runtime_lawful Sample.bought_reached hpool⟩

end SolanaGacha
