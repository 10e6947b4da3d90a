import SolanaGacha.Sdk.Agreement
import SolanaGacha.System.Vault

/-!
# The purchase capacity

Both sides compare the same numbers: the handler of a purchase asks whether the stock covers all draws and
the vault all refunds once the payment lands, the SDK divides what is left in the vault by the penalty.
`Buy.reserve_isOk` and `availableDraws_eq` state the two in natural numbers, and `World.Reached.capacity`
that they agree at every count.
-/

namespace SolanaGacha

open Except Layout

/-! ## The handler -/

/-- The stock and collateral checks of a purchase, in natural numbers. -/
theorem Buy.reserve_isOk {w : World} {a : BuyAccounts} {d : BuyInstructionData} {pool : Pool}
    {token : TokenAccount} {stock : ℕ} (hstock : pool.remaining = .ok stock) (hsmall : stock < 2 ^ 64)
    (hterms : pool.price.toNat + pool.bondPerDraw.toNat < 2 ^ 64)
    (hvault : w.ledger a.vault.key = .token token) (hcurrent : d.inventoryVersion = pool.inventoryVersion)
    (hfits : token.amount.toNat + pool.price.toNat * d.count.toNat < 2 ^ 64) :
    (∃ reserved, Buy.reserve w a d pool = .ok reserved) ↔
      pool.pendingDraws.toNat + d.count.toNat ≤ stock ∧
        (pool.price.toNat + pool.bondPerDraw.toNat) * (pool.pendingDraws.toNat + d.count.toNat) ≤
          token.amount.toNat + pool.price.toNat * d.count.toNat := by
  have hcount : d.count.toUInt64.toNat = d.count.toNat := UInt8.toNat_toUInt64 _
  have htoken : TokenAccount.load (w.account a.vault) = .ok token := Account.entry_eq_token.mp hvault
  constructor
  · rintro ⟨reserved, hreserve⟩
    unfold Buy.reserve at hreserve
    simp only [bind_eq_ok, okOr_eq_ok, failIf_eq_ok, not_not, pure_eq_ok, hstock, htoken, Except.ok.injEq,
      UInt64.checkedAdd_eq_some, Pool.payment_eq_ok, Pool.refundAmount_eq_ok, hcount] at hreserve
    obtain ⟨_, -, draws, hdraws, _, rfl, _, hsold, amount, hamount, _, rfl, balance, hbalance, refunds,
      ⟨-, hrefunds⟩, _, hcovered, -⟩ := hreserve
    have hle := UInt64.le_iff_toNat_le.mp (UInt64.not_lt.mp hcovered)
    rw [hdraws, hamount, hbalance, hrefunds]
    exact ⟨not_lt.mp hsold, hle⟩
  · rintro ⟨hsold, hcovered⟩
    -- No check of the arithmetic fails: every number is at most one that fits.
    have hdraws : pool.pendingDraws.checkedAdd d.count.toUInt64 = some (pool.pendingDraws + d.count.toUInt64) :=
      if_pos (by omega)
    have hdraws' := UInt64.checkedAdd_eq_some.mp hdraws
    rw [hcount] at hdraws'
    have hamount' : (UInt64.ofNat (pool.price.toNat * d.count.toNat)).toNat =
        pool.price.toNat * d.count.toNat := UInt64.toNat_ofNat_of_lt' (by show _ < 2 ^ 64; omega)
    have hamount : pool.payment d.count.toUInt64 = .ok (UInt64.ofNat (pool.price.toNat * d.count.toNat)) := by
      rw [Pool.payment_eq_ok, hamount', hcount]
    generalize UInt64.ofNat (pool.price.toNat * d.count.toNat) = amount at hamount hamount'
    have hbalance : token.amount.checkedAdd amount = some (token.amount + amount) :=
      if_pos (by omega)
    have hbalance' := UInt64.checkedAdd_eq_some.mp hbalance
    generalize pool.pendingDraws + d.count.toUInt64 = draws at hdraws hdraws'
    generalize token.amount + amount = balance at hbalance hbalance'
    rw [hdraws', ← hamount', hbalance'] at hcovered
    have hrefunds : pool.refundAmount draws =
        .ok (UInt64.ofNat ((pool.price.toNat + pool.bondPerDraw.toNat) * draws.toNat)) := by
      rw [Pool.refundAmount_eq_ok, UInt64.toNat_ofNat_of_lt' (hcovered.trans_lt balance.toNat_lt)]
      exact ⟨hterms, rfl⟩
    refine ⟨(draws, amount), ?_⟩
    unfold Buy.reserve
    dsimp only
    rw [failIf_neg (not_not.mpr hcurrent), ok_bind, hdraws, okOr, ok_bind, hstock, ok_bind,
      failIf_neg (by omega), ok_bind, hamount, ok_bind, htoken, ok_bind, hbalance, okOr, ok_bind, hrefunds,
      ok_bind, failIf_neg]
    · rfl
    · rw [UInt64.not_lt, UInt64.le_iff_toNat_le,
        UInt64.toNat_ofNat_of_lt' (hcovered.trans_lt balance.toNat_lt)]
      exact hcovered

/-! ## The SDK -/

namespace GachaRust.Pool

variable {pool : GachaRust.Pool}

/-- What is spendable, in natural numbers. -/
theorem spendableBalance_eq {reserved balance : UInt64}
    (hreserved : pool.header.refundAmount pool.header.pendingDraws = .ok reserved) :
    ∃ free, pool.spendableBalance balance = .ok free ∧
      free.toNat = balance.toNat - reserved.toNat := by
  unfold spendableBalance
  rw [hreserved]
  refine ⟨_, rfl, ?_⟩
  split_ifs with hle
  · exact UInt64.toNat_sub_of_le _ _ hle
  · have hlt := UInt64.lt_iff_toNat_lt.mp (UInt64.not_le.mp hle)
    rw [UInt64.toNat_zero]
    omega

/-- The draws that are available, in natural numbers. -/
theorem availableDraws_eq {reserved balance : UInt64} {stock : ℕ} (hactive : pool.status = .active)
    (hstock : pool.header.remaining = .ok stock) (hsmall : stock < 2 ^ 64)
    (hpending : pool.header.pendingDraws.toNat ≤ stock) (hbond : pool.header.bondPerDraw ≠ 0)
    (hreserved : pool.header.refundAmount pool.header.pendingDraws = .ok reserved) :
    ∃ available, pool.availableDraws balance = .ok available ∧
      available.toNat = min 10 (min (stock - pool.header.pendingDraws.toNat)
        ((balance.toNat - reserved.toNat) / pool.header.bondPerDraw.toNat)) := by
  obtain ⟨free, hfree, hfree'⟩ := @spendableBalance_eq pool reserved balance hreserved
  have hstock' : (UInt64.ofNat stock).toNat = stock := UInt64.toNat_ofNat_of_lt' hsmall
  have hleft : (UInt64.ofNat stock).checkedSub pool.header.pendingDraws =
      some (UInt64.ofNat stock - pool.header.pendingDraws) := if_pos (by rwa [hstock'])
  have hleft' : (UInt64.ofNat stock - pool.header.pendingDraws).toNat =
      stock - pool.header.pendingDraws.toNat := by
    rw [UInt64.toNat_sub_of_le _ _ (UInt64.le_iff_toNat_le.mpr (by rwa [hstock'])), hstock']
  unfold availableDraws
  rw [if_neg (not_not.mpr hactive), hstock, mapErr, ok_bind, hleft, okOr, ok_bind, hfree, ok_bind,
    failIf_neg hbond, ok_bind]
  refine ⟨_, rfl, ?_⟩
  rw [availableDraws_toNat, hleft', UInt64.toNat_div, hfree']

end GachaRust.Pool

/-! ## Their agreement -/

/-- The vault covers `n` more draws when what it has above the reserve covers `n` penalties: the payment
covers the prices. -/
theorem covers_iff {price bond pending n balance : ℕ} (hbond : 0 < bond) (hn : 0 < n) :
    (price + bond) * (pending + n) ≤ balance + price * n ↔
      n ≤ (balance - (price + bond) * pending) / bond := by
  have hsplit : (price + bond) * (pending + n) = (price + bond) * pending + n * bond + price * n := by
    ring
  have hpos : 0 < n * bond := Nat.mul_pos hn hbond
  rw [Nat.le_div_iff_mul_le hbond, hsplit]
  omega

namespace World

variable {rt : Runtime} {w : World}

/-- In every reachable state and for every balance of the vault: an active pool has a number of available
draws, and a purchase of any count that the payment does not overflow passes the stock and collateral checks
exactly when that number is not exceeded. On other pools the number is zero. -/
theorem Reached.capacity (hrt : rt.Lawful) (hw : w.Reached rt) {P : Pubkey} {pool : Pool}
    {index : List UInt8} (hpool : w.ledger P = .pool pool index) (balance : UInt64) :
    (pool.status ≠ poolActive → GachaRust.Pool.availableDraws ⟨P, (w.accounts P).data⟩ balance = .ok 0) ∧
    (pool.status = poolActive → ∃ available,
      GachaRust.Pool.availableDraws ⟨P, (w.accounts P).data⟩ balance = .ok available ∧
      ∀ n : UInt8, 1 ≤ n → n ≤ 10 → balance.toNat + pool.price.toNat * n.toNat < 2 ^ 64 →
        ∀ (w' : World) (a : BuyAccounts) (d : BuyInstructionData) (token : TokenAccount),
          w'.ledger a.vault.key = .token token → token.amount = balance →
            d.inventoryVersion = pool.inventoryVersion → d.count = n →
              ((∃ reserved, Buy.reserve w' a d pool = .ok reserved) ↔ n ≤ available)) := by
  obtain ⟨m, hm⟩ := (hw.sound hrt).opened hpool
  obtain ⟨hload, -⟩ := Account.entry_eq_pool.mp hpool
  have hheader : GachaRust.Pool.header ⟨P, (w.accounts P).data⟩ = pool := (Pool.load_eq_ok.mp hload).2.1
  generalize (⟨P, (w.accounts P).data⟩ : GachaRust.Pool) = snapshot at hheader
  constructor
  · intro hstatus
    have hinactive : snapshot.status ≠ .active := by
      unfold GachaRust.Pool.status
      rw [hheader]
      split_ifs <;> simp
    unfold GachaRust.Pool.availableDraws
    rw [if_pos hinactive]
    rfl
  · intro hstatus
    have hactive : snapshot.status = .active := by
      unfold GachaRust.Pool.status
      rw [hheader, hstatus]
      decide
    have hbond : 0 < pool.bondPerDraw.toNat := UInt64.pos_iff_ne_zero.mpr hm.valid.bondPerDraw
    have hterms : pool.price.toNat + pool.bondPerDraw.toNat < 2 ^ 64 := by
      have := hm.valid.refund
      rw [maxCount] at this
      omega
    -- The stock fits, and covers the queue.
    have hstock := hm.stock.remaining_eq
    have hpending := hm.covered.demand_le
    rw [← hm.queued.draws] at hpending
    have hsmall : (Market.candidates m.stock m.stock.length).card < 2 ^ 64 := by
      rw [Market.card_candidates]
      have hle := List.countP_le_length (p := fun tag : UInt8 => decide (tag ≠ 0))
        (l := m.stock.take m.stock.length)
      have := hm.stock.indexed.small
      rw [List.length_take] at hle
      omega
    generalize (Market.candidates m.stock m.stock.length).card = stock at hstock hpending hsmall
    obtain ⟨reserved, hreserved, hamount⟩ := hm.refundAmount_isOk le_rfl
    obtain ⟨available, havailable, heq⟩ := @GachaRust.Pool.availableDraws_eq snapshot reserved balance stock
      hactive (by rw [hheader, hstock]) hsmall (by rwa [hheader]) (by rw [hheader]; exact hm.valid.bondPerDraw)
      (by rw [hheader, hreserved])
    refine ⟨available, havailable, fun n hone hten hfits w' a d token htoken hbalance hcurrent hcount => ?_⟩
    subst hbalance hcount
    have hone' : 1 ≤ d.count.toNat := UInt8.le_iff_toNat_le.mp hone
    have hten' : d.count.toNat ≤ 10 := UInt8.le_iff_toNat_le.mp hten
    rw [Buy.reserve_isOk hstock hsmall hterms htoken hcurrent hfits, covers_iff hbond hone',
      UInt8.le_iff_toNat_le, heq, hheader, hamount, le_min_iff, le_min_iff]
    constructor
    · rintro ⟨hsold, hcovered⟩
      exact ⟨hten', by omega, hcovered⟩
    · rintro ⟨-, hsold, hcovered⟩
      exact ⟨by omega, hcovered⟩

/-- On the sample pool, one of whose two Items is reserved. -/
theorem Reached.capacity_sample : ∃ pool index, Sample.bought.ledger Sample.pool = .pool pool index ∧
    pool.status = poolActive ∧ ∃ available,
      GachaRust.Pool.availableDraws ⟨Sample.pool, (Sample.bought.accounts Sample.pool).data⟩ 1100 =
        .ok available ∧ available = 1 ∧
      ∀ n : UInt8, 1 ≤ n → n ≤ 10 → (1100 : UInt64).toNat + pool.price.toNat * n.toNat < 2 ^ 64 →
        ∀ (w' : World) (a : BuyAccounts) (d : BuyInstructionData) (token : TokenAccount),
          w'.ledger a.vault.key = .token token → token.amount = 1100 →
            d.inventoryVersion = pool.inventoryVersion → d.count = n →
              ((∃ reserved, Buy.reserve w' a d pool = .ok reserved) ↔ n ≤ available) := by
  obtain ⟨pool, index, hpool, hactive⟩ := Sample.exists_pool (e := Sample.bought.ledger Sample.pool)
    (p := fun pool => pool.status = poolActive) (by decide +kernel)
  have hone : (match GachaRust.Pool.availableDraws
      ⟨Sample.pool, (Sample.bought.accounts Sample.pool).data⟩ 1100 with
    | .ok available => decide (available = 1)
    | .error _ => false) = true := by decide +kernel
  have hreached := Sample.bought_reached
  generalize Sample.bought = w at *
  simp only [decide_eq_true_eq] at hactive
  obtain ⟨-, hcapacity⟩ := World.Reached.capacity Sample.net.runtime_lawful hreached hpool 1100
  obtain ⟨available, havailable, hiff⟩ := hcapacity hactive
  rw [havailable, decide_eq_true_eq] at hone
  exact ⟨pool, index, hpool, hactive, available, havailable, hone, hiff⟩

end World

end SolanaGacha
