import SolanaGacha.Sdk.Relay
import SolanaGacha.Sdk.Wire

/-!
# Calls that read slices

`buy`, `buyback` and `refund` of the client do not fetch the inventory of a pool: they request a slice of each
account and decode the pool from its header alone. An honest node's slices make the same instructions as the whole
accounts, where these are accepted (`World.slices_suffice`).
-/

namespace SolanaGacha

open Except Layout

/-! ## Headers -/

namespace GachaRust

/-- The header of a pool is in its first bytes. -/
theorem Pool.header_take (address : Pubkey) (data : List UInt8) :
    (⟨address, data.take poolLen⟩ : Pool).header = (⟨address, data⟩ : Pool).header :=
  SolanaGacha.Pool.layout.decode_take data

/-- The header of an accepted account is accepted alone, without its tags. -/
theorem PoolAccepted.take {rt : Runtime} {address owner : Pubkey} {data : List UInt8}
    (h : PoolAccepted rt address owner data (SolanaGacha.Pool.layout.decode data)) :
    PoolAccepted rt address owner (data.take poolLen) (SolanaGacha.Pool.layout.decode (data.take poolLen)) := by
  have hlen : (data.take poolLen).length = poolLen := by
    rw [List.length_take, min_eq_left h.length]
  rw [show SolanaGacha.Pool.layout.decode (data.take poolLen) = SolanaGacha.Pool.layout.decode data from
    SolanaGacha.Pool.layout.decode_take data]
  exact {
    owner := h.owner
    length := hlen.ge
    version := by
      rw [List.getElem?_take, if_pos (by decide)]
      exact h.version
    tierCount := h.tierCount
    status := h.status
    complete := .inl hlen
    derived := h.derived
    vault := h.vault
    price := h.price
    bondPerDraw := h.bondPerDraw
    deadlineSlots := h.deadlineSlots
    refund := h.refund
    weights := h.weights
    tags := fun hlt => absurd hlen (Nat.ne_of_gt hlt) }

theorem Pool.fromAccount_take {rt : Runtime} {address owner : Pubkey} {data : List UInt8} {pool : Pool}
    (h : Pool.fromAccount rt address owner data = .ok pool) :
    Pool.fromAccount rt address owner (data.take poolLen) = .ok ⟨address, data.take poolLen⟩ := by
  obtain ⟨haccepted, -⟩ := Pool.fromAccount_eq_ok.mp h
  exact Pool.fromAccount_eq_ok.mpr ⟨haccepted.take, rfl⟩

section Builders

variable (rt : Runtime) (address : Pubkey) (data : List UInt8)

/-- The builders read no more than the header. -/
theorem Pool.buy_take (buy : Buy) :
    (⟨address, data.take poolLen⟩ : Pool).buy rt buy = (⟨address, data⟩ : Pool).buy rt buy := by
  unfold Pool.buy Pool.status
  rw [Pool.header_take]

theorem Pool.buyback_take (quote : BuybackQuote) (signature : FixedBytes 64) (asset : Asset) (payer : Pubkey) :
    (⟨address, data.take poolLen⟩ : Pool).buyback rt quote signature asset payer =
      (⟨address, data⟩ : Pool).buyback rt quote signature asset payer := by
  unfold Pool.buyback Pool.status
  rw [Pool.header_take]

theorem Pool.refund_take (pull : Pull) (payer : Pubkey) :
    (⟨address, data.take poolLen⟩ : Pool).refund rt pull payer = (⟨address, data⟩ : Pool).refund rt pull payer := by
  unfold Pool.refund Pool.pending
  rw [Pool.header_take]

end Builders

/-! ## Honest answers -/

section Answers

variable {rt : Runtime} {w : World}

theorem present_of_pool {P : Pubkey} {pool : Pool}
    (h : Pool.fromAccount rt P (w.accounts P).owner (w.accounts P).data = .ok pool) : w.ledger P ≠ .vacant := by
  intro hvacant
  obtain ⟨haccepted, -⟩ := Pool.fromAccount_eq_ok.mp h
  exact systemId_ne_programId ((Account.entry_eq_vacant.mp hvacant).1.symm.trans haccepted.owner)

theorem present_of_pull {k : Pubkey} {pull : Pull}
    (h : Pull.fromAccount rt k (w.accounts k).owner (w.accounts k).data = .ok pull) : w.ledger k ≠ .vacant := by
  intro hvacant
  obtain ⟨haccepted, -⟩ := Pull.fromAccount_eq_ok.mp h
  exact systemId_ne_programId ((Account.entry_eq_vacant.mp hvacant).1.symm.trans haccepted.owner)

theorem present_of_asset {k : Pubkey} {asset : Asset}
    (h : Asset.fromAccount k (w.accounts k).owner (w.accounts k).data = .ok asset) : w.ledger k ≠ .vacant := by
  intro hvacant
  unfold Asset.fromAccount CoreAsset.fromAccount at h
  rw [(Account.entry_eq_vacant.mp hvacant).1, failIf, if_pos (.inl (by decide))] at h
  cases h

/-- The header of an asset is in every slice that the client requests. -/
theorem Asset.fromAccount_take {n : ℕ} (hn : 66 ≤ n) (k owner : Pubkey) (data : List UInt8) :
    Asset.fromAccount k owner (data.take n) = Asset.fromAccount k owner data := by
  unfold Asset.fromAccount
  rw [CoreAsset.fromAccount_take hn]

variable {rpc : Rpc} (hrpc : ∀ n r, rpc n r = .ok (w.answer r))

include hrpc

theorem Client.buy_eq {P : Pubkey} {pool : Pool}
    (hpool : Pool.fromAccount rt P (w.accounts P).owner (w.accounts P).data = .ok pool) (buy : Buy) :
    Client.buy rt rpc P buy = lift (pool.buy rt buy) := by
  have hread : Client.read rpc 0 [P] none (some poolLen) = .ok (w.slot, [P].map (w.slice (some poolLen))) :=
    Client.read_eq (hrpc 0 _) (by simpa using present_of_pool hpool) (by simp)
  obtain ⟨-, rfl⟩ := Pool.fromAccount_eq_ok.mp hpool
  unfold Client.buy
  rw [hread, ok_bind]
  show lift (Pool.fromAccount rt P (w.accounts P).owner ((w.accounts P).data.take poolLen)) >>= _ = _
  rw [Pool.fromAccount_take hpool]
  exact congrArg lift (Pool.buy_take rt P (w.accounts P).data buy)

theorem Client.buyback_eq {quote : BuybackQuote} {pool : Pool} {asset : Asset}
    (hpool : Pool.fromAccount rt quote.pool (w.accounts quote.pool).owner (w.accounts quote.pool).data = .ok pool)
    (hasset : Asset.fromAccount quote.asset (w.accounts quote.asset).owner (w.accounts quote.asset).data = .ok asset)
    (signature : FixedBytes 64) (payer : Pubkey) : Client.buyback rt rpc quote signature payer =
      lift (pool.buyback rt quote signature asset payer) := by
  have hread : Client.read rpc 0 [quote.pool, quote.asset] none (some poolLen) =
      .ok (w.slot, [quote.pool, quote.asset].map (w.slice (some poolLen))) :=
    Client.read_eq (hrpc 0 _) (by simpa using ⟨present_of_pool hpool, present_of_asset hasset⟩) (by simp)
  obtain ⟨-, rfl⟩ := Pool.fromAccount_eq_ok.mp hpool
  unfold Client.buyback
  rw [hread, ok_bind]
  show lift (Pool.fromAccount rt quote.pool (w.accounts quote.pool).owner
    ((w.accounts quote.pool).data.take poolLen)) >>= _ = _
  rw [Pool.fromAccount_take hpool]
  show lift (Asset.fromAccount quote.asset (w.accounts quote.asset).owner
    ((w.accounts quote.asset).data.take poolLen)) >>= _ = _
  rw [Asset.fromAccount_take (by decide), hasset]
  exact congrArg lift (Pool.buyback_take rt quote.pool (w.accounts quote.pool).data quote signature asset payer)

/-- The slice of the second read has the length of a Pull, and more than the header of a pool. -/
theorem Client.refund_eq {k : Pubkey} {pull : Pull} {pool : Pool}
    (hpull : Pull.fromAccount rt k (w.accounts k).owner (w.accounts k).data = .ok pull)
    (hpool : Pool.fromAccount rt pull.header.pool (w.accounts pull.header.pool).owner
      (w.accounts pull.header.pool).data = .ok pool) (payer : Pubkey) :
    Client.refund rt rpc k payer = lift (pool.refund rt pull payer) := by
  have hdiscover : Client.read rpc 0 [k] none none = .ok (w.slot, [k].map (w.slice none)) :=
    Client.read_eq (hrpc 0 _) (by simpa using present_of_pull hpull) (by simp)
  have hread : Client.read rpc 1 [pull.header.pool, k] (some w.slot) (some pullLen) =
      .ok (w.slot, [pull.header.pool, k].map (w.slice (some pullLen))) :=
    Client.read_eq (hrpc 1 _) (by simpa using ⟨present_of_pool hpool, present_of_pull hpull⟩) (by simp)
  obtain ⟨haccepted, rfl⟩ := Pool.fromAccount_eq_ok.mp hpool
  obtain ⟨haccepted', -⟩ := Pull.fromAccount_eq_ok.mp hpull
  have htake : (w.accounts k).data.take pullLen = (w.accounts k).data :=
    List.take_of_length_le haccepted'.length.le
  have hlong : ¬((w.accounts pull.header.pool).data.take pullLen).length < poolLen := by
    rw [List.length_take, not_lt]
    exact le_min (by decide) haccepted.length
  have hheader : ((w.accounts pull.header.pool).data.take pullLen).take poolLen =
      (w.accounts pull.header.pool).data.take poolLen := by
    rw [List.take_take, min_eq_left (by decide)]
  have hslice : ∀ key, w.slice (some pullLen) key = ((w.accounts key).owner, (w.accounts key).data.take pullLen) :=
    fun _ => rfl
  unfold Client.refund Client.snapshot
  simp only [hdiscover, ok_bind, nth, okOr, List.map_cons, List.map_nil, List.getElem?_cons_zero,
    List.getElem?_cons_succ, World.slice_none, hpull, lift, Bool.false_eq_true, if_false, hread, hslice, true_and,
    failIf_neg hlong, hheader, Pool.fromAccount_take hpool, htake, pure_bind]
  exact congrArg lift (Pool.refund_take rt pull.header.pool (w.accounts pull.header.pool).data pull payer)

end Answers

end GachaRust

open GachaRust in
/-- From a node that answers for its state, whatever that state is, the calls that read slices build the same
instructions as the builders do from the whole accounts, or fail with the same error: a purchase from the first bytes
of its pool, a buyback from those of the pool and the asset, and a refund from a slice of the pool that is as long as
a Pull. -/
theorem World.slices_suffice (rt : Runtime) (w : World) :
    (∀ P pool buy, Pool.fromAccount rt P (w.accounts P).owner (w.accounts P).data = .ok pool →
      Client.buy rt (fun _ r => .ok (w.answer r)) P buy = lift (pool.buy rt buy)) ∧
    (∀ (quote : BuybackQuote) pool asset signature payer,
      Pool.fromAccount rt quote.pool (w.accounts quote.pool).owner (w.accounts quote.pool).data = .ok pool →
      Asset.fromAccount quote.asset (w.accounts quote.asset).owner (w.accounts quote.asset).data = .ok asset →
      Client.buyback rt (fun _ r => .ok (w.answer r)) quote signature payer =
        lift (pool.buyback rt quote signature asset payer)) ∧
    ∀ k (pull : GachaRust.Pull) pool payer, Pull.fromAccount rt k (w.accounts k).owner (w.accounts k).data = .ok pull →
      Pool.fromAccount rt pull.header.pool (w.accounts pull.header.pool).owner
        (w.accounts pull.header.pool).data = .ok pool →
      Client.refund rt (fun _ r => .ok (w.answer r)) k payer = lift (pool.refund rt pull payer) :=
  ⟨fun _ _ buy hpool => Client.buy_eq (fun _ _ => rfl) hpool buy,
    fun _ _ _ signature payer hpool hasset => Client.buyback_eq (fun _ _ => rfl) hpool hasset signature payer,
    fun _ _ _ payer hpull hpool => Client.refund_eq (fun _ _ => rfl) hpull hpool payer⟩

/-- A refund of the sample purchase, from slices. -/
theorem World.slices_suffice_sample : ∃ pool pull ixs,
    GachaRust.Pool.fromAccount Sample.wallets.runtime Sample.pool programId
      (Sample.bought.accounts Sample.pool).data = .ok pool ∧
    GachaRust.Pull.fromAccount Sample.wallets.runtime Sample.pull programId
      (Sample.bought.accounts Sample.pull).data = .ok pull ∧
    pool.refund Sample.wallets.runtime pull Sample.buyer = .ok ixs ∧
    GachaRust.Client.refund Sample.wallets.runtime (fun _ r => .ok (Sample.bought.answer r)) Sample.pull
      Sample.buyer = .ok ixs := by
  have hrun : (do
      let pool ← GachaRust.Pool.fromAccount Sample.wallets.runtime Sample.pool programId
        (Sample.bought.accounts Sample.pool).data
      let pull ← GachaRust.Pull.fromAccount Sample.wallets.runtime Sample.pull programId
        (Sample.bought.accounts Sample.pull).data
      let ixs ← pool.refund Sample.wallets.runtime pull Sample.buyer
      return (ixs.length, pull.header.pool)) = .ok (2, Sample.pool) := by decide +kernel
  have howner : (Sample.bought.accounts Sample.pool).owner = programId ∧
      (Sample.bought.accounts Sample.pull).owner = programId := by decide +kernel
  obtain ⟨pool, hpool, hrun⟩ := bind_eq_ok.mp hrun
  obtain ⟨pull, hpull, hrun⟩ := bind_eq_ok.mp hrun
  obtain ⟨ixs, hixs, hrun⟩ := bind_eq_ok.mp hrun
  obtain ⟨-, hsame⟩ := Prod.mk.inj (Except.ok.inj hrun)
  refine ⟨pool, pull, ixs, hpool, hpull, hixs, ?_⟩
  generalize Sample.bought = w at *
  rw [(slices_suffice Sample.wallets.runtime w).2.2 Sample.pull pull pool Sample.buyer (by rw [howner.2]; exact hpull)
    (by rw [hsame, howner.1]; exact hpool), hixs]
  rfl

end SolanaGacha
