import SolanaGacha.Banner.Sound

/-!
# What a pool becomes

What holds between two states of one pool, however many steps are between them: the terms stay, the
counters grow, a retired pool stays retired (`Pool.Later`), and an Item is what it was when its position
was issued.
-/

namespace SolanaGacha

open Except Layout Inventory

/-- A later header of the same pool. -/
structure Pool.Later (pool pool' : Pool) : Prop where
  terms : pool.SameTerms pool'
  version : pool.inventoryVersion.toNat ≤ pool'.inventoryVersion.toNat
  nextIndex : pool.nextIndex.toNat ≤ pool'.nextIndex.toNat
  nextSettle : pool.nextSettle.toNat ≤ pool'.nextSettle.toNat
  retired : pool.status = poolRetired → pool'.status = poolRetired

theorem Pool.SameTerms.refl (pool : Pool) : pool.SameTerms pool := ⟨rfl, rfl, rfl, rfl, rfl, rfl, rfl, rfl, rfl⟩

theorem Pool.SameTerms.trans {pool pool' pool'' : Pool} (h : pool.SameTerms pool')
    (h' : pool'.SameTerms pool'') : pool.SameTerms pool'' where
  signerSeeds := h'.signerSeeds.trans h.signerSeeds
  operator := h'.operator.trans h.operator
  paymentMint := h'.paymentMint.trans h.paymentMint
  vault := h'.vault.trans h.vault
  tierCount := h'.tierCount.trans h.tierCount
  weights := h'.weights.trans h.weights
  price := h'.price.trans h.price
  bondPerDraw := h'.bondPerDraw.trans h.bondPerDraw
  deadlineSlots := h'.deadlineSlots.trans h.deadlineSlots

theorem Pool.Later.refl (pool : Pool) : pool.Later pool := ⟨.refl pool, le_rfl, le_rfl, le_rfl, fun h => h⟩

theorem Pool.Later.trans {pool pool' pool'' : Pool} (h : pool.Later pool') (h' : pool'.Later pool'') :
    pool.Later pool'' where
  terms := h.terms.trans h'.terms
  version := h.version.trans h'.version
  nextIndex := h.nextIndex.trans h'.nextIndex
  nextSettle := h.nextSettle.trans h'.nextSettle
  retired := h'.retired ∘ h.retired

namespace Banner.Step

variable {rt : Runtime} {slot : UInt64} {P : Pubkey} {S S' : Banner} {pool : Pool} {index : List UInt8}
  {move : Market.Move UInt8 Ticket} (h : Step rt slot P S move S') (hpool : S.pool = some (pool, index))

include h hpool

/-- A pool is never closed. -/
theorem later : ∃ pool' index', S'.pool = some (pool', index') ∧ pool.Later pool' := by
  have hsame : ∀ {pool₀ : Pool} {index₀ : List UInt8}, S.pool = some (pool₀, index₀) →
      pool = pool₀ ∧ index = index₀ := fun heq => Prod.mk.inj (Option.some.inj (hpool.symm.trans heq))
  cases h with
  | idle books assets reserve => exact ⟨pool, index, books.pool.trans hpool, .refl pool⟩
  | create new => exact absurd (new.symm.trans hpool) (by simp)
  | setStatus header valid terminal header' =>
    obtain ⟨rfl, rfl⟩ := hsame header
    exact ⟨_, _, header', ⟨rfl, rfl, rfl, rfl, rfl, rfl, rfl, rfl, rfl⟩, le_rfl, le_rfl, le_rfl, terminal⟩
  | restock header restocked derived vacant given header' =>
    obtain ⟨rfl, rfl⟩ := hsame header
    obtain ⟨tiers, rfl, hweights⟩ := restocked.header
    have hversion : (pool.inventoryVersion + 1).toNat = pool.inventoryVersion.toNat + 1 := by
      rw [UInt32.toNat_add, UInt32.toNat_one, Nat.mod_eq_of_lt restocked.small]
    exact ⟨_, _, header', ⟨rfl, rfl, rfl, rfl, rfl, hweights, rfl, rfl, rfl⟩, hversion ▸ Nat.le_succ _, le_rfl, le_rfl, fun h => h⟩
  | reclaim header settled loaded weights stock header' =>
    obtain ⟨rfl, rfl⟩ := hsame header
    exact ⟨_, _, header', ⟨rfl, rfl, rfl, rfl, rfl, weights, rfl, rfl, rfl⟩, le_rfl, le_rfl, le_rfl, fun h => h⟩
  | buy header vacant valid pending place version deadline draws next remaining stock header' =>
    obtain ⟨rfl, rfl⟩ := hsame header
    exact ⟨_, _, header', ⟨rfl, rfl, rfl, rfl, rfl, rfl, rfl, rfl, rfl⟩, le_rfl,
      (Nat.le_succ _).trans_eq next, le_rfl, fun h => h⟩
  | refund header loaded pending head expired draws next header' =>
    obtain ⟨rfl, rfl⟩ := hsame header
    exact ⟨_, _, header', ⟨rfl, rfl, rfl, rfl, rfl, rfl, rfl, rfl, rfl⟩, le_rfl, le_rfl,
      (congrArg UInt64.toNat head.symm).le.trans ((Nat.le_succ _).trans_eq next), fun h => h⟩
  | settle header loaded pending head inTime draws next item nodup count selected weights stock header' =>
    obtain ⟨rfl, rfl⟩ := hsame header
    exact ⟨_, _, header', ⟨rfl, rfl, rfl, rfl, rfl, weights, rfl, rfl, rfl⟩, le_rfl, le_rfl,
      (congrArg UInt64.toNat head.symm).le.trans ((Nat.le_succ _).trans_eq next), fun h => h⟩
  | deliver header loaded settled inCount recorded undelivered closes header' =>
    exact ⟨pool, index, header'.trans hpool, .refl pool⟩

/-- An Item is new, at the next position, or it is unchanged. -/
theorem item_kept {k : Pubkey} {item : Item} (hk : S'.items k = some item) :
    S.items k = some item ∨ item.position = pool.inventoryVersion := by
  cases h with
  | idle books => exact .inl (books.items ▸ hk)
  | create new valid stock counters header' items => exact .inl (items ▸ hk)
  | setStatus header valid terminal header' items => exact .inl (items ▸ hk)
  | restock header restocked derived vacant given header' items =>
    obtain ⟨rfl, rfl⟩ := Prod.mk.inj (Option.some.inj (header.symm.trans hpool))
    rw [items, Function.update_apply] at hk
    split_ifs at hk with heq
    · obtain rfl := Option.some.inj hk
      exact .inr rfl
    · exact .inl hk
  | reclaim header settled loaded weights stock header' items =>
    rw [items, Function.update_apply] at hk
    split_ifs at hk with heq
    exact .inl hk
  | buy header vacant valid pending place version deadline draws next remaining stock header' items =>
    exact .inl (items ▸ hk)
  | refund header loaded pending head expired draws next header' items => exact .inl (items ▸ hk)
  | settle header loaded pending head inTime draws next item' nodup count selected weights stock header'
      items =>
    rw [items] at hk
    simp only at hk
    split_ifs at hk
    exact .inl hk
  | deliver header loaded settled inCount recorded undelivered closes header' items =>
    exact .inl (items ▸ hk)

end Banner.Step

end SolanaGacha
