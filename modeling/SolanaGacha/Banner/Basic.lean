import SolanaGacha.Ledger.OperatorEffects

/-!
# A banner: what belongs to one pool

`Ledger.banner L P` is everything in a ledger that belongs to the pool at `P`: its header and index, the
Items and Pulls that record it, the assets that it owns and the balance of its vault. Instructions on
other pools and whatever happens outside of the program leave it alone, up to what it is given.
-/

namespace SolanaGacha

open Except Layout

/-! ## Readings of an entry -/

namespace Entry

/-- The header and the index of a pool. -/
def pool? : Entry → Option (Pool × List UInt8)
  | .pool header index => some (header, index)
  | _ => none

/-- An Item of the pool at `P`. -/
def item? (P : Pubkey) : Entry → Option Item
  | .item i => if i.pool = P then some i else none
  | _ => none

/-- A Pull of the pool at `P`. -/
def pull? (P : Pubkey) : Entry → Option Pull
  | .pull u => if u.pool = P then some u else none
  | _ => none

/-- The balance of a token account. -/
def balance : Entry → ℕ
  | .token t => t.amount.toNat
  | _ => 0

/-- A token account. -/
def token? : Entry → Option TokenAccount
  | .token t => some t
  | _ => none

/-- An asset that `P` owns. -/
def OwnedBy (P : Pubkey) : Entry → Prop
  | .asset a => a.owner = P
  | _ => False

/-- An entry that is no account of the program. -/
def Foreign : Entry → Prop
  | .pool _ _ => False
  | .item _ => False
  | .pull _ => False
  | _ => True

theorem pool?_eq_some {e : Entry} {pool : Pool} {index : List UInt8} :
    e.pool? = some (pool, index) ↔ e = .pool pool index := by
  cases e <;> simp [pool?]

theorem item?_eq_some {e : Entry} {P : Pubkey} {item : Item} :
    e.item? P = some item ↔ e = .item item ∧ item.pool = P := by
  cases e with
  | item item' =>
    simp only [item?, Entry.item.injEq]
    split_ifs with h
    · simp only [Option.some.injEq]
      exact ⟨fun heq => ⟨heq, heq ▸ h⟩, fun heq => heq.1⟩
    · exact ⟨fun heq => (nomatch heq), fun heq => absurd (heq.1 ▸ heq.2) h⟩
  | _ => simp [item?]

theorem pull?_eq_some {e : Entry} {P : Pubkey} {pull : Pull} :
    e.pull? P = some pull ↔ e = .pull pull ∧ pull.pool = P := by
  cases e with
  | pull pull' =>
    simp only [pull?, Entry.pull.injEq]
    split_ifs with h
    · simp only [Option.some.injEq]
      exact ⟨fun heq => ⟨heq, heq ▸ h⟩, fun heq => heq.1⟩
    · exact ⟨fun heq => (nomatch heq), fun heq => absurd (heq.1 ▸ heq.2) h⟩
  | _ => simp [pull?]

theorem token?_eq_some {e : Entry} {token : TokenAccount} : e.token? = some token ↔ e = .token token := by
  cases e <;> simp [token?]

theorem balance_congr {e e' : Entry} (h : e.token? = e'.token?) : e.balance = e'.balance := by
  cases e <;> cases e' <;> simp_all [token?, balance]

theorem Foreign.reads {e : Entry} (h : e.Foreign) (P : Pubkey) :
    e.pool? = none ∧ e.item? P = none ∧ e.pull? P = none := by
  cases e <;> simp_all [Foreign, pool?, item?, pull?]

end Entry

/-! ## Banners -/

/-- What belongs to one pool. -/
structure Banner where
  /-- The header and the index, once the pool was created. -/
  pool : Option (Pool × List UInt8)
  items : Pubkey → Option Item
  pulls : Pubkey → Option Pull
  /-- The assets that the pool PDA owns. -/
  assets : Set Pubkey
  /-- The balance of the vault. -/
  vault : ℕ

/-- What belongs to the pool at `P`. -/
def Ledger.banner (L : Ledger) (P : Pubkey) : Banner where
  pool := (L P).pool?
  items k := (L k).item? P
  pulls k := (L k).pull? P
  assets := { k | (L k).OwnedBy P }
  vault := ((L P).pool?.map fun x => (L x.1.vault).balance).getD 0

namespace Banner

/-- The pending refunds and penalties of all purchases. -/
def reserve (S : Banner) : ℕ :=
  (S.pool.map fun x => (x.1.price.toNat + x.1.bondPerDraw.toNat) * x.1.pendingDraws.toNat).getD 0

/-- The same pool, Items and Pulls. -/
structure SameBooks (S S' : Banner) : Prop where
  pool : S'.pool = S.pool
  items : S'.items = S.items
  pulls : S'.pulls = S.pulls

/-- The assets of an existing pool stay its own. -/
def KeepsAssets (S S' : Banner) : Prop := S.pool.isSome → S.assets ⊆ S'.assets

/-- The vault lost nothing, or still covers the reserve. -/
def KeepsReserve (S S' : Banner) : Prop := S.vault ≤ S'.vault ∨ S'.reserve ≤ S'.vault

theorem SameBooks.refl (S : Banner) : S.SameBooks S := ⟨rfl, rfl, rfl⟩

theorem SameBooks.trans {S S' S'' : Banner} (h : S.SameBooks S') (h' : S'.SameBooks S'') :
    S.SameBooks S'' :=
  ⟨h'.pool.trans h.pool, h'.items.trans h.items, h'.pulls.trans h.pulls⟩

end Banner

/-- A purchase that waits: its Pull, its number of draws and the version that it is pinned to. -/
structure Ticket where
  pull : Pubkey
  count : ℕ
  version : ℕ
  deriving DecidableEq

instance : Order Ticket := ⟨Ticket.count, Ticket.version⟩

/-- The ticket of a Pull. -/
def Pull.ticket (pull : Pull) (key : Pubkey) : Ticket :=
  ⟨key, pull.count.toNat, pull.inventoryVersion.toNat⟩

/-! ## Banners of changed ledgers -/

namespace Ledger

variable {L L' : Ledger} {P k : Pubkey}

theorem banner_pool {pool : Pool} {index : List UInt8} :
    (L.banner P).pool = some (pool, index) ↔ L P = .pool pool index := Entry.pool?_eq_some

theorem banner_items {item : Item} :
    (L.banner P).items k = some item ↔ L k = .item item ∧ item.pool = P := Entry.item?_eq_some

theorem banner_pulls {pull : Pull} :
    (L.banner P).pulls k = some pull ↔ L k = .pull pull ∧ pull.pool = P := Entry.pull?_eq_some

theorem banner_vault {pool : Pool} {index : List UInt8} (h : L P = .pool pool index) :
    (L.banner P).vault = (L pool.vault).balance := by
  rw [banner, h]
  rfl

theorem banner_reserve {pool : Pool} {index : List UInt8} (h : L P = .pool pool index) :
    (L.banner P).reserve = (pool.price.toNat + pool.bondPerDraw.toNat) * pool.pendingDraws.toNat := by
  rw [Banner.reserve, banner_pool.mpr h]
  rfl

theorem banner_update_pool (L : Ledger) (P k : Pubkey) (e : Entry) :
    (banner (Function.update L k e) P).pool = if P = k then e.pool? else (L.banner P).pool := by
  show Entry.pool? (Function.update L k e P) = _
  rw [Function.update_apply]
  split_ifs <;> rfl

theorem banner_update_items (L : Ledger) (P k : Pubkey) (e : Entry) :
    (banner (Function.update L k e) P).items = Function.update (L.banner P).items k (e.item? P) := by
  funext k'
  show Entry.item? P (Function.update L k e k') = _
  rw [Function.update_apply, Function.update_apply]
  split_ifs <;> rfl

theorem banner_update_pulls (L : Ledger) (P k : Pubkey) (e : Entry) :
    (banner (Function.update L k e) P).pulls = Function.update (L.banner P).pulls k (e.pull? P) := by
  funext k'
  show Entry.pull? P (Function.update L k e k') = _
  rw [Function.update_apply, Function.update_apply]
  split_ifs <;> rfl

/-- The books read the accounts of the program only. -/
theorem sameBooks (h : ∀ k, L' k = L k ∨ ((L k).Foreign ∧ (L' k).Foreign)) (P : Pubkey) :
    (L.banner P).SameBooks (L'.banner P) := by
  have hreads : ∀ k, (L' k).pool? = (L k).pool? ∧ (L' k).item? P = (L k).item? P ∧
      (L' k).pull? P = (L k).pull? P := by
    intro k
    rcases h k with heq | ⟨hold, hnew⟩
    · rw [heq]
      exact ⟨rfl, rfl, rfl⟩
    · obtain ⟨h1, h2, h3⟩ := hold.reads P
      obtain ⟨h1', h2', h3'⟩ := hnew.reads P
      exact ⟨h1'.trans h1.symm, h2'.trans h2.symm, h3'.trans h3.symm⟩
  exact ⟨(hreads P).1, funext fun k => (hreads k).2.1, funext fun k => (hreads k).2.2⟩

/-- Replacing a foreign entry by another one. -/
theorem sameBooks_update {e e' : Entry} (h : L k = e) (he : e.Foreign) (he' : e'.Foreign) (P : Pubkey) :
    (L.banner P).SameBooks (banner (Function.update L k e') P) := by
  refine sameBooks (fun k' => ?_) P
  rcases eq_or_ne k' k with rfl | hk
  · rw [Function.update_self, h]
    exact .inr ⟨he, he'⟩
  · exact .inl (Function.update_of_ne hk _ _)

end Ledger

/-! ## Payments -/

namespace Ledger.Paid

variable {rt : Runtime} {L L' : Ledger} {source destination authority : Pubkey} {amount : UInt64}
  (h : L.Paid rt source destination authority amount L')

include h

/-- A payment writes token accounts only. -/
theorem eq_or_tokens (k : Pubkey) :
    L' k = L k ∨ ∃ s s', L k = .token s ∧ L' k = .token s' ∧ s'.owner = s.owner ∧ s'.mint = s.mint := by
  obtain ⟨s, d, hs, hd, -, -, -, hcase⟩ := h
  rcases hcase with ⟨-, rfl⟩ | ⟨hne, -, rfl⟩
  · exact .inl rfl
  · simp only [Function.update_apply]
    by_cases hkd : k = destination
    · subst hkd
      simp only [if_true]
      exact .inr ⟨d, _, hd, rfl, rfl, rfl⟩
    · by_cases hks : k = source
      · subst hks
        simp only [hne, if_true, if_false]
        exact .inr ⟨s, _, hs, rfl, rfl, rfl⟩
      · simp [hkd, hks]

theorem sameBooks (P : Pubkey) : (L.banner P).SameBooks (L'.banner P) := by
  refine Ledger.sameBooks (fun k => ?_) P
  rcases h.eq_or_tokens k with heq | ⟨s, s', hs, hs', -⟩
  · exact .inl heq
  · rw [hs, hs']
    exact .inr ⟨trivial, trivial⟩

theorem assets (P : Pubkey) : (L'.banner P).assets = (L.banner P).assets := by
  ext k
  show (L' k).OwnedBy P ↔ (L k).OwnedBy P
  rcases h.eq_or_tokens k with heq | ⟨s, s', hs, hs', -⟩
  · rw [heq]
  · rw [hs, hs']
    rfl

/-- No balance falls by more than the amount. -/
theorem balance_le_add (v : Pubkey) : (L v).balance ≤ (L' v).balance + amount.toNat := by
  obtain ⟨s, d, hs, hd, -, -, hamount, hcase⟩ := h
  rcases hcase with ⟨-, rfl⟩ | ⟨hne, hfits, rfl⟩
  · omega
  · simp only [Function.update_apply]
    split_ifs with hvd hvs
    · subst hvd
      rw [hd]
      simp only [Entry.balance, UInt64.toNat_add, Nat.mod_eq_of_lt hfits]
      omega
    · subst hvs
      rw [hs]
      simp only [Entry.balance, UInt64.toNat_sub_of_le _ _ hamount]
      omega
    · omega

/-- A PDA's balance does not fall when another account pays. -/
theorem balance_le {v : Pubkey}
    (hv : ∀ token, L v = .token token → rt.IsPda token.owner ∧ token.owner ≠ authority) :
    (L v).balance ≤ (L' v).balance := by
  obtain ⟨s, d, hs, hd, -, hauthority, -, hcase⟩ := h
  rcases hcase with ⟨-, rfl⟩ | ⟨hne, hfits, rfl⟩
  · exact le_rfl
  · simp only [Function.update_apply]
    split_ifs with hvd hvs
    · subst hvd
      rw [hd]
      simp only [Entry.balance, UInt64.toNat_add, Nat.mod_eq_of_lt hfits]
      omega
    · subst hvs
      obtain ⟨hpda, hother⟩ := hv s hs
      exact absurd (hauthority hpda).symm hother
    · exact le_rfl

/-- The destination of a payment from another account receives the amount. -/
theorem balance_destination (hne : source ≠ destination) :
    (L' destination).balance = (L destination).balance + amount.toNat := by
  obtain ⟨s, d, hs, hd, -, -, -, hcase⟩ := h
  rcases hcase with ⟨heq, -⟩ | ⟨-, hfits, rfl⟩
  · exact absurd heq hne
  · rw [Function.update_self, hd]
    simp only [Entry.balance, UInt64.toNat_add, Nat.mod_eq_of_lt hfits]

/-- The source of a payment to another account loses the amount. -/
theorem balance_source (hne : source ≠ destination) :
    (L source).balance = (L' source).balance + amount.toNat := by
  obtain ⟨s, d, hs, hd, -, -, hamount, hcase⟩ := h
  rcases hcase with ⟨heq, -⟩ | ⟨-, -, rfl⟩
  · exact absurd heq hne
  · rw [Function.update_of_ne hne, Function.update_self, hs]
    simp only [Entry.balance, UInt64.toNat_sub_of_le _ _ (UInt64.le_iff_toNat_le.mpr hamount)]
    omega

/-- No account gains more than the source loses. -/
theorem balance_add_le {k : Pubkey} (hk : k ≠ source) :
    (L' k).balance + (L' source).balance ≤ (L k).balance + (L source).balance := by
  by_cases hne : source = destination
  · obtain ⟨s, d, hs, hd, -, -, -, hcase⟩ := h
    rcases hcase with ⟨-, rfl⟩ | ⟨hne', -⟩
    · exact le_rfl
    · exact absurd hne hne'
  · have hsource := h.balance_source hne
    by_cases hkd : k = destination
    · have hdestination := h.balance_destination hne
      rw [hkd]
      omega
    · obtain ⟨s, d, -, -, -, -, -, ⟨heq, -⟩ | ⟨-, -, rfl⟩⟩ := h
      · exact absurd heq hne
      · rw [Function.update_of_ne hkd, Function.update_of_ne hk]
        exact Nat.add_le_add_left (by omega) _

end Ledger.Paid

end SolanaGacha
