import SolanaGacha.Banner.Sound

/-!
# What becomes of a purchase

A purchase is named by its place in the queue of its pool. `Purchase` says which instructions acted on it
so far, and what its Pull records: it is bought, then refunded or settled, and after its settlement each
of its outcomes is delivered once. Its Pull is there from the purchase to the refund or the last delivery.
-/

namespace SolanaGacha

open Except Layout

/-- What an instruction does to one purchase. -/
inductive Action
  | buy (pull buyer : Pubkey) (count : UInt8) (deadlineSlot : UInt64)
  | settle (slot : UInt64) (assets : List Pubkey)
  | refund (slot : UInt64)
  | deliver (outcome : ℕ) (asset receiver : Pubkey)
  deriving DecidableEq

/-- The end of the wait of a purchase. -/
def Action.resolves : Action → Bool
  | .settle _ _ => true
  | .refund _ => true
  | _ => false

/-- A settled Pull records these assets, and which outcomes were delivered. -/
structure Pull.Records (pull : Pull) (assets : List Pubkey) (done : List ℕ) : Prop where
  length : assets.length = pull.count.toNat
  outcome : ∀ j asset, assets[j]? = some asset → ∃ outcome, pull.outcomes[j]? = some outcome ∧
    outcome.asset = asset ∧ (outcome.tier = delivered ↔ j ∈ done)

/-- Deliveries of recorded assets, each outcome at most once. -/
structure Deliveries (assets : List Pubkey) (deliveries : List (ℕ × Pubkey)) : Prop where
  once : (deliveries.map Prod.fst).Nodup
  recorded : ∀ x ∈ deliveries, assets[x.1]? = some x.2

/-- The actions on purchase `i` of a pool, with the pool's Pulls and the number of purchases so far. -/
inductive Purchase (pulls : Pubkey → Option Pull) (sold : ℕ) (i : UInt64) : List Action → Prop
  | unsold (future : sold ≤ i.toNat) (absent : ∀ k pull, pulls k = some pull → pull.index ≠ i) :
      Purchase pulls sold i []
  | pending {key : Pubkey} {pull : Pull} (past : i.toNat < sold) (live : pulls key = some pull)
      (place : pull.index = i) (pending : pull.status = statusPending) :
      Purchase pulls sold i [.buy key pull.buyer pull.count pull.deadlineSlot]
  | refunded {key buyer : Pubkey} {count : UInt8} {deadlineSlot slot : UInt64} (past : i.toNat < sold)
      (absent : ∀ k pull, pulls k = some pull → pull.index ≠ i) (expired : deadlineSlot < slot) :
      Purchase pulls sold i [.buy key buyer count deadlineSlot, .refund slot]
  | settled {key : Pubkey} {slot : UInt64} (pull : Pull) (assets : List Pubkey)
      (deliveries : List (ℕ × Pubkey)) (past : i.toNat < sold) (live : pulls key = some pull)
      (place : pull.index = i) (settled : pull.status = statusSettled) (inTime : slot ≤ pull.deadlineSlot)
      (record : pull.Records assets (deliveries.map Prod.fst)) (delivered : Deliveries assets deliveries)
      (rest : deliveries.length < pull.count.toNat) :
      Purchase pulls sold i (.buy key pull.buyer pull.count pull.deadlineSlot :: .settle slot assets ::
        deliveries.map fun x => .deliver x.1 x.2 pull.buyer)
  | complete {key buyer : Pubkey} {count : UInt8} {deadlineSlot slot : UInt64} {assets : List Pubkey}
      {deliveries : List (ℕ × Pubkey)} (past : i.toNat < sold)
      (absent : ∀ k pull, pulls k = some pull → pull.index ≠ i) (inTime : slot ≤ deadlineSlot)
      (length : assets.length = count.toNat) (delivered : Deliveries assets deliveries)
      (all : deliveries.length = count.toNat) :
      Purchase pulls sold i (.buy key buyer count deadlineSlot :: .settle slot assets ::
        deliveries.map fun x => .deliver x.1 x.2 buyer)

/-! ## Deliveries -/

namespace Deliveries

variable {assets : List Pubkey} {deliveries : List (ℕ × Pubkey)} (h : Deliveries assets deliveries)

include h

theorem lt {j : ℕ} (hj : j ∈ deliveries.map Prod.fst) : j < assets.length := by
  obtain ⟨x, hx, rfl⟩ := List.mem_map.mp hj
  exact (List.getElem?_eq_some_iff.mp (h.recorded x hx)).1

theorem toFinset_subset : (deliveries.map Prod.fst).toFinset ⊆ Finset.range assets.length := fun _ hj =>
  Finset.mem_range.mpr (h.lt (List.mem_toFinset.mp hj))

theorem card_toFinset : (deliveries.map Prod.fst).toFinset.card = deliveries.length := by
  rw [List.toFinset_card_of_nodup h.once, List.length_map]

theorem length_le : deliveries.length ≤ assets.length := by
  rw [← h.card_toFinset, ← Finset.card_range assets.length]
  exact Finset.card_le_card h.toFinset_subset

/-- As many deliveries as assets are all of them. -/
theorem all_iff : (∀ j < assets.length, j ∈ deliveries.map Prod.fst) ↔
    deliveries.length = assets.length := by
  constructor
  · intro hall
    have hsup : Finset.range assets.length ⊆ (deliveries.map Prod.fst).toFinset := fun j hj =>
      List.mem_toFinset.mpr (hall j (Finset.mem_range.mp hj))
    rw [← h.card_toFinset, h.toFinset_subset.antisymm hsup, Finset.card_range]
  · intro hlen j hj
    have heq := Finset.eq_of_subset_of_card_le h.toFinset_subset
      (by rw [Finset.card_range, h.card_toFinset, hlen])
    rw [← List.mem_toFinset, heq]
    exact Finset.mem_range.mpr hj

/-- One more. -/
theorem snoc {j : ℕ} {asset : Pubkey} (hj : j ∉ deliveries.map Prod.fst) (hasset : assets[j]? = some asset) :
    Deliveries assets (deliveries ++ [(j, asset)]) where
  once := by
    rw [List.map_append, List.map_singleton]
    exact h.once.append (List.nodup_singleton _) (by simpa using hj)
  recorded x hx := by
    rcases List.mem_append.mp hx with hx | hx
    · exact h.recorded x hx
    · obtain rfl := List.mem_singleton.mp hx
      exact hasset

end Deliveries

theorem Pull.allDelivered_eq_ok {pull : Pull} {all : Bool} : pull.allDelivered = .ok all ↔
    pull.count.toNat ≤ maxCount ∧ (all = true ↔ ∀ j outcome, j < pull.count.toNat →
      pull.outcomes[j]? = some outcome → outcome.tier = delivered) := by
  have hmem : (pull.outcomes.toList.take pull.count.toNat).all (fun outcome => outcome.tier = delivered) =
      true ↔ ∀ j outcome, j < pull.count.toNat → pull.outcomes[j]? = some outcome →
        outcome.tier = delivered := by
    simp only [List.all_eq_true, decide_eq_true_eq, List.mem_iff_getElem?, List.getElem?_take]
    constructor
    · intro h j outcome hj ho
      refine h outcome ⟨j, ?_⟩
      rw [if_pos hj, ← ho, Vector.getElem?_toList]
    · rintro h outcome ⟨j, ho⟩
      split_ifs at ho with hj
      exact h j outcome hj (Vector.getElem?_toList ▸ ho)
  rw [allDelivered, bind_eq_ok]
  simp only [failIf_eq_ok, pure_eq_ok, not_lt, exists_and_left, exists_const]
  refine and_congr_right fun _ => ?_
  rw [← hmem]
  exact ⟨fun h => h ▸ Iff.rfl, fun h => (Bool.eq_iff_iff.mpr h).symm⟩

/-- A Pull that still promises something is not done. -/
theorem Pull.eq_false_of_promised {pull : Pull} {all : Bool} (hall : pull.allDelivered = .ok all) {i : ℕ}
    {asset : Pubkey} (h : pull.promised i = some asset) : all = false := by
  obtain ⟨-, hcount, outcome, ho, htier, -⟩ := promised_eq_some.mp h
  refine Bool.eq_false_iff.mpr fun htrue => htier ?_
  exact (allDelivered_eq_ok.mp hall).2.mp htrue i outcome hcount ho

namespace Pull.Records

variable {pull : Pull} {assets : List Pubkey} {done : List ℕ} (h : pull.Records assets done)

include h

/-- The Pull is done when everything is delivered. -/
theorem allDelivered_iff {all : Bool} (hall : pull.allDelivered = .ok all) :
    all = true ↔ ∀ j < assets.length, j ∈ done := by
  rw [(allDelivered_eq_ok.mp hall).2, ← h.length]
  constructor
  · intro hdone j hj
    obtain ⟨outcome, ho, -, htier⟩ := h.outcome j _ (List.getElem?_eq_getElem hj)
    exact htier.mp (hdone j outcome hj ho)
  · intro hdone j outcome hj ho
    obtain ⟨outcome', ho', -, htier⟩ := h.outcome j _ (List.getElem?_eq_getElem hj)
    obtain rfl := Option.some.inj (ho.symm.trans ho')
    exact htier.mpr (hdone j hj)

/-- A delivery is of a recorded asset that was not delivered. -/
theorem undelivered {j : ℕ} {outcome : Outcome} (hj : j < pull.count.toNat)
    (ho : pull.outcomes[j]? = some outcome) (htier : outcome.tier ≠ delivered) :
    j ∉ done ∧ assets[j]? = some outcome.asset := by
  have hlt : j < assets.length := h.length ▸ hj
  obtain ⟨outcome', ho', hasset, hiff⟩ := h.outcome j _ (List.getElem?_eq_getElem hlt)
  obtain rfl := Option.some.inj (ho.symm.trans ho')
  exact ⟨fun hdone => htier (hiff.mpr hdone), hasset ▸ List.getElem?_eq_getElem hlt⟩

/-- A delivery marks its outcome. -/
theorem marked {j : ℕ} {outcome : Outcome} (ho : pull.outcomes[j]? = some outcome) :
    (pull.marked j outcome).Records assets (done ++ [j]) where
  length := h.length
  outcome := by
    intro k asset hk
    obtain ⟨outcome', ho', hasset, hiff⟩ := h.outcome k asset hk
    show ∃ o, (pull.outcomes.setIfInBounds j { outcome with tier := delivered })[k]? = some o ∧ _
    rcases eq_or_ne j k with rfl | hne
    · obtain rfl := Option.some.inj (ho.symm.trans ho')
      have hlt : j < 10 := by
        by_contra hge
        rw [Vector.getElem?_eq_none (by omega)] at ho
        cases ho
      exact ⟨{ outcome with tier := delivered }, Vector.getElem?_setIfInBounds_self_of_lt hlt, hasset,
        by simp⟩
    · rw [Vector.getElem?_setIfInBounds_ne hne]
      refine ⟨outcome', ho', hasset, hiff.trans ?_⟩
      simp [hne.symm]

end Pull.Records

/-! ## Steps -/

namespace Purchase

variable {pulls pulls' : Pubkey → Option Pull} {sold sold' : ℕ} {i : UInt64} {actions : List Action}

/-- A Pull is there until the purchase is refunded or completely delivered. -/
theorem live_iff (h : Purchase pulls sold i actions) : (∃ k pull, pulls k = some pull ∧ pull.index = i) ↔
    (∃ key buyer count deadlineSlot, actions = [.buy key buyer count deadlineSlot]) ∨
    ∃ key buyer count deadlineSlot slot assets deliveries, actions =
      .buy key buyer count deadlineSlot :: .settle slot assets :: deliveries ∧
        deliveries.length < count.toNat := by
  cases h with
  | unsold future absent =>
    refine ⟨fun ⟨k, pull, hk, hi⟩ => absurd hi (absent k pull hk), ?_⟩
    rintro (⟨_, _, _, _, heq⟩ | ⟨_, _, _, _, _, _, _, heq, -⟩) <;> cases heq
  | pending past live place pending => exact ⟨fun _ => .inl ⟨_, _, _, _, rfl⟩, fun _ => ⟨_, _, live, place⟩⟩
  | refunded past absent expired =>
    refine ⟨fun ⟨k, pull, hk, hi⟩ => absurd hi (absent k pull hk), ?_⟩
    rintro (⟨_, _, _, _, heq⟩ | ⟨_, _, _, _, _, _, _, heq, -⟩) <;> cases heq
  | settled pull assets deliveries past live place settled inTime record delivered rest =>
    refine ⟨fun _ => .inr ⟨_, _, _, _, _, _, _, rfl, ?_⟩, fun _ => ⟨_, _, live, place⟩⟩
    rwa [List.length_map]
  | complete past absent inTime length delivered all =>
    refine ⟨fun ⟨k, pull, hk, hi⟩ => absurd hi (absent k pull hk), ?_⟩
    rintro (⟨_, _, _, _, heq⟩ | ⟨_, _, _, _, _, _, _, heq, hlt⟩)
    · cases heq
    · cases heq
      rw [List.length_map] at hlt
      omega

/-- A purchase ends its wait at most once. -/
theorem resolved_once (h : Purchase pulls sold i actions) : actions.countP Action.resolves ≤ 1 := by
  have hmap : ∀ (deliveries : List (ℕ × Pubkey)) (buyer : Pubkey),
      (deliveries.map fun x => Action.deliver x.1 x.2 buyer).countP Action.resolves = 0 := by
    intro deliveries buyer
    rw [List.countP_eq_zero]
    intro action haction
    obtain ⟨x, -, rfl⟩ := List.mem_map.mp haction
    exact Bool.false_ne_true
  cases h with
  | unsold => simp
  | pending | refunded => simp [List.countP_cons, Action.resolves]
  | settled | complete => simp [List.countP_cons, Action.resolves, hmap]

/-- Something else happens: the purchase is not made, and its Pull is not written. -/
theorem frame (h : Purchase pulls sold i actions) (hsold : sold ≤ sold')
    (hfuture : sold ≤ i.toNat → sold' ≤ i.toNat)
    (hpulls : ∀ k pull, pull.index = i → (pulls' k = some pull ↔ pulls k = some pull)) :
    Purchase pulls' sold' i actions := by
  have habsent : (∀ k pull, pulls k = some pull → pull.index ≠ i) →
      ∀ k pull, pulls' k = some pull → pull.index ≠ i := fun h k pull hk hi =>
    h k pull ((hpulls k pull hi).mp hk) hi
  cases h with
  | unsold future absent => exact .unsold (hfuture future) (habsent absent)
  | pending past live place pending =>
    exact .pending (past.trans_le hsold) ((hpulls _ _ place).mpr live) place pending
  | refunded past absent expired => exact .refunded (past.trans_le hsold) (habsent absent) expired
  | settled pull assets deliveries past live place settled inTime record delivered rest =>
    exact .settled pull assets deliveries (past.trans_le hsold) ((hpulls _ _ place).mpr live) place settled inTime record delivered
      rest
  | complete past absent inTime length delivered all =>
    exact .complete (past.trans_le hsold) (habsent absent) inTime length delivered all

/-- The purchase is made. -/
theorem buy (h : Purchase pulls sold i actions) (now : sold = i.toNat) {key : Pubkey} {pull : Pull}
    (live : pulls' key = some pull) (place : pull.index = i) (pending : pull.status = statusPending) :
    Purchase pulls' (sold + 1) i (actions ++ [.buy key pull.buyer pull.count pull.deadlineSlot]) := by
  cases h with
  | unsold => exact .pending (by omega) live place pending
  | pending past | refunded past | settled _ _ _ past | complete past => omega

section Pull

variable (distinct : ∀ {k k' pull pull'}, pulls k = some pull → pulls k' = some pull' →
    pull.index = pull'.index → k = k')
  {key : Pubkey} {pull : Pull} (live : pulls key = some pull) (place : pull.index = i)

include distinct live place

/-- The only Pull of the purchase. -/
theorem pull_eq {key' : Pubkey} {pull' : Pull} (live' : pulls key' = some pull') (place' : pull'.index = i) :
    key = key' ∧ pull = pull' := by
  obtain rfl := distinct live live' (place.trans place'.symm)
  exact ⟨rfl, Option.some.inj (live.symm.trans live')⟩

theorem absent_of_closed (hpulls : pulls' = Function.update pulls key none) :
    ∀ k pull, pulls' k = some pull → pull.index ≠ i := by
  intro k pull' hk hi
  rw [hpulls, Function.update_apply] at hk
  split_ifs at hk with heq
  exact heq (pull_eq distinct live place hk hi).1.symm

/-- The purchase is refunded. -/
theorem refund (h : Purchase pulls sold i actions) (pending : pull.status = statusPending) {slot : UInt64}
    (expired : pull.deadlineSlot < slot) (hpulls : pulls' = Function.update pulls key none) :
    Purchase pulls' sold i (actions ++ [.refund slot]) := by
  have hclosed := absent_of_closed distinct live place hpulls
  cases h with
  | unsold future absent => exact absurd place (absent _ _ live)
  | refunded past absent => exact absurd place (absent _ _ live)
  | complete past absent => exact absurd place (absent _ _ live)
  | pending past live' place' =>
    obtain ⟨rfl, rfl⟩ := pull_eq distinct live place live' place'
    exact .refunded past hclosed expired
  | settled _ _ _ past live' place' settled =>
    obtain ⟨rfl, rfl⟩ := pull_eq distinct live place live' place'
    exact absurd (settled.symm.trans pending) (by decide)

/-- The purchase is settled. -/
theorem settle (h : Purchase pulls sold i actions) (pending : pull.status = statusPending)
    {slot : UInt64} (inTime : slot ≤ pull.deadlineSlot) {outcomes : Vector Outcome 10} {assets : List Pubkey}
    (record : Pull.Records { pull with status := statusSettled, outcomes } assets [])
    (count : 0 < pull.count.toNat)
    (hpulls : pulls' = Function.update pulls key (some { pull with status := statusSettled, outcomes })) :
    Purchase pulls' sold i (actions ++ [.settle slot assets]) := by
  cases h with
  | unsold future absent => exact absurd place (absent _ _ live)
  | refunded past absent => exact absurd place (absent _ _ live)
  | complete past absent => exact absurd place (absent _ _ live)
  | pending past live' place' =>
    obtain ⟨rfl, rfl⟩ := pull_eq distinct live place live' place'
    exact .settled { pull with status := statusSettled, outcomes } assets [] past
      (hpulls ▸ Function.update_self _ _ _) place rfl inTime record ⟨List.nodup_nil, by simp⟩ count
  | settled _ _ _ past live' place' settled =>
    obtain ⟨rfl, rfl⟩ := pull_eq distinct live place live' place'
    exact absurd (settled.symm.trans pending) (by decide)

/-- One of its outcomes is delivered. -/
theorem deliver (h : Purchase pulls sold i actions) (hsettled : pull.status = statusSettled) {j : ℕ}
    {outcome : Outcome} (hj : j < pull.count.toNat) (ho : pull.outcomes[j]? = some outcome)
    (htier : outcome.tier ≠ SolanaGacha.delivered) {all : Bool}
    (hall : (pull.marked j outcome).allDelivered = .ok all)
    (hpulls : pulls' = Function.update pulls key (if all then none else some (pull.marked j outcome))) :
    Purchase pulls' sold i (actions ++ [.deliver j outcome.asset pull.buyer]) := by
  cases h with
  | unsold future absent => exact absurd place (absent _ _ live)
  | refunded past absent => exact absurd place (absent _ _ live)
  | complete past absent => exact absurd place (absent _ _ live)
  | pending past live' place' pending =>
    obtain ⟨rfl, rfl⟩ := pull_eq distinct live place live' place'
    exact absurd (hsettled.symm.trans pending) (by decide)
  | settled pull' assets deliveries past live' place' settled inTime record delivered rest =>
    obtain ⟨rfl, rfl⟩ := pull_eq distinct live place live' place'
    obtain ⟨hnew, hasset⟩ := record.undelivered hj ho htier
    have hdelivered := delivered.snoc hnew hasset
    have hrecord : (pull.marked j outcome).Records assets
        ((deliveries ++ [(j, outcome.asset)]).map Prod.fst) := by
      rw [List.map_append, List.map_singleton]
      exact record.marked ho
    have hlen := hdelivered.length_le
    have hiff := (hrecord.allDelivered_iff hall).trans hdelivered.all_iff
    rw [List.cons_append, List.cons_append,
      show (deliveries.map fun x => Action.deliver x.1 x.2 pull.buyer) ++ [.deliver j outcome.asset pull.buyer] =
        (deliveries ++ [(j, outcome.asset)]).map fun x => Action.deliver x.1 x.2 pull.buyer by simp]
    cases all with
    | true =>
      exact .complete past (absent_of_closed distinct live place hpulls) inTime record.length hdelivered
        ((hiff.mp rfl).trans record.length)
    | false =>
      refine .settled (pull.marked j outcome) assets (deliveries ++ [(j, outcome.asset)]) past (hpulls ▸ Function.update_self _ _ _) place settled
        inTime hrecord hdelivered (lt_of_le_of_ne (hlen.trans_eq record.length) fun heq => ?_)
      exact absurd (hiff.mpr (heq.trans record.length.symm)) (by decide)

end Pull

end Purchase

end SolanaGacha
