import SolanaGacha.Banner.Step

/-!
# What a pool promises

A pool promises the asset of each of its Items and of each outcome that was not delivered. `Held` says
that it owns every asset that it promises, and promises each only once. A settlement moves promises from
Items to outcomes, which `Held.of_map` covers; the other steps add a promise or drop one.
-/

namespace SolanaGacha

open Except Layout Inventory

/-- A place where an asset is promised. -/
inductive Slot
  | item (key : Pubkey)
  | outcome (key : Pubkey) (i : ℕ)
  deriving DecidableEq

/-- The asset of outcome `i`, while it is undelivered. -/
def Pull.promised (pull : Pull) (i : ℕ) : Option Pubkey :=
  if pull.status = statusSettled ∧ i < pull.count.toNat then
    pull.outcomes[i]?.bind fun outcome =>
      if outcome.tier = delivered then none else some outcome.asset
  else none

/-- The asset that is promised at a place. -/
def Banner.promised (S : Banner) : Slot → Option Pubkey
  | .item key => (S.items key).map Item.asset
  | .outcome key i => (S.pulls key).bind fun pull => pull.promised i

/-- What is promised is owned, and promised once. -/
structure Banner.Held (S : Banner) : Prop where
  owned : ∀ {slot asset}, S.promised slot = some asset → asset ∈ S.assets
  unique : ∀ {slot slot' asset}, S.promised slot = some asset → S.promised slot' = some asset →
    slot = slot'

theorem Pull.promised_eq_some {pull : Pull} {i : ℕ} {asset : Pubkey} :
    pull.promised i = some asset ↔ pull.status = statusSettled ∧ i < pull.count.toNat ∧
      ∃ outcome, pull.outcomes[i]? = some outcome ∧ outcome.tier ≠ delivered ∧ outcome.asset = asset := by
  rw [promised]
  split_ifs with h
  · rw [Option.bind_eq_some_iff]
    constructor
    · rintro ⟨outcome, ho, hasset⟩
      split_ifs at hasset with hd
      exact ⟨h.1, h.2, outcome, ho, hd, Option.some.inj hasset⟩
    · rintro ⟨-, -, outcome, ho, hd, rfl⟩
      exact ⟨outcome, ho, if_neg hd⟩
  · simp only [false_iff]
    exact fun hall => h ⟨hall.1, hall.2.1⟩

/-- A pending Pull promises nothing in particular. -/
theorem Pull.promised_of_pending {pull : Pull} (h : pull.status = statusPending) (i : ℕ) :
    pull.promised i = none := by
  rw [promised, if_neg]
  rw [h]
  exact fun hall => absurd hall.1 (by decide)

/-- A delivery keeps the promises of the other outcomes. -/
theorem Pull.promised_marked {pull : Pull} {i j : ℕ} {outcome : Outcome} {asset : Pubkey}
    (h : (pull.marked i outcome).promised j = some asset) : pull.promised j = some asset ∧ j ≠ i := by
  obtain ⟨hstatus, hcount, o, ho, hd, hasset⟩ := promised_eq_some.mp h
  have hset : (pull.outcomes.setIfInBounds i { outcome with tier := delivered })[j]? = some o := ho
  have hne : j ≠ i := by
    rintro rfl
    rw [Vector.getElem?_setIfInBounds_self] at hset
    split_ifs at hset
    exact hd (congrArg Outcome.tier (Option.some.inj hset)).symm
  rw [Vector.getElem?_setIfInBounds_ne hne.symm] at hset
  exact ⟨promised_eq_some.mpr ⟨hstatus, hcount, o, hset, hd, hasset⟩, hne⟩

theorem Pull.promised_marked_of_ne {pull : Pull} {i j : ℕ} (outcome : Outcome) {asset : Pubkey}
    (h : pull.promised j = some asset) (hne : j ≠ i) : (pull.marked i outcome).promised j = some asset := by
  obtain ⟨hstatus, hcount, o, ho, hd, hasset⟩ := promised_eq_some.mp h
  refine promised_eq_some.mpr ⟨hstatus, hcount, o, ?_, hd, hasset⟩
  exact (Vector.getElem?_setIfInBounds_ne hne.symm).trans ho

namespace Banner.Held

variable {S S' : Banner} (h : S.Held)

include h

/-- Promises that are kept at other places. -/
theorem of_map (f : Slot → Slot)
    (hf : ∀ slot asset, S'.promised slot = some asset →
      S.promised (f slot) = some asset ∧ asset ∈ S'.assets)
    (hinj : ∀ slot slot' asset, S'.promised slot = some asset → S'.promised slot' = some asset →
      f slot = f slot' → slot = slot') : S'.Held where
  owned hslot := (hf _ _ hslot).2
  unique hslot hslot' :=
    hinj _ _ _ hslot hslot' (h.unique (hf _ _ hslot).1 (hf _ _ hslot').1)

/-- Promises that are kept in place. -/
theorem mono (hf : ∀ slot asset, S'.promised slot = some asset →
    S.promised slot = some asset ∧ asset ∈ S'.assets) : S'.Held :=
  h.of_map id hf fun _ _ _ _ _ heq => heq

/-- The same books, and no asset less. -/
theorem congr (hitems : S'.items = S.items) (hpulls : S'.pulls = S.pulls)
    (hassets : S.assets ⊆ S'.assets) : S'.Held := by
  refine h.mono fun slot asset hslot => ?_
  have hsame : S'.promised slot = S.promised slot := by
    cases slot with
    | item key => rw [promised, promised, hitems]
    | outcome key i => rw [promised, promised, hpulls]
  rw [hsame] at hslot
  exact ⟨hslot, hassets (h.owned hslot)⟩

/-- A new Item of an asset that the pool did not own. -/
theorem restock {key : Pubkey} {item : Item} (hgiven : item.asset ∉ S.assets)
    (hitems : S'.items = Function.update S.items key (some item))
    (hpulls : S'.pulls = S.pulls) (hassets : insert item.asset S.assets ⊆ S'.assets) : S'.Held := by
  have hcases : ∀ {slot asset}, S'.promised slot = some asset →
      (slot = .item key ∧ asset = item.asset) ∨ S.promised slot = some asset := by
    intro slot asset hslot
    cases slot with
    | item k =>
      rw [promised, hitems, Function.update_apply] at hslot
      split_ifs at hslot with hk
      · exact .inl ⟨by rw [hk], (Option.some.inj hslot).symm⟩
      · exact .inr hslot
    | outcome k i =>
      rw [promised, hpulls] at hslot
      exact .inr hslot
  refine ⟨fun {slot asset} hslot => ?_, fun {slot slot' asset} hslot hslot' => ?_⟩
  · rcases hcases hslot with ⟨-, rfl⟩ | hold
    · exact hassets (Set.mem_insert _ _)
    · exact hassets (Set.mem_insert_of_mem _ (h.owned hold))
  · rcases hcases hslot with ⟨rfl, rfl⟩ | hold
    · rcases hcases hslot' with ⟨rfl, -⟩ | hold'
      · rfl
      · exact absurd (h.owned hold') hgiven
    · rcases hcases hslot' with ⟨rfl, rfl⟩ | hold'
      · exact absurd (h.owned hold) hgiven
      · exact h.unique hold hold'

/-- An Item is closed, and its asset may go. -/
theorem reclaim {key : Pubkey} {item : Item} (hitem : S.items key = some item)
    (hitems : S'.items = Function.update S.items key none) (hpulls : S'.pulls = S.pulls)
    (hassets : S.assets \ {item.asset} ⊆ S'.assets) : S'.Held := by
  have hgone : S.promised (.item key) = some item.asset := by
    rw [promised, hitem]
    rfl
  refine h.mono fun slot asset hslot => ?_
  have hold : S.promised slot = some asset ∧ slot ≠ .item key := by
    cases slot with
    | item k =>
      rw [promised, hitems, Function.update_apply] at hslot
      split_ifs at hslot with hk
      · exact absurd hslot (by simp)
      · exact ⟨hslot, fun heq => hk (Slot.item.inj heq)⟩
    | outcome k i =>
      rw [promised, hpulls] at hslot
      exact ⟨hslot, by simp⟩
  refine ⟨hold.1, hassets ⟨h.owned hold.1, ?_⟩⟩
  rintro rfl
  exact hold.2 (h.unique hold.1 hgone)

/-- A Pull without promises is created or closed. -/
theorem unpromised {key : Pubkey} {left : Option Pull}
    (hleft : ∀ pull, left = some pull → pull.status = statusPending) (hitems : S'.items = S.items)
    (hpulls : S'.pulls = Function.update S.pulls key left) (hassets : S.assets ⊆ S'.assets) :
    S'.Held := by
  refine h.mono fun slot asset hslot => ?_
  have hold : S.promised slot = some asset := by
    cases slot with
    | item k =>
      rw [promised, hitems] at hslot
      exact hslot
    | outcome k i =>
      rw [promised, hpulls, Function.update_apply] at hslot
      split_ifs at hslot with hk
      · obtain ⟨pull, hpull, hpromised⟩ := Option.bind_eq_some_iff.mp hslot
        rw [Pull.promised_of_pending (hleft pull hpull)] at hpromised
        exact absurd hpromised (by simp)
      · exact hslot
  exact ⟨hold, hassets (h.owned hold)⟩

/-- A settlement moves the promises of its Items to the outcomes of its Pull. -/
theorem settle {key : Pubkey} {pull : Pull} {awards : List Award}
    (hitem : ∀ award ∈ awards, S.items award.account = some award.item)
    (hnodup : (awards.map Award.account).Nodup) (hcount : awards.length = pull.count.toNat)
    (hsmall : pull.count.toNat ≤ 10)
    (hitems : S'.items = fun k => if k ∈ awards.map Award.account then none else S.items k)
    (hpulls : S'.pulls = Function.update S.pulls key (some { pull with
      status := statusSettled, outcomes := recordAwards pull.outcomes 0 awards }))
    (hassets : S.assets ⊆ S'.assets) : S'.Held := by
  -- Where a promise of `S'` stood in `S`.
  let f : Slot → Slot := fun slot =>
    match slot with
    | .item k => .item k
    | .outcome k i =>
      if k = key then (awards[i]?.map fun award => Slot.item award.account).getD (.outcome k i)
      else .outcome k i
  have hrecorded : ∀ {i asset}, S'.promised (.outcome key i) = some asset →
      ∃ award, awards[i]? = some award ∧ award.item.asset = asset := by
    intro i asset hslot
    rw [promised, hpulls, Function.update_self, Option.bind_some, Pull.promised_eq_some] at hslot
    obtain ⟨-, hlt, outcome, ho, -, rfl⟩ := hslot
    have hi : i < awards.length := hcount.symm ▸ hlt
    have ho' : (recordAwards pull.outcomes 0 awards)[i]? = some outcome := ho
    rw [recordAwards_getElem? _ _ _ _ (by omega), if_pos ⟨Nat.zero_le _, by omega⟩, Nat.sub_zero,
      List.getElem?_eq_getElem hi] at ho'
    exact ⟨awards[i], List.getElem?_eq_getElem hi, congrArg Outcome.asset (Option.some.inj ho')⟩
  have hkept : ∀ {k asset}, S'.promised (.item k) = some asset →
      k ∉ awards.map Award.account ∧ S.promised (.item k) = some asset := by
    intro k asset hslot
    rw [promised, hitems] at hslot
    simp only at hslot
    split_ifs at hslot with hk
    · exact absurd hslot (by simp)
    · exact ⟨hk, hslot⟩
  refine h.of_map f (fun slot asset hslot => ?_) fun slot slot' asset hslot hslot' heq => ?_
  · have hold : S.promised (f slot) = some asset := by
      cases slot with
      | item k => exact (hkept hslot).2
      | outcome k i =>
        by_cases hk : k = key
        · subst hk
          obtain ⟨award, haward, rfl⟩ := hrecorded hslot
          have hf : f (.outcome k i) = .item award.account := by simp [f, haward]
          rw [hf, promised, hitem award (List.mem_of_getElem? haward)]
          rfl
        · have hf : f (.outcome k i) = .outcome k i := if_neg hk
          rw [promised, hpulls, Function.update_of_ne hk] at hslot
          rw [hf]
          exact hslot
    exact ⟨hold, hassets (h.owned hold)⟩
  · -- Outcomes of the settled Pull come from different Items, and these are closed.
    have hmoved : ∀ {i asset}, S'.promised (.outcome key i) = some asset →
        ∃ award, awards[i]? = some award ∧ f (.outcome key i) = .item award.account := by
      intro i asset hslot
      obtain ⟨award, haward, -⟩ := hrecorded hslot
      exact ⟨award, haward, by simp [f, haward]⟩
    have hother : ∀ {k i}, k ≠ key → f (.outcome k i) = .outcome k i := fun hk => if_neg hk
    have hclosed : ∀ {k i asset}, S'.promised (.item k) = some asset →
        S'.promised (.outcome key i) = some asset → f (.outcome key i) ≠ .item k := by
      intro k i asset hk hi hf
      obtain ⟨award, haward, hfa⟩ := hmoved hi
      rw [hf, Slot.item.injEq] at hfa
      exact (hkept hk).1 (hfa ▸ List.mem_map_of_mem (List.mem_of_getElem? haward))
    cases slot with
    | item k =>
      cases slot' with
      | item k' => exact heq
      | outcome k' i' =>
        by_cases hk' : k' = key
        · exact absurd heq.symm (hk' ▸ hclosed hslot (hk' ▸ hslot'))
        · rw [hother hk'] at heq
          exact absurd heq (by simp [f])
    | outcome k i =>
      by_cases hk : k = key
      · subst hk
        cases slot' with
        | item k' => exact absurd heq (hclosed hslot' hslot)
        | outcome k' i' =>
          by_cases hk' : k' = k
          · subst hk'
            obtain ⟨award, haward, hf⟩ := hmoved hslot
            obtain ⟨award', haward', hf'⟩ := hmoved hslot'
            have haccount : award.account = award'.account := by
              rw [hf, hf', Slot.item.injEq] at heq
              exact heq
            have hi : (awards.map Award.account)[i]? = some award.account := by
              rw [List.getElem?_map, haward]
              rfl
            have hi' : (awards.map Award.account)[i']? = some award.account := by
              rw [List.getElem?_map, haward', haccount]
              rfl
            obtain ⟨hlt, -⟩ := List.getElem?_eq_some_iff.mp hi
            rw [(List.getElem?_inj hlt hnodup).mp (hi.trans hi'.symm)]
          · rw [hother hk'] at heq
            obtain ⟨award, haward, hf⟩ := hmoved hslot
            rw [hf] at heq
            exact absurd heq (by simp)
      · rw [hother hk] at heq
        cases slot' with
        | item k' => exact absurd heq (by simp [f])
        | outcome k' i' =>
          by_cases hk' : k' = key
          · subst hk'
            obtain ⟨award, haward, hf⟩ := hmoved hslot'
            rw [hf] at heq
            exact absurd heq (by simp)
          · rw [hother hk'] at heq
            exact heq

/-- A delivery drops one promise, and its asset may go. -/
theorem deliver {key : Pubkey} {pull : Pull} {i : ℕ} {outcome : Outcome} {left : Option Pull}
    (hpull : S.pulls key = some pull) (hsettled : pull.status = statusSettled)
    (hcount : i < pull.count.toNat) (hrecorded : pull.outcomes[i]? = some outcome)
    (hundelivered : outcome.tier ≠ delivered)
    (hleft : ∀ pull', left = some pull' → pull' = pull.marked i outcome)
    (hitems : S'.items = S.items) (hpulls : S'.pulls = Function.update S.pulls key left)
    (hassets : S.assets \ {outcome.asset} ⊆ S'.assets) : S'.Held := by
  have hgone : S.promised (.outcome key i) = some outcome.asset := by
    rw [promised, hpull, Option.bind_some, Pull.promised_eq_some]
    exact ⟨hsettled, hcount, outcome, hrecorded, hundelivered, rfl⟩
  refine h.mono fun slot asset hslot => ?_
  have hold : S.promised slot = some asset ∧ slot ≠ .outcome key i := by
    cases slot with
    | item k =>
      rw [promised, hitems] at hslot
      exact ⟨hslot, by simp⟩
    | outcome k j =>
      rw [promised, hpulls, Function.update_apply] at hslot
      split_ifs at hslot with hk
      · obtain ⟨pull', hl, hpromised⟩ := Option.bind_eq_some_iff.mp hslot
        rw [hleft pull' hl] at hpromised
        obtain ⟨hold, hne⟩ := Pull.promised_marked hpromised
        refine ⟨?_, fun heq => hne (Slot.outcome.inj heq).2⟩
        rw [promised, hk, hpull]
        exact hold
      · exact ⟨hslot, fun heq => hk (Slot.outcome.inj heq).1⟩
  refine ⟨hold.1, hassets ⟨h.owned hold.1, ?_⟩⟩
  rintro rfl
  exact hold.2 (h.unique hold.1 hgone)

end Banner.Held

end SolanaGacha
