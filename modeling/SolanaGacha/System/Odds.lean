import SolanaGacha.Index.Odds
import SolanaGacha.System.Standing
import SolanaGacha.System.Stock

/-!
# The odds of a purchase

The purchase at the head of a queue is decided by the hashes of its verified output: they select one list of
Items, and every other way to choose as many of the Items that it may draw is selected by other hashes
(`World.Sound.decides`). Each such choice is selected by its share of the hash words: the product, draw by
draw, of the weight of the tier among those that are left and of one candidate among those that are left in
it (`World.Reached.pull_odds`).
-/

namespace SolanaGacha

open Except Layout Inventory Finset

/-- A choice of Items that a purchase of the pool at `P` may draw, in their order: as many as it bought, all
different and issued before it. -/
structure World.Drawable (w : World) (P : Pubkey) (pull : Pull) (awards : List Award) : Prop where
  count : awards.length = pull.count.toNat
  nodup : (awards.map fun award => award.item.position).Nodup
  item : ∀ award ∈ awards, w.ledger award.account = .item award.item ∧ award.item.pool = P
  before : ∀ award ∈ awards, award.item.position < pull.inventoryVersion

/-- The hashes of an output, one for each draw. -/
def Runtime.hashes (rt : Runtime) (beta : FixedBytes 64) {n : ℕ} (i : Fin n) : FixedBytes 32 :=
  rt.sha256 (beta.val ++ [UInt8.ofNat i])

namespace World

variable {rt : Runtime} {w : World} {P k : Pubkey} {pool : Pool} {index : List UInt8} {pull : Pull}
  {awards : List Award} {m : Market UInt8 Ticket}

/-- The stock that a purchase draws from offers its choices. -/
theorem Drawable.offers (h : w.Drawable P pull awards) (hm : (w.ledger.banner P).Opened rt P pool index m) :
    pool.Offers ((pool.tags index).take pull.inventoryVersion.toNat) (awards.map Award.draw) where
  nodup := by
    rw [List.map_map]
    have hinj := h.nodup.map (f := UInt32.toNat) fun _ _ heq => UInt32.toNat_inj.mp heq
    rwa [List.map_map] at hinj
  tier d hd := by
    obtain ⟨award, haward, rfl⟩ := List.mem_map.mp hd
    obtain ⟨hentry, hP⟩ := h.item award haward
    exact UInt8.lt_iff_toNat_lt.mp (hm.item_bounds hentry hP).2
  live d hd := by
    obtain ⟨award, haward, rfl⟩ := List.mem_map.mp hd
    obtain ⟨-, -, hlive, -⟩ := hm.shelved.item (Ledger.banner_items.mpr (h.item award haward))
    have hbefore := UInt32.lt_iff_toNat_lt.mp (h.before award haward)
    unfold Award.draw Live at *
    rw [hm.tags_eq, List.getD_eq_getElem?_getD, List.getElem?_take, if_pos hbefore,
      ← List.getD_eq_getElem?_getD]
    exact hlive

/-- What settles a purchase is one of its choices. -/
theorem Settles.drawable {items : List AccountInfo} {proof : FixedBytes 80} {beta : FixedBytes 64}
    (h : w.Settles rt P k pool index pull items proof beta awards) : w.Drawable P pull awards := by
  obtain ⟨hlength, hnodup, -⟩ := Runtime.selections_spec h.selected
  rw [List.length_map] at hlength
  rw [List.map_map] at hnodup
  refine ⟨hlength, ?_, h.item, fun award haward => UInt32.lt_iff_toNat_lt.mpr (h.position_lt haward)⟩
  apply List.Nodup.of_map UInt32.toNat
  rwa [List.map_map]

section Reached

variable (hrt : rt.Lawful) (hpool : w.ledger P = .pool pool index) (hpull : w.ledger k = .pull pull)
  (hP : pull.pool = P) (hpending : pull.status = statusPending) (hhead : pull.index = pool.nextSettle)

include hpool hpull hP hpending hhead

/-- The words of the hashes of an output pay one choice, and no other. -/
theorem Sound.decides (h : w.Sound rt) (htime : w.slot ≤ pull.deadlineSlot) {items : List AccountInfo}
    {proof : FixedBytes 80} {w' : World}
    (hprocess : processInstruction rt w (Settle.instruction P k pool.operator items proof) = .ok w') :
    ∃ beta awards, rt.verifyProof pool.operator (rt.sha256 (k.val ++ pull.clientSeed.val)) proof = some beta ∧
      w.Drawable P pull awards ∧ w'.ledger k = .pull { pull with
        status := statusSettled, outcomes := recordAwards pull.outcomes 0 awards } ∧
      ∀ awards', w.Drawable P pull awards' →
        ((fun i => Pool.wordsOf (rt.hashes beta i)) ∈
            pool.paying ((pool.tags index).take pull.inventoryVersion.toNat)
              (fun i : Fin pull.count.toNat => Pool.unreadOf (rt.hashes beta i)) (awards'.map Award.draw) ↔
          awards' = awards) := by
  obtain ⟨m, hm⟩ := h.opened hpool
  obtain ⟨beta, awards, hsettles, hrecorded⟩ :=
    h.settles_of_isOk hpool hpull hP hpending hhead htime hprocess
  refine ⟨beta, awards, hsettles.proof, hsettles.drawable, hrecorded, fun awards' hawards' => ?_⟩
  have hselected : pool.selections (List.ofFn fun i : Fin pull.count.toNat => rt.hashes beta i)
      ((pool.tags index).take pull.inventoryVersion.toNat) = .ok (awards.map Award.draw) := by
    have hselected := hsettles.selected
    rw [Runtime.selections_eq] at hselected
    simp only [Nat.zero_add] at hselected
    exact hselected
  rw [Pool.mem_paying_wordsOf, hselected]
  constructor
  · -- Awards of the same positions are the same.
    intro heq
    apply hm.shelved.awards_unique (Except.ok.inj heq).symm
    · exact fun award haward => Ledger.banner_items.mpr (hawards'.item award haward)
    · exact fun award haward => Ledger.banner_items.mpr (hsettles.item award haward)
  · rintro rfl
    rfl

include hrt

/-- For every purchase at the head of a queue: each choice of Items that it may draw, in each order, is paid by
between `pool.odds 0` and `pool.odds 1` of the sequences of hash words. A settlement records the choice that
the words of the verified output pay. -/
theorem Reached.pull_odds (hw : w.Reached rt) :
    (∀ awards, w.Drawable P pull awards → ∀ unread : Fin pull.count.toNat → FixedBytes 16,
      pool.odds 0 ((pool.tags index).take pull.inventoryVersion.toNat) (awards.map Award.draw) ≤
          #(pool.paying ((pool.tags index).take pull.inventoryVersion.toNat) unread (awards.map Award.draw)) ∧
        #(pool.paying ((pool.tags index).take pull.inventoryVersion.toNat) unread (awards.map Award.draw)) ≤
          pool.odds 1 ((pool.tags index).take pull.inventoryVersion.toNat) (awards.map Award.draw)) ∧
    (w.slot ≤ pull.deadlineSlot → ∀ items proof w',
      processInstruction rt w (Settle.instruction P k pool.operator items proof) = .ok w' →
      ∃ beta awards, rt.verifyProof pool.operator (rt.sha256 (k.val ++ pull.clientSeed.val)) proof = some beta ∧
        w.Drawable P pull awards ∧ w'.ledger k = .pull { pull with
          status := statusSettled, outcomes := recordAwards pull.outcomes 0 awards } ∧
        ∀ awards', w.Drawable P pull awards' →
          ((fun i => Pool.wordsOf (rt.hashes beta i)) ∈
              pool.paying ((pool.tags index).take pull.inventoryVersion.toNat)
                (fun i : Fin pull.count.toNat => Pool.unreadOf (rt.hashes beta i)) (awards'.map Award.draw) ↔
            awards' = awards)) := by
  have hsound := hw.sound hrt
  obtain ⟨m, hm⟩ := hsound.opened hpool
  constructor
  · intro awards hawards unread
    apply Pool.card_paying hm.valid.tierCount.2 hm.valid.weights
    · rw [List.length_take, hm.tags_eq]
      have := hm.stock.indexed.small
      omega
    · exact hawards.offers hm
    · rw [List.length_map, hawards.count]
  · intro htime items proof w' hprocess
    exact hsound.decides hpool hpull hP hpending hhead htime hprocess

omit hrt hpool hpull hP hpending hhead in
/-- The odds of the second asset of the sample pool, when one draw was bought. -/
theorem Reached.pull_odds_sample : ∃ pool index pull item,
    Sample.bought.ledger Sample.pool = .pool pool index ∧ Sample.bought.ledger Sample.pull = .pull pull ∧
    Sample.bought.ledger Sample.item₁ = .item item ∧ pull.count = 1 ∧
    ∀ unread : Fin pull.count.toNat → FixedBytes 16,
      pool.odds 0 ((pool.tags index).take pull.inventoryVersion.toNat) [(item.tier, item.position.toNat)] ≤
          #(pool.paying ((pool.tags index).take pull.inventoryVersion.toNat) unread
            [(item.tier, item.position.toNat)]) ∧
        #(pool.paying ((pool.tags index).take pull.inventoryVersion.toNat) unread
            [(item.tier, item.position.toNat)]) ≤
          pool.odds 1 ((pool.tags index).take pull.inventoryVersion.toNat)
            [(item.tier, item.position.toNat)] := by
  obtain ⟨pool, index, hpool, hhead⟩ := Sample.exists_pool (e := Sample.bought.ledger Sample.pool)
    (p := fun pool => pool.nextSettle = 0) (by decide +kernel)
  obtain ⟨pull, hpull, hopen⟩ := Sample.exists_pull (e := Sample.bought.ledger Sample.pull)
    (p := fun pull => pull.pool = Sample.pool ∧ pull.status = statusPending ∧ pull.index = 0 ∧
      pull.count = 1 ∧ pull.inventoryVersion = 2) (by decide +kernel)
  obtain ⟨item, hitem, hissued⟩ := Sample.exists_item (e := Sample.bought.ledger Sample.item₁)
    (p := fun item => item.pool = Sample.pool ∧ item.position = 1) (by decide +kernel)
  simp only [decide_eq_true_eq] at hhead hopen hissued
  obtain ⟨hP, hpending, hindex, hcount, hversion⟩ := hopen
  have hreached := Sample.bought_reached
  generalize Sample.bought = w at *
  have hdrawable : w.Drawable Sample.pool pull [⟨Sample.item₁, item⟩] := by
    refine ⟨by rw [hcount]; rfl, List.nodup_singleton _, ?_, ?_⟩
    · exact List.forall_mem_singleton.mpr ⟨hitem, hissued.1⟩
    · rw [List.forall_mem_singleton, hissued.2, hversion]
      decide
  exact ⟨pool, index, pull, item, hpool, hpull, hitem, hcount, fun unread =>
    (Reached.pull_odds Sample.net.runtime_lawful hpool hpull hP hpending (hindex.trans hhead.symm)
      hreached).1 _ hdrawable unread⟩

end Reached

end World

end SolanaGacha
