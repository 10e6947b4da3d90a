import SolanaGacha.Index.Selection
import SolanaGacha.Ledger.Helpers

/-!
# The draw loop

What a settlement's loop does to the pool, the pull and the ledger: `drawOne_ok` for one draw, and
`drawLoop_ok` for the loop. The loop works on the whole index and on counts that it keeps by hand, yet
what it selects are the `Runtime.selections` of the pinned prefix, and the awards are the Items of these
positions, each closed and recorded in the order of the draws.
-/

namespace SolanaGacha

open Except Layout Inventory

/-- An awarded prize: the account of its Item, and what that recorded. -/
structure Award where
  account : Pubkey
  item : Item
  deriving DecidableEq

/-- The tier and the position that an award was drawn as. -/
def Award.draw (award : Award) : UInt8 × ℕ := (award.item.tier, award.item.position.toNat)

/-- The outcomes of a pull with some awards recorded from outcome `i` on. -/
def recordAwards : Vector Outcome 10 → ℕ → List Award → Vector Outcome 10
  | outcomes, _, [] => outcomes
  | outcomes, i, award :: awards =>
    recordAwards (outcomes.setIfInBounds i ⟨award.item.tier, award.item.asset⟩) (i + 1) awards

/-- The ledger with some accounts closed. -/
def Ledger.vacate (L : Ledger) (keys : List Pubkey) : Ledger :=
  fun key => if key ∈ keys then .vacant else L key

theorem recordAwards_getElem? (outcomes : Vector Outcome 10) (i : ℕ) (awards : List Award) (j : ℕ)
    (hfits : i + awards.length ≤ 10) : (recordAwards outcomes i awards)[j]? =
      if i ≤ j ∧ j < i + awards.length then
        awards[j - i]?.map fun award => ⟨award.item.tier, award.item.asset⟩
      else outcomes[j]? := by
  induction awards generalizing outcomes i with
  | nil =>
    rw [recordAwards, if_neg]
    simp
  | cons award awards ih =>
    rw [List.length_cons] at hfits ⊢
    rw [recordAwards, ih _ _ (by omega)]
    rcases lt_trichotomy j i with hlt | rfl | hgt
    · rw [if_neg (by omega), if_neg (by omega), Vector.getElem?_setIfInBounds_ne (by omega)]
    · rw [if_neg (by omega), if_pos (by omega), Nat.sub_self]
      simp [Vector.getElem?_setIfInBounds_self]
      omega
    · by_cases hin : j < i + (awards.length + 1)
      · rw [if_pos (by omega), if_pos (by omega), show j - i = (j - (i + 1)) + 1 by omega,
          List.getElem?_cons_succ]
      · rw [if_neg (by omega), if_neg (by omega), Vector.getElem?_setIfInBounds_ne (by omega)]

/-- The outcomes that some awards leave. -/
theorem recordAwards_take (outcomes : Vector Outcome 10) (awards : List Award) (h : awards.length ≤ 10) :
    (recordAwards outcomes 0 awards).toList.take awards.length =
      awards.map fun award => ⟨award.item.tier, award.item.asset⟩ := by
  refine List.ext_getElem? fun i => ?_
  rw [List.getElem?_take, List.getElem?_map, Vector.getElem?_toList, recordAwards_getElem? _ _ _ _ (by omega)]
  by_cases hi : i < awards.length
  · rw [if_pos hi, if_pos ⟨Nat.zero_le i, by omega⟩, Nat.sub_zero]
  · rw [if_neg hi, List.getElem?_eq_none (by omega)]
    rfl

theorem vacate_cons (L : Ledger) (key : Pubkey) (keys : List Pubkey) :
    L.vacate (key :: keys) = Ledger.vacate (Function.update L key .vacant) keys := by
  funext k
  simp only [Ledger.vacate, List.mem_cons, Function.update_apply]
  by_cases hk : k = key <;> simp [hk]

namespace Runtime

variable {rt : Runtime} {poolKey operator : Pubkey} {beta : FixedBytes 64}

/-- What one draw does. The item is that of the position which the plain list selects. -/
structure DrewOne (rt : Runtime) (poolKey : Pubkey) (beta : FixedBytes 64) (tags : List UInt8)
    (cutoff i : ℕ) (award : Award) (s s' : DrawState) : Prop where
  selected : ∃ rank, s.pool.draw (rt.sha256 (beta.val ++ [UInt8.ofNat i])) (tally (tags.take cutoff)) =
      .ok (award.item.tier, rank) ∧
    ((tags.take cutoff).idxsOf (tierTag award.item.tier.toNat))[rank.toNat]? =
      some award.item.position.toNat
  item : Accounts.ledger s.accounts award.account = .item award.item
  pool : award.item.pool = poolKey
  small : i < 10
  outcomes : s'.pull =
    { s.pull with outcomes := s.pull.outcomes.setIfInBounds i ⟨award.item.tier, award.item.asset⟩ }
  ledger : Accounts.ledger s'.accounts =
    Function.update (Accounts.ledger s.accounts) award.account .vacant
  header : ∃ tiers, s'.pool = { s.pool with tiers } ∧
    tiers.map Tier.weight = s.pool.tiers.map Tier.weight
  draw : s'.pool.draw = s.pool.draw
  stock : Stock s'.pool s'.inventory.data (tags.set award.item.position.toNat 0)
  available : s'.available = tally ((tags.set award.item.position.toNat 0).take cutoff)

theorem drawOne_ok {s s' : DrawState} {tags : List UInt8} {cutoff i : ℕ} {info : AccountInfo}
    (hstock : Stock s.pool s.inventory.data tags) (havailable : s.available = tally (tags.take cutoff))
    (h : rt.drawOne poolKey operator beta s i info = .ok s') :
    ∃ item, DrewOne rt poolKey beta tags cutoff i ⟨info.key, item⟩ s s' := by
  simp only [drawOne, bind_eq_ok, okOr_eq_ok, failIf_eq_ok, pure_eq_ok, Prod.exists] at h
  obtain ⟨tier, rank, hdraw, position, inventory, htake, count, hcount, left, hleft, item, hitem, -,
    hmatch, pull, houtcome, accounts, hclose, pool, hcounter, rfl⟩ := h
  have hsmall := hstock.indexed.small
  have hsmall' : (tags.take cutoff).length < 2 ^ 32 := by
    rw [List.length_take]
    omega
  -- The rank is that of an entry of the prefix, which `take` finds in the whole index.
  rw [havailable] at hdraw hcount
  obtain ⟨htiers, htier, count', hcount', hrank⟩ := Pool.draw_spec hdraw
  obtain rfl : count = count' := Option.some.inj (hcount.symm.trans hcount')
  have ht8 : tier.toNat < 8 := by omega
  rw [Vector.getElem?_eq_getElem ht8, Option.some.injEq] at hcount
  have htally := getElem_tally hsmall' ht8
  rw [hcount] at htally
  have hlen : rank.toNat < ((tags.take cutoff).idxsOf (tierTag tier.toNat)).length := by
    rw [List.length_idxsOf, ← htally]
    exact hrank
  generalize hp : ((tags.take cutoff).idxsOf (tierTag tier.toNat))[rank.toNat] = p
  have hp' : ((tags.take cutoff).idxsOf (tierTag tier.toNat))[rank.toNat]? = some p := by
    rw [List.getElem?_eq_getElem hlen, hp]
  obtain ⟨hcut, hwhole⟩ := getElem?_idxsOf_take hp'
  have hlive := live_of_getElem?_idxsOf hwhole
  have hlive' := live_of_getElem?_idxsOf hp'
  have hplt := lt_length_of_live ht8 hlive
  obtain ⟨data, hrun, hindexed⟩ := take_run hstock.indexed ht8 hwhole
  rw [InventoryM.run_eq_ok, hrun, Prod.mk.injEq, Except.ok.injEq] at htake
  obtain ⟨rfl, rfl⟩ := htake
  simp only [not_or, not_not] at hmatch
  obtain ⟨hpool, rfl, hposition⟩ := hmatch
  have hpos : item.position.toNat = p := by
    rw [hposition, UInt32.toNat_ofNat_of_lt' (hplt.trans hsmall)]
  rw [Pull.setOutcome] at houtcome
  simp only [bind_eq_ok, failIf_eq_ok, pure_eq_ok] at houtcome
  obtain ⟨-, hi, rfl⟩ := houtcome
  refine ⟨item, ⟨rank, hdraw, by rw [hpos]; exact hp'⟩, Account.entry_eq_item.mpr hitem, hpool,
    by rwa [maxCount, not_le] at hi, rfl, close_ok hclose, Pool.updateRemaining_frame hcounter,
    Pool.draw_updateRemaining hcounter, ?_, ?_⟩
  · show Stock pool data (tags.set item.position.toNat 0)
    rw [hpos]
    exact hstock.clear hlive hindexed hcounter
  · have hleft' : count.toNat = 1 + left.toNat := UInt32.checkedSub_eq_some.mp hleft
    show s.available.setIfInBounds item.tier.toNat left = _
    rw [havailable, tally_set hsmall' ht8 hlive' (by rw [hcount]; omega), hpos, List.take_set]

/-- What the loop does from draw number `i` on. -/
structure Drew (rt : Runtime) (poolKey : Pubkey) (beta : FixedBytes 64) (tags : List UInt8)
    (cutoff i : ℕ) (awards : List Award) (s s' : DrawState) : Prop where
  selected : rt.selections s.pool beta (tags.take cutoff) i awards.length = .ok (awards.map Award.draw)
  item : ∀ award ∈ awards, Accounts.ledger s.accounts award.account = .item award.item
  pool : ∀ award ∈ awards, award.item.pool = poolKey
  nodup : (awards.map Award.account).Nodup
  small : awards ≠ [] → i + awards.length ≤ 10
  outcomes : s'.pull = { s.pull with outcomes := recordAwards s.pull.outcomes i awards }
  ledger : Accounts.ledger s'.accounts =
    (Accounts.ledger s.accounts).vacate (awards.map Award.account)
  header : ∃ tiers, s'.pool = { s.pool with tiers } ∧
    tiers.map Tier.weight = s.pool.tiers.map Tier.weight
  draw : s'.pool.draw = s.pool.draw
  stock : Stock s'.pool s'.inventory.data (Market.clear tags (awards.map fun a => a.draw.2))

/-- The loop awards the Items that it is given, and these are the selections of the prefix. -/
theorem drawLoop_ok {items : List AccountInfo} {s s' : DrawState} {tags : List UInt8} {cutoff i : ℕ}
    (hstock : Stock s.pool s.inventory.data tags) (havailable : s.available = tally (tags.take cutoff))
    (h : rt.drawLoop poolKey operator beta s i items = .ok s') :
    ∃ awards, awards.map Award.account = items.map AccountInfo.key ∧
      Drew rt poolKey beta tags cutoff i awards s s' := by
  induction items generalizing s tags i with
  | nil =>
    obtain rfl := pure_eq_ok.mp h
    refine ⟨[], rfl, rfl, by simp, by simp, .nil, by simp, rfl, ?_, ⟨_, rfl, rfl⟩, rfl, hstock⟩
    funext key
    simp [Ledger.vacate]
  | cons info items ih =>
    rw [drawLoop, bind_eq_ok] at h
    obtain ⟨next, hone, hloop⟩ := h
    obtain ⟨item, one⟩ := drawOne_ok hstock havailable hone
    obtain ⟨awards, hkeys, rest⟩ := ih one.stock one.available hloop
    obtain ⟨rank, hdraw, hposition⟩ := one.selected
    -- A later Item is read after the first one was closed, so its account is another one.
    have hlater : ∀ award ∈ awards, award.account ≠ info.key ∧
        Accounts.ledger s.accounts award.account = .item award.item := by
      intro award ha
      have hitem := rest.item award ha
      rw [one.ledger, Function.update_apply] at hitem
      split_ifs at hitem with heq
      exact ⟨heq, hitem⟩
    refine ⟨⟨info.key, item⟩ :: awards, by rw [List.map_cons, List.map_cons, hkeys], ?_, ?_, ?_, ?_, ?_,
      ?_, ?_, ?_, rest.draw.trans one.draw, rest.stock⟩
    · have hrest := rest.selected
      rw [selections_congr one.draw, List.take_set] at hrest
      exact selections_succ_eq_ok.mpr ⟨_, rank, _, _, hdraw, hposition, hrest, rfl⟩
    · exact List.forall_mem_cons.mpr ⟨one.item, fun award ha => (hlater award ha).2⟩
    · exact List.forall_mem_cons.mpr ⟨one.pool, rest.pool⟩
    · rw [List.map_cons, List.nodup_cons]
      refine ⟨fun hmem => ?_, rest.nodup⟩
      obtain ⟨award, ha, heq⟩ := List.mem_map.mp hmem
      exact (hlater award ha).1 heq
    · intro _
      have hone := one.small
      rw [List.length_cons]
      rcases eq_or_ne awards [] with rfl | hne
      · simpa using hone
      · have := rest.small hne
        omega
    · rw [rest.outcomes, one.outcomes]
      rfl
    · rw [rest.ledger, one.ledger, List.map_cons, vacate_cons]
    · obtain ⟨tiers, htiers, hweights⟩ := one.header
      obtain ⟨tiers', htiers', hweights'⟩ := rest.header
      rw [htiers] at htiers' hweights'
      exact ⟨tiers', htiers', hweights'.trans hweights⟩

/-- The draw of a settlement, on a pool whose stock is counted right. -/
theorem draw_ok {pool : Pool} {inventory : Inventory} {pull : Pull} {accounts : Accounts}
    {items : List AccountInfo} {s : DrawState} {tags : List UInt8}
    (hstock : Stock pool inventory.data tags) (hversion : pull.inventoryVersion.toNat ≤ tags.length)
    (h : rt.draw pool inventory pull accounts poolKey items operator beta = .ok s) :
    ∃ awards, awards.map Award.account = items.map AccountInfo.key ∧
      Drew rt poolKey beta tags pull.inventoryVersion.toNat 0 awards
        ⟨pool, inventory, pull, accounts, tally (tags.take pull.inventoryVersion.toNat)⟩ s := by
  rw [draw, bind_eq_ok] at h
  obtain ⟨available, hcounts, hloop⟩ := h
  obtain ⟨v, hv, hcount⟩ := counts_eq_ok hstock.indexed hversion
  obtain rfl : available = v := Except.ok.inj (hcounts.symm.trans hv)
  have htally := eq_tally (by
    rw [List.length_take]
    have := hstock.indexed.small
    omega) hcount
  subst htally
  exact drawLoop_ok hstock rfl hloop

end Runtime

end SolanaGacha
