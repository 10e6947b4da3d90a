import SolanaGacha.Sdk.Decode
import SolanaGacha.System.Localnet

/-!
# What the SDK accepts of a reachable chain

The program takes the bump of an address from the instruction and stores it, and accepts every bump that derives
the address. The SDK accepts the canonical one only, which `find_program_address` returns. Everything else that
the SDK checks of an account of the program holds in every sound state, so the bump alone decides
(`World.Reached.decodable`).
-/

namespace SolanaGacha

open Except Layout

/-! ## The first byte -/

/-- The version that is decoded is the first byte. -/
theorem getElem?_zero_of_decode {data : List UInt8} {version : UInt8} (hlen : 0 < data.length)
    (hversion : u8.decode data = version) : data[0]? = some version := by
  obtain ⟨b, bytes, rfl⟩ := List.exists_cons_of_length_pos hlen
  exact congrArg some hversion

/-! ## Accounts -/

namespace World.Sound

variable {rt : Runtime} {w : World} (hw : w.Sound rt)

include hw

/-- A Pull belongs to an open pool, whose invariants it keeps. -/
theorem pull_valid {k : Pubkey} {pull : Pull} (hpull : w.ledger k = .pull pull) :
    pull.Valid rt pull.pool k := by
  obtain ⟨m, hm⟩ := hw.banner pull.pool
  have hbanner := Ledger.banner_pulls.mpr ⟨hpull, rfl⟩
  cases hm with
  | empty hpool hitems hpulls =>
    rw [hpulls] at hbanner
    cases hbanner
  | opened hm => exact hm.pull hbanner

/-- An Item is of a tier that the layout has. -/
theorem item_tier {k : Pubkey} {item : Item} (hitem : w.ledger k = .item item) : item.tier.toNat < 8 := by
  obtain ⟨m, hm⟩ := hw.banner item.pool
  have hbanner := Ledger.banner_items.mpr ⟨hitem, rfl⟩
  cases hm with
  | empty hpool hitems hpulls =>
    rw [hitems] at hbanner
    cases hbanner
  | opened hm => exact (hm.shelved.item hbanner).2.1

theorem pull_accepted {k : Pubkey} {pull : Pull} (hpull : w.ledger k = .pull pull)
    (hcanonical : rt.findProgramAddress [pullSeed, pull.pool.val, pull.clientSeed.val] programId =
      some (k, pull.bump)) :
    GachaRust.PullAccepted rt k (w.accounts k).owner (w.accounts k).data pull := by
  obtain ⟨howner, hdecode, hversion, hlen⟩ := Pull.load_eq_ok.mp (Account.entry_eq_pull.mp hpull)
  have hvalid := hw.pull_valid hpull
  constructor
  case owner => exact howner
  case length => exact hlen
  case version =>
    apply getElem?_zero_of_decode (by rw [hlen]; decide)
    rw [← hversion, ← hdecode]
    rfl
  case status => exact hvalid.status
  case count => exact hvalid.count
  case derived => exact hcanonical
  case outcomes =>
    intro hstatus outcome hmem
    -- There are two values of the status.
    have hsettled : pull.status = statusSettled := by
      have hle := UInt8.le_iff_toNat_le.mp hvalid.status
      have hne : pull.status.toNat ≠ 0 := fun hzero => hstatus (UInt8.toNat_inj.mp hzero)
      apply UInt8.toNat_inj.mp
      change pull.status.toNat ≤ 1 at hle
      show pull.status.toNat = 1
      omega
    obtain ⟨i, hi⟩ := List.mem_iff_getElem?.mp hmem
    rw [List.getElem?_take] at hi
    split_ifs at hi with hlt
    exact hvalid.outcomes hsettled i outcome hlt (by rw [← Vector.getElem?_toList]; exact hi)

theorem item_accepted {k : Pubkey} {item : Item} (hitem : w.ledger k = .item item)
    (hcanonical : rt.findProgramAddress [itemSeed, item.pool.val, [item.tier], u32.encode item.position]
      programId = some (k, item.bump)) :
    GachaRust.ItemAccepted rt k (w.accounts k).owner (w.accounts k).data item := by
  obtain ⟨howner, hdecode, hversion, hlen⟩ := Item.load_eq_ok.mp (Account.entry_eq_item.mp hitem)
  constructor
  case owner => exact howner
  case length => exact hlen
  case version =>
    apply getElem?_zero_of_decode (by rw [hlen]; decide)
    rw [← hversion, ← hdecode]
    rfl
  case tier => exact hw.item_tier hitem
  case derived => exact hcanonical

theorem pool_accepted {P : Pubkey} {pool : Pool} {index : List UInt8} (hpool : w.ledger P = .pool pool index)
    (hcanonical : rt.findProgramAddress [poolSeed, pool.authority.val, u64.encode pool.id] programId =
      some (P, pool.bump)) :
    GachaRust.PoolAccepted rt P (w.accounts P).owner (w.accounts P).data pool := by
  obtain ⟨hload, hindex⟩ := Account.entry_eq_pool.mp hpool
  obtain ⟨howner, hdecode, hversion, hlen⟩ := Pool.load_eq_ok.mp hload
  obtain ⟨m, hm⟩ := hw.opened hpool
  have hlength : poolLen ≤ (w.accounts P).data.length := by
    rw [hlen]
    exact Nat.le_add_right _ _
  constructor
  case owner => exact howner
  case length => exact hlength
  case version =>
    apply getElem?_zero_of_decode (lt_of_lt_of_le (by decide) hlength)
    rw [← hversion, ← hdecode]
    rfl
  case tierCount => exact hm.valid.tierCount
  case status => exact hm.valid.status
  case complete => exact .inr hlen
  case derived => exact hcanonical
  case vault => exact hm.valid.vault
  case price => exact hm.valid.price
  case bondPerDraw => exact hm.valid.bondPerDraw
  case deadlineSlots => exact hm.valid.deadlineSlots
  case refund => exact hm.valid.refund
  case weights => exact hm.valid.weights
  case tags =>
    intro _
    rw [hindex, hm.tags_eq]
    exact ⟨hm.stock.tier, fun t ht _ => hm.stock.remaining t ht⟩

end World.Sound

namespace World

variable {rt : Runtime} {w : World}

/-- In every reachable state, for every live account of the program: the SDK accepts it exactly when its bump is
the one that `find_program_address` returns for its seeds, and an Item is where the SDK looks for it exactly
then. -/
theorem Reached.decodable (hrt : rt.Lawful) (hw : w.Reached rt) :
    (∀ P pool index, w.ledger P = .pool pool index →
      ((∃ snapshot, GachaRust.Pool.fromAccount rt P (w.accounts P).owner (w.accounts P).data = .ok snapshot) ↔
        rt.findProgramAddress [poolSeed, pool.authority.val, u64.encode pool.id] programId =
          some (P, pool.bump))) ∧
    (∀ k pull, w.ledger k = .pull pull →
      ((∃ snapshot, GachaRust.Pull.fromAccount rt k (w.accounts k).owner (w.accounts k).data = .ok snapshot) ↔
        rt.findProgramAddress [pullSeed, pull.pool.val, pull.clientSeed.val] programId =
          some (k, pull.bump))) ∧
    ∀ k item, w.ledger k = .item item →
      ((∃ snapshot, GachaRust.Item.fromAccount rt k (w.accounts k).owner (w.accounts k).data = .ok snapshot) ↔
        rt.findProgramAddress [itemSeed, item.pool.val, [item.tier], u32.encode item.position] programId =
          some (k, item.bump)) ∧
      (GachaRust.Item.addressFor rt item.pool item.tier item.position = .ok (k, item.bump) ↔
        rt.findProgramAddress [itemSeed, item.pool.val, [item.tier], u32.encode item.position] programId =
          some (k, item.bump)) := by
  have hsound := hw.sound hrt
  refine ⟨fun P pool index hpool => ?_, fun k pull hpull => ?_, fun k item hitem => ⟨?_, ?_⟩⟩
  · obtain ⟨-, hdecode, -, -⟩ := Pool.load_eq_ok.mp (Account.entry_eq_pool.mp hpool).1
    constructor
    · rintro ⟨snapshot, hsnapshot⟩
      have haccepted := (GachaRust.Pool.fromAccount_eq_ok.mp hsnapshot).1
      rw [hdecode] at haccepted
      exact haccepted.derived
    · intro hcanonical
      refine ⟨_, GachaRust.Pool.fromAccount_eq_ok.mpr ⟨?_, rfl⟩⟩
      rw [hdecode]
      exact hsound.pool_accepted hpool hcanonical
  · obtain ⟨-, hdecode, -, -⟩ := Pull.load_eq_ok.mp (Account.entry_eq_pull.mp hpull)
    constructor
    · rintro ⟨snapshot, hsnapshot⟩
      have haccepted := (GachaRust.Pull.fromAccount_eq_ok.mp hsnapshot).1
      rw [hdecode] at haccepted
      exact haccepted.derived
    · intro hcanonical
      refine ⟨_, GachaRust.Pull.fromAccount_eq_ok.mpr ⟨?_, rfl⟩⟩
      rw [hdecode]
      exact hsound.pull_accepted hpull hcanonical
  · obtain ⟨-, hdecode, -, -⟩ := Item.load_eq_ok.mp (Account.entry_eq_item.mp hitem)
    constructor
    · rintro ⟨snapshot, hsnapshot⟩
      have haccepted := (GachaRust.Item.fromAccount_eq_ok.mp hsnapshot).1
      rw [hdecode] at haccepted
      exact haccepted.derived
    · intro hcanonical
      refine ⟨_, GachaRust.Item.fromAccount_eq_ok.mpr ⟨?_, rfl⟩⟩
      rw [hdecode]
      exact hsound.item_accepted hitem hcanonical
  · exact GachaRust.findProgramAddress_eq_ok

/-- The sample purchase was made at the canonical address. -/
theorem Reached.decodable_sample : ∃ pull, Sample.bought.ledger Sample.pull = .pull pull ∧
    Sample.net.runtime.findProgramAddress [pullSeed, pull.pool.val, pull.clientSeed.val] programId =
      some (Sample.pull, pull.bump) ∧
    ∃ snapshot, GachaRust.Pull.fromAccount Sample.net.runtime Sample.pull
      (Sample.bought.accounts Sample.pull).owner (Sample.bought.accounts Sample.pull).data = .ok snapshot := by
  obtain ⟨pull, hpull, hcanonical⟩ := Sample.exists_pull (e := Sample.bought.ledger Sample.pull)
    (p := fun pull => Sample.net.runtime.findProgramAddress [pullSeed, pull.pool.val, pull.clientSeed.val]
      programId = some (Sample.pull, pull.bump)) (by decide +kernel)
  have hreached := Sample.bought_reached
  generalize Sample.bought = w at *
  simp only [decide_eq_true_eq] at hcanonical
  obtain ⟨-, hpulls, -⟩ := World.Reached.decodable Sample.net.runtime_lawful hreached
  exact ⟨pull, hpull, hcanonical, (hpulls Sample.pull pull hpull).mpr hcanonical⟩

end World

/-! ## A purchase with another bump -/

namespace Sample

/-- The address of the same purchase with the next bump. -/
def pull₂ : Pubkey := hex 32 0x75d90aba707b431f1dfb86e814d896ff27dc904cbaeaff1bbfd5c36749735a37

/-- Two bumps derive addresses for the purchase. -/
def forked : Localnet where
  addresses := net.addresses ++ [(([pullSeed, pool.val, clientSeed.val, [254]], programId), pull₂)]
  hashes := net.hashes
  proofs := net.proofs
  signatures := net.signatures
  eventAuthority_known := by decide +kernel

/-- A purchase with the lower bump. -/
def buy₂ : Instruction := instruction
  [(buyer, true, true), (pool, false, true), (pull₂, false, true), (buyerAta, false, true),
   (vault, false, true), (tokenId, false, false), (systemId, false, false)]
  (10 :: 1 :: clientSeed.val ++ u32.encode 2 ++ [254])

/-- An open pool with two items, and that purchase. -/
def forkedRun : List Instruction :=
  [createPool, depositItem item₀ asset₀ 253, depositItem item₁ asset₁ 251, setStatus 1, buy₂]

/-- Whether there is a live Pull at the address, which the SDK does not accept. -/
def rejects (rt : Runtime) (k : Pubkey) (w : World) : Bool :=
  (match w.ledger k with
    | .pull _ => true
    | _ => false) &&
  match GachaRust.Pull.fromAccount rt k (w.accounts k).owner (w.accounts k).data with
    | .ok _ => false
    | .error _ => true

end Sample

/-- A chain on which the SDK does not accept a live Pull: its buyer chose the lower of two bumps. -/
theorem World.Reached.undecodable : ∃ rt w k pull, Runtime.Lawful rt ∧ World.Reached rt w ∧
    w.ledger k = .pull pull ∧
    ¬∃ snapshot, GachaRust.Pull.fromAccount rt k (w.accounts k).owner (w.accounts k).data = .ok snapshot := by
  obtain ⟨w, hreached, hrejects⟩ := Sample.exists_reached Sample.forked Sample.known 5 0
    Sample.forkedRun (Sample.rejects Sample.forked.runtime Sample.pull₂) (by decide +kernel) (by decide +kernel)
    (by decide +kernel)
  obtain ⟨hlive, herror⟩ := Bool.and_eq_true_iff.mp hrejects
  obtain ⟨pull, hpull, -⟩ := Sample.exists_pull (e := w.ledger Sample.pull₂) (p := fun _ => true) hlive
  refine ⟨Sample.forked.runtime, w, Sample.pull₂, pull, Sample.forked.runtime_lawful, hreached, hpull, ?_⟩
  rintro ⟨snapshot, hsnapshot⟩
  rw [hsnapshot] at herror
  cases herror

end SolanaGacha
