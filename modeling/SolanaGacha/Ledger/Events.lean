import SolanaGacha.Ledger.OperatorEffects

/-!
# The events of the instructions

`EmittedEvent` are the structs of `events.rs` and `EmittedEvent.encode` is their wire layout. An instruction that
succeeds emits one event and its calls of other programs emit none (`Call.process_emits`); what the event
says is read off the ledgers before and after it (`Call.Emits`). Every field but the last has a fixed
width, so the bytes of an event tell which event it is (`EmittedEvent.encode_injective`).
-/

namespace SolanaGacha

open Except Layout

/-! ## Wire layout -/

/-- One event for each instruction. -/
inductive EmittedEvent
  | createPool (pool : Pubkey)
  | depositItem (pool asset : Pubkey) (tier : UInt8) (position : UInt32)
  | withdraw (pool : Pubkey) (amount : UInt64)
  | setStatus (pool : Pubkey) (status : UInt8)
  | reclaim (pool asset : Pubkey) (position : UInt32)
  | buy (pool pull buyer : Pubkey) (index : UInt64) (count : UInt8)
  | refund (pool pull : Pubkey) (amount : UInt64)
  | buyback (pool asset seller : Pubkey) (price : UInt64) (position : UInt32)
  /-- The outcomes are packed as stored in the Pull. -/
  | settle (pool pull : Pubkey) (alpha : FixedBytes 32) (proof : FixedBytes 80) (beta : FixedBytes 64)
      (outcomes : List Outcome)
  | deliver (pull asset : Pubkey) (outcome : UInt8)
  deriving DecidableEq

namespace EmittedEvent

/-- The discriminator of the instruction that emits the event. -/
def discriminator : EmittedEvent → UInt8
  | createPool _ => 0
  | depositItem _ _ _ _ => 1
  | withdraw _ _ => 2
  | setStatus _ _ => 3
  | reclaim _ _ _ => 4
  | buy _ _ _ _ _ => 10
  | refund _ _ _ => 11
  | buyback _ _ _ _ _ => 12
  | settle _ _ _ _ _ _ => 20
  | deliver _ _ _ => 21

/-- The fields in wire order. -/
def fields : EmittedEvent → List (List UInt8)
  | createPool pool => [pool.val]
  | depositItem pool asset tier position => [pool.val, asset.val, [tier], u32.encode position]
  | withdraw pool amount => [pool.val, u64.encode amount]
  | setStatus pool status => [pool.val, [status]]
  | reclaim pool asset position => [pool.val, asset.val, u32.encode position]
  | buy pool pull buyer index count => [pool.val, pull.val, buyer.val, u64.encode index, [count]]
  | refund pool pull amount => [pool.val, pull.val, u64.encode amount]
  | buyback pool asset seller price position =>
    [pool.val, asset.val, seller.val, u64.encode price, u32.encode position]
  | settle pool pull alpha proof beta outcomes =>
    [pool.val, pull.val, alpha.val, proof.val, beta.val, outcomes.flatMap Outcome.layout.encode]
  | deliver pull asset outcome => [pull.val, asset.val, [outcome]]

/-- The data of the event instruction. -/
def encode (e : EmittedEvent) : List UInt8 := eventDiscriminator :: e.discriminator :: e.fields.flatten

/-- A field of a fixed width ends where the next one starts. -/
theorem field_inj {n : ℕ} {a b : FixedBytes n} {xs ys : List UInt8} :
    a.val ++ xs = b.val ++ ys ↔ a = b ∧ xs = ys := by
  constructor
  · intro h
    obtain ⟨hval, hrest⟩ := List.append_inj h (by rw [a.property, b.property])
    exact ⟨Subtype.ext hval, hrest⟩
  · rintro ⟨rfl, rfl⟩
    rfl

theorem word_inj {α : Type} (l : Layout α) {a b : α} {xs ys : List UInt8} :
    l.encode a ++ xs = l.encode b ++ ys ↔ a = b ∧ xs = ys := by
  constructor
  · intro h
    obtain ⟨henc, hrest⟩ := List.append_inj h (by rw [l.encode_length, l.encode_length])
    exact ⟨l.encode_injective henc, hrest⟩
  · rintro ⟨rfl, rfl⟩
    rfl

/-- The number of outcomes shows in the length of their bytes. -/
theorem outcomes_inj {os os' : List Outcome}
    (h : os.flatMap Outcome.layout.encode = os'.flatMap Outcome.layout.encode) : os = os' := by
  induction os generalizing os' with
  | nil =>
    cases os' with
    | nil => rfl
    | cons o os' =>
      have hlen := congrArg List.length h
      rw [List.flatMap_cons, List.length_append, Outcome.layout.encode_length] at hlen
      exact absurd hlen (by show 0 ≠ 33 + _; omega)
  | cons o os ih =>
    cases os' with
    | nil =>
      have hlen := congrArg List.length h
      rw [List.flatMap_cons, List.length_append, Outcome.layout.encode_length] at hlen
      exact absurd hlen (by show 33 + _ ≠ 0; omega)
    | cons o' os' =>
      rw [List.flatMap_cons, List.flatMap_cons, word_inj] at h
      rw [h.1, ih h.2]

/-- The bytes of an event tell which event it is. -/
theorem encode_injective : Function.Injective encode := by
  intro e e' h
  unfold encode at h
  obtain ⟨hdisc, hfields⟩ := List.cons.inj (List.cons.inj h).2
  -- Events of two instructions differ in their discriminators.
  cases e <;> cases e' <;> try exact absurd hdisc (by simp only [discriminator]; decide)
  all_goals
    simp only [fields, List.flatten_cons, List.flatten_nil, List.singleton_append, List.cons.injEq,
      field_inj, word_inj, and_true] at hfields
  case settle.settle =>
    obtain ⟨rfl, rfl, rfl, rfl, rfl, houtcomes⟩ := hfields
    rw [outcomes_inj (List.append_cancel_right houtcomes)]
  all_goals simp only [hfields]

end EmittedEvent

/-! ## Emission -/

/-- The event of a call that takes one ledger to another. -/
def Call.Emits (rt : Runtime) (L L' : Ledger) : Call → EmittedEvent → Prop
  | .createPool a _, e => e = .createPool a.pool.key
  | .depositItem a d, e => ∃ pool index, L a.pool.key = .pool pool index ∧
      e = .depositItem a.pool.key a.asset.key d.tier pool.inventoryVersion
  | .withdraw a d, e => e = .withdraw a.pool.key d.amount
  | .setStatus a d, e => e = .setStatus a.pool.key d.status
  | .reclaim a, e => ∃ item, L a.item.key = .item item ∧
      e = .reclaim a.pool.key a.asset.key item.position
  | .buy a d, e => ∃ pool index, L a.pool.key = .pool pool index ∧
      e = .buy a.pool.key a.pull.key a.buyer.key pool.nextIndex d.count
  | .refund a, e => ∃ pool index pull amount, L a.pool.key = .pool pool index ∧
      L a.pull.key = .pull pull ∧ pool.refundAmount pull.count.toUInt64 = .ok amount ∧
        e = .refund a.pool.key a.pull.key amount
  | .buyback a d, e => ∃ pool index, L a.pool.key = .pool pool index ∧
      e = .buyback a.pool.key a.asset.key a.seller.key d.price pool.inventoryVersion
  | .settle a d, e => ∃ pool index pull pull' beta, L a.pool.key = .pool pool index ∧
      L a.pull.key = .pull pull ∧ L' a.pull.key = .pull pull' ∧
        rt.verifyProof pool.operator (rt.sha256 (a.pull.key.val ++ pull.clientSeed.val)) d.proof = some beta ∧
          e = .settle a.pool.key a.pull.key (rt.sha256 (a.pull.key.val ++ pull.clientSeed.val)) d.proof beta
            (pull'.outcomes.toList.take a.items.length)
  | .deliver a d, e => e = .deliver a.pull.key a.asset.key d.outcome
  | .event, _ => False

section Emission

variable {rt : Runtime} {w w' : World}

namespace Runtime

theorem invokeSigned_events {metas : List AccountMeta} {signers : List (List (List UInt8))}
    {call : Accounts → Option Accounts} (h : rt.invokeSigned w metas signers call = .ok w') :
    w'.events = w.events := by
  obtain ⟨-, accounts, -, rfl⟩ := invokeSigned_eq_ok.mp h
  rfl

theorem fund_events {payer account : AccountInfo} {missing : ℕ}
    (h : rt.fund w payer account missing = .ok w') : w'.events = w.events := by
  unfold fund at h
  split_ifs at h with hmissing
  · exact invokeSigned_events h
  · rw [Except.ok.inj h]

theorem createPda_events {payer account : AccountInfo} {space : ℕ} {seeds : List (List UInt8)}
    (h : rt.createPda w payer account space seeds = .ok w') : w'.events = w.events := by
  unfold createPda at h
  simp only at h
  split_ifs at h with hempty
  · exact invokeSigned_events h
  · simp only [bind_eq_ok] at h
    obtain ⟨funded, hfund, allocated, hallocate, hassign⟩ := h
    rw [invokeSigned_events hassign, invokeSigned_events hallocate, fund_events hfund]

theorem pay_events {pool vault destination : AccountInfo} {amount : UInt64}
    (h : rt.pay w pool vault destination amount = .ok w') : w'.events = w.events := by
  obtain ⟨header, -, htransfer⟩ := bind_eq_ok.mp h
  exact invokeSigned_events htransfer

theorem growIndex_events {payer pool : AccountInfo} {positions : UInt32}
    (h : rt.growIndex w payer pool positions = .ok w') : w'.events = w.events := by
  unfold growIndex at h
  simp only at h
  split_ifs at h with hspace
  · simp only [bind_eq_ok, pure_eq_ok] at h
    obtain ⟨funded, hfund, rfl⟩ := h
    show funded.events = _
    exact fund_events hfund
  · rw [pure_eq_ok.mp h]

theorem restock_events {payer pool item : AccountInfo} {asset : Pubkey} {tier bump : UInt8}
    (h : rt.restock w payer pool item asset tier bump = .ok w') : w'.events = w.events := by
  simp only [restock, bind_eq_ok, pure_eq_ok, Prod.exists] at h
  obtain ⟨header, -, positions, -, grown, hgrow, created, hcreate, new, -, header', -, inventory, -, _,
    inventory', -, header'', -, rfl⟩ := h
  show created.events = _
  rw [createPda_events hcreate, growIndex_events hgrow]
  rfl

theorem emit_events (e : EmittedEvent) {size : ℕ} {authority program : AccountInfo}
    (h : rt.emit w size e.discriminator e.fields authority program = .ok w') :
    w'.events = w.events ++ [e.encode] := by
  simp only [emit, eventData, bind_eq_ok, failIf_eq_ok, pure_eq_ok] at h
  obtain ⟨data, ⟨-, -, rfl⟩, -, -, -, -, -, -, rfl⟩ := h
  rfl

end Runtime

/-- The view of an account that was just stored. -/
theorem Pull.load_store {key : Pubkey} {pull pull' : Pull}
    (h : (w.store Pull.layout key pull).ledger key = .pull pull') : pull' = pull := by
  obtain ⟨-, hdecode, -, -⟩ := Pull.load_eq_ok.mp (Account.entry_eq_pull.mp h)
  rw [← hdecode]
  show Pull.layout.decode (Accounts.setData _ _ _ key).data = pull
  rw [Accounts.setData_self]
  exact Pull.layout.decode_append _ _

/-- Every instruction but the event instruction emits its event, and nothing else. -/
theorem Call.process_emits {call : Call} {slot : UInt64} {time : Int64} (hcall : call ≠ .event)
    (heffect : call.Effect rt slot time w.ledger w'.ledger) (h : call.process rt w = .ok w') :
    ∃ e, call.Emits rt w.ledger w'.ledger e ∧ w'.events = w.events ++ [e.encode] := by
  cases call with
  | createPool a d =>
    simp only [process, CreatePool.process, bind_eq_ok] at h
    obtain ⟨key, -, _, -, vault, -, _, -, created, hcreate, new, -, hemit⟩ := h
    refine ⟨_, rfl, (Runtime.emit_events (.createPool a.pool.key) hemit).trans ?_⟩
    rw [← Runtime.createPda_events hcreate]
    rfl
  | depositItem a d =>
    simp only [process, DepositItem.process, bind_eq_ok, checkRestock_eq_ok] at h
    obtain ⟨pool, hload, _, ⟨-, -, -, rfl⟩, stocked, hrestock, moved, htransfer, hemit⟩ := h
    refine ⟨_, ⟨pool, _, World.pool_load hload, rfl⟩, (Runtime.emit_events
      (.depositItem a.pool.key a.asset.key d.tier pool.inventoryVersion) hemit).trans ?_⟩
    rw [Runtime.invokeSigned_events htransfer, Runtime.restock_events hrestock]
  | withdraw a d =>
    simp only [process, Withdraw.process, bind_eq_ok] at h
    obtain ⟨pool, -, free, -, _, -, paid, hpay, hemit⟩ := h
    refine ⟨_, rfl, (Runtime.emit_events (.withdraw a.pool.key d.amount) hemit).trans ?_⟩
    rw [Runtime.pay_events hpay]
  | setStatus a d =>
    simp only [process, SetStatus.process, bind_eq_ok] at h
    obtain ⟨pool, -, _, -, hemit⟩ := h
    exact ⟨_, rfl, (Runtime.emit_events (.setStatus a.pool.key d.status) hemit).trans rfl⟩
  | reclaim a =>
    simp only [process, Reclaim.process, bind_eq_ok, Prod.exists] at h
    obtain ⟨item, hitem, pool, -, inventory, -, _, inventory', -, pool', -, moved, htransfer, accounts, -,
      hemit⟩ := h
    refine ⟨_, ⟨item, World.item_load hitem, rfl⟩,
      (Runtime.emit_events (.reclaim a.pool.key a.asset.key item.position) hemit).trans ?_⟩
    show moved.events ++ _ = _
    rw [Runtime.invokeSigned_events htransfer]
    rfl
  | buy a d =>
    simp only [process, Buy.process, bind_eq_ok, Prod.exists] at h
    obtain ⟨key, -, _, -, pool, hload, draws, amount, -, created, hcreate, new, -, deadline, -, next, -,
      paid, htransfer, hemit⟩ := h
    refine ⟨_, ⟨pool, _, World.pool_load hload, rfl⟩, (Runtime.emit_events
      (.buy a.pool.key a.pull.key a.buyer.key pool.nextIndex d.count) hemit).trans ?_⟩
    rw [Runtime.invokeSigned_events htransfer, ← Runtime.createPda_events hcreate]
    rfl
  | refund a =>
    simp only [process, Refund.process, bind_eq_ok] at h
    obtain ⟨pool, hload, pull, hpull, amount, hamount, draws, -, next, -, paid, htransfer, accounts, -,
      hemit⟩ := h
    refine ⟨_, ⟨pool, _, pull, amount, World.pool_load hload, World.pull_load hpull, hamount, rfl⟩,
      (Runtime.emit_events (.refund a.pool.key a.pull.key amount) hemit).trans ?_⟩
    show paid.events ++ _ = _
    rw [Runtime.invokeSigned_events htransfer]
    rfl
  | buyback a d =>
    simp only [process, Buyback.process, bind_eq_ok, checkRestock_eq_ok] at h
    obtain ⟨pool, hload, _, -, _, -, free, -, _, -, _, ⟨-, -, -, rfl⟩, moved, htransfer, stocked, hrestock,
      paid, hpay, hemit⟩ := h
    refine ⟨_, ⟨pool, _, World.pool_load hload, rfl⟩, (Runtime.emit_events
      (.buyback a.pool.key a.asset.key a.seller.key d.price pool.inventoryVersion) hemit).trans ?_⟩
    rw [Runtime.pay_events hpay, Runtime.restock_events hrestock, Runtime.invokeSigned_events htransfer]
  | settle a d =>
    obtain ⟨_, _, _, _, awards, heffect⟩ := heffect
    obtain ⟨tiers, index', pendingDraws, nextSettle, -, -, -, -, hledger⟩ := heffect.ledger
    simp only [process, Settle.process, Pull.outcomeBytes, bind_eq_ok, okOr_eq_ok, pure_eq_ok] at h
    obtain ⟨pool, hload, inventory, -, pull, hpull, beta, hproof, s, -, draws, -, next, -, _, ⟨-, -, rfl⟩,
      hemit⟩ := h
    -- The outcomes of the event are those of the Pull that was stored last.
    have hstored := congrFun hledger a.pull.key
    rw [Function.update_self] at hstored
    have hsame := hstored
    rw [(Runtime.emit_ok hemit).2] at hsame
    have houtcomes := congrArg Pull.outcomes (Pull.load_store hsame)
    refine ⟨_, ⟨pool, _, pull, _, beta, World.pool_load hload, World.pull_load hpull, hstored, hproof, rfl⟩,
      (Runtime.emit_events (.settle a.pool.key a.pull.key (rt.sha256 (a.pull.key.val ++ pull.clientSeed.val)) d.proof
        beta (s.pull.outcomes.toList.take a.items.length)) hemit).trans ?_⟩
    rw [houtcomes]
    rfl
  | deliver a d =>
    simp only [process, Deliver.process, bind_eq_ok] at h
    obtain ⟨pull, -, _, -, outcome, -, _, -, _, -, pool, -, moved, htransfer, marked, -, all, -, accounts, -,
      hemit⟩ := h
    refine ⟨_, rfl, (Runtime.emit_events (.deliver a.pull.key a.asset.key d.outcome) hemit).trans ?_⟩
    show moved.events ++ _ = _
    rw [Runtime.invokeSigned_events htransfer]
  | event => exact absurd rfl hcall

end Emission

end SolanaGacha
