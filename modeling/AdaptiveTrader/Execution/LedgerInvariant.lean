import AdaptiveTrader.Execution.BrokerUpdates

/-!
# The durable order ledger

`Consistent` is the invariant of the ledger: every order stands at the head of its own event
history, its cumulative fill and average price are those of its recorded fills, and no broker event,
execution ID or broker order ID belongs to two orders. `LedgerEffect` lists what one operation can
do to a ledger when its audit evidence can be built, and each effect keeps the invariant.

The loop over the reported fills records the first fill of an execution ID, while the checks before
it count the last one. Two different fills under one execution ID in one update therefore break the
invariant (`invariant_broken_by_repeated_id`), and nothing else does (`ledger_invariant`).
-/

set_option autoImplicit false

namespace AdaptiveTrader

open Foundation

/-! ## Histories -/

/-- Order states connected by events; an event carries a permitted transition. -/
def orderTransitions : Transition OrderState OrderEvent where
  init state := state = .intentCommitted
  step previous event current := event.fromState = previous ∧ event.toState = current ∧
    transitionIsPermitted previous current = true

namespace MemoryExecutionRepository

/-- One order's events in sequence order. -/
def eventsForOrder (repo : MemoryExecutionRepository) (clientOrderId : String) : List OrderEvent :=
  sortedBy (·.sequence) (repo.orderEventTable.values.filter fun e => e.clientOrderId = clientOrderId)

/-- An order, its history and its fills agree. -/
structure OrderLedger (repo : MemoryExecutionRepository) (intent : OrderIntent)
    (order : BrokerOrder) : Prop where
  path : orderTransitions.Run .intentCommitted (repo.eventsForOrder order.clientOrderId) order.state
  numbered : (repo.eventsForOrder order.clientOrderId).map (·.sequence) =
    List.range' 1 (repo.eventsForOrder order.clientOrderId).length
  atHead : order.lastEventSequence = (repo.eventsForOrder order.clientOrderId).length
  version : order.version = (repo.eventsForOrder order.clientOrderId).length + 1
  evidence : verifyFillEvidence intent order (repo.fillsForOrder order.clientOrderId)
    order.cumulativeFilledQuantity order.averageFillPrice order.updatedAt = .ok ()
  filled_le : order.cumulativeFilledQuantity ≤ intent.quantity
  complete : order.state = .filled → order.cumulativeFilledQuantity = intent.quantity

variable [ContentHasher]

/-- The invariant of the ledger. -/
structure Consistent (repo : MemoryExecutionRepository) : Prop extends WellFormed repo where
  event_key : ∀ k e, repo.orderEventTable.get? k = some e → e.orderEventId = k
  event_order : ∀ k e, repo.orderEventTable.get? k = some e →
    ∃ o, repo.orderTable.get? e.clientOrderId = some o
  event_owner : ∀ k e id, repo.orderEventTable.get? k = some e → e.brokerEventId = some id →
    repo.brokerEventOwners.get? id = some e.clientOrderId
  owner_event : ∀ id owner, repo.brokerEventOwners.get? id = some owner →
    ∃ k e, repo.orderEventTable.get? k = some e ∧ e.brokerEventId = some id ∧
      e.clientOrderId = owner
  fill_key : ∀ k f, repo.fillTable.get? k = some f → f.brokerExecutionId = k
  fill_order : ∀ k f, repo.fillTable.get? k = some f →
    ∃ o, repo.orderTable.get? f.clientOrderId = some o
  brokerOrderId_unique : ∀ k₁ k₂ o₁ o₂ id, repo.orderTable.get? k₁ = some o₁ →
    repo.orderTable.get? k₂ = some o₂ → o₁.brokerOrderId = some id → o₂.brokerOrderId = some id →
      k₁ = k₂
  orders : ∀ k o i, repo.orderTable.get? k = some o → repo.intentTable.get? k = some i →
    OrderLedger repo i o

variable {repo repo' : MemoryExecutionRepository}

theorem Consistent.empty : Consistent {} where
  toWellFormed := WellFormed.empty
  event_key _ _ h := by cases h
  event_order _ _ h := by cases h
  event_owner _ _ _ h := by cases h
  owner_event _ _ h := by cases h
  fill_key _ _ h := by cases h
  fill_order _ _ h := by cases h
  brokerOrderId_unique _ _ _ _ _ h := by cases h
  orders _ _ _ h := by cases h

/-! ## Events and fills of one order -/

omit [ContentHasher] in
theorem mem_eventsForOrder {k : String} {e : OrderEvent} :
    e ∈ repo.eventsForOrder k ↔
      (∃ id, repo.orderEventTable.get? id = some e) ∧ e.clientOrderId = k := by
  rw [eventsForOrder, mem_sortedBy, List.mem_filter, Dict.mem_values_iff, decide_eq_true_eq]

omit [ContentHasher] in
theorem mem_fillsForOrder {k : String} {f : Fill} :
    f ∈ repo.fillsForOrder k ↔
      (∃ id, repo.fillTable.get? id = some f) ∧ f.clientOrderId = k := by
  rw [fillsForOrder, mem_sortedBy, List.mem_filter, Dict.mem_values_iff, decide_eq_true_eq]

/-- The recorded fills of an order are distinct executions. -/
theorem Consistent.nodup_fillsForOrder (h : Consistent repo) (k : String) :
    ((repo.fillsForOrder k).map (·.brokerExecutionId)).Nodup := by
  refine ((sortedBy_perm _ _).map _).nodup_iff.2 ?_
  exact (Dict.nodup_map_values h.fill_key).sublist (List.filter_sublist.map _)

omit [ContentHasher] in
/-- Evidence does not depend on the order of the fills. -/
theorem verifyFillEvidence_perm {intent : OrderIntent} {order : BrokerOrder} {l m : List Fill}
    (hp : l.Perm m) {cumulative : ℚ} {average : Option ℚ} {updateAt : Instant}
    (h : verifyFillEvidence intent order l cumulative average updateAt = .ok ()) :
    verifyFillEvidence intent order m cumulative average updateAt = .ok () := by
  obtain ⟨h₁, h₂, h₃, h₄⟩ := verifyFillEvidence_eq_ok.1 h
  refine verifyFillEvidence_eq_ok.2 ⟨fun hs => ?_, fun f hf => h₂ f (hp.mem_iff.2 hf), ?_, ?_⟩
  · have hl := h₁ hs
    rw [hl] at hp
    exact hp.nil_eq.symm
  · rw [← totalQuantity_perm hp, h₃]
  · rw [← meanPrice_perm hp, h₄]

omit [ContentHasher] in
/-- The ledger of an order depends on its own events and fills only. -/
theorem OrderLedger.congr {intent : OrderIntent} {order : BrokerOrder}
    (h : OrderLedger repo intent order)
    (hevents : repo'.eventsForOrder order.clientOrderId = repo.eventsForOrder order.clientOrderId)
    (hfills : (repo.fillsForOrder order.clientOrderId).Perm
      (repo'.fillsForOrder order.clientOrderId)) : OrderLedger repo' intent order := by
  obtain ⟨h₁, h₂, h₃, h₄, h₅, h₆, h₇⟩ := h
  constructor
  · rwa [hevents]
  · rwa [hevents]
  · rwa [hevents]
  · rwa [hevents]
  · exact verifyFillEvidence_perm hfills h₅
  · exact h₆
  · exact h₇

/-- Only the plan, intent, order, event and fill tables bear on the invariant. -/
theorem Consistent.congr (h : Consistent repo) (hplan : repo'.planTable = repo.planTable)
    (hintent : repo'.intentTable = repo.intentTable) (horder : repo'.orderTable = repo.orderTable)
    (hevent : repo'.orderEventTable = repo.orderEventTable)
    (howner : repo'.brokerEventOwners = repo.brokerEventOwners)
    (hfill : repo'.fillTable = repo.fillTable) : Consistent repo' where
  toWellFormed := h.toWellFormed.congr hplan hintent horder
  event_key := by simpa only [hevent] using h.event_key
  event_order := by simpa only [hevent, horder] using h.event_order
  event_owner := by simpa only [hevent, howner] using h.event_owner
  owner_event := by simpa only [hevent, howner] using h.owner_event
  fill_key := by simpa only [hfill] using h.fill_key
  fill_order := by simpa only [hfill, horder] using h.fill_order
  brokerOrderId_unique := by simpa only [horder] using h.brokerOrderId_unique
  orders k o i ho hi := by
    rw [horder] at ho
    rw [hintent] at hi
    refine (h.orders k o i ho hi).congr ?_ ?_
    · rw [eventsForOrder, hevent, eventsForOrder]
    · rw [fillsForOrder, fillsForOrder, hfill]

/-! ## A new plan -/

/-- An order without events and fills is a committed one. -/
theorem orderLedger_committed {intent : OrderIntent}
    (hevents : repo.eventsForOrder intent.clientOrderId = [])
    (hfills : repo.fillsForOrder intent.clientOrderId = []) :
    OrderLedger repo intent (BrokerOrder.committed intent) := by
  have hid : (BrokerOrder.committed intent).clientOrderId = intent.clientOrderId := rfl
  constructor
  · rw [hid, hevents]
    exact Transition.Run.refl
  · rw [hid, hevents]
    rfl
  · rw [hid, hevents]
    rfl
  · rw [hid, hevents]
    rfl
  · rw [hid, hfills]
    refine verifyFillEvidence_eq_ok.2 ⟨fun _ => rfl, fun f hf => absurd hf List.not_mem_nil, rfl, ?_⟩
    simp [meanPrice, totalQuantity, BrokerOrder.committed, BrokerOrder.committedFields]
  · exact intent.quantity_pos.le
  · intro hfilled
    have hstate : OrderState.intentCommitted = .filled := hfilled
    cases hstate

theorem Consistent.storePlan {plan : ExecutionPlan} {intents : List OrderIntent}
    {decision : RiskDecision} {audit : AuditEvent} (h : Consistent repo)
    (admitted : PlanAdmitted repo plan intents decision audit) :
    Consistent (repo.storePlan plan intents decision audit) := by
  have horders := admitted.get?_orderTable h.paired
  have hkept : ∀ k o, repo.orderTable.get? k = some o →
      (repo.storePlan plan intents decision audit).orderTable.get? k = some o :=
    fun k o ho => (horders k o).2 (Or.inr ho)
  have hnew : ∀ i ∈ intents, repo.orderTable.get? i.clientOrderId = none := by
    intro i hi
    by_contra hne
    obtain ⟨o, ho⟩ := Option.ne_none_iff_exists'.1 hne
    obtain ⟨j, hj⟩ := h.paired _ _ ho
    rw [(admitted.intentsFresh i hi).1] at hj
    cases hj
  have htables : (repo.storePlan plan intents decision audit).orderEventTable =
        repo.orderEventTable ∧
      (repo.storePlan plan intents decision audit).brokerEventOwners = repo.brokerEventOwners ∧
      (repo.storePlan plan intents decision audit).fillTable = repo.fillTable := by
    rw [storePlan_eq]
    exact ⟨rfl, rfl, rfl⟩
  obtain ⟨hevent, howner, hfill⟩ := htables
  have heventsFor : ∀ k, (repo.storePlan plan intents decision audit).eventsForOrder k =
      repo.eventsForOrder k := fun k => by rw [eventsForOrder, hevent, eventsForOrder]
  have hfillsFor : ∀ k, (repo.storePlan plan intents decision audit).fillsForOrder k =
      repo.fillsForOrder k := fun k => by rw [fillsForOrder, hfill, fillsForOrder]
  refine ⟨h.toWellFormed.storePlan admitted, ?_, ?_, ?_, ?_, ?_, ?_, ?_, ?_⟩
  · simpa only [hevent] using h.event_key
  · intro k e he
    rw [hevent] at he
    exact (h.event_order k e he).imp fun o => hkept _ o
  · simpa only [hevent, howner] using h.event_owner
  · simpa only [hevent, howner] using h.owner_event
  · simpa only [hfill] using h.fill_key
  · intro k f hf
    rw [hfill] at hf
    exact (h.fill_order k f hf).imp fun o => hkept _ o
  · intro k₁ k₂ o₁ o₂ id ho₁ ho₂ hid₁ hid₂
    rcases (horders k₁ o₁).1 ho₁ with ⟨i, -, rfl, -⟩ | ho₁
    · cases hid₁
    rcases (horders k₂ o₂).1 ho₂ with ⟨i, -, rfl, -⟩ | ho₂
    · cases hid₂
    exact h.brokerOrderId_unique k₁ k₂ o₁ o₂ id ho₁ ho₂ hid₁ hid₂
  · intro k o i ho hi
    rcases (horders k o).1 ho with ⟨j, hj, rfl, rfl⟩ | ho
    · have hsame : i = j := by
        have hget := admitted.get?_intentTable.2 (Or.inl ⟨hj, rfl⟩)
        rw [hi] at hget
        exact Option.some.inj hget
      subst hsame
      refine orderLedger_committed ?_ ?_
      · rw [heventsFor, List.eq_nil_iff_forall_not_mem]
        intro e he
        obtain ⟨⟨id, hid⟩, hk⟩ := mem_eventsForOrder.1 he
        obtain ⟨o, ho⟩ := h.event_order id e hid
        rw [hk, hnew i hj] at ho
        cases ho
      · rw [hfillsFor, List.eq_nil_iff_forall_not_mem]
        intro f hf
        obtain ⟨⟨id, hid⟩, hk⟩ := mem_fillsForOrder.1 hf
        obtain ⟨o, ho⟩ := h.fill_order id f hid
        rw [hk, hnew i hj] at ho
        cases ho
    · have hi' : repo.intentTable.get? k = some i := by
        rcases admitted.get?_intentTable.1 hi with ⟨hmem, rfl⟩ | hi
        · rw [hnew i hmem] at ho
          cases ho
        · exact hi
      exact (h.orders k o i ho hi').congr (heventsFor _) (by rw [hfillsFor])

/-! ## A transition of one order -/

section Transitions

variable {clientOrderId : String} {previous current : BrokerOrder} {change : OrderChange}
  {brokerEventId authorityHash : Option String} {event : OrderEvent} {audit : AuditEvent}

/-- The ledger after a transition, with the given fills and audit log. -/
def afterTransition (repo : MemoryExecutionRepository) (current : BrokerOrder) (event : OrderEvent)
    (audit : AuditEvent) (fills : Dict String Fill) (log : List AuditEvent) :
    MemoryExecutionRepository :=
  { repo.storeTransition current event audit with fillTable := fills, auditLog := log }

/-- What a transition's event says. -/
theorem TransitionAdmitted.event_facts (h : Consistent repo)
    (admitted : TransitionAdmitted repo clientOrderId previous change brokerEventId authorityHash
      current event audit) :
    event.clientOrderId = clientOrderId ∧ current.clientOrderId = clientOrderId ∧
      event.sequence = previous.lastEventSequence + 1 ∧ event.fromState = previous.state ∧
      event.toState = current.state ∧ event.brokerEventId = brokerEventId := by
  have hid : current.clientOrderId = clientOrderId :=
    admitted.evolves.clientOrderId.trans (h.order_key _ _ admitted.found)
  have hevent := admitted.event_eq
  refine ⟨?_, hid, ?_, ?_, ?_, ?_⟩ <;> rw [hevent]
  · exact hid
  · show current.lastEventSequence = _
    rw [admitted.evolves.fields]
    rfl
  · rfl
  · rfl
  · rfl

/-- The transition's event ends its order's history and leaves the other histories alone. -/
theorem TransitionAdmitted.eventsForOrder_after (h : Consistent repo)
    (admitted : TransitionAdmitted repo clientOrderId previous change brokerEventId authorityHash
      current event audit) {intent : OrderIntent} (hledger : OrderLedger repo intent previous)
    (fills : Dict String Fill) (log : List AuditEvent) (k : String) :
    (repo.afterTransition current event audit fills log).eventsForOrder k =
      if k = clientOrderId then repo.eventsForOrder k ++ [event] else repo.eventsForOrder k := by
  obtain ⟨hclient, -, hsequence, -⟩ := admitted.event_facts h
  have hprevious := h.order_key _ _ admitted.found
  show sortedBy _ ((repo.orderEventTable.set event.orderEventId event).values.filter _) = _
  rw [Dict.values_set_of_get?_none admitted.eventFresh, List.filter_append]
  split
  · next hk =>
      subst hk
      have hlast : [event].filter (fun e => decide (e.clientOrderId = k)) = [event] := by
        simp [hclient]
      rw [hlast]
      refine sortedBy_concat fun e he => ?_
      have hmem : e.sequence ∈ (repo.eventsForOrder k).map (·.sequence) :=
        List.mem_map_of_mem (mem_sortedBy.2 he)
      have hnumbered := hledger.numbered
      have hhead := hledger.atHead
      rw [hprevious] at hnumbered hhead
      rw [hnumbered, List.mem_range'_1, ← hhead] at hmem
      omega
  · next hk =>
      have hlast : [event].filter (fun e => decide (e.clientOrderId = k)) = [] := by
        simp [hclient, Ne.symm hk]
      rw [hlast, List.append_nil]
      rfl

/-- A transition keeps the invariant when the order's evidence is right afterwards. -/
theorem Consistent.afterTransition (h : Consistent repo)
    (admitted : TransitionAdmitted repo clientOrderId previous change brokerEventId authorityHash
      current event audit) {intent : OrderIntent}
    (hintent : repo.intentTable.get? clientOrderId = some intent) {fills : Dict String Fill}
    {log : List AuditEvent} (hkeys : ∀ k f, fills.get? k = some f → f.brokerExecutionId = k)
    (howners : ∀ k f, fills.get? k = some f →
      ∃ o, repo.orderTable.get? f.clientOrderId = some o)
    (hothers : ∀ k ≠ clientOrderId, (repo.fillsForOrder k).Perm
      ((repo.afterTransition current event audit fills log).fillsForOrder k))
    (hevidence : verifyFillEvidence intent current
      ((repo.afterTransition current event audit fills log).fillsForOrder clientOrderId)
      current.cumulativeFilledQuantity current.averageFillPrice current.updatedAt = .ok ())
    (hle : current.cumulativeFilledQuantity ≤ intent.quantity)
    (hcomplete : current.state = .filled → current.cumulativeFilledQuantity = intent.quantity)
    (hbroker : ∀ id, current.brokerOrderId = some id → ∀ k o, repo.orderTable.get? k = some o →
      o.brokerOrderId = some id → k = clientOrderId) :
    Consistent (repo.afterTransition current event audit fills log) := by
  have hledger := h.orders _ _ _ admitted.found hintent
  have hevents := admitted.eventsForOrder_after h hledger fills log
  have horders := admitted.get?_orderTable h.toWellFormed
  obtain ⟨hclient, hcurrent, -, hfrom, hto, hbrokerEvent⟩ := admitted.event_facts h
  have hkept : ∀ k, (∃ o, repo.orderTable.get? k = some o) →
      ∃ o, (repo.storeTransition current event audit).orderTable.get? k = some o := by
    rintro k ⟨o, ho⟩
    rw [horders]
    split
    · exact ⟨current, rfl⟩
    · exact ⟨o, ho⟩
  have heventTable : ∀ k e,
      (repo.storeTransition current event audit).orderEventTable.get? k = some e ↔
        (k = event.orderEventId ∧ e = event) ∨ repo.orderEventTable.get? k = some e :=
    fun k e => Dict.get?_set_iff_of_get?_none admitted.eventFresh
  have hownerTable : ∀ id owner,
      (repo.storeTransition current event audit).brokerEventOwners.get? id = some owner ↔
        (brokerEventId = some id ∧ owner = clientOrderId) ∨
          repo.brokerEventOwners.get? id = some owner := by
    intro id owner
    cases hb : brokerEventId with
    | none =>
        rw [brokerEventOwners_storeTransition_of_none (hbrokerEvent.trans hb)]
        simp
    | some new =>
        rw [brokerEventOwners_storeTransition_of_some (hbrokerEvent.trans hb), hcurrent]
        refine (Dict.get?_set_iff_of_get?_none (admitted.newBrokerEvent _ hb)).trans ?_
        simp [eq_comm]
  refine ⟨(h.toWellFormed.storeTransition admitted).congr rfl rfl rfl, ?_, ?_, ?_, ?_, hkeys, ?_,
    ?_, ?_⟩
  · intro k e he
    rcases (heventTable k e).1 he with ⟨rfl, rfl⟩ | he
    · rfl
    · exact h.event_key k e he
  · intro k e he
    rcases (heventTable k e).1 he with ⟨-, rfl⟩ | he
    · exact hkept _ ⟨previous, by rw [hclient, admitted.found]⟩
    · exact hkept _ (h.event_order k e he)
  · intro k e id he hid
    refine (hownerTable id e.clientOrderId).2 ?_
    rcases (heventTable k e).1 he with ⟨-, rfl⟩ | he
    · exact Or.inl ⟨hbrokerEvent ▸ hid, hclient⟩
    · exact Or.inr (h.event_owner k e id he hid)
  · intro id owner howner
    rcases (hownerTable id owner).1 howner with ⟨hb, rfl⟩ | howner
    · exact ⟨event.orderEventId, event, (heventTable _ _).2 (Or.inl ⟨rfl, rfl⟩),
        hbrokerEvent.trans hb, hclient⟩
    · obtain ⟨k, e, he, hid, hclient⟩ := h.owner_event id owner howner
      exact ⟨k, e, (heventTable k e).2 (Or.inr he), hid, hclient⟩
  · exact fun k f hf => hkept _ (howners k f hf)
  · intro k₁ k₂ o₁ o₂ id ho₁ ho₂ hid₁ hid₂
    replace ho₁ := (horders k₁).symm.trans ho₁
    replace ho₂ := (horders k₂).symm.trans ho₂
    split at ho₁ <;> split at ho₂
    · next hk₁ hk₂ => rw [hk₁, hk₂]
    · next hk₁ _ =>
        cases ho₁
        rw [hk₁, hbroker id hid₁ k₂ o₂ ho₂ hid₂]
    · next _ hk₂ =>
        cases ho₂
        rw [hk₂, hbroker id hid₂ k₁ o₁ ho₁ hid₁]
    · exact h.brokerOrderId_unique k₁ k₂ o₁ o₂ id ho₁ ho₂ hid₁ hid₂
  · intro k o i ho hi
    replace ho := (horders k).symm.trans ho
    split at ho
    · next hk =>
        cases ho
        subst hk
        have hsame : i = intent := Option.some.inj (hi.symm.trans hintent)
        subst hsame
        have hprevious := h.order_key _ _ admitted.found
        obtain ⟨hpath, hnumbered, hhead, hversion, -, -, -⟩ := hledger
        rw [hprevious] at hpath hnumbered hhead hversion
        have hafter := hevents k
        rw [if_pos rfl] at hafter
        constructor
        · rw [hcurrent, hafter]
          refine hpath.snoc ⟨hfrom, hto, ?_⟩
          rw [admitted.evolves.state]
          exact admitted.evolves.permitted
        · rw [hcurrent, hafter, List.map_append, hnumbered, List.length_append,
            List.length_singleton, List.range'_1_concat]
          obtain ⟨-, -, hsequence, -⟩ := admitted.event_facts h
          rw [List.map_singleton, hsequence, hhead, Nat.add_comm]
        · rw [hcurrent, hafter, List.length_append, List.length_singleton,
            admitted.evolves.fields, ← hhead]
          rfl
        · rw [hcurrent, hafter, List.length_append, List.length_singleton,
            admitted.evolves.version, hversion]
        · rw [hcurrent]
          exact hevidence
        · exact hle
        · exact hcomplete
    · next hk =>
        have hne : o.clientOrderId ≠ clientOrderId := (h.order_key k o ho).trans_ne hk
        refine (h.orders k o i ho hi).congr ?_ (hothers _ hne)
        rw [hevents, if_neg hne]

end Transitions

end MemoryExecutionRepository

end AdaptiveTrader
