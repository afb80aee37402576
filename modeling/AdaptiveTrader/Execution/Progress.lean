import AdaptiveTrader.Execution.AuditContract

/-!
# When the ledger's operations succeed

The other half of the specifications of the operations: a planned bundle whose identities are new
can be persisted (`persist_of_planned`), the snapshot of a ledger can be taken
(`submissionLedgerSnapshot_of_distinct`) and a committed order can be started under an authority for
the present ledger (`recordSubmissionStarted_of_committed`).
-/

set_option autoImplicit false

namespace AdaptiveTrader

open Foundation

namespace MemoryExecutionRepository

variable [ContentHasher] {repo : MemoryExecutionRepository}

/-! ## Persisting a plan -/

/-- The planning request can be recovered from the plan. -/
theorem planningRequestFields_of_planned {request : ExecutionPlanningRequest}
    {result : ExecutionPlanningResult} (h : Planned request result) :
    planningRequestFields result.plan request.riskDecision =
      request.toExecutionPlanningRequestFields := by
  have hplan := h.plan_eq
  have hpositions : result.plan.currentPositions = request.currentPositions := by rw [hplan]; rfl
  have hprices : result.plan.referencePrices = request.referencePrices := by rw [hplan]; rfl
  have hequity : result.plan.equity = request.equity := by rw [hplan]; rfl
  have hversion : result.plan.targetVersion = request.targetVersion := by rw [hplan]; rfl
  have hcreated : result.plan.createdAt = request.createdAt := by rw [hplan]; rfl
  have hdeadline : result.plan.deadlineAt = request.deadlineAt := by rw [hplan]; rfl
  have hflat : result.plan.forcedFlat = request.forcedFlat := by rw [hplan]; rfl
  unfold planningRequestFields
  rw [hpositions, hprices, hequity, hversion, hcreated, hdeadline, hflat]

theorem replan_of_planned {request : ExecutionPlanningRequest} {result : ExecutionPlanningResult}
    (h : planSignedOrders request = .ok result) :
    replan result.plan request.riskDecision = .ok result := by
  obtain ⟨hplanned⟩ := planSignedOrders_planned h
  simp only [replan, bind_eq_ok, ExecutionPlanningRequest.create_eq_ok]
  exact ⟨request, (planningRequestFields_of_planned hplanned).symm, h⟩

/-- A planned bundle is persisted when its plan and its intents are new. -/
theorem persist_of_planned {request : ExecutionPlanningRequest} {result : ExecutionPlanningResult}
    (h : planSignedOrders request = .ok result)
    (hplan : repo.planTable.get? result.plan.executionPlanId = none)
    (hintents : ∀ i ∈ result.intents, repo.intentTable.get? i.clientOrderId = none ∧
      repo.intentIdTable.get? i.orderIntentId = none) :
    ∃ audit, repo.persistPlanAndIntents result.plan result.intents request.riskDecision =
      .ok (repo.storePlan result.plan result.intents request.riskDecision audit) := by
  obtain ⟨hplanned⟩ := planSignedOrders_planned h
  have htype := isExecutionEventType_ledger.1
  obtain ⟨audit, haudit⟩ := (@nextAudit_isOk_iff _ repo.auditLog _ _ result.plan.createdAt _
    result.plan.isSha256_experimentHash htype).2
      (validateAuditObject_planPersisted result.plan hplanned.length_intents_le)
  refine ⟨audit, ?_⟩
  simp only [persistPlanAndIntents, bind_eq_ok, rejectIf_eq_ok, exists_const, not_or, not_not,
    hplan, pure_eq_ok, List.any_eq_true, Bool.or_eq_true, decide_eq_true_eq, not_exists, not_and,
    Bool.not_eq_true, Dict.contains_eq_false]
  refine ⟨fun i hi => ?_, hplanned.sequences, result, replan_of_planned h, ⟨rfl, rfl⟩, hintents,
    audit, haudit, rfl⟩
  exact (hplanned.intent_plan hi).1

/-! ## Snapshots -/

omit [ContentHasher] in
/-- Distinct digests, sorted, are evidence hashes. -/
theorem checkEvidenceHashes_sortedBy {hashes : List String} (hnodup : hashes.Nodup)
    (hall : ∀ hash ∈ hashes, isSha256 hash = true) :
    checkEvidenceHashes (sortedBy id hashes) = .ok () := by
  have hordered : sortedBy id hashes = sortedSet (sortedBy id hashes) :=
    eq_sortedSet_iff.2 (@sortedBy_pairwise_lt _ _ _ id _ (by simpa using hnodup))
  simp only [checkEvidenceHashes, rejectIf_bind_eq_ok, rejectIf_eq_ok, not_not, List.any_eq_true,
    Bool.not_eq_true', not_exists, not_and, Bool.not_eq_false]
  exact ⟨hordered, fun hash hmem => hall hash (mem_sortedBy.1 hmem)⟩

/-- The snapshot for an intent can be taken when its plan's decision is durable, the latch history
replays and no two of the listed records have the same hash. -/
theorem submissionLedgerSnapshot_of_distinct (hw : WellFormed repo) {k : String}
    {intent : OrderIntent} {plan : ExecutionPlan} {decision : RiskDecision}
    {latches : RiskLatchState} (hintent : repo.intentTable.get? k = some intent)
    (hplan : repo.planTable.get? intent.executionPlanId = some plan)
    (hdecision : repo.riskDecisionTable.get? plan.riskDecisionId = some decision)
    (hlatches : repo.latchState plan.experimentHash = .ok latches)
    (hfills : (repo.fillTable.values.map (·.contentHash)).Nodup)
    (horders : (repo.orderTable.values.map (·.contentHash)).Nodup) :
    ∃ snapshot, repo.submissionLedgerSnapshot k = .ok snapshot := by
  obtain ⟨order, horder⟩ := hw.intent_order _ _ hintent
  have hk : k ≠ "" := by
    rintro rfl
    have hid := intent.isClientOrderId_clientOrderId
    rw [hw.intent_key _ _ hintent] at hid
    exact absurd hid (by decide +kernel)
  have hplanId : plan.executionPlanId ≠ "" := by
    intro hempty
    have hid := isAuditId_executionPlanId plan
    rw [hempty] at hid
    exact absurd hid (by decide +kernel)
  have hexperiment := plan.isSha256_experimentHash
  have hdigest : ∀ value, isSha256 (sha256Hex value) = true := isSha256_sha256Hex
  simp only [submissionLedgerSnapshot, bind_eq_ok, getIntent_eq_ok, getPlan_eq_ok,
    getRiskDecision_eq_ok, getOrder_eq_ok]
  refine ⟨_, intent, hintent, plan, hplan, decision, hdecision, latches, hlatches, order, horder,
    validated_of_ok ?_⟩
  simp only [SubmissionLedgerSnapshotFields.check, unit_bind_eq_ok, rejectIf_eq_ok]
  refine ⟨hk, ?_, hplanId, checkEvidenceHashes_sortedBy ?_ ?_, checkEvidenceHashes_sortedBy ?_ ?_,
    not_not.2 (RiskLatchState.fromEvents_active_ordered hlatches)⟩
  · simp [hexperiment, hdigest, RiskDecision.contentHash, OrderIntent.contentHash,
      BrokerOrder.contentHash]
  · exact hfills.sublist (List.filter_sublist.map _)
  · intro hash hmem
    obtain ⟨f, -, rfl⟩ := List.mem_map.1 hmem
    exact hdigest _
  · exact horders.sublist (List.filter_sublist.map _)
  · intro hash hmem
    obtain ⟨o, -, rfl⟩ := List.mem_map.1 hmem
    exact hdigest _

/-! ## Starting a submission -/

omit [ContentHasher] in
/-- A committed order can start at any later time. -/
theorem evolve_startedChange {o : BrokerOrder} (hstate : o.state = .intentCommitted)
    {startedAt : Instant} (htime : o.updatedAt ≤ startedAt) :
    ∃ n, o.evolve (startedChange startedAt) = .ok n := by
  have hc := o.checked
  have hsubmitted := BrokerOrder.submittedAt_of_intentCommitted hstate
  simp only [BrokerOrderFields.check, unit_bind_eq_ok, rejectIf_eq_ok] at hc
  obtain ⟨hid, hintent, hbroker, hfilled, hprice, -, -, hcommitted, haccepted, -⟩ := hc
  have hnone : o.acceptedAt = none := by
    by_contra hne
    exact haccepted ⟨hne, hsubmitted⟩
  have hcheck : (o.evolvedFields (startedChange startedAt)).check = .ok () := by
    simp only [BrokerOrderFields.check, unit_bind_eq_ok, rejectIf_eq_ok]
    simp_all [BrokerOrder.evolvedFields, startedChange, checkOptional]
  simp only [BrokerOrder.evolve, unit_bind_eq_ok, rejectIf_eq_ok, validateOrderTransition_eq_ok,
    hstate]
  have hpermitted : transitionIsPermitted .intentCommitted .submissionStarted = true := by decide
  refine ⟨_, hpermitted, not_lt.2 htime, ?_, ?_, validated_of_ok hcheck⟩
  · rintro ⟨_, -, _, ⟨⟩, -⟩
  · exact lt_irrefl _

/-- A committed order starts under an authority for the present ledger. -/
theorem recordSubmissionStarted_of_committed (hw : WellFormed repo) {k : String}
    {order : BrokerOrder} (horder : repo.orderTable.get? k = some order)
    (hstate : order.state = .intentCommitted) {snapshot : SubmissionLedgerSnapshot}
    (hsnapshot : repo.submissionLedgerSnapshot k = .ok snapshot)
    {authority : SubmissionAuthoritySnapshot} (hk : authority.clientOrderId = k)
    (hhash : authority.ledgerSnapshotHash = snapshot.contentHash) {startedAt : Instant}
    (htime : order.updatedAt ≤ startedAt)
    (hfresh : ∀ event : OrderEvent, event.clientOrderId = k →
      repo.orderEventTable.get? event.orderEventId = none) :
    ∃ current event audit, repo.recordSubmissionStarted k startedAt authority =
        .ok (current, repo.storeTransition current event audit) ∧
      BrokerOrder.Evolves order (startedChange startedAt) current ∧
      event.toOrderEventFields = OrderEvent.betweenFields order current none := by
  obtain ⟨current, hevolve⟩ := evolve_startedChange hstate htime
  have hevolves := BrokerOrder.evolve_spec hevolve
  have hid : current.clientOrderId = k :=
    hevolves.clientOrderId.trans (hw.order_key _ _ horder)
  have hcurrent := current.checked
  simp only [BrokerOrderFields.check, unit_bind_eq_ok, rejectIf_eq_ok] at hcurrent
  have hcheck : (OrderEvent.betweenFields order current none).check = .ok () := by
    have hsequence : ¬ current.lastEventSequence < 1 := by
      rw [hevolves.fields]
      exact not_lt.2 (Nat.le_add_left 1 _)
    simp only [OrderEventFields.check, unit_bind_eq_ok, rejectIf_eq_ok]
    exact ⟨hcurrent.1, hsequence, rfl, hcurrent.2.2.2.2.2.1⟩
  have hevent : OrderEvent.fromOrders order current none =
      .ok ⟨OrderEvent.betweenFields order current none, hcheck⟩ := by
    simp only [OrderEvent.fromOrders, rejectIf_bind_eq_ok, not_not]
    exact ⟨hevolves.clientOrderId.symm, hevolves.version, validated_of_ok hcheck⟩
  obtain ⟨intent, hintent, -⟩ := hw.order_intent _ _ horder
  obtain ⟨plan, hplan, -⟩ := hw.intent_plan _ _ hintent
  have htype := isExecutionEventType_ledger.2.1
  obtain ⟨audit, haudit⟩ := (@nextAudit_isOk_iff _ repo.auditLog _ _ current.updatedAt _
    plan.isSha256_experimentHash htype).2 (validateAuditObject_stateChanged order current
      ⟨OrderEvent.betweenFields order current none, hcheck⟩ fun hash hsome =>
        Option.some.inj hsome ▸ isSha256_sha256Hex authority.payload)
  have hstored : repo.appendOrderTransition order current none (some authority.contentHash) =
      .ok (repo.storeTransition current ⟨OrderEvent.betweenFields order current none, hcheck⟩
        audit) := by
    simp only [appendOrderTransition, bind_eq_ok, rejectIf_eq_ok, exists_const, getIntent_eq_ok,
      getPlan_eq_ok, pure_eq_ok, Bool.not_eq_true, Dict.contains_eq_false]
    exact ⟨(), rfl, _, hevent, hfresh _ hid, intent, hid ▸ hintent, plan, hplan, audit, haudit, rfl⟩
  refine ⟨current, ⟨OrderEvent.betweenFields order current none, hcheck⟩, audit, ?_, hevolves, rfl⟩
  simp only [recordSubmissionStarted, bind_eq_ok, rejectIf_eq_ok, exists_const, getOrder_eq_ok,
    pure_eq_ok, Prod.mk.injEq, not_not]
  exact ⟨order, horder, hk, snapshot, hsnapshot, hhash.symm, hstate, current, hevolve, _, hstored,
    rfl, rfl⟩

end MemoryExecutionRepository

/-! ## A ledger with one started order -/

section Sample

/-- Sixty-four times the same digit. -/
def repeatedDigest (digit : Char) : String := String.ofList (List.replicate 64 digit)

/-- A tenth of the equity in one long position. -/
def sampleExposure : ExposureSnapshot :=
  ⟨{ gross := 1 / 10, net := 1 / 10, positive := 1 / 10, shortAbs := 0, groupGross := [],
     clusterGross := [] }, by decide +kernel⟩

def sampleAccount : AccountSnapshot :=
  ⟨{ accountIdHash := repeatedDigest 'a', equity := 100000, cash := 100000, buyingPower := 100000,
     observedAt := 0 }, by decide +kernel⟩

theorem isSymbol_spy : isSymbol "SPY" = true := by decide +kernel

/-- A decision that moves one symbol from zero to a tenth of the equity. -/
def sampleDecisionFields : RiskDecisionFields where
  slotId := "slot_" ++ repeatedDigest 'a'
  signalId := "signal_" ++ repeatedDigest 'a'
  signalHash := repeatedDigest 'a'
  experimentHash := repeatedDigest 'a'
  policyId := "policy"
  policyVersion := 1
  policyHash := repeatedDigest 'a'
  correlationId := "correlation_" ++ repeatedDigest 'a'
  decidedAt := 0
  inputHash := repeatedDigest 'a'
  statisticsHash := repeatedDigest 'a'
  accountSnapshot := sampleAccount
  planningPositions := [⟨"SPY", 0, isSymbol_spy⟩]
  planningPrices := [⟨"SPY", 100, 0, true, isSymbol_spy, by decide +kernel⟩]
  securityMetadata := [⟨"SPY", true, true, true, true, true, true, 0, isSymbol_spy⟩]
  originalProposal := []
  proposedTargets := [("SPY", 1 / 10)]
  finalTargets := [("SPY", 1 / 10)]
  beforeExposure := sampleExposure
  afterExposure := sampleExposure
  orderedControls := []
  blockReasons := []
  flattenReasons := []
  sourceTimestamps := []
  latchStateHash := repeatedDigest 'a'
  activeLatches := []
  requiredLatchEvents := []
  executionScope := .full

def sampleDecision : RiskDecision := ⟨sampleDecisionFields, by decide +kernel⟩

/-- The planning request for the decision at a price of one hundred. -/
def sampleRequest : ExecutionPlanningRequest :=
  ⟨{ riskDecision := sampleDecision, currentPositions := [⟨"SPY", 0, isSymbol_spy⟩],
     referencePrices := [("SPY", 100)], equity := 100000, targetVersion := 1, createdAt := 0,
     deadlineAt := 1000, forcedFlat := false }, by decide +kernel⟩

/-- The client order ID of the intent that buys the position. -/
def sampleClientOrderId : String := "aqa-aaaaa-eb05f-SPY-e-00-1-77d230"

open MemoryExecutionRepository

local instance sampleHasher : ContentHasher := polynomialHasher

/-- The bundle has one intent, which buys a hundred shares. -/
theorem sample_planned :
    (planSignedOrders sampleRequest).map (fun result => result.intents.map fun i =>
      (i.clientOrderId, i.symbol, i.side, i.quantity, i.createdAt)) =
        .ok [(sampleClientOrderId, "SPY", .buy, 100, 0)] := by
  decide +kernel

/-- A planned bundle can be persisted first of all. -/
theorem reachable_of_planned {request : ExecutionPlanningRequest} {result : ExecutionPlanningResult}
    (h : planSignedOrders request = .ok result) :
    ∃ audit, PlanAdmitted {} result.plan result.intents request.riskDecision audit ∧
      successfulRuns.Reachable
        (storePlan {} result.plan result.intents request.riskDecision audit) := by
  obtain ⟨audit, hpersist⟩ := @persist_of_planned _ {} _ _ h rfl fun i _ => ⟨rfl, rfl⟩
  obtain ⟨-, hsome⟩ | ⟨audit', hadmitted, hstored⟩ := persistPlanAndIntents_spec hpersist
  · cases hsome
  have hexec : (LedgerOperation.persistPlanAndIntents result.plan result.intents
      request.riskDecision).exec {} =
        (.ok (), storePlan {} result.plan result.intents request.riskDecision audit) := by
    simp only [LedgerOperation.exec, Exec.transaction, hpersist, Except.map]
  rw [hstored] at hexec
  exact ⟨audit', hadmitted, (Transition.Reachable.of_init rfl).tail
    ⟨congrArg Prod.fst hexec, congrArg Prod.snd hexec⟩⟩

/-- What the sample ledgers have in common. -/
structure SampleLedger (repo : MemoryExecutionRepository) (intent : OrderIntent)
    (order : BrokerOrder) : Prop where
  reachable : successfulRuns.Reachable repo
  intent_found : repo.intentTable.get? sampleClientOrderId = some intent
  intent_id : intent.clientOrderId = sampleClientOrderId
  intent_symbol : intent.symbol = "SPY"
  intent_side : intent.side = .buy
  intent_quantity : intent.quantity = 100
  intent_createdAt : intent.createdAt = 0
  orders : repo.orderTable.values = [order]
  order_found : repo.orderTable.get? sampleClientOrderId = some order
  brokerEventOwners : repo.brokerEventOwners = Dict.empty
  fills : repo.fillTable = Dict.empty

/-- The sample bundle is persisted. -/
structure SamplePersisted (repo : MemoryExecutionRepository) (intent : OrderIntent) : Prop
    extends SampleLedger repo intent (BrokerOrder.committed intent) where
  decision : ∃ plan decision, repo.planTable.get? intent.executionPlanId = some plan ∧
    repo.riskDecisionTable.get? plan.riskDecisionId = some decision
  orderEvents : repo.orderEventTable = Dict.empty
  latchEvents : repo.latchEventTable = Dict.empty

theorem exists_samplePersisted : ∃ repo intent, SamplePersisted repo intent := by
  obtain ⟨result, hplanned, hintents⟩ := map_eq_ok.1 sample_planned
  obtain ⟨intent, hone, hfields⟩ := List.map_eq_singleton_iff.1 hintents
  simp only [Prod.mk.injEq] at hfields
  obtain ⟨hid, hsymbol, hside, hquantity, hcreated⟩ := hfields
  obtain ⟨audit, hadmitted, hreachable⟩ := reachable_of_planned hplanned
  have hplan : intent.executionPlanId = result.plan.executionPlanId :=
    (hadmitted.intent_plan (hone ▸ List.mem_singleton_self intent)).1
  rw [storePlan_eq, hone] at hreachable
  refine ⟨_, intent, ⟨hreachable, ?_, hid, hsymbol, hside, hquantity, hcreated, rfl, ?_, rfl, rfl⟩,
    ⟨result.plan, sampleRequest.riskDecision, ?_, Dict.get?_set_self _ _ _⟩, rfl, rfl⟩
  · rw [← hid]
    exact Dict.get?_set_self _ _ _
  · rw [← hid]
    exact Dict.get?_set_self _ _ _
  · rw [hplan]
    exact Dict.get?_set_self _ _ _

/-- The event of the start. -/
def sampleStartedEvent : OrderEvent :=
  ⟨{ clientOrderId := sampleClientOrderId, sequence := 1, fromState := .intentCommitted,
     toState := .submissionStarted, brokerEventId := none, occurredAt := 0,
     safeErrorCode := none }, by decide +kernel⟩

/-- The order of the sample bundle is started; nothing is filled yet. -/
structure SampleStarted (repo : MemoryExecutionRepository) (intent : OrderIntent)
    (order : BrokerOrder) : Prop extends SampleLedger repo intent order where
  order_eq : order.toBrokerOrderFields =
    (BrokerOrder.committed intent).evolvedFields (startedChange 0)
  orderEvents : ∀ k, k ≠ sampleStartedEvent.orderEventId → repo.orderEventTable.get? k = none

/-- The snapshot for the sample order can be taken. -/
theorem SamplePersisted.snapshot {repo : MemoryExecutionRepository} {intent : OrderIntent}
    (h : SamplePersisted repo intent) :
    ∃ snapshot, repo.submissionLedgerSnapshot sampleClientOrderId = .ok snapshot := by
  have hw := WellFormed.of_reachable h.reachable.of_restrict
  obtain ⟨plan, decision, hplan, hdecision⟩ := h.decision
  have hnoLatches : repo.latchEvents = [] := by
    rw [MemoryExecutionRepository.latchEvents, h.latchEvents]
    rfl
  have hlatches : ∃ latches, repo.latchState plan.experimentHash = .ok latches := by
    rw [latchState, hnoLatches]
    simp only [RiskLatchState.fromEvents, bind_eq_ok, rejectIf_eq_ok]
    refine ⟨_, (), ?_, (), rfl, [], rfl, (), ?_, rfl⟩
    · simp [plan.isSha256_experimentHash]
    · simp
  obtain ⟨latches, hlatches⟩ := hlatches
  refine submissionLedgerSnapshot_of_distinct hw h.intent_found hplan hdecision hlatches ?_ ?_
  · rw [h.fills]
    exact List.nodup_nil
  · rw [h.orders]
    exact List.nodup_singleton _

theorem exists_sampleStarted : ∃ repo intent order, SampleStarted repo intent order := by
  obtain ⟨repo, intent, h⟩ := exists_samplePersisted
  have hw := WellFormed.of_reachable h.reachable.of_restrict
  obtain ⟨snapshot, hsnapshot⟩ := h.snapshot
  have hhash : isSha256 snapshot.contentHash = true := isSha256_sha256Hex _
  let fields : SubmissionAuthoritySnapshotFields := {
    clientOrderId := sampleClientOrderId, ledgerSnapshotHash := snapshot.contentHash,
    safetySnapshotHash := snapshot.contentHash, accountIdHash := snapshot.contentHash,
    accountCash := 0, accountEquity := 0, accountObservedAt := 0, positions := [],
    openClientOrderIds := [], evaluatedAt := 0 }
  have hfields : fields.check = .ok () := by
    have hname : sampleClientOrderId ≠ "" := by decide +kernel
    simp [SubmissionAuthoritySnapshotFields.check, fields, hhash, hname, sortedSet]
  let authority : SubmissionAuthoritySnapshot := ⟨fields, hfields⟩
  have hauthority : authority.clientOrderId = sampleClientOrderId := rfl
  have htime : (BrokerOrder.committed intent).updatedAt ≤ 0 := h.intent_createdAt.le
  obtain ⟨current, event, audit, hstart, hevolves, hevent⟩ :=
    recordSubmissionStarted_of_committed hw h.order_found rfl hsnapshot hauthority rfl htime
      (fun _ _ => by rw [h.orderEvents]; rfl)
  have hexec : (LedgerOperation.recordSubmissionStarted sampleClientOrderId 0 authority).exec repo =
      (.ok (), repo.storeTransition current event audit) := by
    simp only [LedgerOperation.exec, Exec.transaction, hstart, Except.map]
  have hkey : current.clientOrderId = sampleClientOrderId :=
    hevolves.clientOrderId.trans h.intent_id
  have hnoOwner : event.brokerEventId = none := by rw [hevent]; rfl
  refine ⟨repo.storeTransition current event audit, intent, current, ⟨?_, h.intent_found,
    h.intent_id, h.intent_symbol, h.intent_side, h.intent_quantity, h.intent_createdAt, ?_, ?_, ?_,
    h.fills⟩, hevolves.fields, ?_⟩
  · exact h.reachable.tail ⟨congrArg Prod.fst hexec, congrArg Prod.snd hexec⟩
  · show (repo.orderTable.set current.clientOrderId current).values = [current]
    rw [hkey]
    exact Dict.values_set_of_singleton h.order_found h.orders current
  · show (repo.orderTable.set current.clientOrderId current).get? _ = _
    rw [hkey, Dict.get?_set_self]
  · rw [brokerEventOwners_storeTransition_of_none hnoOwner, h.brokerEventOwners]
  · have hstarted : event = sampleStartedEvent := by
      refine OrderEvent.eq_of_fields ?_
      rw [hevent, OrderEvent.betweenFields, hkey, hevolves.fields]
      rfl
    intro k hk
    show (repo.orderEventTable.set event.orderEventId event).get? k = none
    rw [h.orderEvents, hstarted, Dict.get?_set_of_ne _ _ hk]
    rfl

end Sample

end AdaptiveTrader
