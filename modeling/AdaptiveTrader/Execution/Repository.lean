import AdaptiveTrader.Execution.Authorization
import AdaptiveTrader.Execution.Planner
import AdaptiveTrader.Execution.Reconciliation
import AdaptiveTrader.Foundation.Exec
import AdaptiveTrader.Platform.Audit

/-!
# The in-memory execution ledger

The tables of the ledger and its operations, each written as the source writes it: validation first,
then the writes. An operation with a single write phase returns the new ledger or an error.
`applyBrokerUpdate` has two write phases, the order's transition and one step per new fill, and an
error of the second leaves the first in place; it is an `Exec`.
-/

set_option autoImplicit false

namespace AdaptiveTrader

open Foundation

/-- The tables of the ledger. -/
structure MemoryExecutionRepository where
  planTable : Dict String ExecutionPlan := Dict.empty
  riskDecisionTable : Dict String RiskDecision := Dict.empty
  intentTable : Dict String OrderIntent := Dict.empty
  intentIdTable : Dict String OrderIntent := Dict.empty
  orderTable : Dict String BrokerOrder := Dict.empty
  orderEventTable : Dict String OrderEvent := Dict.empty
  brokerEventOwners : Dict String String := Dict.empty
  fillTable : Dict String Fill := Dict.empty
  reconciliationTable : Dict String ReconciliationReceipt := Dict.empty
  incidentTable : Dict String Incident := Dict.empty
  incidentKeyTable : Dict String Incident := Dict.empty
  latchEventTable : Dict String RiskLatchEvent := Dict.empty
  auditLog : List AuditEvent := []

namespace MemoryExecutionRepository

/-! ## Queries -/

section Queries

variable (repo : MemoryExecutionRepository)

def getPlan (executionPlanId : String) : Except PlatformError ExecutionPlan :=
  require (repo.planTable.get? executionPlanId)
    (.executionValidation "execution plan does not exist")

def getRiskDecision (riskDecisionId : String) : Except PlatformError RiskDecision :=
  require (repo.riskDecisionTable.get? riskDecisionId)
    (.executionValidation "risk decision does not exist")

def getOrder (clientOrderId : String) : Except PlatformError BrokerOrder :=
  require (repo.orderTable.get? clientOrderId)
    (.executionValidation "broker order does not exist")

def getIntent (clientOrderId : String) : Except PlatformError OrderIntent :=
  require (repo.intentTable.get? clientOrderId)
    (.executionValidation "order intent does not exist")

/-- A plan's intents in submission order. -/
def intentsForPlan (executionPlanId : String) : List OrderIntent :=
  sortedBy (·.sequence)
    (repo.intentTable.values.filter fun i => i.executionPlanId = executionPlanId)

def allIntents : List OrderIntent := sortedBy (·.clientOrderId) repo.intentTable.values

def allOrders : List BrokerOrder := repo.orderTable.valuesByKey

def orderEvents : List OrderEvent :=
  sortedBy (fun e => toLex (e.clientOrderId, e.sequence)) repo.orderEventTable.values

/-- Unique fills in the order of their execution IDs. -/
def fills : List Fill := repo.fillTable.valuesByKey

/-- One order's fills in the order of occurrence. -/
def fillsForOrder (clientOrderId : String) : List Fill :=
  sortedBy Fill.replayKey
    (repo.fillTable.values.filter fun f => f.clientOrderId = clientOrderId)

def reconciliations : List ReconciliationReceipt := repo.reconciliationTable.valuesByKey

def incidents : List Incident := repo.incidentTable.valuesByKey

/-- The latch history in stream order. -/
def latchEvents : List RiskLatchEvent :=
  sortedBy (fun e => toLex (e.latchType.value, e.sequence)) repo.latchEventTable.values

def auditEvents : List AuditEvent := repo.auditLog

/-- Whether any durable projection blocks new exposure. -/
def hasAmbiguousOrder : Bool :=
  repo.orderTable.values.any fun o => o.state.ambiguous || decide (o.state = .submissionStarted)

/-- The client order IDs of a plan. -/
def planClientIds (executionPlanId : String) : List String :=
  (repo.intentsForPlan executionPlanId).map (·.clientOrderId)

/-- The client order IDs of an experiment. -/
def experimentClientIds (experimentHash : String) : List String :=
  (repo.intentTable.values.filter fun i => i.experimentHash = experimentHash).map
    (·.clientOrderId)

variable [ContentHasher]

/-- The latches that the ledger holds engaged for an experiment. -/
def latchState (experimentHash : String) : Except PlatformError RiskLatchState :=
  RiskLatchState.fromEvents experimentHash
    (repo.latchEvents.filter fun e => e.experimentHash = experimentHash)

/-- `submission_ledger_snapshot`. -/
def submissionLedgerSnapshot (clientOrderId : String) :
    Except PlatformError SubmissionLedgerSnapshot := do
  let intent ← repo.getIntent clientOrderId
  let plan ← repo.getPlan intent.executionPlanId
  let decision ← repo.getRiskDecision plan.riskDecisionId
  let planFillHashes := sortedBy id ((repo.fillTable.values.filter fun f =>
    f.clientOrderId ∈ repo.planClientIds plan.executionPlanId).map (·.contentHash))
  let activeOrderHashes := sortedBy id ((repo.orderTable.values.filter fun o =>
    o.clientOrderId ∈ repo.experimentClientIds plan.experimentHash ∧
      o.state.terminal = false).map (·.contentHash))
  let latches ← repo.latchState plan.experimentHash
  let order ← repo.getOrder clientOrderId
  SubmissionLedgerSnapshot.create {
    clientOrderId := clientOrderId
    experimentHash := plan.experimentHash
    executionPlanId := plan.executionPlanId
    riskDecisionHash := decision.contentHash
    intentHash := intent.contentHash
    orderHash := order.contentHash
    planFillHashes := planFillHashes
    activeOrderHashes := activeOrderHashes
    activeLatches := latches.active }

end Queries

variable [ContentHasher]

/-! ## Audit payloads -/

def planPersistedPayload (plan : ExecutionPlan) (intents : List OrderIntent) :
    List (String × Canonical) :=
  [("content_hash", .text plan.contentHash),
    ("count", .int intents.length),
    ("execution_plan_id", .text plan.executionPlanId),
    ("idempotency_key", .text plan.executionPlanId)]

def incidentOpenedPayload (incident : Incident) : List (String × Canonical) :=
  [("content_hash", .text incident.contentHash),
    ("idempotency_key", .text incident.idempotencyKey),
    ("incident_id", .text incident.incidentId),
    ("reason_code", .text incident.reasonCode)]

def stateChangedPayload (previous current : BrokerOrder) (event : OrderEvent)
    (submissionAuthorityHash : Option String) : List (String × Canonical) :=
  [("content_hash", .text current.contentHash),
    ("from_state", .text previous.state.slug),
    ("idempotency_key", .text event.orderEventId),
    ("order_intent_id", .text current.orderIntentId)] ++
  (match submissionAuthorityHash with
    | some hash => [("submission_authority_hash", .text hash)]
    | none => []) ++
  [("to_state", .text current.state.slug)]

def fillRecordedPayload (intent : OrderIntent) (fill : Fill) : List (String × Canonical) :=
  [("content_hash", .text fill.contentHash),
    ("fill_id", .text fill.brokerExecutionId),
    ("idempotency_key", .text fill.brokerExecutionId),
    ("order_intent_id", .text intent.orderIntentId),
    ("quantity", .decimal fill.quantity),
    ("symbol", .text fill.symbol)]

def reconciliationCompletedPayload (receipt : ReconciliationReceipt) :
    List (String × Canonical) :=
  [("content_hash", .text receipt.contentHash),
    ("count", .int receipt.discrepancies.length),
    ("idempotency_key", .text receipt.reconciliationId),
    ("reconciliation_id", .text receipt.reconciliationId),
    ("status", .text receipt.status.slug)]

/-! ## Plans -/

/-- The planning request that a durable plan answers. -/
def planningRequestFields (plan : ExecutionPlan) (decision : RiskDecision) :
    ExecutionPlanningRequestFields where
  riskDecision := decision
  currentPositions := plan.currentPositions
  referencePrices := plan.referencePrices
  equity := plan.equity
  targetVersion := plan.targetVersion
  createdAt := plan.createdAt
  deadlineAt := plan.deadlineAt
  forcedFlat := plan.forcedFlat

/-- Plan again from the signed decision. -/
def replan (plan : ExecutionPlan) (decision : RiskDecision) :
    Except PlatformError ExecutionPlanningResult := do
  let request ← ExecutionPlanningRequest.create (planningRequestFields plan decision)
  planSignedOrders request

/-- Store one intent and its initial projection. -/
def storeIntent (repo : MemoryExecutionRepository) (intent : OrderIntent) :
    MemoryExecutionRepository :=
  { repo with
    intentTable := repo.intentTable.set intent.clientOrderId intent
    intentIdTable := repo.intentIdTable.set intent.orderIntentId intent
    orderTable := repo.orderTable.set intent.clientOrderId (BrokerOrder.committed intent) }

/-- The writes of `persist_plan_and_intents`. -/
def storePlan (repo : MemoryExecutionRepository) (plan : ExecutionPlan)
    (intents : List OrderIntent) (decision : RiskDecision) (audit : AuditEvent) :
    MemoryExecutionRepository :=
  let planned := { repo with
    planTable := repo.planTable.set plan.executionPlanId plan
    riskDecisionTable := repo.riskDecisionTable.set plan.riskDecisionId decision }
  let stored := intents.foldl storeIntent planned
  { stored with auditLog := stored.auditLog ++ [audit] }

/-- `persist_plan_and_intents`. -/
def persistPlanAndIntents (repo : MemoryExecutionRepository) (plan : ExecutionPlan)
    (intents : List OrderIntent) (decision : RiskDecision) :
    Except PlatformError MemoryExecutionRepository := do
  rejectIf (intents.any fun i => i.executionPlanId ≠ plan.executionPlanId)
    (.executionValidation "execution intent belongs to another plan")
  rejectIf (intents.map (·.sequence) ≠ List.range intents.length)
    (.executionValidation "execution intent sequence must be contiguous")
  let expected ← replan plan decision
  rejectIf (expected.plan ≠ plan ∨ expected.intents ≠ intents)
    (.executionValidation "execution bundle does not match its signed risk authorization")
  match repo.planTable.get? plan.executionPlanId with
  | some existingPlan => do
      rejectIf (¬ (existingPlan = plan ∧ repo.intentsForPlan plan.executionPlanId = intents ∧
          repo.riskDecisionTable.get? plan.riskDecisionId = some decision))
        (.executionValidation "execution plan identity was reused")
      pure repo
  | none => do
      rejectIf (intents.any fun i => repo.intentTable.contains i.clientOrderId ||
          repo.intentIdTable.contains i.orderIntentId)
        (.executionValidation "order intent identity already exists")
      let audit ← nextAudit repo.auditLog plan.experimentHash "execution.plan_persisted"
        plan.createdAt (planPersistedPayload plan intents)
      pure (repo.storePlan plan intents decision audit)

/-! ## Incidents -/

/-- The writes of `record_incident`. -/
def storeIncident (repo : MemoryExecutionRepository) (incident : Incident) :
    MemoryExecutionRepository :=
  { repo with
    incidentTable := repo.incidentTable.set incident.incidentId incident
    incidentKeyTable := repo.incidentKeyTable.set incident.idempotencyKey incident }

/-- `record_incident`. -/
def recordIncident (repo : MemoryExecutionRepository) (incident : Incident) :
    Except PlatformError (Incident × MemoryExecutionRepository) := do
  match repo.incidentKeyTable.get? incident.idempotencyKey with
  | some existing => do
      rejectIf (existing ≠ incident)
        (.executionValidation "incident idempotency key was reused")
      pure (existing, repo)
  | none =>
      match repo.incidentTable.get? incident.incidentId with
      | some identity => do
          rejectIf (identity ≠ incident) (.executionValidation "incident identity was reused")
          pure (identity, repo)
      | none => do
          let audit ← nextAudit repo.auditLog incident.experimentHash "incident.opened"
            incident.openedAt (incidentOpenedPayload incident)
          let stored := repo.storeIncident incident
          pure (incident, { stored with auditLog := stored.auditLog ++ [audit] })

/-! ## Order transitions -/

/-- The writes of `_append_order_transition`. -/
def storeTransition (repo : MemoryExecutionRepository) (current : BrokerOrder)
    (event : OrderEvent) (audit : AuditEvent) : MemoryExecutionRepository :=
  { repo with
    orderTable := repo.orderTable.set current.clientOrderId current
    orderEventTable := repo.orderEventTable.set event.orderEventId event
    brokerEventOwners := match event.brokerEventId with
      | some id => repo.brokerEventOwners.set id current.clientOrderId
      | none => repo.brokerEventOwners
    auditLog := repo.auditLog ++ [audit] }

theorem brokerEventOwners_storeTransition_of_some {repo : MemoryExecutionRepository}
    {current : BrokerOrder} {event : OrderEvent} {audit : AuditEvent} {id : String}
    (h : event.brokerEventId = some id) :
    (repo.storeTransition current event audit).brokerEventOwners =
      repo.brokerEventOwners.set id current.clientOrderId := by
  simp only [storeTransition, h]

theorem brokerEventOwners_storeTransition_of_none {repo : MemoryExecutionRepository}
    {current : BrokerOrder} {event : OrderEvent} {audit : AuditEvent}
    (h : event.brokerEventId = none) :
    (repo.storeTransition current event audit).brokerEventOwners = repo.brokerEventOwners := by
  simp only [storeTransition, h]

/-- A broker event ID can be used once only. -/
def checkBrokerEventId (repo : MemoryExecutionRepository) (clientOrderId : String) :
    Option String → Except PlatformError Unit
  | none => .ok ()
  | some id =>
      match repo.brokerEventOwners.get? id with
      | none => .ok ()
      | some owner => do
          rejectIf (owner ≠ clientOrderId)
            (.executionValidation "broker event ID was reused across orders")
          .error (.executionValidation "broker event ID was reused with a new projection")

/-- `_append_order_transition`. -/
def appendOrderTransition (repo : MemoryExecutionRepository) (previous current : BrokerOrder)
    (brokerEventId submissionAuthorityHash : Option String) :
    Except PlatformError MemoryExecutionRepository := do
  repo.checkBrokerEventId current.clientOrderId brokerEventId
  let event ← OrderEvent.fromOrders previous current brokerEventId
  rejectIf (repo.orderEventTable.contains event.orderEventId = true)
    (.executionValidation "broker event conflicts with durable order history")
  let intent ← repo.getIntent current.clientOrderId
  let plan ← repo.getPlan intent.executionPlanId
  let audit ← nextAudit repo.auditLog plan.experimentHash "order.state_changed" current.updatedAt
    (stateChangedPayload previous current event submissionAuthorityHash)
  pure (repo.storeTransition current event audit)

/-- `record_submission_started`. -/
def recordSubmissionStarted (repo : MemoryExecutionRepository) (clientOrderId : String)
    (startedAt : Instant) (authority : SubmissionAuthoritySnapshot) :
    Except PlatformError (BrokerOrder × MemoryExecutionRepository) := do
  let previous ← repo.getOrder clientOrderId
  rejectIf (authority.clientOrderId ≠ clientOrderId)
    (.executionValidation "submission authority belongs to another order")
  let snapshot ← repo.submissionLedgerSnapshot clientOrderId
  rejectIf (snapshot.contentHash ≠ authority.ledgerSnapshotHash)
    (.executionValidation "submission authority became stale")
  rejectIf (previous.state ≠ .intentCommitted)
    (.executionValidation "only a committed intent can begin submission")
  let current ← previous.evolve
    { state := .submissionStarted, updatedAt := startedAt, submittedAt := some startedAt }
  let stored ← repo.appendOrderTransition previous current none (some authority.contentHash)
  pure (current, stored)

/-- `record_reconciliation_required`. -/
def recordReconciliationRequired (repo : MemoryExecutionRepository) (clientOrderId : String)
    (observedAt : Instant) (reasonCode : String) :
    Except PlatformError (BrokerOrder × MemoryExecutionRepository) := do
  let previous ← repo.getOrder clientOrderId
  if previous.state = .reconciliationRequired then pure (previous, repo)
  else do
    rejectIf (previous.state.terminal = true)
      (.executionValidation "terminal order cannot require reconciliation")
    let current ← previous.evolve
      { state := .reconciliationRequired, updatedAt := observedAt,
        safeErrorCode := some reasonCode }
    let stored ← repo.appendOrderTransition previous current none none
    pure (current, stored)

/-- `record_cancel_requested`. -/
def recordCancelRequested (repo : MemoryExecutionRepository) (clientOrderId : String)
    (requestedAt : Instant) : Except PlatformError (BrokerOrder × MemoryExecutionRepository) := do
  let previous ← repo.getOrder clientOrderId
  if previous.state = .cancelRequested then pure (previous, repo)
  else do
    rejectIf (previous.state.terminal = true ∨ previous.state.ambiguous = true)
      (.executionValidation "order cannot enter cancellation from current state")
    let current ← previous.evolve { state := .cancelRequested, updatedAt := requestedAt }
    let stored ← repo.appendOrderTransition previous current none none
    pure (current, stored)

/-- `record_submission_unknown`. -/
def recordSubmissionUnknown (repo : MemoryExecutionRepository) (clientOrderId : String)
    (observedAt : Instant) (reasonCode : String) :
    Except PlatformError (BrokerOrder × MemoryExecutionRepository) := do
  let previous ← repo.getOrder clientOrderId
  if previous.state = .submissionUnknown then pure (previous, repo)
  else do
    rejectIf (previous.state ≠ .submissionStarted)
      (.executionValidation "only a started submission can become unknown")
    let current ← previous.evolve
      { state := .submissionUnknown, updatedAt := observedAt, safeErrorCode := some reasonCode }
    let stored ← repo.appendOrderTransition previous current none none
    pure (current, stored)

/-! ## Broker updates -/

/-- A fill names its intent's order, symbol and side. -/
def fillMatches (intent : OrderIntent) (fill : Fill) : Bool :=
  decide (fill.clientOrderId = intent.clientOrderId ∧ fill.symbol = intent.symbol ∧
    fill.side = intent.side)

/-- The checks of `_verify_fill_evidence` on single fills. -/
def checkFillLifecycle (intent : OrderIntent) (order : BrokerOrder) (updateAt : Instant) :
    List Fill → Except PlatformError Unit
  | [] => .ok ()
  | fill :: rest => do
      rejectIf (fillMatches intent fill = false)
        (.executionValidation "broker fill does not match its durable intent")
      rejectIf (fill.occurredAt < intent.createdAt ∨
          (∃ s ∈ order.submittedAt, fill.occurredAt < s) ∨ updateAt < fill.occurredAt)
        (.executionValidation "broker fill timestamp is outside the order lifecycle")
      checkFillLifecycle intent order updateAt rest

/-- `_verify_fill_evidence`. -/
def verifyFillEvidence (intent : OrderIntent) (order : BrokerOrder) (fills : List Fill)
    (cumulativeQuantity : ℚ) (averagePrice : Option ℚ) (updateAt : Instant) :
    Except PlatformError Unit := do
  rejectIf (order.submittedAt = none ∧ fills ≠ [])
    (.executionValidation "fill evidence requires a persisted submission marker")
  checkFillLifecycle intent order updateAt fills
  rejectIf (totalQuantity fills ≠ cumulativeQuantity)
    (.executionValidation "broker cumulative fill disagrees with unique fills")
  rejectIf (averagePrice ≠ meanPrice fills)
    (.executionValidation "broker average fill price disagrees with unique fills")

/-- The reported state and the cumulative fill agree with the intent's quantity. -/
def checkCumulativeFill (intent : OrderIntent) (update : BrokerUpdate) :
    Except PlatformError Unit := do
  rejectIf (intent.quantity < update.cumulativeFilledQuantity)
    (.executionValidation "broker cumulative fill exceeds order quantity")
  rejectIf (update.state = .filled ∧ update.cumulativeFilledQuantity ≠ intent.quantity)
    (.executionValidation "filled order must contain the complete intent quantity")
  rejectIf (update.state = .partiallyFilled ∧ ¬ (0 < update.cumulativeFilledQuantity ∧
      update.cumulativeFilledQuantity < intent.quantity))
    (.executionValidation "partial-fill state requires an incomplete positive fill")
  rejectIf (update.state ∈ [OrderState.submitted, .accepted, .pending, .rejected] ∧
      update.cumulativeFilledQuantity ≠ 0)
    (.executionValidation "unfilled broker state cannot contain fills")

/-- Each reported fill matches the intent and repeats no execution ID with other content. -/
def checkReportedFills (repo : MemoryExecutionRepository) (intent : OrderIntent) :
    List Fill → Except PlatformError Unit
  | [] => .ok ()
  | fill :: rest => do
      rejectIf (fillMatches intent fill = false)
        (.executionValidation "broker fill does not match its durable intent")
      rejectIf (∃ existing ∈ repo.fillTable.get? fill.brokerExecutionId, existing ≠ fill)
        (.executionValidation "broker execution ID was reused with new content")
      checkReportedFills repo intent rest

/-- The order's fills together with the reported ones; of an execution ID the last is taken. -/
def candidateFills (repo : MemoryExecutionRepository) (intent : OrderIntent)
    (update : BrokerUpdate) : List Fill :=
  (Dict.ofValues (·.brokerExecutionId)
    (repo.fillsForOrder intent.clientOrderId ++ update.fills)).values

/-- The checks of `apply_broker_update` that precede every write. -/
def validateBrokerUpdate (repo : MemoryExecutionRepository) (update : BrokerUpdate)
    (previous : BrokerOrder) (intent : OrderIntent) : Except PlatformError Unit := do
  rejectIf (previous.state = .intentCommitted)
    (.executionValidation "broker update arrived before submission started")
  checkCumulativeFill intent update
  rejectIf (∃ owner ∈ repo.brokerEventOwners.get? update.brokerEventId,
      owner ≠ update.clientOrderId)
    (.executionValidation "broker event ID was reused across orders")
  rejectIf (repo.orderTable.values.any fun o => decide (o.clientOrderId ≠ update.clientOrderId ∧
      o.brokerOrderId = some update.brokerOrderId))
    (.executionValidation "broker order ID was reused across intents")
  rejectIf (∃ id ∈ previous.brokerOrderId, update.brokerOrderId ≠ id)
    (.executionValidation "broker order ID cannot change once assigned")
  repo.checkReportedFills intent update.fills
  rejectIf (totalQuantity (repo.candidateFills intent update) ≠ update.cumulativeFilledQuantity)
    (.executionValidation "broker cumulative fill disagrees with unique fills")
  verifyFillEvidence intent previous (repo.candidateFills intent update)
    update.cumulativeFilledQuantity update.averageFillPrice update.occurredAt

/-- The update reports what the projection already holds. -/
def sameProjection (previous : BrokerOrder) (update : BrokerUpdate) : Bool :=
  decide (previous.brokerOrderId = some update.brokerOrderId ∧ previous.state = update.state ∧
    previous.cumulativeFilledQuantity = update.cumulativeFilledQuantity ∧
    previous.averageFillPrice = update.averageFillPrice ∧
    previous.safeErrorCode = update.safeErrorCode)

/-- The states in which a broker has accepted the order. -/
def acceptedStates : List OrderState :=
  [.accepted, .pending, .partiallyFilled, .filled, .cancelRequested, .canceled]

/-- The transition an update asks for. -/
def updateChange (previous : BrokerOrder) (update : BrokerUpdate) : OrderChange where
  state := update.state
  updatedAt := update.occurredAt
  brokerOrderId := some update.brokerOrderId
  acceptedAt :=
    if update.state ∈ acceptedStates ∧ previous.acceptedAt = none then some update.occurredAt
    else previous.acceptedAt
  cumulativeFilledQuantity := some update.cumulativeFilledQuantity
  averageFillPrice := update.averageFillPrice
  safeErrorCode := update.safeErrorCode

/-- What an update does to the order: nothing, or a transition that the fills follow. -/
inductive UpdateOutcome
  | unchanged (order : BrokerOrder)
  | transitioned (order : BrokerOrder) (intent : OrderIntent) (repo : MemoryExecutionRepository)

/-- `apply_broker_update` up to and including the order's transition. -/
def projectBrokerUpdate (repo : MemoryExecutionRepository) (update : BrokerUpdate) :
    Except PlatformError UpdateOutcome := do
  let previous ← repo.getOrder update.clientOrderId
  let intent ← repo.getIntent update.clientOrderId
  repo.validateBrokerUpdate update previous intent
  if sameProjection previous update = true then do
    rejectIf (update.fills.any fun f => !repo.fillTable.contains f.brokerExecutionId)
      (.executionValidation "unchanged broker projection cannot introduce new fill evidence")
    pure (.unchanged previous)
  else do
    let current ← previous.evolve (updateChange previous update)
    let stored ← repo.appendOrderTransition previous current (some update.brokerEventId) none
    pure (.transitioned current intent stored)

/-- The audit event of a new fill. -/
def fillAudit (repo : MemoryExecutionRepository) (intent : OrderIntent) (fill : Fill) :
    Except PlatformError AuditEvent := do
  let plan ← repo.getPlan intent.executionPlanId
  nextAudit repo.auditLog plan.experimentHash "fill.recorded" fill.occurredAt
    (fillRecordedPayload intent fill)

/-- Insert a fill. -/
def insertFill (repo : MemoryExecutionRepository) (fill : Fill) : MemoryExecutionRepository :=
  { repo with fillTable := repo.fillTable.set fill.brokerExecutionId fill }

/-- One iteration of the loop over the reported fills: a new fill is inserted before its audit event
is built, so an error of the audit leaves the fill in place. -/
def recordFill (intent : OrderIntent) (fill : Fill) :
    Exec MemoryExecutionRepository PlatformError Unit := fun repo =>
  if repo.fillTable.contains fill.brokerExecutionId then (.ok (), repo)
  else
    match (repo.insertFill fill).fillAudit intent fill with
    | .error e => (.error e, repo.insertFill fill)
    | .ok audit =>
        (.ok (), { repo.insertFill fill with auditLog := repo.auditLog ++ [audit] })

/-- `apply_broker_update`; `none` is a response that is not a broker update. -/
def applyBrokerUpdate (update : Option BrokerUpdate) :
    Exec MemoryExecutionRepository PlatformError BrokerOrder := fun repo =>
  match update with
  | none => (.error (.executionValidation "broker update is invalid"), repo)
  | some update =>
      match repo.projectBrokerUpdate update with
      | .error e => (.error e, repo)
      | .ok (.unchanged order) => (.ok order, repo)
      | .ok (.transitioned order intent stored) =>
          Exec.andThen (Exec.forEach (recordFill intent) update.fills)
            (fun _ => Exec.ret order) stored

/-! ## Reconciliation bundles -/

/-- `_normalized_positions`. -/
def normalizedPositions : Dict String ℚ → List Position → Except PlatformError (Dict String ℚ)
  | normalized, [] => .ok normalized
  | normalized, position :: rest => do
      rejectIf (normalized.contains position.symbol = true)
        (.executionValidation "positions contain a duplicate symbol")
      normalizedPositions
        (if position.quantity ≠ 0 then normalized.set position.symbol position.quantity
          else normalized) rest

/-- The experiment an order belongs to. -/
def orderExperiment (repo : MemoryExecutionRepository) (order : BrokerOrder) :
    Except PlatformError String := do
  let intent ← repo.getIntent order.clientOrderId
  let plan ← repo.getPlan intent.executionPlanId
  pure plan.experimentHash

/-- The request agrees with its plan and decision. -/
def checkReconciliationRequest (plan : ExecutionPlan) (decision : RiskDecision)
    (receipt : ReconciliationReceipt) (request : ReconciliationRequest) :
    Except PlatformError Unit := do
  let mismatch : PlatformError :=
    .executionValidation "reconciliation request does not match its execution plan"
  rejectIf (receipt.slotId ≠ some decision.slotId ∨
      request.executionPlanId ≠ some plan.executionPlanId ∨
      request.experimentHash ≠ plan.experimentHash ∨
      request.correlationId ≠ plan.correlationId ∨
      request.slotId ≠ some decision.slotId ∨
      request.activeSymbols ≠ decision.symbols ∨
      request.shortEligibleSymbols ≠ shortEligibleSymbols decision.securityMetadata) mismatch
  let baseline ← normalizedPositions Dict.empty request.baselinePositions
  let current ← normalizedPositions Dict.empty plan.currentPositions
  rejectIf (sortedBy Prod.fst baseline.entries ≠ sortedBy Prod.fst current.entries) mismatch
  rejectIf (request.baselineCash ≠ decision.accountSnapshot.cash ∨
      request.expectedAccountIdHash ≠ decision.accountSnapshot.accountIdHash ∨
      request.markPrices ≠ plan.referencePrices) mismatch

/-- The request with its local part replaced by the ledger's own records. -/
def authoritativeRequest (repo : MemoryExecutionRepository) (plan : ExecutionPlan)
    (decision : RiskDecision) (request : ReconciliationRequest) :
    Except PlatformError ReconciliationRequest := do
  let planIntents := repo.intentsForPlan plan.executionPlanId
  let planIds := planIntents.map (·.clientOrderId)
  let experiments ← collect repo.orderExperiment repo.allOrders
  let orders := ((repo.allOrders.zip experiments).filter
    fun o => o.2 = plan.experimentHash).map Prod.fst
  let orderIntents ← collect (fun o => repo.getIntent o.clientOrderId) orders
  let orderIds := orders.map (·.clientOrderId)
  ReconciliationRequest.create { request.toReconciliationRequestFields with
    activeSymbols := decision.symbols
    shortEligibleSymbols := shortEligibleSymbols decision.securityMetadata
    baselinePositions := plan.currentPositions
    baselineCash := decision.accountSnapshot.cash
    fills := repo.fills.filter fun f => f.clientOrderId ∈ planIds
    orderFills := repo.fills.filter fun f => f.clientOrderId ∈ orderIds
    intents := sortedBy (·.clientOrderId)
      (Dict.ofValues (·.clientOrderId) (planIntents ++ orderIntents)).values
    durableOrders := orders
    expectedAccountIdHash := decision.accountSnapshot.accountIdHash
    markPrices := plan.referencePrices }

/-- The idempotency key of a blocking receipt's incident. -/
def blockingIncidentKey (receipt : ReconciliationReceipt) : String :=
  "reconciliation:" ++ takeText 32 receipt.contentHash

/-- `_validate_reconciliation_controls`. -/
def validateReconciliationControls (repo : MemoryExecutionRepository)
    (receipt : ReconciliationReceipt) (latchEvent : Option RiskLatchEvent)
    (incident : Option Incident) : Except PlatformError Unit :=
  if receipt.status = .clean then
    rejectIf (latchEvent ≠ none ∨ incident ≠ none)
      (.executionValidation "clean reconciliation cannot create blocking controls")
  else do
    rejectIf (¬ ∃ i ∈ incident, i.experimentHash = receipt.experimentHash ∧
        i.correlationId = receipt.correlationId ∧ i.reasonCode = "reconciliation_blocking" ∧
        i.idempotencyKey = blockingIncidentKey receipt ∧ i.openedAt = receipt.completedAt)
      (.executionValidation "blocking reconciliation requires its exact incident")
    rejectIf (∃ e ∈ latchEvent, e.latchType ≠ .reconciliation ∨ e.action ≠ .engaged ∨
        e.correlationId ≠ receipt.correlationId ∨ e.reasonCode ≠ "reconciliation_blocking" ∨
        e.idempotencyKey ≠ "reconciliation_" ++ takeText 32 receipt.contentHash ∨
        e.occurredAt ≠ receipt.completedAt)
      (.executionValidation "blocking reconciliation latch evidence is invalid")
    let prospective := repo.latchEventTable.values ++ latchEvent.toList
    let state ← RiskLatchState.fromEvents receipt.experimentHash
      (prospective.filter fun e => decide (e.experimentHash = receipt.experimentHash ∧
        e.occurredAt ≤ receipt.completedAt))
    rejectIf (state.isActive .reconciliation = false)
      (.executionValidation "blocking reconciliation requires an active reconciliation latch")

/-- The identities a bundle brings along are new or already durable. -/
def checkBundleIdentities (repo : MemoryExecutionRepository) (receipt : ReconciliationReceipt)
    (latchEvent : Option RiskLatchEvent) (incident : Option Incident) :
    Except PlatformError Unit := do
  rejectIf (∃ e ∈ latchEvent, e.experimentHash ≠ receipt.experimentHash)
    (.executionValidation "reconciliation latch experiment mismatch")
  rejectIf (∃ e ∈ latchEvent, ∃ prior ∈ repo.latchEventTable.get? e.latchEventId, prior ≠ e)
    (.executionValidation "latch event identity was reused")
  rejectIf (∃ i ∈ incident, i.experimentHash ≠ receipt.experimentHash)
    (.executionValidation "reconciliation incident experiment mismatch")
  rejectIf (∃ i ∈ incident, ∃ keyed ∈ repo.incidentKeyTable.get? i.idempotencyKey, keyed ≠ i)
    (.executionValidation "incident idempotency key was reused")

/-- The writes of `record_reconciliation_bundle`. -/
def storeBundle (repo : MemoryExecutionRepository) (receipt : ReconciliationReceipt)
    (latchEvent : Option RiskLatchEvent) (incident : Option Incident) (audit : AuditEvent) :
    MemoryExecutionRepository :=
  let recorded := { repo with
    reconciliationTable := repo.reconciliationTable.set receipt.reconciliationId receipt
    latchEventTable := match latchEvent with
      | some e => repo.latchEventTable.setdefault e.latchEventId e
      | none => repo.latchEventTable }
  let stored := match incident with
    | some i => recorded.storeIncident i
    | none => recorded
  { stored with auditLog := stored.auditLog ++ [audit] }

/-- `record_reconciliation_bundle`. -/
def recordReconciliationBundle (repo : MemoryExecutionRepository)
    (receipt : ReconciliationReceipt) (request : ReconciliationRequest)
    (latchEvent : Option RiskLatchEvent) (incident : Option Incident) :
    Except PlatformError MemoryExecutionRepository := do
  repo.checkBundleIdentities receipt latchEvent incident
  let planId ← require receipt.executionPlanId (.executionValidation
    "persisted reconciliation requires an authoritative execution plan")
  let plan ← repo.getPlan planId
  rejectIf (plan.experimentHash ≠ receipt.experimentHash)
    (.executionValidation "reconciliation plan experiment mismatch")
  let decision ← require (repo.riskDecisionTable.get? plan.riskDecisionId)
    (.executionValidation "reconciliation plan has no signed risk authorization")
  checkReconciliationRequest plan decision receipt request
  let authoritative ← repo.authoritativeRequest plan decision request
  let recomputed ← reconcile authoritative
  rejectIf (recomputed ≠ receipt) (.executionValidation
    "reconciliation receipt does not match authoritative durable state")
  repo.validateReconciliationControls receipt latchEvent incident
  match repo.reconciliationTable.get? receipt.reconciliationId with
  | some existing => do
      rejectIf (existing ≠ receipt) (.executionValidation "reconciliation identity was reused")
      rejectIf (∃ i ∈ incident, repo.incidentTable.get? i.incidentId ≠ some i)
        (.executionValidation "reconciliation retry is missing incident evidence")
      pure repo
  | none => do
      let audit ← nextAudit repo.auditLog plan.experimentHash "reconciliation.completed"
        receipt.completedAt (reconciliationCompletedPayload receipt)
      pure (repo.storeBundle receipt latchEvent incident audit)

end MemoryExecutionRepository

end AdaptiveTrader
