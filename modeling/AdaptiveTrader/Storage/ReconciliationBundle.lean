import AdaptiveTrader.Storage.SignedRisk

/-!
# Reconciliation bundles

`recordReconciliationBundle` is the relational repository's record of one reconciliation: the
receipt and, when it is blocking, the latch event and the incident that block further orders, in one
transaction. The receipt is only accepted when reconciling the tables' own orders and fills gives it
again (`verifyReconciliationAuthority`).

A blocking receipt is not stored unless the reconciliation latch is engaged, and it is engaged
behind the call (`recordReconciliationBundle_engaged`).
-/

set_option autoImplicit false

namespace AdaptiveTrader.Storage

open Foundation

section Validation

variable [ContentHasher]

/-- `_validate_reconciliation_bundle`. -/
def validateReconciliationBundle (receipt : ReconciliationReceipt)
    (latchEvent : Option RiskLatchEvent) (incident : Option Incident) :
    Except PlatformError Unit := do
  rejectIf (∃ e ∈ latchEvent, e.experimentHash ≠ receipt.experimentHash ∨
      e.latchType ≠ .reconciliation ∨ e.action ≠ .engaged ∨
      e.correlationId ≠ receipt.correlationId ∨ e.reasonCode ≠ "reconciliation_blocking" ∨
      e.idempotencyKey ≠ "reconciliation_" ++ takeText 32 receipt.contentHash ∨
      e.occurredAt ≠ receipt.completedAt)
    (.executionValidation "reconciliation latch does not match receipt")
  rejectIf (∃ i ∈ incident, i.experimentHash ≠ receipt.experimentHash ∨
      i.correlationId ≠ receipt.correlationId ∨ i.reasonCode ≠ "reconciliation_blocking" ∨
      i.idempotencyKey ≠ MemoryExecutionRepository.blockingIncidentKey receipt ∨
      i.openedAt ≠ receipt.completedAt)
    (.executionValidation "reconciliation incident does not match receipt")
  match receipt.status with
  | .blocking =>
      rejectIf (incident = none)
        (.executionValidation "blocking reconciliation requires an incident")
  | .clean =>
      rejectIf (latchEvent ≠ none ∨ incident ≠ none)
        (.executionValidation "clean reconciliation cannot create blocking controls")

end Validation

namespace ExecutionDatabase

variable [ContentHasher] {ρ : Type}

/-! ## The authority of a receipt -/

/-- The request agrees with the plan, the decision and the receipt. -/
def checkReconciliationRequest (plan : ExecutionPlan) (decision : RiskDecision)
    (receipt : ReconciliationReceipt) (request : ReconciliationRequest) :
    Except PlatformError Unit := do
  let mismatch : PlatformError :=
    .executionPersistence "reconciliation request does not match its execution authority"
  rejectIf (receipt.experimentHash ≠ plan.experimentHash ∨ receipt.slotId ≠ some decision.slotId ∨
      receipt.correlationId ≠ plan.correlationId ∨
      request.executionPlanId ≠ some plan.executionPlanId ∨
      request.experimentHash ≠ plan.experimentHash ∨ request.slotId ≠ some decision.slotId ∨
      request.correlationId ≠ plan.correlationId ∨ request.activeSymbols ≠ decision.symbols ∨
      request.shortEligibleSymbols ≠ shortEligibleSymbols decision.securityMetadata) mismatch
  let baseline ← MemoryExecutionRepository.normalizedPositions Dict.empty request.baselinePositions
  let current ← MemoryExecutionRepository.normalizedPositions Dict.empty plan.currentPositions
  rejectIf (sortedBy Prod.fst baseline.entries ≠ sortedBy Prod.fst current.entries) mismatch
  rejectIf (request.baselineCash ≠ decision.accountSnapshot.cash ∨
      request.expectedAccountIdHash ≠ decision.accountSnapshot.accountIdHash ∨
      request.markPrices ≠ plan.referencePrices) mismatch

/-- An order with its intent when it belongs to the experiment; its history is verified then. -/
def authoritativeOrder (db : ExecutionDatabase) (experimentHash : String) (order : BrokerOrder) :
    Except PlatformError (Option (BrokerOrder × OrderIntent)) := do
  let intent ← db.requiredIntent order.clientOrderId
  match db.plans.get? intent.executionPlanId with
  | some owner =>
      if owner.experimentHash = experimentHash then do
        db.verifyOrderHistory order intent
        pure (some (order, intent))
      else pure none
  | none => pure none

/-- The request with its local part read from the tables. -/
def authoritativeRequest (db : ExecutionDatabase) (plan : ExecutionPlan) (decision : RiskDecision)
    (planIntents : List OrderIntent) (request : ReconciliationRequest) :
    Except PlatformError ReconciliationRequest := do
  let owned ← collect (db.authoritativeOrder plan.experimentHash) db.orders.valuesByKey
  let orders := owned.reduceOption
  ReconciliationRequest.create { request.toReconciliationRequestFields with
    activeSymbols := decision.symbols
    shortEligibleSymbols := shortEligibleSymbols decision.securityMetadata
    baselinePositions := plan.currentPositions
    baselineCash := decision.accountSnapshot.cash
    fills := planIntents.flatMap fun i => db.fillsForOrder i.clientOrderId
    orderFills := orders.flatMap fun o => db.fillsForOrder o.1.clientOrderId
    intents := (Dict.ofValues (·.clientOrderId) (planIntents ++ orders.map Prod.snd)).valuesByKey
    durableOrders := orders.map Prod.fst
    expectedAccountIdHash := decision.accountSnapshot.accountIdHash
    markPrices := plan.referencePrices }

/-- `_verify_reconciliation_authority`. -/
def verifyReconciliationAuthority (db : ExecutionDatabase) (receipt : ReconciliationReceipt)
    (request : ReconciliationRequest) : Except PlatformError Unit := do
  let planId ← require receipt.executionPlanId (.executionPersistence
    "persisted reconciliation requires an authoritative execution plan")
  let plan ← require (db.plans.get? planId)
    (.executionPersistence "reconciliation execution plan does not exist")
  let planIntents := db.intentsForPlan plan.executionPlanId
  db.verifyAuthorizedBundle plan planIntents
  let decision ← db.authoritativeRiskDecision plan
  checkReconciliationRequest plan decision receipt request
  let authoritative ← db.authoritativeRequest plan decision planIntents request
  let recomputed ← reconcile authoritative
  rejectIf (recomputed ≠ receipt) (.executionPersistence
    "reconciliation receipt does not match authoritative durable state")

/-! ## Writes -/

/-- `_append_latch`, when there is an event. -/
def appendLatch (append : AuditAppend ρ) (latchEvent : Option RiskLatchEvent)
    (db : ExecutionDatabase) : StateT ρ (Except PlatformError) ExecutionDatabase :=
  match latchEvent with
  | some event => appendLatchEvent .executionPersistence "latch identity was reused" append event db
  | none => pure db

/-- The incident with an idempotency key. -/
def incidentByKey? (db : ExecutionDatabase) (idempotencyKey : String) : Option Incident :=
  db.incidents.values.find? fun i => i.idempotencyKey = idempotencyKey

/-- `_append_incident`, when there is one. -/
def appendIncident (incident : Option Incident) (db : ExecutionDatabase) :
    Except PlatformError ExecutionDatabase :=
  match incident with
  | none => pure db
  | some incident =>
      match db.incidentByKey? incident.idempotencyKey with
      | some existing => do
          rejectIf (existing ≠ incident)
            (.executionPersistence "incident idempotency key was reused")
          pure db
      | none => do
          rejectIf (db.incidents.contains incident.incidentId = true)
            (.sqlIntegrity "aqa_incidents")
          pure { db with incidents := db.incidents.set incident.incidentId incident }

/-- Insert a receipt: its bounded columns. -/
def insertReconciliation (receipt : ReconciliationReceipt) (db : ExecutionDatabase) :
    Except PlatformError ExecutionDatabase := do
  rejectIf (([receipt.expectedCash, receipt.observedCash, receipt.expectedEquity,
      receipt.observedEquity].any fun q => !fitsNumeric q) = true)
    (.domainValidation "database numeric value exceeds its precision or scale")
  pure { db with
    reconciliations := db.reconciliations.set receipt.reconciliationId receipt }

/-- The reconciliation latch of the experiment is engaged. -/
def requireReconciliationLatch (message : String) (receipt : ReconciliationReceipt)
    (db : ExecutionDatabase) : Except PlatformError Unit :=
  if receipt.status = .blocking then do
    let state ← db.latchState receipt.experimentHash
    rejectIf (state.isActive .reconciliation = false) (.executionPersistence message)
  else pure ()

/-- `_verify_existing_bundle`. -/
def verifyExistingBundle (db : ExecutionDatabase) (receipt : ReconciliationReceipt)
    (latchEvent : Option RiskLatchEvent) (incident : Option Incident) :
    Except PlatformError Unit := do
  rejectIf (∃ e ∈ latchEvent, e ∉ db.latchEvents e.experimentHash)
    (.executionPersistence "reconciliation retry is missing latch evidence")
  rejectIf (∃ i ∈ incident, db.incidentByKey? i.idempotencyKey ≠ some i)
    (.executionPersistence "reconciliation retry is missing incident evidence")
  requireReconciliationLatch "reconciliation retry is missing its active latch" receipt db

/-- The incident and the receipt of a bundle, once its latch event is stored. -/
def storeReconciliation (receipt : ReconciliationReceipt) (incident : Option Incident)
    (db : ExecutionDatabase) : Except PlatformError ExecutionDatabase := do
  requireReconciliationLatch "blocking reconciliation requires an active latch" receipt db
  let db ← appendIncident incident db
  insertReconciliation receipt db

/-- The audit event of a recorded reconciliation. -/
def appendReconciliationAudit (append : AuditAppend ρ) (receipt : ReconciliationReceipt) :
    StateT ρ (Except PlatformError) Unit := do
  let payload ← StateT.lift
    (AuditPayload.fromMapping (MemoryExecutionRepository.reconciliationCompletedPayload receipt))
  append (executionStream receipt.experimentHash) "reconciliation.completed" receipt.completedAt
    payload

/-- `record_reconciliation_bundle` inside its transaction. -/
def recordReconciliationBundle (append : AuditAppend ρ) (receipt : ReconciliationReceipt)
    (request : ReconciliationRequest) (latchEvent : Option RiskLatchEvent)
    (incident : Option Incident) (db : ExecutionDatabase) :
    StateT ρ (Except PlatformError) ExecutionDatabase := do
  let _ ← StateT.lift (db.verifyReconciliationAuthority receipt request)
  match db.reconciliations.get? receipt.reconciliationId with
  | some existing => StateT.lift do
      rejectIf (existing ≠ receipt)
        (.executionPersistence "reconciliation identity was reused")
      db.verifyExistingBundle receipt latchEvent incident
      pure db
  | none => do
      let latched ← appendLatch append latchEvent db
      let stored ← StateT.lift (storeReconciliation receipt incident latched)
      let _ ← appendReconciliationAudit append receipt
      pure stored

/-! ## The locks of a call -/

section Locks

variable (keys : LockKeys)

/-- The audit locks of `record_reconciliation_bundle`, in the order in which it takes them. -/
def bundleLocks (receipt : ReconciliationReceipt) (latchEvent : Option RiskLatchEvent)
    (db : ExecutionDatabase) : List PostgresAdvisoryLockRequest :=
  match db.reconciliations.get? receipt.reconciliationId with
  | some _ => []
  | none => latchLocks keys latchEvent.toList db ++
      [keys.request .audit (executionStream receipt.experimentHash)]

variable {keys} {locks : List PostgresAdvisoryLockRequest} {db : ExecutionDatabase}

theorem appendLatch_takesLocks (latchEvent : Option RiskLatchEvent) :
    TakesLocks locks (latchLocks keys latchEvent.toList db)
      (appendLatch (executionAppendLocked keys) latchEvent db)
      (appendLatch executionAppend latchEvent db) := by
  cases latchEvent with
  | none => exact TakesLocks.pure db
  | some event =>
      have hone := @appendLatchEvent_takesLocks _ keys locks db .executionPersistence
        "latch identity was reused" event
      have hlist : latchLocks keys (Option.toList (some event)) db =
          if db.matchingLatch? event = none then [latchLock keys event] else [] := by
        simp only [Option.toList, latchLocks]
        cases db.matchingLatch? event <;> rfl
      rw [hlist]
      exact hone

/-- The bundle takes the audit lock of its new latch event, then that of the experiment. -/
theorem recordReconciliationBundle_takesLocks (receipt : ReconciliationReceipt)
    (request : ReconciliationRequest) (latchEvent : Option RiskLatchEvent)
    (incident : Option Incident) :
    TakesLocks locks (bundleLocks keys receipt latchEvent db)
      (recordReconciliationBundle (executionAppendLocked keys) receipt request latchEvent incident db)
      (recordReconciliationBundle executionAppend receipt request latchEvent incident db) := by
  unfold recordReconciliationBundle
  refine TakesLocks.lift_bind fun _ _ => ?_
  unfold bundleLocks
  cases db.reconciliations.get? receipt.reconciliationId with
  | some existing => exact TakesLocks.lift _
  | none =>
      refine (appendLatch_takesLocks latchEvent).bind fun latched _ => ?_
      refine TakesLocks.lift_bind fun stored _ => ?_
      have haudit : TakesLocks (locks ++ latchLocks keys latchEvent.toList db)
          [keys.request .audit (executionStream receipt.experimentHash)]
          (appendReconciliationAudit (executionAppendLocked keys) receipt)
          (appendReconciliationAudit executionAppend receipt) :=
        TakesLocks.lift_bind fun payload _ => executionAppendLocked_takesLocks keys _ _ _ _ payload
      have hend := haudit.bind fun _ _ => TakesLocks.pure stored
      rwa [List.append_nil] at hend

end Locks

/-! ## The latch of a blocking receipt -/

section Engaged

variable {append : AuditAppend ρ} {db stored : ExecutionDatabase} {s s' : ρ}
  {receipt : ReconciliationReceipt} {request : ReconciliationRequest}
  {latchEvent : Option RiskLatchEvent} {incident : Option Incident}

theorem requireReconciliationLatch_eq_ok {message : String} (hblocking : receipt.status = .blocking)
    (h : requireReconciliationLatch message receipt db = .ok ()) :
    ∃ state, db.latchState receipt.experimentHash = .ok state ∧
      .reconciliation ∈ state.active := by
  rw [requireReconciliationLatch, if_pos hblocking, bind_eq_ok] at h
  obtain ⟨state, hstate, hactive⟩ := h
  rw [rejectIf_eq_ok, Bool.not_eq_false, RiskLatchState.isActive, decide_eq_true_eq] at hactive
  exact ⟨state, hstate, hactive⟩

theorem appendIncident_latches (h : appendIncident incident db = .ok stored) :
    stored.latches = db.latches := by
  cases incident with
  | none =>
      cases h
      rfl
  | some incident =>
      unfold appendIncident at h
      cases hkey : db.incidentByKey? incident.idempotencyKey with
      | some existing =>
          simp only [hkey, bind_eq_ok, pure_eq_ok] at h
          obtain ⟨_, -, rfl⟩ := h
          rfl
      | none =>
          simp only [hkey, bind_eq_ok, pure_eq_ok] at h
          obtain ⟨_, -, rfl⟩ := h
          rfl

theorem storeReconciliation_latches (h : storeReconciliation receipt incident db = .ok stored) :
    stored.latches = db.latches := by
  simp only [storeReconciliation, insertReconciliation, bind_eq_ok, pure_eq_ok] at h
  obtain ⟨_, -, recorded, hrecorded, _, -, rfl⟩ := h
  exact (appendIncident_latches hrecorded : recorded.latches = db.latches)

/-- Behind a successful call for a blocking receipt, the reconciliation latch is engaged. -/
theorem recordReconciliationBundle_engaged (hblocking : receipt.status = .blocking)
    (h : recordReconciliationBundle append receipt request latchEvent incident db s =
      .ok (stored, s')) :
    ∃ state, stored.latchState receipt.experimentHash = .ok state ∧
      .reconciliation ∈ state.active := by
  simp only [recordReconciliationBundle, stateT_bind_eq_ok, stateT_lift_eq_ok] at h
  obtain ⟨_, _, -, h⟩ := h
  cases hrow : db.reconciliations.get? receipt.reconciliationId with
  | some existing =>
      simp only [hrow, stateT_lift_eq_ok, verifyExistingBundle, bind_eq_ok, pure_eq_ok] at h
      obtain ⟨⟨_, -, _, ⟨_, -, _, -, hlatch⟩, rfl⟩, -⟩ := h
      exact requireReconciliationLatch_eq_ok hblocking hlatch
  | none =>
      simp only [hrow, stateT_bind_eq_ok, stateT_lift_eq_ok, stateT_pure_eq_ok,
        Prod.mk.injEq] at h
      obtain ⟨latched, _, -, recorded, _, ⟨hrecorded, -⟩, _, _, -, rfl, -⟩ := h
      have hlatches := storeReconciliation_latches hrecorded
      simp only [storeReconciliation, bind_eq_ok] at hrecorded
      obtain ⟨_, hlatch, -⟩ := hrecorded
      obtain ⟨state, hstate, hactive⟩ := requireReconciliationLatch_eq_ok hblocking hlatch
      refine ⟨state, ?_, hactive⟩
      unfold latchState latchEvents at hstate ⊢
      rw [hlatches]
      exact hstate

end Engaged

end ExecutionDatabase

end AdaptiveTrader.Storage
