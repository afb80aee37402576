import AdaptiveTrader.Locks.AuditLocks
import AdaptiveTrader.Storage.ExecutionTables

/-!
# The signed-risk repository

`persist` appends the latch events a decision requires, then stores the decision, in one
transaction. Each new latch event and the decision leave an event in an audit stream of their own;
`persist` is written over the way these events are appended, so that the same definition runs with
and without advisory locks.

What a successful call establishes is that the latches a decision counts as engaged are engaged in
the tables (`persist_latchState`).
-/

set_option autoImplicit false

namespace AdaptiveTrader.Storage

open Foundation

/-- The audit stream of one latch of an experiment. -/
def latchAuditStream (experimentHash : String) (latchType : RiskLatchKind) : String :=
  "aqa_execution:latch:" ++ experimentHash ++ ":" ++ latchType.value

/-- The audit stream of an experiment's decisions. -/
def riskAuditStream (experimentHash : String) : String := "aqa_execution:risk:" ++ experimentHash

section Audit

variable [ContentHasher] {ρ : Type}

def latchAuditPayload (event : RiskLatchEvent) : List (String × Canonical) :=
  [("event_ids", .texts [event.latchEventId]),
    ("idempotency_key", .text event.latchEventId),
    ("reason_code", .text event.reasonCode),
    ("sequence", .int event.sequence)]

def RiskLatchAction.auditEventType : RiskLatchAction → String
  | .engaged => "latch.engaged"
  | .cleared => "latch.cleared"

/-- `_append_latch_audit`. -/
def appendLatchAudit (append : AuditAppend ρ) (event : RiskLatchEvent) :
    StateT ρ (Except PlatformError) Unit := do
  let payload ← StateT.lift (AuditPayload.fromMapping (latchAuditPayload event))
  append (latchAuditStream event.experimentHash event.latchType)
    (RiskLatchAction.auditEventType event.action) event.occurredAt payload

def decisionAuditPayload (decision : RiskDecision) : List (String × Canonical) :=
  [("content_hash", .text decision.contentHash),
    ("idempotency_key", .text decision.riskDecisionId),
    ("risk_decision_id", .text decision.riskDecisionId),
    ("signal_id", .text decision.signalId)]

/-- `_append_decision_audit`. -/
def appendDecisionAudit (append : AuditAppend ρ) (decision : RiskDecision) :
    StateT ρ (Except PlatformError) Unit := do
  let payload ← StateT.lift (AuditPayload.fromMapping (decisionAuditPayload decision))
  append (riskAuditStream decision.experimentHash) "risk.decision_created" decision.decidedAt payload

end Audit

namespace ExecutionDatabase

variable [ContentHasher] {ρ : Type}

/-! ## Latch appends -/

/-- The stored event of an experiment that has the ID of another, or its idempotency key in the
same stream. -/
def matchingLatch? (db : ExecutionDatabase) (event : RiskLatchEvent) : Option RiskLatchEvent :=
  (db.latchEvents event.experimentHash).find? fun prior =>
    decide (prior.latchEventId = event.latchEventId ∨
      (prior.latchType = event.latchType ∧ prior.idempotencyKey = event.idempotencyKey))

/-- Insert a latch event: the bound of its sequence column, its key and its unique columns. -/
def insertLatch (db : ExecutionDatabase) (event : RiskLatchEvent) :
    Except PlatformError ExecutionDatabase := do
  rejectIf (maxSigned64BitInteger < event.sequence) (.sqlIntegrity "aqa_risk_latch_events")
  rejectIf (∃ e ∈ db.latches, e.latchEventId = event.latchEventId ∨
      (e.experimentHash = event.experimentHash ∧ e.latchType = event.latchType ∧
        (e.sequence = event.sequence ∨ e.idempotencyKey = event.idempotencyKey)))
    (.sqlIntegrity "aqa_risk_latch_events")
  pure { db with latches := db.latches ++ [event] }

/-- The append of a latch event as both repositories write it. `persistenceError` is what the
repository raises; `reused` is its text for an identity with other content. -/
def appendLatchEvent (persistenceError : String → PlatformError) (reused : String)
    (append : AuditAppend ρ) (event : RiskLatchEvent) (db : ExecutionDatabase) :
    StateT ρ (Except PlatformError) ExecutionDatabase :=
  match db.matchingLatch? event with
  | some prior => StateT.lift do
      rejectIf (prior ≠ event) (persistenceError reused)
      pure db
  | none => do
      let stored ← StateT.lift do
        let before ← db.latchState event.experimentHash
        rejectIf (event.sequence ≠ before.nextSequence event.latchType)
          (persistenceError "latch event sequence is stale or noncontiguous")
        let _ ← RiskLatchState.fromEvents event.experimentHash
          (db.latchEvents event.experimentHash ++ [event])
        db.insertLatch event
      appendLatchAudit append event
      pure stored

/-- `SignedRiskRepository._append_latch_on_connection`. -/
def appendLatchOnConnection (append : AuditAppend ρ) (event : RiskLatchEvent)
    (db : ExecutionDatabase) : StateT ρ (Except PlatformError) ExecutionDatabase :=
  appendLatchEvent .riskPersistence "latch identity already has different content" append event db

/-- The latch events a decision requires, appended one after another. -/
def appendRequired (append : AuditAppend ρ) : List RiskLatchEvent → ExecutionDatabase →
    StateT ρ (Except PlatformError) ExecutionDatabase
  | [], db => pure db
  | required :: rest, db => do
      let db ← appendLatchOnConnection append required db
      appendRequired append rest db

/-! ## Decisions -/

/-- Insert a decision. Its signal exists, and with it the slot and the experiment it names. -/
def insertDecision (db : ExecutionDatabase) (row : RiskDecisionRow) :
    Except PlatformError ExecutionDatabase := do
  let d := row.decision
  rejectIf (maxSigned64BitInteger < d.policyVersion ∨ 64 < d.policyId.toList.length)
    (.sqlIntegrity "aqa_risk_decisions")
  rejectIf (¬ (fitsNumeric d.afterExposure.gross = true ∧ fitsNumeric d.afterExposure.net = true ∧
      fitsNumeric (1 - d.afterExposure.gross) = true))
    (.domainValidation "database numeric value exceeds its precision or scale")
  rejectIf (∃ r ∈ db.decisions, r.decision.riskDecisionId = d.riskDecisionId ∨
      r.decision.contentHash = d.contentHash ∨
      (r.decision.signalId = d.signalId ∧ r.executionStage = row.executionStage))
    (.sqlIntegrity "aqa_risk_decisions")
  pure { db with decisions := db.decisions ++ [row] }

/-- A symbol's quantity in a list of positions; the last entry of a symbol counts. -/
def positionQuantity? (pairs : List (String × ℚ)) (symbol : String) : Option ℚ :=
  (pairs.reverse.find? fun p => p.1 = symbol).map Prod.snd

/-- The symbols whose target has the opposite sign of the current position. -/
def reversedSymbols (plan : ExecutionPlan) : Except PlatformError (List String) := do
  let current := positionPairs plan.currentPositions
  let marked ← collect (fun target : Position => do
    let quantity ← require (positionQuantity? current target.symbol)
      (.riskPersistence "risk decision could not be persisted")
    pure (target.symbol, decide (quantity * target.quantity < 0))) plan.targetQuantities
  pure ((marked.filter (·.2)).map Prod.fst)

/-- Two lists of positions are equal as tables of nonzero quantities. -/
def sameNonzeroPositions (a b : List (String × ℚ)) : Bool :=
  (a ++ b).all fun p =>
    decide ((positionQuantity? a p.1).getD 0 = (positionQuantity? b p.1).getD 0)

/-- `_verify_continuation`. -/
def verifyContinuation (db : ExecutionDatabase) (decision : RiskDecision) (receiptId : String) :
    Except PlatformError Unit := do
  let unavailable : PlatformError := .riskPersistence "reversal close evidence is unavailable"
  let found ← db.decisionForSignal decision.signalId 1
  let prior ← require found unavailable
  let receipt ← require (db.reconciliations.get? receiptId) unavailable
  let plan ← require (receipt.executionPlanId.bind db.plans.get?)
    (.riskPersistence "reversal close plan is unavailable")
  let reversed ← reversedSymbols plan
  let observed := positionPairs receipt.observedPositions
  let planning := decision.planningPositions.map fun p => (p.symbol, p.quantity)
  let states := (db.orders.values.filter fun o => (db.intents.get? o.clientOrderId).any fun i =>
    decide (i.executionPlanId = plan.executionPlanId)).map (·.state)
  let reconciledAt := ((decision.sourceTimestamps.reverse.find? fun t =>
    t.1 = "reconciliation").map Prod.snd).getD prior.decidedAt
  let freshTimes := decision.accountSnapshot.observedAt ::
    decision.planningPrices.map (·.observedAt) ++ decision.securityMetadata.map (·.observedAt) ++
      [reconciledAt]
  rejectIf (plan.riskDecisionId ≠ prior.riskDecisionId ∨ plan.targetVersion ≠ 1 ∨
      plan.forcedFlat = true ∨ reversed = [] ∨ receipt.status ≠ .clean ∨
      receipt.slotId ≠ some decision.slotId ∨ receipt.experimentHash ≠ decision.experimentHash ∨
      receipt.correlationId ≠ decision.correlationId ∨
      (reversed.any fun s => decide (1 / 1000000 < |(positionQuantity? observed s).getD 0|)) ∨
      states = [] ∨ (states.any fun s => decide (s ≠ .filled)) ∨
      sameNonzeroPositions planning observed = false ∨
      decision.accountSnapshot.accountIdHash ≠ receipt.accountIdHash ∨
      1 / 100 < |decision.accountSnapshot.cash - receipt.observedCash| ∨
      ¬ (receipt.completedAt < decision.decidedAt ∧ decision.decidedAt < plan.deadlineAt) ∨
      (freshTimes.any fun t => decide (t < receipt.completedAt)))
    (.riskPersistence "reversal continuation lacks fresh reconciled authority")

/-- The stage a decision is stored for. -/
def executionStage (precedingReconciliationId : Option String) : Nat :=
  if precedingReconciliationId = none then 1 else 2

/-- The checks of `persist` on a decision that has no row yet. -/
def checkNewDecision (decision : RiskDecision) (precedingReconciliationId : Option String)
    (db : ExecutionDatabase) : Except PlatformError Unit := do
  db.verifySignal decision
  match precedingReconciliationId with
  | some receiptId => db.verifyContinuation decision receiptId
  | none => pure ()
  let before ← db.latchState decision.experimentHash
  rejectIf (before.contentHash ≠ decision.latchStateHash)
    (.riskPersistence "risk decision was evaluated from stale latch state")

/-- The known events and the required ones that are not among them. -/
def withRequired (events required : List RiskLatchEvent) : List RiskLatchEvent :=
  required.foldl (fun events e => if e ∈ events then events else events ++ [e]) events

/-- The row of a decision whose latches are stored. -/
def storeDecision (decision : RiskDecision) (precedingReconciliationId : Option String)
    (events : List RiskLatchEvent) (db : ExecutionDatabase) :
    Except PlatformError ExecutionDatabase := do
  let after ← RiskLatchState.fromEvents decision.experimentHash
    (withRequired events decision.requiredLatchEvents)
  rejectIf (after.active ≠ decision.activeLatches)
    (.riskPersistence "risk decision active latches do not match persistence")
  db.insertDecision ⟨decision, executionStage precedingReconciliationId, precedingReconciliationId⟩

/-- `persist` inside its transaction. -/
def persist (append : AuditAppend ρ) (decision : RiskDecision)
    (precedingReconciliationId : Option String) (db : ExecutionDatabase) :
    StateT ρ (Except PlatformError) ExecutionDatabase := do
  let stage := executionStage precedingReconciliationId
  let found ← StateT.lift (db.decisionForSignal decision.signalId stage)
  match found with
  | some existing => StateT.lift do
      rejectIf (existing ≠ decision)
        (.riskPersistence "signal already has a different risk decision")
      pure db
  | none => do
      let _ ← StateT.lift (checkNewDecision decision precedingReconciliationId db)
      let latched ← appendRequired append decision.requiredLatchEvents db
      let stored ← StateT.lift (storeDecision decision precedingReconciliationId
        (db.latchEvents decision.experimentHash) latched)
      let _ ← appendDecisionAudit append decision
      StateT.lift do
        let reread ← stored.decisionForSignal decision.signalId stage
        rejectIf (reread ≠ some decision)
          (.riskPersistence "persisted risk decision failed verification")
        pure stored

/-- A decision is found exactly when there is a row for it. -/
theorem isSome_of_decisionForSignal {db : ExecutionDatabase} {signalId : String} {stage : Nat}
    {found : Option RiskDecision} (h : db.decisionForSignal signalId stage = .ok found) :
    found.isSome = (db.decisionRow? signalId stage).isSome := by
  unfold decisionForSignal at h
  cases hrow : db.decisionRow? signalId stage with
  | none =>
      rw [hrow] at h
      cases h
      rfl
  | some row =>
      simp only [hrow, verifiedDecision, bind_eq_ok, pure_eq_ok] at h
      obtain ⟨decision, -, rfl⟩ := h
      rfl

/-! ## The locks of a call -/

section Locks

variable (keys : LockKeys)

/-- The lock of a latch's audit stream. -/
def latchLock (event : RiskLatchEvent) : PostgresAdvisoryLockRequest :=
  keys.request .audit (latchAuditStream event.experimentHash event.latchType)

/-- The audit locks of the required latch events that have no match yet, in their order. -/
def latchLocks : List RiskLatchEvent → ExecutionDatabase → List PostgresAdvisoryLockRequest
  | [], _ => []
  | required :: rest, db =>
      match db.matchingLatch? required with
      | some _ => latchLocks rest db
      | none => latchLock keys required :: latchLocks rest { db with latches := db.latches ++ [required] }

/-- The audit locks of `persist`, in the order in which it takes them. -/
def persistLocks (decision : RiskDecision) (precedingReconciliationId : Option String)
    (db : ExecutionDatabase) : List PostgresAdvisoryLockRequest :=
  match db.decisionRow? decision.signalId (executionStage precedingReconciliationId) with
  | some _ => []
  | none => latchLocks keys decision.requiredLatchEvents db ++
      [keys.request .audit (riskAuditStream decision.experimentHash)]

variable {keys} {locks : List PostgresAdvisoryLockRequest} {db : ExecutionDatabase}

theorem appendLatchAudit_takesLocks (event : RiskLatchEvent) :
    TakesLocks locks [latchLock keys event] (appendLatchAudit (executionAppendLocked keys) event)
      (appendLatchAudit executionAppend event) :=
  TakesLocks.lift_bind fun payload _ => executionAppendLocked_takesLocks keys locks _ _ _ payload

theorem insertLatch_eq_ok {event : RiskLatchEvent} {stored : ExecutionDatabase}
    (h : db.insertLatch event = .ok stored) :
    stored = { db with latches := db.latches ++ [event] } := by
  simp only [insertLatch, rejectIf_bind_eq_ok, pure_eq_ok] at h
  exact h.2.2.symm

/-- The append of an event takes the lock of its stream, unless the event has a match. -/
theorem appendLatchEvent_takesLocks {persistenceError : String → PlatformError} {reused : String}
    (event : RiskLatchEvent) :
    TakesLocks locks (if db.matchingLatch? event = none then [latchLock keys event] else [])
      (appendLatchEvent persistenceError reused (executionAppendLocked keys) event db)
      (appendLatchEvent persistenceError reused executionAppend event db) := by
  unfold appendLatchEvent
  cases db.matchingLatch? event with
  | some prior => exact TakesLocks.lift _
  | none =>
      refine TakesLocks.lift_bind fun stored _ => ?_
      rw [if_pos rfl]
      have hend := (@appendLatchAudit_takesLocks _ keys locks event).bind
        fun _ _ => TakesLocks.pure stored
      rwa [List.append_nil] at hend

/-- What an append leaves in the tables. -/
theorem appendLatchEvent_eq_ok {persistenceError : String → PlatformError} {reused : String}
    {append : AuditAppend ρ} {event : RiskLatchEvent} {stored : ExecutionDatabase} {s s' : ρ}
    (h : appendLatchEvent persistenceError reused append event db s = .ok (stored, s')) :
    (db.matchingLatch? event = some event ∧ stored = db) ∨
      (db.matchingLatch? event = none ∧
        stored = { db with latches := db.latches ++ [event] }) := by
  unfold appendLatchEvent at h
  cases hmatch : db.matchingLatch? event with
  | some prior =>
      simp only [hmatch, stateT_lift_eq_ok, rejectIf_bind_eq_ok, not_not, pure_eq_ok] at h
      obtain ⟨⟨rfl, hstored⟩, -⟩ := h
      exact Or.inl ⟨rfl, hstored.symm⟩
  | none =>
      simp only [hmatch, stateT_bind_eq_ok, stateT_lift_eq_ok, bind_eq_ok, stateT_pure_eq_ok,
        Prod.mk.injEq] at h
      obtain ⟨inserted, _, ⟨⟨_, -, _, -, _, -, hinsert⟩, -⟩, _, _, -, rfl, -⟩ := h
      exact Or.inr ⟨rfl, insertLatch_eq_ok hinsert⟩

theorem appendRequired_takesLocks {required : List RiskLatchEvent} :
    TakesLocks locks (latchLocks keys required db)
      (appendRequired (executionAppendLocked keys) required db)
      (appendRequired executionAppend required db) := by
  induction required generalizing db locks with
  | nil => exact TakesLocks.pure db
  | cons event rest ih =>
      have hfirst := @appendLatchEvent_takesLocks _ keys locks db .riskPersistence
        "latch identity already has different content" event
      unfold appendRequired latchLocks appendLatchOnConnection
      cases hmatch : db.matchingLatch? event with
      | some prior =>
          rw [hmatch, if_neg (by simp)] at hfirst
          refine hfirst.bind fun stored hstored => ?_
          obtain ⟨s, s', hok⟩ := hstored
          rcases appendLatchEvent_eq_ok hok with ⟨-, rfl⟩ | ⟨hnone, -⟩
          · rw [List.append_nil]
            exact ih
          · rw [hmatch] at hnone
            cases hnone
      | none =>
          rw [hmatch, if_pos rfl] at hfirst
          refine hfirst.bind fun stored hstored => ?_
          obtain ⟨s, s', hok⟩ := hstored
          rcases appendLatchEvent_eq_ok hok with ⟨hsome, -⟩ | ⟨-, rfl⟩
          · rw [hmatch] at hsome
            cases hsome
          · exact ih

/-- `persist` takes the audit locks of its new latch events, then that of the decision. -/
theorem persist_takesLocks (decision : RiskDecision) (precedingReconciliationId : Option String) :
    TakesLocks locks (persistLocks keys decision precedingReconciliationId db)
      (persist (executionAppendLocked keys) decision precedingReconciliationId db)
      (persist executionAppend decision precedingReconciliationId db) := by
  unfold persist
  refine TakesLocks.lift_bind fun found hfound => ?_
  have hpresent := isSome_of_decisionForSignal hfound
  unfold persistLocks
  cases hrow : db.decisionRow? decision.signalId (executionStage precedingReconciliationId) with
  | some row =>
      cases found with
      | some existing => exact TakesLocks.lift _
      | none => simp [hrow] at hpresent
  | none =>
      cases found with
      | some existing => simp [hrow] at hpresent
      | none =>
          refine TakesLocks.lift_bind fun _ _ => ?_
          refine appendRequired_takesLocks.bind fun latched _ => ?_
          refine TakesLocks.lift_bind fun stored _ => ?_
          have haudit : TakesLocks (locks ++ latchLocks keys decision.requiredLatchEvents db)
              [keys.request .audit (riskAuditStream decision.experimentHash)]
              (appendDecisionAudit (executionAppendLocked keys) decision)
              (appendDecisionAudit executionAppend decision) :=
            TakesLocks.lift_bind fun payload _ =>
              executionAppendLocked_takesLocks keys _ _ _ _ payload
          have hend := haudit.bind fun _ _ => TakesLocks.lift (do
            let reread ← stored.decisionForSignal decision.signalId
              (executionStage precedingReconciliationId)
            rejectIf (reread ≠ some decision)
              (.riskPersistence "persisted risk decision failed verification")
            pure stored)
          rwa [List.append_nil] at hend

end Locks

/-! ## The latches of a stored decision -/

section Engaged

variable {append : AuditAppend ρ} {db stored : ExecutionDatabase} {s s' : ρ}

omit [ContentHasher] in
theorem mem_latchEvents {experimentHash : String} {event : RiskLatchEvent} :
    event ∈ db.latchEvents experimentHash ↔
      event ∈ db.latches ∧ event.experimentHash = experimentHash := by
  simp [latchEvents]

theorem mem_of_matchingLatch? {event prior : RiskLatchEvent}
    (h : db.matchingLatch? event = some prior) :
    prior ∈ db.latchEvents event.experimentHash :=
  List.mem_of_find?_eq_some h

theorem not_mem_of_matchingLatch?_eq_none {event : RiskLatchEvent}
    (h : db.matchingLatch? event = none) : event ∉ db.latchEvents event.experimentHash := by
  intro hmem
  have hno := List.find?_eq_none.1 h event hmem
  exact hno (decide_eq_true (Or.inl rfl))

omit [ContentHasher] in
/-- The events of an experiment after the append of one of them. -/
theorem latchEvents_append (event : RiskLatchEvent) :
    (({ db with latches := db.latches ++ [event] } : ExecutionDatabase).latchEvents
      event.experimentHash).Perm (db.latchEvents event.experimentHash ++ [event]) := by
  have hsingle : [event].filter (fun e => e.experimentHash = event.experimentHash) = [event] := by
    simp
  unfold latchEvents
  refine (sortedBy_perm _ _).trans ?_
  rw [List.filter_append, hsingle]
  exact (sortedBy_perm _ _).symm.append_right _

/-- Behind the appends the experiment has the known events and the required ones. -/
theorem appendRequired_latchEvents {experimentHash : String} {required events : List RiskLatchEvent}
    (hrequired : ∀ e ∈ required, e.experimentHash = experimentHash)
    (hevents : (db.latchEvents experimentHash).Perm events)
    (h : appendRequired append required db s = .ok (stored, s')) :
    (stored.latchEvents experimentHash).Perm (withRequired events required) := by
  induction required generalizing db events s with
  | nil =>
      simp only [appendRequired, stateT_pure_eq_ok, Prod.mk.injEq] at h
      obtain ⟨rfl, -⟩ := h
      exact hevents
  | cons event rest ih =>
      rw [List.forall_mem_cons] at hrequired
      obtain ⟨rfl, hrest⟩ := hrequired
      simp only [appendRequired, stateT_bind_eq_ok] at h
      obtain ⟨db₁, s₁, hfirst, h⟩ := h
      show List.Perm _ (withRequired (if event ∈ events then events else events ++ [event]) rest)
      rcases appendLatchEvent_eq_ok hfirst with ⟨hmatch, rfl⟩ | ⟨hnone, rfl⟩
      · have hmem : event ∈ events := hevents.mem_iff.1 (mem_of_matchingLatch? hmatch)
        rw [if_pos hmem]
        exact ih hrest hevents h
      · have hnew : event ∉ events :=
          fun hmem => not_mem_of_matchingLatch?_eq_none hnone (hevents.mem_iff.2 hmem)
        rw [if_neg hnew]
        exact ih hrest ((latchEvents_append event).trans (hevents.append_right _)) h

theorem storeDecision_latches {decision : RiskDecision} {precedingReconciliationId : Option String}
    {events : List RiskLatchEvent}
    (h : storeDecision decision precedingReconciliationId events db = .ok stored) :
    stored.latches = db.latches := by
  simp only [storeDecision, insertDecision, bind_eq_ok, pure_eq_ok] at h
  obtain ⟨_, -, _, -, _, -, _, -, _, -, rfl⟩ := h
  rfl

omit [ContentHasher] in
/-- The required latch events of a decision are events of its experiment. -/
theorem experimentHash_of_mem_required {decision : RiskDecision} {event : RiskLatchEvent}
    (h : event ∈ decision.requiredLatchEvents) :
    event.experimentHash = decision.experimentHash := by
  have hlatches : decision.checkLatches = .ok () := by
    have hchecked := decision.checked
    simp only [RiskDecisionFields.check, unit_bind_eq_ok] at hchecked
    tauto
  simp only [RiskDecisionFields.checkLatches, rejectIf_bind_eq_ok, rejectIf_eq_ok,
    List.any_eq_true, decide_eq_true_eq, not_exists, not_and, not_or, not_not] at hlatches
  exact (hlatches.2 event h).1

/-- The first call that stores a decision leaves engaged what the decision counts as engaged. -/
theorem persist_latchState {decision : RiskDecision} {precedingReconciliationId : Option String}
    (hnew : db.decisionRow? decision.signalId (executionStage precedingReconciliationId) = none)
    (h : persist append decision precedingReconciliationId db s = .ok (stored, s')) :
    ∃ state, stored.latchState decision.experimentHash = .ok state ∧
      state.active = decision.activeLatches := by
  simp only [persist, stateT_bind_eq_ok, stateT_lift_eq_ok] at h
  obtain ⟨found, _, ⟨hfound, -⟩, h⟩ := h
  have habsent := isSome_of_decisionForSignal hfound
  rw [hnew] at habsent
  cases found with
  | some existing => simp at habsent
  | none =>
      simp only [stateT_bind_eq_ok, stateT_lift_eq_ok, bind_eq_ok, pure_eq_ok] at h
      obtain ⟨_, _, -, latched, _, hlatched, row, _, ⟨hrow, -⟩, _, _, -, ⟨_, -, _, -, rfl⟩, -⟩ := h
      have hperm := appendRequired_latchEvents (fun e he => experimentHash_of_mem_required he)
        (List.Perm.refl _) hlatched
      have hlatches : row.latchEvents decision.experimentHash =
          latched.latchEvents decision.experimentHash := by
        unfold latchEvents
        rw [storeDecision_latches hrow]
      simp only [storeDecision, bind_eq_ok, rejectIf_eq_ok, not_not] at hrow
      obtain ⟨after, hafter, _, hactive, -⟩ := hrow
      obtain ⟨state, hstate, hsame⟩ := RiskLatchState.fromEvents_perm hperm.symm hafter
      refine ⟨state, ?_, hsame.trans hactive⟩
      unfold latchState
      rw [hlatches]
      exact hstate

end Engaged

end ExecutionDatabase

end AdaptiveTrader.Storage
