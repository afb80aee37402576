import AdaptiveTrader.Execution.Repository

/-!
# The relational execution ledger

The tables behind the signed risk and execution repositories, and the reads both share. A row is
kept as the record it decodes to: the columns are its fields one by one, and decoding validates
them again as building the record does. What a column can refuse is checked where a row is inserted
(`fitsNumeric` for the bounded decimals). A decision is the one row whose decoding reads another
table: it names its latch events by their IDs, and its hash is recomputed over the events found
(`verifiedDecisionRow`).

Reads verify. An intent is read together with its plan, and a plan counts only as far as planning
again from its signed decision gives the same plan and the same intents.
-/

set_option autoImplicit false

namespace AdaptiveTrader.Storage

open Foundation

/-! ## Tables -/

/-- `numeric(38,18)` holds the value exactly: at most 18 fractional and 20 integer digits. -/
def fitsNumeric (q : ℚ) : Bool := decide ((q * 10 ^ 18).den = 1) && decide (|q| < 10 ^ 20)

/-- The columns of a signal that decisions are checked against. -/
structure SignalRow where
  signalId : String
  slotId : String
  experimentHash : String
  correlationId : String
  contentHash : String
  deriving DecidableEq

/-- A decision with the execution stage it is stored for. -/
structure RiskDecisionRow where
  decision : RiskDecision
  executionStage : Nat
  precedingReconciliationId : Option String
  deriving DecidableEq

/-- The tables, each by the key its rows are looked up with. -/
structure ExecutionDatabase where
  signals : Dict String SignalRow := Dict.empty
  decisions : List RiskDecisionRow := []
  latches : List RiskLatchEvent := []
  plans : Dict String ExecutionPlan := Dict.empty
  intents : Dict String OrderIntent := Dict.empty
  orders : Dict String BrokerOrder := Dict.empty
  orderEvents : List OrderEvent := []
  fills : Dict String Fill := Dict.empty
  reconciliations : Dict String ReconciliationReceipt := Dict.empty
  incidents : Dict String Incident := Dict.empty

namespace ExecutionDatabase

variable [ContentHasher] (db : ExecutionDatabase)

/-! ## Latches -/

/-- `_latch_events`. -/
def latchEvents (experimentHash : String) : List RiskLatchEvent :=
  sortedBy (fun e => toLex (e.latchType.value, e.sequence))
    (db.latches.filter fun e => e.experimentHash = experimentHash)

/-- `_latch_state_on_connection`. The state before any event is that of an empty history. -/
def latchState (experimentHash : String) : Except PlatformError RiskLatchState :=
  RiskLatchState.fromEvents experimentHash (db.latchEvents experimentHash)

/-! ## Risk decisions -/

/-- `_verify_signal`. -/
def verifySignal (decision : RiskDecision) : Except PlatformError Unit :=
  rejectIf (¬ ∃ row ∈ db.signals.get? decision.signalId, row.slotId = decision.slotId ∧
      row.experimentHash = decision.experimentHash ∧
      row.correlationId = decision.correlationId ∧ row.contentHash = decision.signalHash)
    (.riskPersistence "risk decision does not match its authoritative signal")

/-- The latch event with an ID. -/
def latchById (latchEventId : String) : Except PlatformError RiskLatchEvent :=
  require (db.latches.find? fun e => e.latchEventId = latchEventId)
    (.riskPersistence "risk decision references missing latch evidence")

/-- `_verified_decision_row` for a row that is present. -/
def verifiedDecisionRow (row : RiskDecisionRow) : Except PlatformError RiskDecision := do
  let events ← collect db.latchById (row.decision.requiredLatchEvents.map (·.latchEventId))
  let decision ← RiskDecision.create { row.decision.toRiskDecisionFields with
    requiredLatchEvents := events }
  rejectIf (decision.contentHash ≠ row.decision.contentHash)
    (.signedRiskValidation "risk decision identity or content hash is invalid")
  db.verifySignal decision
  pure decision

/-- A row, verified when there is one. -/
def verifiedDecision : Option RiskDecisionRow → Except PlatformError (Option RiskDecision)
  | none => .ok none
  | some row => do
      let decision ← db.verifiedDecisionRow row
      pure (some decision)

/-- The row of a signal and a stage. -/
def decisionRow? (signalId : String) (executionStage : Nat) : Option RiskDecisionRow :=
  db.decisions.find? fun row =>
    decide (row.decision.signalId = signalId ∧ row.executionStage = executionStage)

/-- `_decision_for_signal`. -/
def decisionForSignal (signalId : String) (executionStage : Nat) :
    Except PlatformError (Option RiskDecision) :=
  db.verifiedDecision (db.decisionRow? signalId executionStage)

/-- `decision_by_id`. -/
def decisionById (riskDecisionId : String) : Except PlatformError (Option RiskDecision) :=
  db.verifiedDecision (db.decisions.find? fun row => row.decision.riskDecisionId = riskDecisionId)

/-! ## Plans and intents -/

/-- `_intents_for_plan`. -/
def intentsForPlan (executionPlanId : String) : List OrderIntent :=
  sortedBy (·.sequence) (db.intents.values.filter fun i => i.executionPlanId = executionPlanId)

/-- What a plan without its signed decision is refused with. -/
def unsignedPlanError : PlatformError :=
  .executionPersistence "execution plan does not match its signed risk decision"

/-- `_authoritative_risk_decision`. -/
def authoritativeRiskDecision (plan : ExecutionPlan) : Except PlatformError RiskDecision := do
  let found ← (db.decisionById plan.riskDecisionId).mapError fun e =>
    match e with
    | .riskPersistence _ => unsignedPlanError
    | e => e
  let decision ← require found unsignedPlanError
  rejectIf (decision.riskDecisionId ≠ plan.riskDecisionId ∨
      decision.experimentHash ≠ plan.experimentHash ∨
      decision.correlationId ≠ plan.correlationId ∨
      decision.contentHash ≠ plan.riskDecisionHash) unsignedPlanError
  pure decision

/-- `_verify_authorized_bundle`. -/
def verifyAuthorizedBundle (plan : ExecutionPlan) (intents : List OrderIntent) :
    Except PlatformError Unit := do
  let decision ← db.authoritativeRiskDecision plan
  let expected ← MemoryExecutionRepository.replan plan decision
  rejectIf (expected.plan ≠ plan ∨ expected.intents ≠ intents) (.executionPersistence
    "execution bundle does not match its signed risk authorization")

/-- `_required_intent`. -/
def requiredIntent (clientOrderId : String) : Except PlatformError OrderIntent := do
  let intent ← require (db.intents.get? clientOrderId)
    (.executionPersistence "order intent does not exist")
  let plan ← require (db.plans.get? intent.executionPlanId)
    (.executionPersistence "order intent does not match its signed plan")
  rejectIf (plan.riskDecisionId ≠ intent.riskDecisionId ∨
      plan.experimentHash ≠ intent.experimentHash ∨ plan.correlationId ≠ intent.correlationId ∨
      plan.targetVersion ≠ intent.targetVersion ∨ plan.forcedFlat ≠ intent.forcedFlat ∨
      plan.deadlineAt ≠ intent.deadlineAt)
    (.executionPersistence "order intent does not match its signed plan")
  db.verifyAuthorizedBundle plan (db.intentsForPlan plan.executionPlanId)
  pure intent

/-! ## Orders and fills -/

/-- `_fills_for_order`. -/
def fillsForOrder (clientOrderId : String) : List Fill :=
  sortedBy Fill.replayKey (db.fills.values.filter fun f => f.clientOrderId = clientOrderId)

/-- `_verify_order_owner`. -/
def verifyOrderOwner (order : BrokerOrder) (intent : OrderIntent) : Except PlatformError Unit :=
  rejectIf (order.clientOrderId ≠ intent.clientOrderId ∨
      order.orderIntentId ≠ intent.orderIntentId)
    (.executionPersistence "broker order does not match its authoritative intent")

/-- Each event starts in the state the one before it ends in. -/
def replayOrderEvents : OrderState → List OrderEvent → Except PlatformError OrderState
  | state, [] => .ok state
  | state, event :: rest => do
      rejectIf (event.fromState ≠ state)
        (.executionPersistence "order event history has a broken state edge")
      replayOrderEvents event.toState rest

/-- The fills of an order agree with its projection. -/
def checkFillHistory (order : BrokerOrder) (intent : OrderIntent) (fills : List Fill) :
    Except PlatformError Unit := do
  rejectIf (fills.any fun f => !MemoryExecutionRepository.fillMatches intent f)
    (.executionPersistence "persisted fill does not match its order intent")
  rejectIf (totalQuantity fills ≠ order.cumulativeFilledQuantity)
    (.executionPersistence "order projection disagrees with fill history")
  rejectIf (intent.quantity < totalQuantity fills)
    (.executionPersistence "persisted fills exceed their order intent")
  rejectIf (order.state = .filled ∧ totalQuantity fills ≠ intent.quantity)
    (.executionPersistence "filled projection is incomplete")
  rejectIf (order.state = .partiallyFilled ∧
      ¬ (0 < totalQuantity fills ∧ totalQuantity fills < intent.quantity))
    (.executionPersistence "partial-fill projection is inconsistent")
  (MemoryExecutionRepository.verifyFillEvidence intent order fills order.cumulativeFilledQuantity
    order.averageFillPrice order.updatedAt).mapError fun _ =>
      .executionPersistence "persisted fill evidence is inconsistent"

/-- `_verify_order_history`. -/
def verifyOrderHistory (order : BrokerOrder) (intent : OrderIntent) :
    Except PlatformError Unit := do
  verifyOrderOwner order intent
  let events := sortedBy (·.sequence)
    (db.orderEvents.filter fun e => e.clientOrderId = order.clientOrderId)
  rejectIf (events.map (·.sequence) ≠ List.range' 1 events.length)
    (.executionPersistence "order event sequence is not contiguous")
  let state ← replayOrderEvents .intentCommitted events
  rejectIf (order.lastEventSequence ≠ events.length ∨ order.version ≠ events.length + 1 ∨
      order.state ≠ state)
    (.executionPersistence "order projection disagrees with event history")
  checkFillHistory order intent (db.fillsForOrder order.clientOrderId)

end ExecutionDatabase

end AdaptiveTrader.Storage
