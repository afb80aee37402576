import AdaptiveTrader.Execution.Models
import Mathlib.Data.Prod.Lex

/-!
# Reconciliation receipts and incidents

A receipt records one comparison of durable with broker state. Its status is `CLEAN` exactly when it
lists no discrepancy (`ReconciliationReceipt.status_clean_iff`). An incident is the durable blocking
record of a failure.
-/

set_option autoImplicit false

namespace AdaptiveTrader

open Foundation

inductive ReconciliationStatus
  | clean
  | blocking
  deriving DecidableEq

def ReconciliationStatus.value : ReconciliationStatus → String
  | clean => "CLEAN"
  | blocking => "BLOCKING"

/-- `value.lower()`, the form in audit payloads. -/
def ReconciliationStatus.slug : ReconciliationStatus → String
  | clean => "clean"
  | blocking => "blocking"

inductive DiscrepancyCode
  | duplicateClientOrderId
  | unknownBrokerOrder
  | missingBrokerOrder
  | filledQuantityMismatch
  | orderStateMismatch
  | unexpectedPosition
  | positionSignMismatch
  | positionQuantityMismatch
  | untraceableShortPosition
  | ineligibleShortIncrease
  | accountIdMismatch
  | cashMismatch
  | equityMismatch
  | submissionUnknown
  | liveEndpointDetected
  | paperFalseDetected
  | nonActiveSymbolPosition
  | nonActiveSymbolOrder
  | duplicateExecutionId
  | requiredFlatNotProven
  | forcedFlatDeadlineMissed
  deriving DecidableEq

def DiscrepancyCode.value : DiscrepancyCode → String
  | duplicateClientOrderId => "duplicate_client_order_id"
  | unknownBrokerOrder => "unknown_broker_order"
  | missingBrokerOrder => "missing_broker_order"
  | filledQuantityMismatch => "filled_quantity_mismatch"
  | orderStateMismatch => "order_state_mismatch"
  | unexpectedPosition => "unexpected_position"
  | positionSignMismatch => "position_sign_mismatch"
  | positionQuantityMismatch => "position_quantity_mismatch"
  | untraceableShortPosition => "untraceable_short_position"
  | ineligibleShortIncrease => "ineligible_short_increase"
  | accountIdMismatch => "account_id_mismatch"
  | cashMismatch => "cash_mismatch"
  | equityMismatch => "equity_mismatch"
  | submissionUnknown => "submission_unknown"
  | liveEndpointDetected => "live_endpoint_detected"
  | paperFalseDetected => "paper_false_detected"
  | nonActiveSymbolPosition => "non_active_symbol_position"
  | nonActiveSymbolOrder => "non_active_symbol_order"
  | duplicateExecutionId => "duplicate_execution_id"
  | requiredFlatNotProven => "required_flat_not_proven"
  | forcedFlatDeadlineMissed => "forced_flat_deadline_missed"

/-- One reconciliation difference. Its symbol and client order ID come from validated records, so
validating them again has nothing to reject. -/
structure ReconciliationDiscrepancy where
  code : DiscrepancyCode
  symbol : Option String := none
  clientOrderId : Option String := none
  expected : Option ℚ := none
  observed : Option ℚ := none
  deriving DecidableEq

/-- `_discrepancy_key`. -/
def ReconciliationDiscrepancy.key (d : ReconciliationDiscrepancy) : String ×ₗ (String ×ₗ String) :=
  toLex (d.code.value, toLex (d.symbol.getD "", d.clientOrderId.getD ""))

/-! ## Receipts -/

structure ReconciliationReceiptFields where
  experimentHash : String
  slotId : Option String
  executionPlanId : Option String
  correlationId : String
  accountIdHash : String
  accountObservedAt : Instant
  startedAt : Instant
  completedAt : Instant
  status : ReconciliationStatus
  expectedPositions : List Position
  observedPositions : List Position
  expectedCash : ℚ
  observedCash : ℚ
  expectedEquity : ℚ
  observedEquity : ℚ
  markPrices : List (String × ℚ)
  fillHashes : List String
  orderHashes : List String
  requireFlat : Bool
  requiredFlatAt : Option Instant
  discrepancies : List ReconciliationDiscrepancy
  deriving DecidableEq

/-- `_hash_tuple`. -/
def checkHashTuple (hashes : List String) (fieldName : String) : Except PlatformError Unit := do
  rejectIf (hashes ≠ sortedSet hashes)
    (.executionValidation (fieldName ++ " must be unique and ordered"))
  rejectIf (hashes.any fun h => !isSha256 h) (.executionValidation (fieldName ++ " is invalid"))

def ReconciliationReceiptFields.check (r : ReconciliationReceiptFields) :
    Except PlatformError Unit := do
  rejectIf (isSha256 r.experimentHash = false) (.executionValidation "experiment hash is invalid")
  rejectIf (∃ id ∈ r.slotId, isIdentifier id = false) (.executionValidation "slot ID is invalid")
  rejectIf (∃ id ∈ r.executionPlanId, isContentIdOf "execution" id = false)
    (.executionValidation "execution ID is invalid")
  rejectIf (isIdentifier r.correlationId = false)
    (.executionValidation "correlation ID is invalid")
  rejectIf (isSha256 r.accountIdHash = false) (.executionValidation "account ID hash is invalid")
  rejectIf (r.completedAt < r.startedAt)
    (.executionValidation "reconciliation completion precedes start")
  rejectIf (¬ (r.startedAt ≤ r.accountObservedAt ∧ r.accountObservedAt ≤ r.completedAt))
    (.executionValidation "account observation must occur during reconciliation")
  checkPositions r.expectedPositions true
  checkPositions r.observedPositions true
  checkPricePairs "mark price" r.markPrices
  rejectIf (r.markPrices.map Prod.fst ≠ sortedSet (r.markPrices.map Prod.fst))
    (.executionValidation "mark prices must be unique and ordered")
  checkHashTuple r.fillHashes "fill hashes"
  checkHashTuple r.orderHashes "order hashes"
  rejectIf (r.requireFlat ≠ r.requiredFlatAt.isSome)
    (.executionValidation "required-flat deadline and flag disagree")
  rejectIf (sortedBy (·.key) r.discrepancies ≠ r.discrepancies)
    (.executionValidation "reconciliation discrepancies must be ordered")
  rejectIf (r.status ≠ if r.discrepancies = [] then .clean else .blocking)
    (.executionValidation "reconciliation status disagrees with discrepancies")

/-- Immutable reconciliation proof. -/
structure ReconciliationReceipt extends ReconciliationReceiptFields where
  checked : toReconciliationReceiptFields.check = .ok ()
  deriving DecidableEq

namespace ReconciliationReceipt

/-- `ReconciliationReceipt.create`: the discrepancies are put in order and decide the status. -/
def create (fields : ReconciliationReceiptFields) : Except PlatformError ReconciliationReceipt :=
  let ordered := sortedBy (·.key) fields.discrepancies
  let completed : ReconciliationReceiptFields :=
    { fields with
      discrepancies := ordered
      status := if ordered = [] then .clean else .blocking }
  validated ReconciliationReceiptFields.check completed fun h => ⟨completed, h⟩

section Hashed

variable [ContentHasher]

def discrepancyPayload (d : ReconciliationDiscrepancy) : Canonical :=
  .seq [.text d.code.value, .optional .text d.symbol, .optional .text d.clientOrderId,
    .optional .decimal d.expected, .optional .decimal d.observed]

/-- The value `_reconciliation_digest` hashes. -/
def payload (r : ReconciliationReceipt) : Canonical :=
  .mapping [
    ("schema", .text "reconciliation-v2"),
    ("experiment_hash", .text r.experimentHash),
    ("slot_id", .optional .text r.slotId),
    ("execution_plan_id", .optional .text r.executionPlanId),
    ("correlation_id", .text r.correlationId),
    ("account_id_hash", .text r.accountIdHash),
    ("account_observed_at", .instant r.accountObservedAt),
    ("started_at", .instant r.startedAt),
    ("completed_at", .instant r.completedAt),
    ("status", .text r.status.value),
    ("expected_positions", .pairs (positionPairs r.expectedPositions)),
    ("observed_positions", .pairs (positionPairs r.observedPositions)),
    ("expected_cash", .decimal r.expectedCash),
    ("observed_cash", .decimal r.observedCash),
    ("expected_equity", .decimal r.expectedEquity),
    ("observed_equity", .decimal r.observedEquity),
    ("mark_prices", .pairs r.markPrices),
    ("fill_hashes", .texts r.fillHashes),
    ("order_hashes", .texts r.orderHashes),
    ("require_flat", .bool r.requireFlat),
    ("required_flat_at", .optional .instant r.requiredFlatAt),
    ("discrepancies", .seq (r.discrepancies.map discrepancyPayload))]

def contentHash (r : ReconciliationReceipt) : String := sha256Hex r.payload

def reconciliationId (r : ReconciliationReceipt) : String :=
  deterministicId "reconciliation" r.contentHash

end Hashed

theorem create_fields {fields : ReconciliationReceiptFields} {r : ReconciliationReceipt}
    (h : create fields = .ok r) :
    r.toReconciliationReceiptFields =
      { fields with
        discrepancies := sortedBy (·.key) fields.discrepancies
        status := if sortedBy (·.key) fields.discrepancies = [] then .clean else .blocking } := by
  obtain ⟨_, rfl⟩ := validated_eq_ok.1 h
  rfl

/-- A receipt is clean exactly when it lists no discrepancy. -/
theorem status_clean_iff (r : ReconciliationReceipt) :
    r.status = .clean ↔ r.discrepancies = [] := by
  have h := r.checked
  simp only [ReconciliationReceiptFields.check, unit_bind_eq_ok, rejectIf_eq_ok, not_not] at h
  have hstatus := h.2.2.2.2.2.2.2.2.2.2.2.2.2.2.2
  rw [hstatus]
  split <;> simp [*]

theorem isSha256_experimentHash (r : ReconciliationReceipt) :
    isSha256 r.experimentHash = true := by
  have h := r.checked
  simp only [ReconciliationReceiptFields.check, rejectIf_bind_eq_ok, Bool.not_eq_false] at h
  exact h.1

end ReconciliationReceipt

/-! ## Incidents -/

structure IncidentFields where
  idempotencyKey : String
  experimentHash : String
  correlationId : String
  reasonCode : String
  openedAt : Instant
  deriving DecidableEq

def IncidentFields.check (i : IncidentFields) : Except PlatformError Unit := do
  rejectIf (isIdentifier i.idempotencyKey = false)
    (.executionValidation "incident idempotency key is invalid")
  rejectIf (isSha256 i.experimentHash = false) (.executionValidation "experiment hash is invalid")
  rejectIf (isIdentifier i.correlationId = false)
    (.executionValidation "correlation ID is invalid")
  rejectIf (isSafeCode i.reasonCode = false)
    (.executionValidation "safe error or reason code is invalid")

/-- Durable blocking incident. -/
structure Incident extends IncidentFields where
  checked : toIncidentFields.check = .ok ()
  deriving DecidableEq

namespace Incident

/-- `Incident.create`. -/
def create (fields : IncidentFields) : Except PlatformError Incident :=
  validated IncidentFields.check fields fun h => ⟨fields, h⟩

section Hashed

variable [ContentHasher]

def payload (i : Incident) : Canonical :=
  .mapping [
    ("correlation_id", .text i.correlationId),
    ("experiment_hash", .text i.experimentHash),
    ("idempotency_key", .text i.idempotencyKey),
    ("opened_at", .instant i.openedAt),
    ("reason_code", .text i.reasonCode),
    ("schema", .text "execution-incident-v1")]

def contentHash (i : Incident) : String := sha256Hex i.payload

def incidentId (i : Incident) : String := deterministicId "incident" i.contentHash

end Hashed

theorem create_eq_ok {fields : IncidentFields} {i : Incident} (h : create fields = .ok i) :
    i.toIncidentFields = fields := by
  obtain ⟨_, rfl⟩ := validated_eq_ok.1 h
  rfl

theorem wellFormed (i : Incident) :
    isSha256 i.experimentHash = true ∧ isSafeCode i.reasonCode = true := by
  have h := i.checked
  simp only [IncidentFields.check, rejectIf_bind_eq_ok, rejectIf_eq_ok, Bool.not_eq_false] at h
  exact ⟨h.2.1, h.2.2.2⟩

end Incident

end AdaptiveTrader
