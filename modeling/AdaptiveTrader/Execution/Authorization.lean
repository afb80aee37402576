import AdaptiveTrader.Execution.Models
import AdaptiveTrader.Risk.Latches
import AdaptiveTrader.Signals.Models

/-!
# Submission authority

The safety state a caller supplies, the snapshot of the ledger and the authority bound to both. An
authority names the ledger snapshot by its hash, so the ledger can check at the last moment that
nothing it depends on has changed. `authorizeIntent` and `authorizePaperIntent` list the reasons
against a submission; an approval is the empty list.
-/

set_option autoImplicit false

namespace AdaptiveTrader

open Foundation

def paperAcknowledgement : String := "I_ACKNOWLEDGE_AQA_PAPER_ONLY"
def accountFreshness : Int := seconds 30
def securityFreshness : Int := seconds 300
def reconciliationFreshness : Int := seconds 60
def planningPriceFreshness : Int := seconds 120

/-! ## Safety snapshots -/

structure SubmissionSafetySnapshotFields where
  evaluatedAt : Instant
  sessionOpen : Bool
  dataComplete : Bool
  accountObservedAt : Instant
  securityObservedAt : Instant
  reconciliationObservedAt : Instant
  priceObservedAt : Instant
  reconciliationClean : Bool
  ambiguousOrderExists : Bool
  blockingLatchExists : Bool
  entryDisabled : Bool
  activeSymbols : List String
  shortableSymbols : List String
  deriving DecidableEq

def SubmissionSafetySnapshotFields.check (s : SubmissionSafetySnapshotFields) :
    Except PlatformError Unit := do
  rejectIf (s.evaluatedAt < s.accountObservedAt ∨ s.evaluatedAt < s.securityObservedAt ∨
      s.evaluatedAt < s.reconciliationObservedAt ∨ s.evaluatedAt < s.priceObservedAt)
    (.executionValidation "submission state cannot be observed in the future")
  rejectIf (s.activeSymbols ≠ sortedSet s.activeSymbols ∨
      s.shortableSymbols ≠ sortedSet s.shortableSymbols)
    (.executionValidation "submission symbols must be unique and ordered")
  rejectIf (¬ s.shortableSymbols ⊆ s.activeSymbols)
    (.executionValidation "shortable symbols must be active")

/-- Current state, revalidated before any side effect. -/
structure SubmissionSafetySnapshot extends SubmissionSafetySnapshotFields where
  checked : toSubmissionSafetySnapshotFields.check = .ok ()
  deriving DecidableEq

/-- The hash of the safety state in an authority. -/
def SubmissionSafetySnapshot.safetyHash [ContentHasher] (s : SubmissionSafetySnapshot) : String :=
  sha256Hex (.mapping [
    ("account_observed_at", .instant s.accountObservedAt),
    ("active_symbols", .texts s.activeSymbols),
    ("ambiguous_order_exists", .bool s.ambiguousOrderExists),
    ("blocking_latch_exists", .bool s.blockingLatchExists),
    ("data_complete", .bool s.dataComplete),
    ("entry_disabled", .bool s.entryDisabled),
    ("evaluated_at", .instant s.evaluatedAt),
    ("price_observed_at", .instant s.priceObservedAt),
    ("reconciliation_clean", .bool s.reconciliationClean),
    ("reconciliation_observed_at", .instant s.reconciliationObservedAt),
    ("schema", .text "submission-safety-snapshot-v1"),
    ("security_observed_at", .instant s.securityObservedAt),
    ("session_open", .bool s.sessionOpen),
    ("shortable_symbols", .texts s.shortableSymbols)])

/-! ## Ledger snapshots -/

structure SubmissionLedgerSnapshotFields where
  clientOrderId : String
  experimentHash : String
  executionPlanId : String
  riskDecisionHash : String
  intentHash : String
  orderHash : String
  planFillHashes : List String
  activeOrderHashes : List String
  activeLatches : List RiskLatchKind
  deriving DecidableEq

/-- Evidence hashes are unique, ordered digests. -/
def checkEvidenceHashes (values : List String) : Except PlatformError Unit := do
  rejectIf (values ≠ sortedSet values)
    (.executionValidation "submission ledger hashes must be unique and ordered")
  rejectIf (values.any fun v => !isSha256 v)
    (.executionValidation "submission ledger evidence hash is invalid")

def SubmissionLedgerSnapshotFields.check (s : SubmissionLedgerSnapshotFields) :
    Except PlatformError Unit := do
  rejectIf (s.clientOrderId = "")
    (.executionValidation "submission ledger client order ID is invalid")
  rejectIf ([s.experimentHash, s.riskDecisionHash, s.intentHash, s.orderHash].any
      fun v => !isSha256 v)
    (.executionValidation "submission ledger hash is invalid")
  rejectIf (s.executionPlanId = "") (.executionValidation "submission ledger plan ID is invalid")
  checkEvidenceHashes s.planFillHashes
  checkEvidenceHashes s.activeOrderHashes
  rejectIf (s.activeLatches.map (·.value) ≠ sortedSet (s.activeLatches.map (·.value)))
    (.executionValidation "submission ledger latches are invalid")

/-- Durable state that must stay unchanged until the submission is claimed. -/
structure SubmissionLedgerSnapshot extends SubmissionLedgerSnapshotFields where
  checked : toSubmissionLedgerSnapshotFields.check = .ok ()
  deriving DecidableEq

namespace SubmissionLedgerSnapshot

def create (fields : SubmissionLedgerSnapshotFields) :
    Except PlatformError SubmissionLedgerSnapshot :=
  validated SubmissionLedgerSnapshotFields.check fields fun h => ⟨fields, h⟩

theorem create_eq_ok {fields : SubmissionLedgerSnapshotFields} {s : SubmissionLedgerSnapshot}
    (h : create fields = .ok s) : s.toSubmissionLedgerSnapshotFields = fields := by
  obtain ⟨_, rfl⟩ := validated_eq_ok.1 h
  rfl

/-- The value the snapshot's hash covers: every field. -/
def payload (s : SubmissionLedgerSnapshot) : Canonical :=
  .mapping [
    ("active_latches", .texts (s.activeLatches.map (·.value))),
    ("active_order_hashes", .texts s.activeOrderHashes),
    ("client_order_id", .text s.clientOrderId),
    ("execution_plan_id", .text s.executionPlanId),
    ("experiment_hash", .text s.experimentHash),
    ("intent_hash", .text s.intentHash),
    ("order_hash", .text s.orderHash),
    ("plan_fill_hashes", .texts s.planFillHashes),
    ("risk_decision_hash", .text s.riskDecisionHash),
    ("schema", .text "submission-ledger-snapshot-v1")]

def contentHash [ContentHasher] (s : SubmissionLedgerSnapshot) : String := sha256Hex s.payload

end SubmissionLedgerSnapshot

theorem RiskLatchKind.value_injective : Function.Injective RiskLatchKind.value := by
  intro a b h
  cases a <;> cases b <;> first | rfl | exact absurd h (by decide)

/-- Two ledger snapshots with the same hashed value agree in every field. -/
theorem SubmissionLedgerSnapshot.payload_injective :
    Function.Injective SubmissionLedgerSnapshot.payload := by
  intro a b h
  simp only [payload, Canonical.mapping.injEq, List.cons.injEq, Prod.mk.injEq, true_and,
    Canonical.text.injEq, and_true, Canonical.texts_injective.eq_iff,
    (List.map_injective_iff.2 RiskLatchKind.value_injective).eq_iff] at h
  obtain ⟨⟨⟩, _⟩ := a
  obtain ⟨⟨⟩, _⟩ := b
  simp_all

/-! ## Authorities -/

structure SubmissionAuthoritySnapshotFields where
  clientOrderId : String
  ledgerSnapshotHash : String
  safetySnapshotHash : String
  accountIdHash : String
  accountCash : ℚ
  accountEquity : ℚ
  accountObservedAt : Instant
  positions : List Position
  openClientOrderIds : List String
  evaluatedAt : Instant
  deriving DecidableEq

def SubmissionAuthoritySnapshotFields.check (a : SubmissionAuthoritySnapshotFields) :
    Except PlatformError Unit := do
  rejectIf (a.clientOrderId = "")
    (.executionValidation "submission authority client order ID is invalid")
  rejectIf ([a.ledgerSnapshotHash, a.safetySnapshotHash, a.accountIdHash].any
      fun v => !isSha256 v)
    (.executionValidation "submission authority hash is invalid")
  rejectIf (a.evaluatedAt < a.accountObservedAt)
    (.executionValidation "submission authority account is from the future")
  rejectIf (a.positions.map (·.symbol) ≠ sortedSet (a.positions.map (·.symbol)))
    (.executionValidation "submission authority positions are invalid")
  rejectIf (a.openClientOrderIds ≠ sortedSet a.openClientOrderIds)
    (.executionValidation "submission authority open orders are invalid")

/-- Broker and durable-state authority for one submission attempt. -/
structure SubmissionAuthoritySnapshot extends SubmissionAuthoritySnapshotFields where
  checked : toSubmissionAuthoritySnapshotFields.check = .ok ()
  deriving DecidableEq

namespace SubmissionAuthoritySnapshot

section Hashed

variable [ContentHasher]

/-- The fields bound to a ledger snapshot, a safety state and the broker's observations. -/
def boundFields (ledger : SubmissionLedgerSnapshot) (safety : SubmissionSafetySnapshot)
    (account : AccountState) (positions : List Position) (openClientOrderIds : List String) :
    SubmissionAuthoritySnapshotFields where
  clientOrderId := ledger.clientOrderId
  ledgerSnapshotHash := ledger.contentHash
  safetySnapshotHash := safety.safetyHash
  accountIdHash := account.accountIdHash
  accountCash := account.cash
  accountEquity := account.equity
  accountObservedAt := account.observedAt
  positions := positions
  openClientOrderIds := openClientOrderIds
  evaluatedAt := safety.evaluatedAt

/-- `SubmissionAuthoritySnapshot.create`. -/
def create (ledger : SubmissionLedgerSnapshot) (safety : SubmissionSafetySnapshot)
    (account : AccountState) (positions : List Position) (openClientOrderIds : List String) :
    Except PlatformError SubmissionAuthoritySnapshot :=
  let fields := boundFields ledger safety account positions openClientOrderIds
  validated SubmissionAuthoritySnapshotFields.check fields fun h => ⟨fields, h⟩

theorem create_eq_ok {ledger : SubmissionLedgerSnapshot} {safety : SubmissionSafetySnapshot}
    {account : AccountState} {positions : List Position} {openClientOrderIds : List String}
    {a : SubmissionAuthoritySnapshot}
    (h : create ledger safety account positions openClientOrderIds = .ok a) :
    a.toSubmissionAuthoritySnapshotFields =
      boundFields ledger safety account positions openClientOrderIds := by
  obtain ⟨_, rfl⟩ := validated_eq_ok.1 h
  rfl

/-- The value `_authority_payload` builds. -/
def payload (a : SubmissionAuthoritySnapshot) : Canonical :=
  .mapping [
    ("account_cash", .decimal a.accountCash),
    ("account_equity", .decimal a.accountEquity),
    ("account_id_hash", .text a.accountIdHash),
    ("account_observed_at", .instant a.accountObservedAt),
    ("client_order_id", .text a.clientOrderId),
    ("evaluated_at", .instant a.evaluatedAt),
    ("ledger_snapshot_hash", .text a.ledgerSnapshotHash),
    ("open_client_order_ids", .texts a.openClientOrderIds),
    ("positions", .pairs (positionPairs a.positions)),
    ("safety_snapshot_hash", .text a.safetySnapshotHash),
    ("schema", .text "submission-authority-snapshot-v1")]

def contentHash (a : SubmissionAuthoritySnapshot) : String := sha256Hex a.payload

end Hashed

end SubmissionAuthoritySnapshot

/-! ## Authorization -/

/-- Ordered reasons; none means approval. -/
structure SubmissionAuthorization where
  approved : Bool
  reasons : List String
  reasonsOrdered : reasons = sortedSet reasons
  agrees : approved = decide (reasons = [])

/-- `_decision`. -/
def authorizationDecision (reasons : List String) : SubmissionAuthorization where
  approved := decide (sortedSet reasons = [])
  reasons := sortedSet reasons
  reasonsOrdered := eq_sortedSet_iff.2 (sortedSet_pairwise reasons)
  agrees := rfl

/-- The reason, when its condition holds. -/
def reasonIf (c : Prop) [Decidable c] (reason : String) : List String := if c then [reason] else []

/-- `_safety_reasons`. -/
def safetyReasons (intent : OrderIntent) (safety : SubmissionSafetySnapshot) : List String :=
  let now := safety.evaluatedAt
  reasonIf (intent.deadlineAt ≤ now) "intent_expired" ++
  reasonIf (intent.symbol ∉ safety.activeSymbols) "symbol_not_active" ++
  reasonIf (safety.sessionOpen = false) "session_closed" ++
  reasonIf (safety.dataComplete = false) "market_data_incomplete" ++
  reasonIf (accountFreshness < now - safety.accountObservedAt) "account_stale" ++
  reasonIf (securityFreshness < now - safety.securityObservedAt) "security_metadata_stale" ++
  reasonIf (reconciliationFreshness < now - safety.reconciliationObservedAt)
    "reconciliation_stale" ++
  reasonIf (planningPriceFreshness < now - safety.priceObservedAt) "planning_price_stale" ++
  reasonIf (safety.reconciliationClean = false) "reconciliation_blocking" ++
  reasonIf (safety.ambiguousOrderExists = true) "ambiguous_order_exists" ++
  if intent.positionEffect.opensExposure then
    reasonIf (safety.blockingLatchExists = true) "blocking_latch_active" ++
    reasonIf (safety.entryDisabled = true) "entry_disabled" ++
    reasonIf ((intent.positionEffect = .openShort ∨ intent.positionEffect = .increaseShort) ∧
      intent.symbol ∉ safety.shortableSymbols) "short_not_eligible"
  else []

/-- `authorize_intent`. -/
def authorizeIntent (intent : OrderIntent) (safety : SubmissionSafetySnapshot) :
    SubmissionAuthorization :=
  authorizationDecision (safetyReasons intent safety)

/-- The runtime modes. -/
inductive ExecutionMode
  | offline
  | shadow
  | paper
  deriving DecidableEq

/-- The independent gates before a paper adapter may be called. -/
structure PaperGateContext where
  runtimeMode : ExecutionMode
  submissionEnabled : Bool
  acknowledgement : Option String
  adapterPaperOnly : Bool
  secretFilesValid : Bool
  configuredAccountIdHash : String
  observedAccountIdHash : String
  signal : SignalEnvelope
  modelAuthorization : PaperAuthorizationDecision
  safety : SubmissionSafetySnapshot
  hashesValid : isSha256 configuredAccountIdHash = true ∧ isSha256 observedAccountIdHash = true

/-- The reasons of the paper gates. -/
def paperReasons (intent : OrderIntent) (context : PaperGateContext) : List String :=
  safetyReasons intent context.safety ++
  reasonIf (context.runtimeMode ≠ .paper) "runtime_not_paper" ++
  reasonIf (context.submissionEnabled = false) "submission_disabled" ++
  reasonIf (context.acknowledgement ≠ some paperAcknowledgement) "paper_acknowledgement_missing" ++
  reasonIf (context.adapterPaperOnly = false) "adapter_not_paper_only" ++
  reasonIf (context.secretFilesValid = false) "paper_secret_files_invalid" ++
  reasonIf (context.configuredAccountIdHash ≠ context.observedAccountIdHash)
    "account_id_mismatch" ++
  reasonIf (context.signal.providerSourceMode = .offlineFixture ∨
    context.signal.promotable = false ∨ context.signal.paperSubmissionEligible = false)
    "signal_not_paper_eligible" ++
  reasonIf (context.signal.experimentHash ≠ intent.experimentHash ∨
    context.signal.correlationId ≠ intent.correlationId ∨
    intent.symbol ∉ context.signal.activeSymbols) "signal_intent_mismatch" ++
  reasonIf (context.modelAuthorization.approved = false) context.modelAuthorization.reason

/-- `authorize_paper_intent`. -/
def authorizePaperIntent (intent : OrderIntent) (context : PaperGateContext) :
    SubmissionAuthorization :=
  authorizationDecision (paperReasons intent context)

/-! ## What an approval means -/

theorem reasonIf_eq_nil {c : Prop} [Decidable c] {reason : String} :
    reasonIf c reason = [] ↔ ¬ c := by
  unfold reasonIf
  split <;> simp [*]

theorem sortedSet_eq_nil_iff {l : List String} : sortedSet l = [] ↔ l = [] := by
  constructor
  · intro h
    refine List.eq_nil_iff_forall_not_mem.2 fun a ha => ?_
    have hmem : a ∈ sortedSet l := mem_sortedSet.2 ha
    simp [h] at hmem
  · rintro rfl
    rfl

theorem authorizationDecision_approved {reasons : List String} :
    (authorizationDecision reasons).approved = true ↔ reasons = [] := by
  simp [authorizationDecision, sortedSet_eq_nil_iff]

/-- An approved intent meets no ambiguous order. -/
theorem not_ambiguous_of_safetyReasons_eq_nil {intent : OrderIntent}
    {safety : SubmissionSafetySnapshot} (h : safetyReasons intent safety = []) :
    safety.ambiguousOrderExists = false := by
  simp only [safetyReasons, List.append_eq_nil_iff, reasonIf_eq_nil, Bool.not_eq_true] at h
  exact h.1.2

/-- An approved intent that opens exposure meets no latch, and entries are enabled. -/
theorem entry_of_safetyReasons_eq_nil {intent : OrderIntent} {safety : SubmissionSafetySnapshot}
    (h : safetyReasons intent safety = []) (ho : intent.positionEffect.opensExposure = true) :
    safety.blockingLatchExists = false ∧ safety.entryDisabled = false := by
  simp only [safetyReasons, ho, if_true, List.append_eq_nil_iff, reasonIf_eq_nil,
    Bool.not_eq_true] at h
  exact ⟨h.2.1.1, h.2.1.2⟩

/-- The paper gates never approve in this release. -/
theorem authorizePaperIntent_denied (intent : OrderIntent) (context : PaperGateContext) :
    (authorizePaperIntent intent context).approved = false := by
  rw [Bool.eq_false_iff]
  intro h
  have hnil := authorizationDecision_approved.1 h
  simp [paperReasons, reasonIf_eq_nil, context.modelAuthorization.notApproved] at hnil

end AdaptiveTrader
