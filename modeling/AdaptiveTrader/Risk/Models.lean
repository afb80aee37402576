import AdaptiveTrader.Foundation.Sorted
import AdaptiveTrader.Platform.Domain
import AdaptiveTrader.Risk.Latches
import AdaptiveTrader.Signals.Models

/-!
# Risk receipts

A `RiskDecision` binds every input of one signed-risk evaluation to the signed target weights it
permits and to the scope of authority it grants. Its validation is a field: a decision whose
exposures disagree with its weights, or whose scope disagrees with its reasons, cannot be built.
-/

set_option autoImplicit false

namespace AdaptiveTrader

open Foundation

/-! ## Inputs -/

/-- Point-in-time account inputs. -/
structure AccountSnapshotFields where
  accountIdHash : String
  equity : ℚ
  cash : ℚ
  buyingPower : ℚ
  observedAt : Instant
  deriving DecidableEq

def AccountSnapshotFields.check (a : AccountSnapshotFields) : Except PlatformError Unit := do
  rejectIf (isSha256 a.accountIdHash = false)
    (.signedRiskValidation "account_id_hash must be lowercase SHA-256")
  rejectIf (a.equity < 0) (.signedRiskValidation "account equity cannot be negative")
  rejectIf (a.buyingPower < 0) (.signedRiskValidation "buying power cannot be negative")

structure AccountSnapshot extends AccountSnapshotFields where
  checked : toAccountSnapshotFields.check = .ok ()
  deriving DecidableEq

/-- Current signed quantity of one active symbol. -/
structure SignedPosition where
  symbol : String
  quantity : ℚ
  symbolValid : isSymbol symbol = true
  deriving DecidableEq

/-- A price for planning and the instant it was observed. -/
structure PlanningPrice where
  symbol : String
  price : ℚ
  observedAt : Instant
  isValidated : Bool
  symbolValid : isSymbol symbol = true
  pricePositive : 0 < price
  deriving DecidableEq

/-- Tradability, short, listing and broker capability state of one symbol. -/
structure SecurityMetadataSnapshot where
  symbol : String
  assetActive : Bool
  tradable : Bool
  shortable : Bool
  easyToBorrow : Bool
  primaryListingEligible : Bool
  brokerCapabilityKnown : Bool
  observedAt : Instant
  symbolValid : isSymbol symbol = true
  deriving DecidableEq

/-- The symbols a security snapshot lets the account short. -/
def shortEligibleSymbols (securities : List SecurityMetadataSnapshot) : List String :=
  (securities.filter fun s =>
    s.assetActive && s.tradable && s.shortable && s.easyToBorrow && s.primaryListingEligible &&
      s.brokerCapabilityKnown).map (·.symbol)

/-! ## Policy receipts -/

/-- The controls that may alter a signed target. -/
inductive RiskControl
  | clusterGross
  | gross
  | netLong
  | netShort
  | rebalanceBand
  | riskGroupGross
  | symbolClip
  deriving DecidableEq

def RiskControl.value : RiskControl → String
  | clusterGross => "cluster_gross"
  | gross => "gross"
  | netLong => "net_long"
  | netShort => "net_short"
  | rebalanceBand => "rebalance_band"
  | riskGroupGross => "risk_group_gross"
  | symbolClip => "symbol_clip"

/-- The symbols the policy accepts: at most ten characters, letters in upper case, digits and
dots, at least one letter. -/
def isPolicySymbol (s : String) : Bool :=
  decide (s.toList ≠ []) && decide (s.toList.length ≤ 10) &&
    s.toList.all (fun c => isUpper c || isDigit c || c == '.') && s.toList.any isUpper

/-- `_normalized_weights`: nonempty, valid, unique and ordered symbols. -/
def checkWeights (weights : List (String × ℚ)) : Except PlatformError Unit := do
  rejectIf (weights = []) (.signedRiskPolicy "weights must be a nonempty bounded sequence")
  rejectIf (weights.any fun w => !isPolicySymbol w.1) (.signedRiskPolicy "symbol is invalid")
  rejectIf (weights.map Prod.fst ≠ sortedSet (weights.map Prod.fst))
    (.signedRiskPolicy "weight symbols must be unique and alphabetically ordered")

/-- One ordered shrink or band operation. -/
structure AppliedRiskControlFields where
  passNumber : Nat
  ordinal : Nat
  control : RiskControl
  scope : String
  factor : ℚ
  before : List (String × ℚ)
  after : List (String × ℚ)
  deriving DecidableEq

def AppliedRiskControlFields.check (c : AppliedRiskControlFields) : Except PlatformError Unit := do
  rejectIf (c.passNumber < 1) (.signedRiskPolicy "control pass number must be positive")
  rejectIf (c.ordinal < 1) (.signedRiskPolicy "control ordinal must be positive")
  rejectIf (c.scope.toList = [] ∨ 128 < c.scope.toList.length)
    (.signedRiskPolicy "control scope is invalid")
  rejectIf (¬ (0 ≤ c.factor ∧ c.factor ≤ 1)) (.signedRiskPolicy "control factor must be in [0, 1]")
  checkWeights c.before
  checkWeights c.after

structure AppliedRiskControl extends AppliedRiskControlFields where
  checked : toAppliedRiskControlFields.check = .ok ()
  deriving DecidableEq

/-- `_named_decimal_tuple`: nonempty increasing names with nonnegative values. -/
def checkNamedExposures (values : List (String × ℚ)) (fieldName : String) :
    Except PlatformError Unit := do
  rejectIf (values.any fun v => v.1 = "")
    (.signedRiskPolicy (fieldName ++ " name is invalid"))
  rejectIf (values.map Prod.fst ≠ sortedSet (values.map Prod.fst))
    (.signedRiskPolicy (fieldName ++ " must be unique and ordered"))
  rejectIf (values.any fun v => v.2 < 0)
    (.signedRiskPolicy (fieldName ++ " cannot be negative"))

/-- Signed exposure totals. -/
structure ExposureSnapshotFields where
  gross : ℚ
  net : ℚ
  positive : ℚ
  shortAbs : ℚ
  groupGross : List (String × ℚ)
  clusterGross : List (String × ℚ)
  deriving DecidableEq

def ExposureSnapshotFields.check (e : ExposureSnapshotFields) : Except PlatformError Unit := do
  rejectIf (e.gross < 0 ∨ e.positive < 0 ∨ e.shortAbs < 0)
    (.signedRiskPolicy "gross exposure totals cannot be negative")
  rejectIf (e.gross ≠ e.positive + e.shortAbs ∨ e.net ≠ e.positive - e.shortAbs)
    (.signedRiskPolicy "exposure totals are internally inconsistent")
  checkNamedExposures e.groupGross "group exposure"
  checkNamedExposures e.clusterGross "cluster exposure"

structure ExposureSnapshot extends ExposureSnapshotFields where
  checked : toExposureSnapshotFields.check = .ok ()
  deriving DecidableEq

/-! ## Decisions -/

/-- The authority a decision grants. -/
inductive RiskExecutionScope
  | full
  | none
  | riskReducingOnly
  deriving DecidableEq

def RiskExecutionScope.value : RiskExecutionScope → String
  | full => "FULL"
  | none => "NONE"
  | riskReducingOnly => "RISK_REDUCING_ONLY"

/-- The fields of a risk receipt. -/
structure RiskDecisionFields where
  slotId : String
  signalId : String
  signalHash : String
  experimentHash : String
  policyId : String
  policyVersion : Nat
  policyHash : String
  correlationId : String
  decidedAt : Instant
  inputHash : String
  statisticsHash : String
  accountSnapshot : AccountSnapshot
  planningPositions : List SignedPosition
  planningPrices : List PlanningPrice
  securityMetadata : List SecurityMetadataSnapshot
  originalProposal : List (String × SignalAction × Option ℚ × Option ℚ)
  proposedTargets : List (String × ℚ)
  finalTargets : List (String × ℚ)
  beforeExposure : ExposureSnapshot
  afterExposure : ExposureSnapshot
  orderedControls : List AppliedRiskControl
  blockReasons : List String
  flattenReasons : List String
  sourceTimestamps : List (String × Instant)
  latchStateHash : String
  activeLatches : List RiskLatchKind
  requiredLatchEvents : List RiskLatchEvent
  executionScope : RiskExecutionScope
  deriving DecidableEq

/-- `_named_decimals`: valid, unique and ordered symbols. -/
def checkNamedDecimals (values : List (String × ℚ)) (fieldName : String) :
    Except PlatformError Unit := do
  rejectIf (values.any fun v => !isSymbol v.1) (.signedRiskValidation "symbol is invalid")
  rejectIf (values.map Prod.fst ≠ sortedSet (values.map Prod.fst))
    (.signedRiskValidation (fieldName ++ " symbols must be unique and ordered"))

/-- `_reason_tuple`. -/
def checkReasons (reasons : List String) : Except PlatformError Unit := do
  rejectIf (reasons.any fun r => !isSafeCode r)
    (.signedRiskValidation "risk reasons must be immutable reason codes")
  rejectIf (¬ reasons.Nodup) (.signedRiskValidation "risk reasons must not contain duplicates")

/-- `_validate_exposure_matches`. -/
def checkExposureMatches (weights : List (String × ℚ)) (exposure : ExposureSnapshot) :
    Except PlatformError Unit :=
  let positive := ((weights.map Prod.snd).filter fun w => 0 < w).sum
  let shortAbs := (((weights.map Prod.snd).filter fun w => w < 0).map fun w => -w).sum
  rejectIf (exposure.positive ≠ positive ∨ exposure.shortAbs ≠ shortAbs ∨
      exposure.gross ≠ positive + shortAbs ∨ exposure.net ≠ positive - shortAbs)
    (.signedRiskValidation "risk exposure does not match its target weights")

/-- `_complete_symbol_records`. -/
def checkCompleteSymbols (symbols expected : List String) (fieldName : String) :
    Except PlatformError Unit :=
  rejectIf (symbols ≠ expected)
    (.signedRiskValidation (fieldName ++ " must contain exactly active symbols"))

/-- The scope a decision grants agrees with its reasons, latches and targets. -/
def RiskDecisionFields.checkScope (d : RiskDecisionFields) : Except PlatformError Unit :=
  let finalIsFlat := d.finalTargets.all fun t => t.2 = 0
  match d.executionScope with
  | .full =>
      rejectIf (d.blockReasons ≠ [] ∨ d.activeLatches ≠ [])
        (.signedRiskValidation "full execution scope cannot contain a block or latch")
  | .none =>
      rejectIf (d.blockReasons = [] ∨ d.flattenReasons ≠ [] ∨ finalIsFlat = false)
        (.signedRiskValidation "no-execution receipt is internally inconsistent")
  | .riskReducingOnly =>
      rejectIf (d.blockReasons = [] ∨ d.flattenReasons = [] ∨ finalIsFlat = false)
        (.signedRiskValidation "risk-reducing receipt is internally inconsistent")

/-- The hashes a decision carries are digests. -/
def RiskDecisionFields.checkHashes (d : RiskDecisionFields) : Except PlatformError Unit := do
  rejectIf (isSha256 d.signalHash = false)
    (.signedRiskValidation "signal_hash must be lowercase SHA-256")
  rejectIf (isSha256 d.experimentHash = false)
    (.signedRiskValidation "experiment_hash must be lowercase SHA-256")
  rejectIf (isSha256 d.policyHash = false)
    (.signedRiskValidation "policy_hash must be lowercase SHA-256")
  rejectIf (isSha256 d.inputHash = false)
    (.signedRiskValidation "input_hash must be lowercase SHA-256")
  rejectIf (isSha256 d.statisticsHash = false)
    (.signedRiskValidation "statistics_hash must be lowercase SHA-256")
  rejectIf (isSha256 d.latchStateHash = false)
    (.signedRiskValidation "latch_state_hash must be lowercase SHA-256")

/-- The latches of a decision and the events that engage them. -/
def RiskDecisionFields.checkLatches (d : RiskDecisionFields) : Except PlatformError Unit := do
  rejectIf (d.activeLatches.map (·.value) ≠ sortedSet (d.activeLatches.map (·.value)))
    (.signedRiskValidation "active latches must be unique and ordered")
  rejectIf (d.requiredLatchEvents.any fun e =>
      decide (e.experimentHash ≠ d.experimentHash ∨ e.correlationId ≠ d.correlationId ∨
        e.action ≠ .engaged ∨ e.latchType ∉ d.activeLatches))
    (.signedRiskValidation "required latch event does not match the decision")

/-- `_validate_risk_decision`. -/
def RiskDecisionFields.check (d : RiskDecisionFields) : Except PlatformError Unit := do
  rejectIf (isPrefixedDigest "slot" d.slotId = false)
    (.signedRiskValidation "risk decision slot ID is invalid")
  rejectIf (isPrefixedDigest "signal" d.signalId = false)
    (.signedRiskValidation "risk decision signal ID is invalid")
  rejectIf (isPrefixedDigest "correlation" d.correlationId = false)
    (.signedRiskValidation "risk decision correlation ID is invalid")
  d.checkHashes
  rejectIf (d.policyId = "") (.signedRiskValidation "risk policy ID is invalid")
  rejectIf (d.policyVersion < 1) (.signedRiskValidation "risk policy version is invalid")
  rejectIf (d.originalProposal.any fun p => !isSymbol p.1)
    (.signedRiskValidation "symbol is invalid")
  rejectIf (d.originalProposal.map Prod.fst ≠ sortedSet (d.originalProposal.map Prod.fst))
    (.signedRiskValidation "original proposal symbols must be unique and ordered")
  checkNamedDecimals d.proposedTargets "proposed targets"
  checkNamedDecimals d.finalTargets "final targets"
  rejectIf (d.proposedTargets.map Prod.fst ≠ d.finalTargets.map Prod.fst)
    (.signedRiskValidation "risk target symbols do not match")
  rejectIf (d.orderedControls.map (·.ordinal) ≠ List.range' 1 d.orderedControls.length)
    (.signedRiskValidation "risk control ordinals must be contiguous")
  checkReasons d.blockReasons
  checkReasons d.flattenReasons
  rejectIf (d.sourceTimestamps.map Prod.fst ≠ sortedSet (d.sourceTimestamps.map Prod.fst) ∨
      "" ∈ d.sourceTimestamps.map Prod.fst)
    (.signedRiskValidation "risk source timestamp names must be unique and ordered")
  d.checkLatches
  checkExposureMatches d.proposedTargets d.beforeExposure
  checkExposureMatches d.finalTargets d.afterExposure
  checkCompleteSymbols (d.planningPositions.map (·.symbol)) (d.finalTargets.map Prod.fst)
    "planning positions"
  checkCompleteSymbols (d.planningPrices.map (·.symbol)) (d.finalTargets.map Prod.fst)
    "planning prices"
  checkCompleteSymbols (d.securityMetadata.map (·.symbol)) (d.finalTargets.map Prod.fst)
    "security metadata"
  d.checkScope

/-- Immutable risk receipt. -/
structure RiskDecision extends RiskDecisionFields where
  checked : toRiskDecisionFields.check = .ok ()
  deriving DecidableEq

namespace RiskDecision

/-- `RiskDecision.create`. -/
def create (fields : RiskDecisionFields) : Except PlatformError RiskDecision :=
  validated RiskDecisionFields.check fields fun h => ⟨fields, h⟩

section Hashed

variable [ContentHasher]

def exposurePayload (e : ExposureSnapshot) : Canonical :=
  .mapping [
    ("cluster_gross", .pairs e.clusterGross),
    ("gross", .decimal e.gross),
    ("group_gross", .pairs e.groupGross),
    ("net", .decimal e.net),
    ("positive", .decimal e.positive),
    ("short_abs", .decimal e.shortAbs)]

def controlPayload (c : AppliedRiskControl) : Canonical :=
  .mapping [
    ("after", .pairs c.after),
    ("before", .pairs c.before),
    ("control", .text c.control.value),
    ("factor", .decimal c.factor),
    ("ordinal", .int c.ordinal),
    ("pass_number", .int c.passNumber),
    ("scope", .text c.scope)]

def accountPayload (a : AccountSnapshot) : Canonical :=
  .mapping [
    ("account_id_hash", .text a.accountIdHash),
    ("buying_power", .decimal a.buyingPower),
    ("cash", .decimal a.cash),
    ("equity", .decimal a.equity),
    ("observed_at", .instant a.observedAt)]

def securityPayload (s : SecurityMetadataSnapshot) : Canonical :=
  .seq [.text s.symbol, .bool s.assetActive, .bool s.tradable, .bool s.shortable,
    .bool s.easyToBorrow, .bool s.primaryListingEligible, .bool s.brokerCapabilityKnown,
    .instant s.observedAt]

/-- The value `_risk_decision_digest` hashes. -/
def payload (d : RiskDecision) : Canonical :=
  .mapping [
    ("active_latches", .texts (d.activeLatches.map (·.value))),
    ("after_exposure", exposurePayload d.afterExposure),
    ("before_exposure", exposurePayload d.beforeExposure),
    ("block_reasons", .texts d.blockReasons),
    ("correlation_id", .text d.correlationId),
    ("decided_at", .instant d.decidedAt),
    ("execution_scope", .text d.executionScope.value),
    ("experiment_hash", .text d.experimentHash),
    ("final_targets", .pairs d.finalTargets),
    ("flatten_reasons", .texts d.flattenReasons),
    ("input_hash", .text d.inputHash),
    ("account_snapshot", accountPayload d.accountSnapshot),
    ("latch_state_hash", .text d.latchStateHash),
    ("ordered_controls", .seq (d.orderedControls.map controlPayload)),
    ("original_proposal", .seq (d.originalProposal.map fun p =>
      .seq [.text p.1, .text p.2.1.value, .optional .decimal p.2.2.1, .optional .decimal p.2.2.2])),
    ("policy_hash", .text d.policyHash),
    ("policy_id", .text d.policyId),
    ("policy_version", .int d.policyVersion),
    ("planning_positions", .pairs (d.planningPositions.map fun p => (p.symbol, p.quantity))),
    ("planning_prices", .seq (d.planningPrices.map fun p =>
      .seq [.text p.symbol, .decimal p.price, .instant p.observedAt, .bool p.isValidated])),
    ("security_metadata", .seq (d.securityMetadata.map securityPayload)),
    ("proposed_targets", .pairs d.proposedTargets),
    ("required_latch_events", .texts (d.requiredLatchEvents.map (·.contentHash))),
    ("schema", .text "signed-risk-decision-v2"),
    ("signal_hash", .text d.signalHash),
    ("signal_id", .text d.signalId),
    ("slot_id", .text d.slotId),
    ("source_timestamps", .seq (d.sourceTimestamps.map fun t => .seq [.text t.1, .instant t.2])),
    ("statistics_hash", .text d.statisticsHash)]

def contentHash (d : RiskDecision) : String := sha256Hex d.payload

def riskDecisionId (d : RiskDecision) : String := deterministicId "risk" d.contentHash

end Hashed

end RiskDecision

end AdaptiveTrader
