import AdaptiveTrader.Foundation.Sorted
import AdaptiveTrader.Platform.Domain

/-!
# Signal proposals

A signal envelope proposes an action, an edge and a target for every active symbol. Its values are
aligned with the symbols and agree in sign with the actions. No signal can be authorized for paper
submission in this release, which the type of the authorization states.
-/

set_option autoImplicit false

namespace AdaptiveTrader

open Foundation

/-- The directions a signal proposes. -/
inductive SignalAction
  | long
  | short
  | flat
  deriving DecidableEq

def SignalAction.value : SignalAction → String
  | long => "LONG"
  | short => "SHORT"
  | flat => "FLAT"

/-- The provenance of a signal. -/
inductive SignalSourceMode
  | builtin
  | offlineFixture
  | registeredPlugin
  deriving DecidableEq

def SignalSourceMode.value : SignalSourceMode → String
  | builtin => "builtin"
  | offlineFixture => "offline_fixture"
  | registeredPlugin => "registered_plugin"

/-- An authorization decision, which cannot represent approval. -/
structure PaperAuthorizationDecision where
  approved : Bool
  reason : String
  notApproved : approved = false
  reasonClosed : reason = "model_approval_not_implemented"
  deriving DecidableEq

structure SignalEnvelopeFields where
  contractVersion : Nat
  slotId : String
  correlationId : String
  providerId : String
  providerVersion : String
  providerSourceMode : SignalSourceMode
  experimentId : String
  experimentVersion : Nat
  experimentHash : String
  dataContractHash : String
  policyHash : String
  sourceBarEnd : Instant
  createdAt : Instant
  expiresAt : Instant
  activeSymbols : List String
  availabilityMask : List Bool
  actions : List SignalAction
  expectedEdgeBps : List (Option ℚ)
  proposedSignedTargetInputs : List (Option ℚ)
  artifactId : Option String
  artifactHash : Option String
  promotable : Bool
  paperSubmissionEligible : Bool
  deriving DecidableEq

/-- Every supplied value of a symbol has the sign of its action; an unavailable symbol is flat and
supplies none. -/
def checkProposals :
    List (Bool × SignalAction × Option ℚ × Option ℚ) → Except PlatformError Unit
  | [] => .ok ()
  | (available, action, edge, target) :: rest => do
      rejectIf (available = false ∧ (action ≠ .flat ∨ edge ≠ none ∨ target ≠ none))
        (.signalValidation "unavailable symbols must have an empty flat proposal")
      rejectIf (action = .long ∧ ((∃ e ∈ edge, e ≤ 0) ∨ ∃ t ∈ target, t ≤ 0))
        (.signalValidation "LONG action requires positive supplied values")
      rejectIf (action = .short ∧ ((∃ e ∈ edge, 0 ≤ e) ∨ ∃ t ∈ target, 0 ≤ t))
        (.signalValidation "SHORT action requires negative supplied values")
      rejectIf (action = .flat ∧ ((∃ e ∈ edge, e ≠ 0) ∨ ∃ t ∈ target, t ≠ 0))
        (.signalValidation "FLAT action requires zero supplied values")
      checkProposals rest

/-- The proposal of each symbol. -/
def SignalEnvelopeFields.proposals (s : SignalEnvelopeFields) :
    List (Bool × SignalAction × Option ℚ × Option ℚ) :=
  s.availabilityMask.zip (s.actions.zip (s.expectedEdgeBps.zip s.proposedSignedTargetInputs))

/-- `_validate_envelope`. -/
def SignalEnvelopeFields.check (s : SignalEnvelopeFields) : Except PlatformError Unit := do
  rejectIf (s.contractVersion ≠ 1) (.signalValidation "signal contract version is unsupported")
  rejectIf (¬ "slot_".toList.isPrefixOf s.slotId.toList)
    (.signalValidation "signal slot ID is invalid")
  rejectIf (¬ "correlation_".toList.isPrefixOf s.correlationId.toList)
    (.signalValidation "signal correlation ID is invalid")
  rejectIf (isSafeCode s.providerId = false) (.signalValidation "signal provider ID is invalid")
  rejectIf (isVersionText s.providerVersion = false)
    (.signalValidation "signal provider version is invalid")
  rejectIf (isSafeCode s.experimentId = false)
    (.signalValidation "signal experiment ID is invalid")
  rejectIf (s.experimentVersion < 1) (.signalValidation "experiment version must be positive")
  rejectIf (isSha256 s.experimentHash = false)
    (.signalValidation "signal experiment hash is invalid")
  rejectIf (isSha256 s.dataContractHash = false)
    (.signalValidation "signal data contract hash is invalid")
  rejectIf (isSha256 s.policyHash = false) (.signalValidation "signal policy hash is invalid")
  rejectIf (¬ (s.sourceBarEnd ≤ s.createdAt ∧ s.createdAt < s.expiresAt))
    (.signalValidation "signal timestamps are not ordered")
  rejectIf (s.activeSymbols = []) (.signalValidation "symbol set is invalid")
  rejectIf (s.activeSymbols.any fun symbol => !isSymbol symbol)
    (.signalValidation "symbol is invalid")
  rejectIf (s.activeSymbols ≠ sortedSet s.activeSymbols)
    (.signalValidation "symbol set must be sorted and unique")
  rejectIf (s.availabilityMask.length ≠ s.activeSymbols.length ∨
      s.actions.length ≠ s.activeSymbols.length ∨
      s.expectedEdgeBps.length ≠ s.activeSymbols.length ∨
      s.proposedSignedTargetInputs.length ≠ s.activeSymbols.length)
    (.signalValidation "signal symbol values must align with every active symbol")
  checkProposals s.proposals
  rejectIf (s.artifactId.isNone ≠ s.artifactHash.isNone)
    (.signalValidation "signal artifact ID and hash must be supplied together")
  rejectIf (∃ id ∈ s.artifactId, isContentId id = false)
    (.signalValidation "signal artifact ID is invalid")
  rejectIf (∃ hash ∈ s.artifactHash, isSha256 hash = false)
    (.signalValidation "signal artifact hash is invalid")
  rejectIf (s.providerSourceMode = .offlineFixture ∧
      (s.promotable = true ∨ s.paperSubmissionEligible = true))
    (.signalValidation "offline fixture signals are permanently ineligible")

/-- A declarative target proposal. -/
structure SignalEnvelope extends SignalEnvelopeFields where
  checked : toSignalEnvelopeFields.check = .ok ()
  deriving DecidableEq

namespace SignalEnvelope

section Hashed

variable [ContentHasher]

/-- The value the envelope's identity hashes. -/
def payload (s : SignalEnvelope) : Canonical :=
  .mapping [
    ("contract_version", .int s.contractVersion),
    ("slot_id", .text s.slotId),
    ("correlation_id", .text s.correlationId),
    ("provider_id", .text s.providerId),
    ("provider_version", .text s.providerVersion),
    ("provider_source_mode", .text s.providerSourceMode.value),
    ("experiment_id", .text s.experimentId),
    ("experiment_version", .int s.experimentVersion),
    ("experiment_hash", .text s.experimentHash),
    ("data_contract_hash", .text s.dataContractHash),
    ("policy_hash", .text s.policyHash),
    ("source_bar_end", .instant s.sourceBarEnd),
    ("created_at", .instant s.createdAt),
    ("expires_at", .instant s.expiresAt),
    ("active_symbols", .texts s.activeSymbols),
    ("availability_mask", .seq (s.availabilityMask.map .bool)),
    ("actions", .texts (s.actions.map (·.value))),
    ("expected_edge_bps", .seq (s.expectedEdgeBps.map (.optional .decimal))),
    ("proposed_signed_target_inputs",
      .seq (s.proposedSignedTargetInputs.map (.optional .decimal))),
    ("artifact_id", .optional .text s.artifactId),
    ("artifact_hash", .optional .text s.artifactHash),
    ("promotable", .bool s.promotable),
    ("paper_submission_eligible", .bool s.paperSubmissionEligible)]

def contentHash (s : SignalEnvelope) : String := sha256Hex s.payload

def signalId (s : SignalEnvelope) : String := deterministicId "signal" s.contentHash

end Hashed

/-- The value aligned with a symbol. -/
def alignedValue {α : Type} (s : SignalEnvelope) (values : List α) (symbol : String) : Option α :=
  values[s.activeSymbols.idxOf symbol]?

end SignalEnvelope

end AdaptiveTrader
