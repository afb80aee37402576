import AdaptiveTrader.Platform.Domain

/-!
# Decision slots

A decision slot is one scheduled decision of a trading session with its versioned durable state. The
contract of a slot (`SlotContract`: identity, interval, deadlines) never changes; a transition
replaces the state and its lease, counts one version up and is validated again
(`DecisionSlot.evolve`). Slot ID, correlation ID and content hash are functions of the other fields,
so a slot with a wrong one cannot be built.

The timetable is that of `build_session_schedule`: twenty strategy slots and one forced-flat slot.
The exchange calendar and the time zone enter as arguments.
-/

set_option autoImplicit false

namespace AdaptiveTrader

open Foundation

/-- A date of the proleptic calendar. -/
structure CalendarDate where
  year : Nat
  month : Nat
  day : Nat
  deriving DecidableEq

/-- The decimal digits of a number, filled with zeros on the left. -/
def paddedDecimal (width n : Nat) : List Char :=
  List.replicate (width - (Nat.toDigits 10 n).length) '0' ++ Nat.toDigits 10 n

/-- `date.isoformat()`. -/
def CalendarDate.isoformat (d : CalendarDate) : String :=
  joinDash [paddedDecimal 4 d.year, paddedDecimal 2 d.month, paddedDecimal 2 d.day]

/-- Durable intraday decisions. -/
inductive DecisionType
  | strategy
  | forcedFlat
  deriving DecidableEq

def DecisionType.value : DecisionType → String
  | strategy => "STRATEGY"
  | forcedFlat => "FORCED_FLAT"

inductive SlotState
  | pending
  | waitingForData
  | ready
  | claimed
  | completed
  | skipped
  | expired
  | failed
  | flattenRequired
  deriving DecidableEq

namespace SlotState

def value : SlotState → String
  | pending => "PENDING"
  | waitingForData => "WAITING_FOR_DATA"
  | ready => "READY"
  | claimed => "CLAIMED"
  | completed => "COMPLETED"
  | skipped => "SKIPPED"
  | expired => "EXPIRED"
  | failed => "FAILED"
  | flattenRequired => "FLATTEN_REQUIRED"

/-- `_terminal_states`. -/
def terminal : SlotState → Bool
  | completed | skipped | expired | failed => true
  | _ => false

/-- The states whose outcome needs a durable reason. -/
def reasonRequired : SlotState → Bool
  | waitingForData | skipped | expired | failed => true
  | _ => false

/-- `_allowed_next_states`. -/
def allowedNextStates : SlotState → List SlotState
  | pending => [waitingForData, ready, skipped, expired]
  | waitingForData => [waitingForData, ready, skipped, expired]
  | ready => [claimed, skipped, expired]
  | flattenRequired => [claimed, failed]
  | claimed => [claimed, completed, expired, failed]
  | completed => []
  | skipped => []
  | expired => []
  | failed => []

/-- A terminal state has no successor. -/
theorem allowedNextStates_of_terminal {s : SlotState} (h : s.terminal = true) :
    s.allowedNextStates = [] := by
  cases s <;> first | rfl | cases h

end SlotState

/-- Thirty seconds. -/
def leaseDuration : Int := seconds 30

/-! ## Slots -/

/-- The fields that identify a slot. -/
structure SlotIdentity where
  experimentId : String
  experimentVersion : Nat
  experimentHash : String
  signalProviderId : String
  signalProviderVersion : String
  sessionDate : CalendarDate
  sourceIntervalStart : Instant
  sourceIntervalEnd : Instant
  decisionType : DecisionType
  deriving DecidableEq

/-- The fields that never change. -/
structure SlotContract extends SlotIdentity where
  readyAt : Instant
  deadlineAt : Instant
  requiredCompletionAt : Instant
  deriving DecidableEq

/-- What a transition writes. -/
structure SlotUpdate where
  state : SlotState
  claimOwner : Option String := none
  claimedAt : Option Instant := none
  leaseExpiresAt : Option Instant := none
  attemptCount : Nat
  completedAt : Option Instant := none
  reasonCode : Option String
  deriving DecidableEq

structure DecisionSlotFields extends SlotContract, SlotUpdate where
  version : Nat
  deriving DecidableEq

/-- The lease part of `_validate_slot`. -/
def SlotUpdate.checkClaim (s : SlotUpdate) : Except PlatformError Unit :=
  match s.state, s.claimOwner, s.claimedAt, s.leaseExpiresAt with
  | .claimed, some owner, some claimedAt, some leaseExpiresAt => do
      rejectIf (isVersionText owner = false) (.slotValidation "claim owner is invalid")
      rejectIf (leaseExpiresAt - claimedAt ≠ leaseDuration)
        (.slotValidation "slot lease must be exactly 30 seconds")
  | .claimed, _, _, _ => .error (.slotValidation "claimed slot requires complete lease metadata")
  | _, none, none, none => .ok ()
  | _, _, _, _ => .error (.slotValidation "unclaimed slot cannot retain lease metadata")

/-- The outcome part of `_validate_slot`. -/
def SlotUpdate.checkOutcome (s : SlotUpdate) : Except PlatformError Unit := do
  rejectIf (s.state.terminal = true ∧ s.completedAt = none)
    (.slotValidation "terminal slot requires a completion timestamp")
  rejectIf (s.state.terminal = false ∧ s.completedAt ≠ none)
    (.slotValidation "nonterminal slot cannot have a completion timestamp")
  rejectIf (s.state.reasonRequired = true ∧ s.reasonCode = none)
    (.slotValidation "slot outcome requires a durable reason code")
  rejectIf (∃ reason ∈ s.reasonCode, isSafeCode reason = false)
    (.slotValidation "slot reason code is invalid")

/-- `_validate_slot`. -/
def DecisionSlotFields.check (s : DecisionSlotFields) : Except PlatformError Unit := do
  rejectIf (isSafeCode s.experimentId = false) (.slotValidation "experiment ID is invalid")
  rejectIf (s.experimentVersion < 1)
    (.slotValidation "experiment version must be a positive integer")
  rejectIf (isSha256 s.experimentHash = false) (.slotValidation "experiment hash is invalid")
  rejectIf (isSafeCode s.signalProviderId = false) (.slotValidation "signal provider ID is invalid")
  rejectIf (isVersionText s.signalProviderVersion = false)
    (.slotValidation "signal provider version is invalid")
  rejectIf (¬ (s.sourceIntervalStart < s.sourceIntervalEnd ∧ s.sourceIntervalEnd ≤ s.readyAt ∧
      s.readyAt < s.deadlineAt ∧ s.deadlineAt ≤ s.requiredCompletionAt))
    (.slotValidation "slot interval and deadlines are not ordered")
  rejectIf (s.version < 1) (.slotValidation "slot version must be positive")
  s.checkClaim
  s.checkOutcome

/-- One deterministic slot with its versioned durable state. -/
structure DecisionSlot extends DecisionSlotFields where
  checked : toDecisionSlotFields.check = .ok ()
  deriving DecidableEq

namespace DecisionSlot

section Hashed

variable [ContentHasher]

/-- `_slot_identity_payload`. -/
def identityPayload (s : SlotIdentity) : Canonical :=
  .seq [.text "decision-slot-v1", .text s.experimentId, .int s.experimentVersion,
    .text s.experimentHash, .text s.signalProviderId, .text s.signalProviderVersion,
    .text s.sessionDate.isoformat, .instant s.sourceIntervalStart, .instant s.sourceIntervalEnd,
    .text s.decisionType.value]

def slotId (s : DecisionSlot) : String :=
  deterministicIdFromHashInput "slot" (identityPayload s.toSlotIdentity)

def correlationId (s : DecisionSlot) : String :=
  deterministicIdFromHashInput "correlation" (.seq [.text "slot-correlation-v1", .text s.slotId])

/-- `_slot_content_payload`. -/
def contentPayload (s : DecisionSlot) : Canonical :=
  .mapping [
    ("slot_id", .text s.slotId),
    ("experiment_id", .text s.experimentId),
    ("experiment_version", .int s.experimentVersion),
    ("experiment_hash", .text s.experimentHash),
    ("signal_provider_id", .text s.signalProviderId),
    ("signal_provider_version", .text s.signalProviderVersion),
    ("session_date", .text s.sessionDate.isoformat),
    ("source_interval_start", .instant s.sourceIntervalStart),
    ("source_interval_end", .instant s.sourceIntervalEnd),
    ("ready_at", .instant s.readyAt),
    ("deadline_at", .instant s.deadlineAt),
    ("required_completion_at", .instant s.requiredCompletionAt),
    ("decision_type", .text s.decisionType.value),
    ("state", .text s.state.value),
    ("claim_owner", .optional .text s.claimOwner),
    ("claimed_at", .optional .instant s.claimedAt),
    ("lease_expires_at", .optional .instant s.leaseExpiresAt),
    ("attempt_count", .int s.attemptCount),
    ("completed_at", .optional .instant s.completedAt),
    ("reason_code", .optional .text s.reasonCode),
    ("correlation_id", .text s.correlationId),
    ("version", .int s.version)]

def contentHash (s : DecisionSlot) : String := sha256Hex s.contentPayload

end Hashed

/-- `DecisionSlot.create`. -/
def create (contract : SlotContract) (initialState : SlotState) :
    Except PlatformError DecisionSlot :=
  validated DecisionSlotFields.check
    { toSlotContract := contract, state := initialState, attemptCount := 0, reasonCode := none,
      version := 1 }
    fun h => ⟨_, h⟩

/-- The fields after a transition. -/
def evolvedFields (s : DecisionSlot) (update : SlotUpdate) : DecisionSlotFields :=
  { toSlotContract := s.toSlotContract, toSlotUpdate := update, version := s.version + 1 }

/-- `DecisionSlot.evolve`. -/
def evolve (s : DecisionSlot) (update : SlotUpdate) : Except PlatformError DecisionSlot :=
  validated DecisionSlotFields.check (s.evolvedFields update) fun h => ⟨_, h⟩

theorem create_fields {contract : SlotContract} {initialState : SlotState} {s : DecisionSlot}
    (h : create contract initialState = .ok s) :
    s.toSlotContract = contract ∧ s.state = initialState ∧ s.attemptCount = 0 ∧ s.version = 1 := by
  obtain ⟨_, rfl⟩ := validated_eq_ok.1 h
  exact ⟨rfl, rfl, rfl, rfl⟩

theorem evolve_eq_ok {s t : DecisionSlot} {update : SlotUpdate} :
    s.evolve update = .ok t ↔ t.toDecisionSlotFields = s.evolvedFields update := by
  constructor
  · intro h
    obtain ⟨_, rfl⟩ := validated_eq_ok.1 h
    rfl
  · intro h
    have hchecked : (s.evolvedFields update).check = .ok () := h ▸ t.checked
    refine validated_eq_ok.2 ⟨hchecked, ?_⟩
    cases t
    simp only at h
    subst h
    rfl

/-- A transition keeps the identity. -/
theorem slotId_of_evolved [ContentHasher] {s t : DecisionSlot} {update : SlotUpdate}
    (h : t.toDecisionSlotFields = s.evolvedFields update) : t.slotId = s.slotId := by
  show deterministicIdFromHashInput "slot" (identityPayload t.toSlotContract.toSlotIdentity) = _
  rw [h]
  rfl

/-- The checks on the mutable part, read off a valid slot. -/
theorem checked_update (s : DecisionSlot) :
    s.checkClaim = .ok () ∧ s.checkOutcome = .ok () := by
  have h := s.checked
  simp only [DecisionSlotFields.check, unit_bind_eq_ok] at h
  exact h.2.2.2.2.2.2.2

theorem lease_of_claimed {s : DecisionSlot} (h : s.state = .claimed) :
    ∃ owner claimedAt leaseExpiresAt, s.claimOwner = some owner ∧ s.claimedAt = some claimedAt ∧
      s.leaseExpiresAt = some leaseExpiresAt := by
  have hc := s.checked_update.1
  unfold SlotUpdate.checkClaim at hc
  split at hc
  · next owner claimedAt leaseExpiresAt _ howner hclaimed hlease =>
      exact ⟨owner, claimedAt, leaseExpiresAt, howner, hclaimed, hlease⟩
  · cases hc
  · next hstate => exact absurd h hstate
  · cases hc

end DecisionSlot

/-! ## The timetable of a session -/

/-- Local times of the exchange as hour and minute. -/
abbrev LocalTime := Nat × Nat

/-- The closes of the strategy intervals. -/
def strategyCloseTimes : List LocalTime :=
  [(9, 45), (10, 0), (10, 15), (10, 30), (10, 45), (11, 0), (11, 15), (11, 30), (11, 45), (12, 0),
    (12, 15), (12, 30), (12, 45), (13, 0), (13, 15), (13, 30), (13, 45), (14, 0), (14, 15),
    (14, 30)]

structure SessionSlotScheduleFields where
  sessionDate : CalendarDate
  strategySlots : List DecisionSlot
  forcedFlatSlot : Option DecisionSlot
  reasonCode : Option String

def SessionSlotScheduleFields.check (s : SessionSlotScheduleFields) : Except PlatformError Unit :=
  match s.reasonCode with
  | some reason => do
      rejectIf (isSafeCode reason = false) (.slotValidation "slot reason code is invalid")
      rejectIf (s.strategySlots ≠ [] ∨ s.forcedFlatSlot ≠ none)
        (.slotValidation "unavailable sessions cannot contain decision slots")
  | none =>
      rejectIf (s.strategySlots.length ≠ strategyCloseTimes.length ∨ s.forcedFlatSlot = none)
        (.slotValidation "a full session schedule must contain every exact slot")

/-- Deterministic outcome of planning one exchange session. -/
structure SessionSlotSchedule extends SessionSlotScheduleFields where
  checked : toSessionSlotScheduleFields.check = .ok ()

/-- All slots in chronological order. -/
def SessionSlotSchedule.slots (s : SessionSlotSchedule) : List DecisionSlot :=
  s.strategySlots ++ s.forcedFlatSlot.toList

def SessionSlotSchedule.create (fields : SessionSlotScheduleFields) :
    Except PlatformError SessionSlotSchedule :=
  validated SessionSlotScheduleFields.check fields fun h => ⟨fields, h⟩

/-- What the scheduler is configured with. -/
structure SlotPlan where
  experimentId : String
  experimentVersion : Nat
  experimentHash : String
  signalProviderId : String
  signalProviderVersion : String

/-- One session of the exchange calendar. -/
structure ExchangeSession where
  openAt : Instant
  closeAt : Instant
  isStandardFullSession : Bool

section Timetable

-- `_market_instant`: the instant of a New York local time on a date.
variable (marketInstant : CalendarDate → LocalTime → Instant)

/-- `_strategy_slot`. -/
def strategySlot (plan : SlotPlan) (sessionDate : CalendarDate) (closeTime : LocalTime) :
    Except PlatformError DecisionSlot :=
  let intervalEnd := marketInstant sessionDate closeTime
  let deadlineAt := intervalEnd + seconds 120
  DecisionSlot.create
    { experimentId := plan.experimentId, experimentVersion := plan.experimentVersion,
      experimentHash := plan.experimentHash, signalProviderId := plan.signalProviderId,
      signalProviderVersion := plan.signalProviderVersion, sessionDate,
      sourceIntervalStart := intervalEnd - seconds 900, sourceIntervalEnd := intervalEnd,
      decisionType := .strategy, readyAt := intervalEnd + seconds 60, deadlineAt,
      requiredCompletionAt := deadlineAt } .pending

/-- `_forced_flat_slot`. -/
def forcedFlatSlot (plan : SlotPlan) (sessionDate : CalendarDate) :
    Except PlatformError DecisionSlot :=
  let target := marketInstant sessionDate (15, 43)
  DecisionSlot.create
    { experimentId := plan.experimentId, experimentVersion := plan.experimentVersion,
      experimentHash := plan.experimentHash, signalProviderId := plan.signalProviderId,
      signalProviderVersion := plan.signalProviderVersion, sessionDate,
      sourceIntervalStart := target - seconds 60, sourceIntervalEnd := target,
      decisionType := .forcedFlat, readyAt := target,
      deadlineAt := marketInstant sessionDate (15, 44),
      requiredCompletionAt := marketInstant sessionDate (15, 45) } .flattenRequired

/-- `build_session_schedule` for a validated experiment. -/
def buildSessionSchedule (plan : SlotPlan) (sessionDate : CalendarDate)
    (session : Option ExchangeSession) : Except PlatformError SessionSlotSchedule :=
  match session with
  | none => SessionSlotSchedule.create ⟨sessionDate, [], none, some "market_closed"⟩
  | some session => do
      if session.isStandardFullSession = false then
        SessionSlotSchedule.create ⟨sessionDate, [], none, some "unsupported_nonstandard_session"⟩
      else
        rejectIf (session.openAt ≠ marketInstant sessionDate (9, 30) ∨
            session.closeAt ≠ marketInstant sessionDate (16, 0))
          (.slotValidation "XNAS full-session boundaries do not match the exact timetable")
        let strategySlots ← collect (strategySlot marketInstant plan sessionDate) strategyCloseTimes
        let forcedFlat ← forcedFlatSlot marketInstant plan sessionDate
        SessionSlotSchedule.create ⟨sessionDate, strategySlots, some forcedFlat, none⟩

theorem slots_of_create {fields : SessionSlotScheduleFields} {schedule : SessionSlotSchedule}
    (h : SessionSlotSchedule.create fields = .ok schedule) :
    schedule.slots = fields.strategySlots ++ fields.forcedFlatSlot.toList := by
  obtain ⟨_, rfl⟩ := validated_eq_ok.1 h
  rfl

/-- Every slot of a built schedule is new: version one, no attempt. -/
theorem fresh_of_buildSessionSchedule {plan : SlotPlan} {sessionDate : CalendarDate}
    {session : Option ExchangeSession} {schedule : SessionSlotSchedule}
    (h : buildSessionSchedule marketInstant plan sessionDate session = .ok schedule)
    {s : DecisionSlot} (hs : s ∈ schedule.slots) : s.attemptCount = 0 ∧ s.version = 1 := by
  unfold buildSessionSchedule at h
  split at h
  · rw [slots_of_create h] at hs
    simp at hs
  · split at h
    · rw [slots_of_create h] at hs
      simp at hs
    · simp only [bind_eq_ok] at h
      obtain ⟨-, -, strategySlots, hstrategy, forcedFlat, hforced, hcreate⟩ := h
      rw [slots_of_create hcreate] at hs
      rcases List.mem_append.1 hs with hmem | hmem
      · obtain ⟨closeTime, -, hslot⟩ := mem_of_collect hstrategy hmem
        exact (DecisionSlot.create_fields hslot).2.2
      · cases List.mem_singleton.1 hmem
        exact (DecisionSlot.create_fields hforced).2.2

end Timetable

end AdaptiveTrader
