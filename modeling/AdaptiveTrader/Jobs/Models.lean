import AdaptiveTrader.Platform.Domain

/-!
# Durable jobs and outbox messages

A job is an allowlisted routing payload with its versioned durable state. Its identity
(`JobIdentity`) never changes; a transition replaces the status and its lease, counts one version up
and is validated again (`JobRecord.replace`). An outbox event announces one job transition and has a
delivery lifecycle of its own.

Payload hashes and event IDs are functions of the other fields. The content hash of a row is compared
with the one computed from the row and read nowhere else, so the rows carry none.
-/

set_option autoImplicit false

namespace AdaptiveTrader

open Foundation

/-- `JOB_MAX_ATTEMPTS`. -/
def jobMaxAttempts : Nat := 3

/-- `JOB_LEASE_DURATION`. -/
def jobLeaseDuration : Int := seconds 60

/-- `JOB_RETRY_DELAYS`. -/
def jobRetryDelays : List Int := [seconds 5, seconds 10, seconds 20]

/-- The complete public job allowlist. -/
inductive JobType
  | dataQualityAudit
  | gapRepair
  | datasetFreeze
  | offlineDemo
  deriving DecidableEq

namespace JobType

def value : JobType → String
  | dataQualityAudit => "DATA_QUALITY_AUDIT"
  | gapRepair => "GAP_REPAIR"
  | datasetFreeze => "DATASET_FREEZE"
  | offlineDemo => "OFFLINE_DEMO"

/-- `job_type.value.lower()`. -/
def lower : JobType → String
  | dataQualityAudit => "data_quality_audit"
  | gapRepair => "gap_repair"
  | datasetFreeze => "dataset_freeze"
  | offlineDemo => "offline_demo"

/-- The payload key behind the contract version. -/
def routingKey : JobType → String
  | dataQualityAudit => "experiment_hash"
  | gapRepair => "gap_id"
  | datasetFreeze => "experiment_hash"
  | offlineDemo => "demo_id"

end JobType

/-- Durable job lifecycle states. -/
inductive JobState
  | pending
  | claimed
  | running
  | succeeded
  | failed
  | dead
  | canceled
  deriving DecidableEq

namespace JobState

/-- `state.value.lower()`. -/
def lower : JobState → String
  | pending => "pending"
  | claimed => "claimed"
  | running => "running"
  | succeeded => "succeeded"
  | failed => "failed"
  | dead => "dead"
  | canceled => "canceled"

/-- A worker holds the job. -/
def leased : JobState → Bool
  | claimed | running => true
  | _ => false

def terminal : JobState → Bool
  | succeeded | dead | canceled => true
  | _ => false

/-- The job waits for its next attempt. -/
def retryable : JobState → Bool
  | pending | failed => true
  | _ => false

/-- The job carries the error of its last attempt. -/
def errored : JobState → Bool
  | failed | dead => true
  | _ => false

end JobState

/-- Immutable attempt transitions written by a worker. -/
inductive JobAttemptTransition
  | claimed
  | running
  | succeeded
  | failed
  | abandoned
  deriving DecidableEq

def JobAttemptTransition.value : JobAttemptTransition → String
  | claimed => "CLAIMED"
  | running => "RUNNING"
  | succeeded => "SUCCEEDED"
  | failed => "FAILED"
  | abandoned => "ABANDONED"

/-- Delivery lifecycle of one immutable outbox message. -/
inductive OutboxState
  | pending
  | claimed
  | published
  | failed
  | dead
  deriving DecidableEq

namespace OutboxState

/-- The event waits for its next delivery. -/
def retryable : OutboxState → Bool
  | pending | failed => true
  | _ => false

def terminal : OutboxState → Bool
  | published | dead => true
  | _ => false

/-- The event carries the error of its last delivery. -/
def errored : OutboxState → Bool
  | failed | dead => true
  | _ => false

end OutboxState

/-! ## Identifiers and errors -/

/-- `^[a-z0-9][a-z0-9._:-]{0,127}$`. -/
def isResourceId (s : String) : Bool :=
  matchesHeadTail (fun c => isLower c || isDigit c)
    (fun c => isLower c || isDigit c || c == '.' || c == '_' || c == ':' || c == '-') 127 s.toList

/-- `^[a-z0-9][a-z0-9._-]{0,127}$`. -/
def isArtifactId (s : String) : Bool :=
  matchesHeadTail (fun c => isLower c || isDigit c)
    (fun c => isLower c || isDigit c || c == '.' || c == '_' || c == '-') 127 s.toList

/-- A letter or digit, then at most 255 letters, digits, spaces and characters of `.,;:_()-` and the
slash. -/
def isSafeErrorMessage (s : String) : Bool :=
  matchesHeadTail (fun c => isUpper c || isLower c || isDigit c)
    (fun c => isUpper c || isLower c || isDigit c || " .,;:_()-/".toList.contains c) 255 s.toList

def sensitiveErrorFragments : List String :=
  ["api_key", "authorization", "connection_string", "cookie", "credential", "database_url",
    "password", "private_key", "secret", "token", "://"]

/-- `fragment in text.lower()` for an ASCII text. -/
def containsFragment (text fragment : String) : Bool :=
  (text.toList.map Char.toLower).tails.any fun rest => fragment.toList.isPrefixOf rest

/-- `_require_identifier`, under the name the repository gives it. -/
def requireResourceId (value fieldName : String) : Except PlatformError Unit :=
  rejectIf (isResourceId value = false) (.jobValidation (fieldName ++ " is invalid"))

/-- `_require_correlation_id`. -/
def requireCorrelationId (value : String) : Except PlatformError Unit :=
  rejectIf (¬ (isUuid value = true ∨ isContentId value = true))
    (.jobValidation "job correlation ID is invalid")

/-- `require_artifact_id`. -/
def requireArtifactId (value : String) : Except PlatformError Unit :=
  rejectIf (isArtifactId value = false) (.jobValidation "result artifact ID is invalid")

/-- `retry_delay`. -/
def retryDelay (attemptCount : Nat) : Except PlatformError Int := do
  rejectIf (¬ (1 ≤ attemptCount ∧ attemptCount ≤ jobMaxAttempts))
    (.jobValidation "job retry attempt is invalid")
  require jobRetryDelays[attemptCount - 1]? (.jobValidation "job retry attempt is invalid")

structure SafeJobErrorFields where
  code : String
  message : String
  deriving DecidableEq

def SafeJobErrorFields.check (e : SafeJobErrorFields) : Except PlatformError Unit := do
  rejectIf (isSafeCode e.code = false) (.jobValidation "safe job error code is invalid")
  rejectIf (isSafeErrorMessage e.message = false ∨
      sensitiveErrorFragments.any (containsFragment e.message) = true)
    (.jobValidation "safe job error message is invalid")

/-- Failure metadata safe for storage and operator display. -/
structure SafeJobError extends SafeJobErrorFields where
  checked : toSafeJobErrorFields.check = .ok ()
  deriving DecidableEq

/-! ## Payloads and requests -/

structure JobPayloadFields where
  jobType : JobType
  routingId : String
  deriving DecidableEq

/-- `_validate_payload_shape` on the routing identifier. -/
def JobPayloadFields.check (p : JobPayloadFields) : Except PlatformError Unit :=
  rejectIf ((if p.jobType.routingKey = "experiment_hash" then isSha256 p.routingId
    else isResourceId p.routingId) = false)
    (.jobValidation "job payload routing identifier is invalid")

/-- Bounded routing data of one job type. -/
structure JobPayload extends JobPayloadFields where
  checked : toJobPayloadFields.check = .ok ()
  deriving DecidableEq

/-- The object the payload encodes. -/
def JobPayload.value (p : JobPayload) : Canonical :=
  .mapping [("contract_version", .int 1), (p.jobType.routingKey, .text p.routingId)]

def JobPayload.payloadHash [ContentHasher] (p : JobPayload) : String := sha256Hex p.value

structure JobCreateRequestFields where
  payload : JobPayload
  idempotencyKey : String
  correlationId : String
  requestedAt : Instant
  deriving DecidableEq

def JobCreateRequestFields.check (r : JobCreateRequestFields) : Except PlatformError Unit := do
  requireResourceId r.idempotencyKey "job idempotency key"
  requireCorrelationId r.correlationId

/-- One idempotent request to create an allowlisted job. -/
structure JobCreateRequest extends JobCreateRequestFields where
  checked : toJobCreateRequestFields.check = .ok ()
  deriving DecidableEq

/-! ## Job records -/

/-- The fields that never change. -/
structure JobIdentity where
  jobId : String
  payload : JobPayload
  idempotencyKey : String
  correlationId : String
  createdAt : Instant
  deriving DecidableEq

/-- What a transition writes. -/
structure JobStatus where
  state : JobState
  attemptCount : Nat
  nextAttemptAt : Option Instant := none
  leaseOwner : Option String := none
  leaseExpiresAt : Option Instant := none
  claimedAt : Option Instant := none
  startedAt : Option Instant := none
  completedAt : Option Instant := none
  safeError : Option SafeJobError := none
  resultArtifactId : Option String := none
  updatedAt : Instant
  deriving DecidableEq

structure JobFields extends JobIdentity, JobStatus where
  version : Nat
  deriving DecidableEq

namespace JobFields

/-- The lease part of `_validate_job_state`. -/
def checkLease (j : JobFields) : Except PlatformError Unit := do
  rejectIf (j.state.leased ≠ (j.leaseOwner.isSome && j.leaseExpiresAt.isSome && j.claimedAt.isSome))
    (.jobValidation "persisted job lease fields are inconsistent")
  rejectIf (∃ owner ∈ j.leaseOwner, isResourceId owner = false)
    (.jobValidation "job lease owner is invalid")
  rejectIf (j.state.leased = true ∧ ¬ (1 ≤ j.attemptCount ∧ ∃ claimedAt ∈ j.claimedAt,
      ∃ lease ∈ j.leaseExpiresAt,
        j.createdAt ≤ claimedAt ∧ claimedAt ≤ j.updatedAt ∧ j.updatedAt < lease))
    (.jobValidation "persisted job lease timestamps are invalid")
  rejectIf (j.state = .running ∧ j.startedAt = none)
    (.jobValidation "running job has no start timestamp")
  rejectIf (j.state = .claimed ∧ j.startedAt ≠ none)
    (.jobValidation "claimed job has an unexpected start timestamp")
  rejectIf (∃ startedAt ∈ j.startedAt, ¬ ∃ claimedAt ∈ j.claimedAt,
      claimedAt ≤ startedAt ∧ startedAt ≤ j.updatedAt)
    (.jobValidation "persisted job start timestamp is invalid")

/-- The outcome part of `_validate_job_state`. -/
def checkOutcome (j : JobFields) : Except PlatformError Unit := do
  rejectIf (j.state.terminal ≠ j.completedAt.isSome)
    (.jobValidation "persisted job completion fields are inconsistent")
  rejectIf (∃ completedAt ∈ j.completedAt, completedAt ≠ j.updatedAt)
    (.jobValidation "persisted job completion timestamp is invalid")
  rejectIf (j.state.retryable = true ∧ j.nextAttemptAt = none)
    (.jobValidation "retryable job has no next-attempt timestamp")
  rejectIf (j.state.retryable = false ∧ j.nextAttemptAt ≠ none)
    (.jobValidation "non-retryable job has a next-attempt timestamp")
  rejectIf (∃ next ∈ j.nextAttemptAt, next < j.updatedAt)
    (.jobValidation "persisted job retry timestamp is invalid")
  rejectIf (j.state.errored ≠ j.safeError.isSome)
    (.jobValidation "persisted job error state is inconsistent")
  rejectIf (j.resultArtifactId ≠ none ∧ j.state ≠ .succeeded)
    (.jobValidation "persisted job result state is inconsistent")

/-- The attempt part of `_validate_job_state`. -/
def checkAttempts (j : JobFields) : Except PlatformError Unit := do
  rejectIf (j.state = .pending ∧ j.attemptCount ≠ 0)
    (.jobValidation "pending job attempt count is invalid")
  rejectIf (¬ (j.state = .pending ∨ j.state = .canceled) ∧ j.attemptCount < 1)
    (.jobValidation "persisted job attempt count is invalid")
  rejectIf (j.state = .dead ∧ j.attemptCount ≠ jobMaxAttempts)
    (.jobValidation "dead job attempt count is invalid")

/-- `JobRecord.__post_init__`. -/
def check (j : JobFields) : Except PlatformError Unit := do
  requireResourceId j.jobId "job ID"
  requireResourceId j.idempotencyKey "job idempotency key"
  requireCorrelationId j.correlationId
  rejectIf (jobMaxAttempts < j.attemptCount ∨ j.version < 1)
    (.jobValidation "persisted job counters are invalid")
  rejectIf (j.updatedAt < j.createdAt)
    (.jobValidation "persisted job timestamps are not monotonic")
  j.checkLease
  j.checkOutcome
  j.checkAttempts
  rejectIf (∃ artifact ∈ j.resultArtifactId, isArtifactId artifact = false)
    (.jobValidation "persisted result artifact ID is invalid")

end JobFields

/-- Validated durable state of one job. -/
structure JobRecord extends JobFields where
  checked : toJobFields.check = .ok ()
  deriving DecidableEq

/-- Any failed check of a row is reported in the same words. -/
def orMalformed {α : Type} (message : String) (x : Except PlatformError α) :
    Except PlatformError α :=
  match x with
  | .ok a => .ok a
  | .error _ => .error (.jobValidation message)

@[simp] theorem orMalformed_eq_ok {α : Type} {message : String} {x : Except PlatformError α} {a : α} :
    orMalformed message x = .ok a ↔ x = .ok a := by
  cases x <;> simp [orMalformed]

namespace JobRecord

/-- `_job_from_values`. -/
def fromValues (fields : JobFields) : Except PlatformError JobRecord :=
  orMalformed "persisted job state is malformed" <|
    validated JobFields.check fields fun h => ⟨fields, h⟩

/-- The fields after a transition. -/
def replacedFields (prior : JobRecord) (status : JobStatus) : JobFields :=
  { toJobIdentity := prior.toJobIdentity, toJobStatus := status, version := prior.version + 1 }

/-- `_replace_job`. -/
def replace (prior : JobRecord) (status : JobStatus) : Except PlatformError JobRecord :=
  fromValues (prior.replacedFields status)

theorem fromValues_eq_ok {fields : JobFields} {j : JobRecord} :
    fromValues fields = .ok j ↔ j.toJobFields = fields := by
  rw [fromValues, orMalformed_eq_ok]
  constructor
  · intro h
    obtain ⟨_, rfl⟩ := validated_eq_ok.1 h
    rfl
  · rintro rfl
    exact validated_of_ok j.checked

theorem replace_eq_ok {prior current : JobRecord} {status : JobStatus} :
    prior.replace status = .ok current ↔ current.toJobFields = prior.replacedFields status :=
  fromValues_eq_ok

/-- The checks on counters, lease, outcome and attempts, read off a valid record. -/
theorem checked_parts (j : JobRecord) :
    (j.attemptCount ≤ jobMaxAttempts ∧ 1 ≤ j.version) ∧ j.checkLease = .ok () ∧
      j.checkOutcome = .ok () ∧ j.checkAttempts = .ok () := by
  have h := j.checked
  simp only [JobFields.check, unit_bind_eq_ok, rejectIf_eq_ok, not_or, not_lt] at h
  obtain ⟨-, -, -, hcounters, -, hlease, houtcome, hattempts, -⟩ := h
  exact ⟨hcounters, hlease, houtcome, hattempts⟩

theorem attemptCount_le (j : JobRecord) : j.attemptCount ≤ jobMaxAttempts :=
  j.checked_parts.1.1

/-- A dead job has used all its attempts. -/
theorem attemptCount_of_dead {j : JobRecord} (h : j.state = .dead) :
    j.attemptCount = jobMaxAttempts := by
  have hattempts := j.checked_parts.2.2.2
  simp only [JobFields.checkAttempts, unit_bind_eq_ok, rejectIf_eq_ok, not_and, not_not]
    at hattempts
  exact hattempts.2.2 h

/-- A leased job has a worker, a lease and an attempt. -/
theorem lease_of_leased {j : JobRecord} (h : j.state.leased = true) :
    1 ≤ j.attemptCount ∧ ∃ owner lease, j.leaseOwner = some owner ∧
      j.leaseExpiresAt = some lease ∧ j.updatedAt < lease := by
  have hlease := j.checked_parts.2.1
  simp only [JobFields.checkLease, unit_bind_eq_ok, rejectIf_eq_ok, not_and_not_right, not_not]
    at hlease
  obtain ⟨hcomplete, -, htimes, -⟩ := hlease
  obtain ⟨hattempt, _, -, lease, hlease, -, -, hlate⟩ := htimes h
  rw [h] at hcomplete
  have hsome : j.leaseOwner.isSome = true := by
    cases howner : j.leaseOwner with
    | none => simp [howner] at hcomplete
    | some owner => rfl
  obtain ⟨owner, howner⟩ := Option.isSome_iff_exists.1 hsome
  exact ⟨hattempt, owner, lease, howner, hlease, hlate⟩

/-- A job that was never claimed is pending or canceled. -/
theorem one_le_attemptCount {j : JobRecord} (hpending : j.state ≠ .pending)
    (hcanceled : j.state ≠ .canceled) : 1 ≤ j.attemptCount := by
  have hattempts := j.checked_parts.2.2.2
  simp only [JobFields.checkAttempts, unit_bind_eq_ok, rejectIf_eq_ok, not_and, not_lt, not_or]
    at hattempts
  exact hattempts.2.1 ⟨hpending, hcanceled⟩

theorem attemptCount_of_pending {j : JobRecord} (h : j.state = .pending) : j.attemptCount = 0 := by
  have hattempts := j.checked_parts.2.2.2
  simp only [JobFields.checkAttempts, unit_bind_eq_ok, rejectIf_eq_ok, not_and, not_not]
    at hattempts
  exact hattempts.1 h

end JobRecord

/-! ## Outbox events -/

/-- The payload of the announcement of one job transition. -/
structure OutboxPayload where
  jobId : String
  jobType : JobType
  correlationId : String
  state : JobState
  attemptCount : Nat
  version : Nat
  reasonCode : Option String
  deriving DecidableEq

/-- The entries of the payload object. -/
def OutboxPayload.entries (p : OutboxPayload) : List (String × Canonical) :=
  [("job_id", .text p.jobId), ("job_type", .text p.jobType.lower),
    ("correlation_id", .text p.correlationId), ("state", .text p.state.lower),
    ("attempt_count", .int p.attemptCount), ("version", .int p.version)] ++
    (p.reasonCode.map fun reason => ("reason_code", Canonical.text reason)).toList

/-- The fields that never change. -/
structure OutboxMessage where
  aggregateId : String
  eventType : String
  payload : OutboxPayload
  createdAt : Instant
  deriving DecidableEq

/-- What a delivery step writes. -/
structure OutboxStatus where
  state : OutboxState
  attemptCount : Nat
  nextAttemptAt : Option Instant := none
  leaseOwner : Option String := none
  leaseExpiresAt : Option Instant := none
  publishedAt : Option Instant := none
  safeError : Option SafeJobError := none
  updatedAt : Instant
  version : Nat
  deriving DecidableEq

/-- One row of the outbox. -/
structure OutboxEvent extends OutboxMessage, OutboxStatus
  deriving DecidableEq

namespace OutboxMessage

variable [ContentHasher]

/-- The hash that identifies the message. -/
def outboxHash (m : OutboxMessage) : String :=
  sha256Hex (.seq [.text "job-outbox", .text m.payload.jobId, .int m.payload.version,
    .text m.eventType, .mapping m.payload.entries])

def outboxEventId (m : OutboxMessage) : String := deterministicId "outbox" m.outboxHash

end OutboxMessage

/-- `_validate_outbox_payload`: the announced state, type and reason fit together. -/
def OutboxMessage.PayloadValid (m : OutboxMessage) : Prop :=
  isResourceId m.payload.jobId = true ∧ isResourceId m.payload.correlationId = true ∧
    m.payload.jobId = m.aggregateId ∧ m.payload.attemptCount ≤ jobMaxAttempts ∧
    1 ≤ m.payload.version ∧
    m.eventType = (if m.eventType = "job.created" ∧ m.payload.state = .pending then "job.created"
      else "job." ++ m.payload.state.lower) ∧
    m.payload.state.errored = m.payload.reasonCode.isSome ∧
    ∀ reason ∈ m.payload.reasonCode, isResourceId reason = true

instance (m : OutboxMessage) : Decidable m.PayloadValid := by
  unfold OutboxMessage.PayloadValid
  infer_instance

/-- The conditions on the delivery lifecycle. -/
def OutboxEvent.LifecycleValid (e : OutboxEvent) : Prop :=
  e.createdAt ≤ e.updatedAt ∧
    (e.leaseOwner.isSome && e.leaseExpiresAt.isSome) = decide (e.state = .claimed) ∧
    (e.state = .claimed → (∀ owner ∈ e.leaseOwner, isResourceId owner = true) ∧
      ∀ lease ∈ e.leaseExpiresAt, e.updatedAt < lease) ∧
    e.state.retryable = e.nextAttemptAt.isSome ∧ (∀ next ∈ e.nextAttemptAt, e.updatedAt ≤ next) ∧
    decide (e.state = .published) = e.publishedAt.isSome ∧
    (∀ published ∈ e.publishedAt, published = e.updatedAt) ∧
    e.safeError.isSome = e.state.errored

instance (e : OutboxEvent) : Decidable e.LifecycleValid := by
  unfold OutboxEvent.LifecycleValid
  infer_instance

/-- `_validate_outbox_row`: every failure is reported in the same words. -/
def validateOutboxRow [ContentHasher] (e : OutboxEvent) : Except PlatformError Unit :=
  rejectIf (¬ (isResourceId e.aggregateId = true ∧ isResourceId e.eventType = true ∧
      isResourceId e.outboxEventId = true ∧ e.attemptCount ≤ jobMaxAttempts ∧ 1 ≤ e.version ∧
      e.toOutboxMessage.PayloadValid ∧ e.LifecycleValid))
    (.jobValidation "persisted outbox state is malformed")

structure ClaimedOutboxEventFields where
  outboxEventId : String
  eventType : String
  aggregateId : String
  payload : OutboxPayload
  attemptCount : Nat
  leaseOwner : String
  leaseExpiresAt : Instant
  updatedAt : Instant
  deriving DecidableEq

def ClaimedOutboxEventFields.check (e : ClaimedOutboxEventFields) : Except PlatformError Unit := do
  requireResourceId e.outboxEventId "outbox event ID"
  requireResourceId e.eventType "outbox event type"
  requireResourceId e.aggregateId "outbox aggregate ID"
  rejectIf (¬ (1 ≤ e.attemptCount ∧ e.attemptCount ≤ jobMaxAttempts))
    (.jobValidation "outbox event attempt is invalid")
  requireResourceId e.leaseOwner "outbox lease owner"
  rejectIf (e.leaseExpiresAt ≤ e.updatedAt)
    (.jobValidation "outbox event lease timestamp is invalid")

/-- An outbox event in the hands of a publisher. -/
structure ClaimedOutboxEvent extends ClaimedOutboxEventFields where
  checked : toClaimedOutboxEventFields.check = .ok ()
  deriving DecidableEq

/-- `_claimed_outbox_event`: the row of a claim has an owner and a lease. -/
def ClaimedOutboxEvent.fromRow [ContentHasher] (e : OutboxEvent) (owner : String)
    (leaseExpiresAt : Instant) : Except PlatformError ClaimedOutboxEvent :=
  validated ClaimedOutboxEventFields.check
    ⟨e.outboxEventId, e.eventType, e.aggregateId, e.payload, e.attemptCount, owner, leaseExpiresAt,
      e.updatedAt⟩ fun h => ⟨_, h⟩

end AdaptiveTrader
