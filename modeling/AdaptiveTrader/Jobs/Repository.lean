import AdaptiveTrader.Foundation.Tables
import AdaptiveTrader.Jobs.Models
import AdaptiveTrader.Platform.Audit

/-!
# The job repository

The operations of `JobRepository` as functions from the database to the next one; an error rolls the
transaction back. Every job transition writes the job row, an attempt event where a worker is
concerned, one outbox event and one audit event. The outbox is delivered under leases of its own.

Transactions are serialized, so no row is locked by another transaction. The two databases differ in
where an absent retry time is sorted.
-/

set_option autoImplicit false

namespace AdaptiveTrader

open Foundation

/-- The supported databases. -/
inductive SqlDialect
  | postgresql
  | sqlite
  deriving DecidableEq

/-- One immutable event of a job attempt. -/
structure JobAttempt where
  jobId : String
  attemptNumber : Nat
  sequence : Nat
  transition : JobAttemptTransition
  owner : String
  occurredAt : Instant
  leaseExpiresAt : Option Instant
  safeError : Option SafeJobError
  deriving DecidableEq

/-- The ID derived from the content of the event. -/
def JobAttempt.jobAttemptEventId [ContentHasher] (a : JobAttempt) : String :=
  deterministicIdFromHashInput "jobattempt" (.mapping [
    ("job_id", .text a.jobId),
    ("attempt_number", .int a.attemptNumber),
    ("sequence", .int a.sequence),
    ("transition", .text a.transition.value),
    ("owner", .text a.owner),
    ("occurred_at", .instant a.occurredAt),
    ("lease_expires_at", .optional .instant a.leaseExpiresAt),
    ("safe_error_code", .optional .text (a.safeError.map (·.code))),
    ("safe_error_message", .optional .text (a.safeError.map (·.message)))])

/-- The job, attempt, outbox and audit tables. -/
structure JobDatabase where
  jobs : Dict String JobRecord
  attempts : List JobAttempt
  outbox : Dict String OutboxEvent
  auditEvents : List AuditEvent

/-- A repository on a database, with its audit authority. -/
structure JobRepository where
  dialect : SqlDialect
  audit : Option AuditWriter
  auditWriter : AuditWriter

/-- `_require_attempt_number`. -/
def requireAttemptNumber (value : Int) : Except PlatformError Unit :=
  rejectIf (¬ (1 ≤ value ∧ value ≤ jobMaxAttempts))
    (.jobValidation "lease attempt number is invalid")

/-- `_require_forward_time`. -/
def requireForwardTime (previous current : Instant) : Except PlatformError Unit :=
  rejectIf (current < previous) (.jobConflict "transition timestamp is older than durable state")

/-- `require_job_types`. -/
def requireJobTypes (value : List JobType) : Except PlatformError Unit :=
  rejectIf (value = [])
    (.jobValidation "job type selection must use a nonempty frozen set of JobType")

/-- `_require_worker_lease`. -/
def requireWorkerLease (job : JobRecord) (owner : String) (attemptNumber : Int) (now : Instant)
    (state : JobState) : Except PlatformError Unit := do
  requireForwardTime job.updatedAt now
  rejectIf (job.state ≠ state ∨ job.leaseOwner ≠ some owner ∨
      (job.attemptCount : Int) ≠ attemptNumber ∨ ¬ ∃ lease ∈ job.leaseExpiresAt, now < lease)
    (.jobConflict "job worker lease is not valid")

/-- `except SQLAlchemyError: raise JobPersistenceError(message)`. -/
def sqlGuarded {α : Type} (message : String) (x : Except PlatformError α) :
    Except PlatformError α :=
  match x with
  | .error (.sqlIntegrity _) => .error (.jobPersistence message)
  | x => x

theorem sqlGuarded_eq_ok {α : Type} {message : String} {x : Except PlatformError α} {a : α} :
    sqlGuarded message x = .ok a ↔ x = .ok a := by
  unfold sqlGuarded
  split
  · simp
  · rfl

section Repository

variable [ContentHasher]

/-- `_require_outbox_lease`. -/
def requireOutboxLease (row : OutboxEvent) (owner : String) (attemptNumber : Int) (now : Instant) :
    Except PlatformError Unit := do
  validateOutboxRow row
  requireForwardTime row.updatedAt now
  rejectIf (row.state ≠ .claimed ∨ row.leaseOwner ≠ some owner ∨
      (row.attemptCount : Int) ≠ attemptNumber ∨ ¬ ∃ lease ∈ row.leaseExpiresAt, now < lease)
    (.jobConflict "outbox lease is not valid")

/-- `_job_id`. -/
def jobIdOf (request : JobCreateRequest) : String :=
  deterministicIdFromHashInput "job" (.seq [.text "job-identity",
    .text request.payload.jobType.value, .text request.idempotencyKey])

/-- `_same_create_request`. -/
def sameCreateRequest (job : JobRecord) (request : JobCreateRequest) : Bool :=
  decide (job.payload.jobType = request.payload.jobType ∧
    job.payload.payloadHash = request.payload.payloadHash ∧
    job.idempotencyKey = request.idempotencyKey ∧ job.correlationId = request.correlationId)

/-- `_new_job_values`. -/
def newJobFields (jobId : String) (request : JobCreateRequest) : JobFields where
  jobId
  payload := request.payload
  idempotencyKey := request.idempotencyKey
  correlationId := request.correlationId
  createdAt := request.requestedAt
  state := .pending
  attemptCount := 0
  nextAttemptAt := some request.requestedAt
  updatedAt := request.requestedAt
  version := 1

/-- The payload of the announcement of a job's state. -/
def outboxPayload (job : JobRecord) (reasonCode : Option String) : OutboxPayload where
  jobId := job.jobId
  jobType := job.payload.jobType
  correlationId := job.correlationId
  state := job.state
  attemptCount := job.attemptCount
  version := job.version
  reasonCode

/-- The outbox event that announces a job's state. -/
def outboxEventOf (job : JobRecord) (eventType : String) (reasonCode : Option String) :
    OutboxEvent where
  aggregateId := job.jobId
  eventType
  payload := outboxPayload job reasonCode
  createdAt := job.updatedAt
  state := .pending
  attemptCount := 0
  nextAttemptAt := some job.updatedAt
  updatedAt := job.updatedAt
  version := 1

/-- `f"job.{job.state.value.lower()}"`. -/
def jobEventType (job : JobRecord) : String := "job." ++ job.state.lower

/-- The failure `_recover_expired` records. -/
def leaseExpiredError : SafeJobError where
  code := "lease_expired"
  message := "Worker lease expired before completion"
  checked := by decide +kernel

/-- The failure `_update_outbox_dead` records. -/
def deliveryExhaustedError : SafeJobError where
  code := "delivery_attempts_exhausted"
  message := "Outbox delivery attempts exhausted"
  checked := by decide +kernel

namespace JobStatus

/-- A claim of the next attempt. -/
def claim (candidate : JobRecord) (owner : String) (now : Instant) : JobStatus where
  state := .claimed
  attemptCount := candidate.attemptCount + 1
  leaseOwner := some owner
  leaseExpiresAt := some (now + jobLeaseDuration)
  claimedAt := some now
  updatedAt := now

/-- The claimed attempt starts. -/
def start (prior : JobRecord) (now : Instant) : JobStatus :=
  { prior.toJobStatus with state := .running, startedAt := some now, updatedAt := now }

/-- The lease of the running attempt is extended. -/
def extend (prior : JobRecord) (now : Instant) : JobStatus :=
  { prior.toJobStatus with
    state := .running, leaseExpiresAt := some (now + jobLeaseDuration), updatedAt := now }

/-- The running attempt succeeded. -/
def success (prior : JobRecord) (now : Instant) (resultArtifactId : Option String) : JobStatus :=
  { prior.toJobStatus with
    state := .succeeded, leaseOwner := none, leaseExpiresAt := none, claimedAt := none,
    startedAt := none, completedAt := some now, resultArtifactId, updatedAt := now }

/-- The attempt failed: the job waits for `nextAttemptAt`, or is dead without one. -/
def failure (prior : JobRecord) (now : Instant) (safeError : Option SafeJobError)
    (nextAttemptAt : Option Instant) : JobStatus :=
  { prior.toJobStatus with
    state := if nextAttemptAt.isSome then .failed else .dead
    nextAttemptAt, leaseOwner := none, leaseExpiresAt := none, claimedAt := none, startedAt := none
    completedAt := if nextAttemptAt.isSome then none else some now
    safeError, updatedAt := now }

/-- The job is canceled. -/
def cancellation (prior : JobRecord) (now : Instant) : JobStatus :=
  { prior.toJobStatus with
    state := .canceled, nextAttemptAt := none, completedAt := some now, safeError := none,
    resultArtifactId := none, updatedAt := now }

end JobStatus

/-- The time of the next attempt after a failure at `now`; none after the last attempt. -/
def nextAttemptAfter (attempts : Nat) (now : Instant) : Except PlatformError (Option Instant) :=
  if jobMaxAttempts ≤ attempts then
    .ok none
  else do
    let delay ← retryDelay attempts
    pure (some (now + delay))

variable (repository : JobRepository)

namespace JobDatabase

/-- `_required_job`. -/
def requiredJob (db : JobDatabase) (jobId : String) : Except PlatformError JobRecord :=
  require (db.jobs.get? jobId) (.jobNotFound "job does not exist")

/-- `_required_outbox`. -/
def requiredOutbox (db : JobDatabase) (eventId : String) : Except PlatformError OutboxEvent := do
  let row ← require (db.outbox.get? eventId) (.jobNotFound "outbox event does not exist")
  validateOutboxRow row
  pure row

/-- `_persist_transition`. -/
def persistTransition (db : JobDatabase) (prior current : JobRecord) :
    Except PlatformError JobDatabase := do
  let jobs ← require
    (db.jobs.compareAndSet prior.jobId (fun row => decide (row.version = prior.version)) current)
    (.jobConflict "job changed concurrently")
  pure { db with jobs }

/-- `_append_attempt`: event IDs and the events of an attempt are unique. -/
def appendAttempt (db : JobDatabase) (attempt : JobAttempt) : Except PlatformError JobDatabase := do
  rejectIf (∃ a ∈ db.attempts, a.jobAttemptEventId = attempt.jobAttemptEventId ∨
      (a.jobId = attempt.jobId ∧ a.attemptNumber = attempt.attemptNumber ∧
        a.sequence = attempt.sequence)) (.sqlIntegrity "job_attempt_sequence")
  pure { db with attempts := db.attempts ++ [attempt] }

/-- `_append_transition_evidence`. -/
def appendTransitionEvidence (db : JobDatabase) (job : JobRecord) (eventType : String)
    (reasonCode : Option String) : Except PlatformError JobDatabase := do
  let event := outboxEventOf job eventType reasonCode
  rejectIf ((db.outbox.get? event.outboxEventId).isSome = true) (.sqlIntegrity "outbox_event_id")
  let payload ← AuditPayload.fromMapping
    (event.payload.entries ++
      [("idempotency_key", .text (deterministicId "jobevent" event.outboxHash))])
  let auditEvents ← appendAudit repository.audit
    (repository.auditWriter.value ++ ":job:" ++ job.jobId) eventType job.updatedAt payload
    db.auditEvents
  pure { db with outbox := db.outbox.set event.outboxEventId event, auditEvents }

/-- One transition of a job with its attempt event and its announcement, which every worker
transition makes in this order. -/
def transitionWithEvidence (db : JobDatabase) (prior current : JobRecord) (attempt : JobAttempt)
    (eventType : String) (reasonCode : Option String) : Except PlatformError JobDatabase := do
  let db ← db.persistTransition prior current
  let db ← db.appendAttempt attempt
  db.appendTransitionEvidence repository current eventType reasonCode

/-- `_load_after_create_race`. -/
def loadAfterCreateRace (db : JobDatabase) (jobId : String) (request : JobCreateRequest) :
    Except PlatformError JobRecord :=
  match db.jobs.get? jobId with
  | some job => do
      rejectIf (sameCreateRequest job request = false)
        (.jobConflict "job idempotency key conflicts with existing content")
      pure job
  | none => .error (.jobConflict "job idempotency key conflicts with existing content")

/-- A new job does not share its type and idempotency key with another one. -/
def insertJob (db : JobDatabase) (job : JobRecord) : Except PlatformError JobDatabase := do
  rejectIf (db.jobs.values.any (fun row => decide (row.payload.jobType = job.payload.jobType ∧
      row.idempotencyKey = job.idempotencyKey)) = true) (.sqlIntegrity "job_type_idempotency")
  pure { db with jobs := db.jobs.set job.jobId job }

/-- The transaction of `create`. -/
def createOnConnection (request : JobCreateRequest) (db : JobDatabase) :
    Except PlatformError (JobRecord × JobDatabase) :=
  match db.jobs.get? (jobIdOf request) with
  | some existing => do
      rejectIf (sameCreateRequest existing request = false)
        (.jobConflict "job idempotency key conflicts with existing content")
      pure (existing, db)
  | none => do
      let job ← JobRecord.fromValues (newJobFields (jobIdOf request) request)
      let db ← db.insertJob job
      let db ← db.appendTransitionEvidence repository job "job.created" none
      pure (job, db)

/-- `create`: a violated constraint rolls back and compares with the stored job. -/
def create (request : JobCreateRequest) (db : JobDatabase) :
    Except PlatformError (JobRecord × JobDatabase) :=
  match createOnConnection repository request db with
  | .error (.sqlIntegrity _) => do
      let job ← db.loadAfterCreateRace (jobIdOf request) request
      pure (job, db)
  | outcome => outcome

/-- Where an absent retry time is sorted, and the order of the others. -/
def retryOrder (dialect : SqlDialect) : Option Instant → Int ×ₗ Int
  | some next => toLex (0, next)
  | none =>
      match dialect with
      | .postgresql => toLex (1, 0)
      | .sqlite => toLex (-1, 0)

/-- The order in which jobs are offered to workers. -/
def claimOrder (dialect : SqlDialect) (job : JobRecord) : (Int ×ₗ Int) ×ₗ (Int ×ₗ String) :=
  toLex (retryOrder dialect job.nextAttemptAt, toLex (job.createdAt, job.jobId))

/-- `_claim_candidates`. -/
def claimCandidates (db : JobDatabase) (now : Instant) (jobTypes : List JobType) : List JobRecord :=
  (sortedBy (claimOrder repository.dialect) <| db.jobs.values.filter fun job =>
    decide (job.payload.jobType ∈ jobTypes ∧
      ((job.state.retryable = true ∧ ∃ next ∈ job.nextAttemptAt, next ≤ now) ∨
        (job.state.leased = true ∧ ∃ lease ∈ job.leaseExpiresAt, lease ≤ now)))).take 32

/-- `_recover_expired`. -/
def recoverExpired (job : JobRecord) (now : Instant) (db : JobDatabase) :
    Except PlatformError (JobRecord × JobDatabase) := do
  let next ← nextAttemptAfter job.attemptCount now
  let recovered ← job.replace (.failure job now (some leaseExpiredError) next)
  let db ← db.transitionWithEvidence repository job recovered
    { jobId := recovered.jobId, attemptNumber := recovered.attemptCount
      sequence := if job.state = .running then 3 else 2
      transition := .abandoned, owner := job.leaseOwner.getD "", occurredAt := now
      leaseExpiresAt := none, safeError := some leaseExpiredError }
    (jobEventType recovered) (some leaseExpiredError.code)
  pure (recovered, db)

/-- Claim a due job. -/
def claimDue (candidate : JobRecord) (owner : String) (now : Instant) (db : JobDatabase) :
    Except PlatformError (JobRecord × JobDatabase) := do
  let claimed ← candidate.replace (.claim candidate owner now)
  let db ← db.transitionWithEvidence repository candidate claimed
    { jobId := claimed.jobId, attemptNumber := claimed.attemptCount, sequence := 1
      transition := .claimed, owner, occurredAt := now, leaseExpiresAt := claimed.leaseExpiresAt
      safeError := none }
    "job.claimed" none
  pure (claimed, db)

/-- The loop of `claim_next`: expired attempts are recovered on the way to the first due job. -/
def claimEach (owner : String) (now : Instant) :
    List JobRecord → JobDatabase → Except PlatformError (Option JobRecord × JobDatabase)
  | [], db => .ok (none, db)
  | candidate :: rest, db =>
      if candidate.state.leased = true then do
        let recovered ← recoverExpired repository candidate now db
        if recovered.1.state ≠ .failed then
          claimEach owner now rest recovered.2
        else if ∃ next ∈ recovered.1.nextAttemptAt, next ≤ now then do
          let claimed ← claimDue repository recovered.1 owner now recovered.2
          pure (some claimed.1, claimed.2)
        else
          claimEach owner now rest recovered.2
      else if ∃ next ∈ candidate.nextAttemptAt, next ≤ now then do
        let claimed ← claimDue repository candidate owner now db
        pure (some claimed.1, claimed.2)
      else
        claimEach owner now rest db

/-- `claim_next`. -/
def claimNext (owner : String) (jobTypes : List JobType) (now : Instant) (db : JobDatabase) :
    Except PlatformError (Option JobRecord × JobDatabase) := do
  requireResourceId owner "job lease owner"
  requireJobTypes jobTypes
  sqlGuarded "job could not be claimed" <|
    claimEach repository owner now (db.claimCandidates repository now jobTypes) db

/-- What `_worker_transition` writes for its target state, with the sequence number of the
event. -/
def workerStatus (prior : JobRecord) (targetState : JobState) (now : Instant)
    (safeError : Option SafeJobError) (resultArtifactId : Option String) :
    Except PlatformError (JobStatus × Nat) :=
  match targetState with
  | .running => .ok (.start prior now, 2)
  | .succeeded => .ok (.success prior now resultArtifactId, 3)
  | _ => do
      let next ← nextAttemptAfter prior.attemptCount now
      pure (.failure prior now safeError next, 3)

/-- `_worker_transition`. -/
def workerTransition (jobId owner : String) (attemptNumber : Int) (now : Instant)
    (requiredState targetState : JobState) (attemptTransition : JobAttemptTransition)
    (safeError : Option SafeJobError) (resultArtifactId : Option String) (db : JobDatabase) :
    Except PlatformError (JobRecord × JobDatabase) := do
  requireResourceId jobId "job ID"
  requireResourceId owner "job lease owner"
  requireAttemptNumber attemptNumber
  sqlGuarded "job transition could not be persisted" do
    let prior ← db.requiredJob jobId
    requireWorkerLease prior owner attemptNumber now requiredState
    let (status, sequence) ← workerStatus prior targetState now safeError resultArtifactId
    let current ← prior.replace status
    let db ← db.transitionWithEvidence repository prior current
      { jobId := current.jobId, attemptNumber := current.attemptCount, sequence
        transition := attemptTransition, owner, occurredAt := now, leaseExpiresAt := none
        safeError }
      (jobEventType current) (safeError.map (·.code))
    pure (current, db)

/-- `mark_running`. -/
def markRunning (jobId owner : String) (attemptNumber : Int) (now : Instant) (db : JobDatabase) :
    Except PlatformError (JobRecord × JobDatabase) :=
  workerTransition repository jobId owner attemptNumber now .claimed .running .running none none db

/-- `succeed`. -/
def succeed (jobId owner : String) (attemptNumber : Int) (now : Instant)
    (resultArtifactId : Option String) (db : JobDatabase) :
    Except PlatformError (JobRecord × JobDatabase) := do
  rejectIf (∃ artifact ∈ resultArtifactId, isArtifactId artifact = false)
    (.jobValidation "result artifact ID is invalid")
  workerTransition repository jobId owner attemptNumber now .running .succeeded .succeeded none
    resultArtifactId db

/-- `fail`. -/
def fail (jobId owner : String) (attemptNumber : Int) (now : Instant) (error : SafeJobError)
    (db : JobDatabase) : Except PlatformError (JobRecord × JobDatabase) :=
  workerTransition repository jobId owner attemptNumber now .running .failed .failed (some error)
    none db

/-- `cancel`. -/
def cancel (jobId : String) (now : Instant) (db : JobDatabase) :
    Except PlatformError (JobRecord × JobDatabase) := do
  requireResourceId jobId "job ID"
  sqlGuarded "job could not be canceled" do
    let prior ← db.requiredJob jobId
    rejectIf (prior.state.retryable = false)
      (.jobConflict "job cannot be canceled from its current state")
    requireForwardTime prior.updatedAt now
    let canceled ← prior.replace (.cancellation prior now)
    let db ← db.persistTransition prior canceled
    let db ← db.appendTransitionEvidence repository canceled "job.canceled" none
    pure (canceled, db)

/-- `heartbeat`. -/
def heartbeat (jobId owner : String) (attemptNumber : Int) (now : Instant) (db : JobDatabase) :
    Except PlatformError (JobRecord × JobDatabase) := do
  requireResourceId jobId "job ID"
  requireResourceId owner "job lease owner"
  requireAttemptNumber attemptNumber
  sqlGuarded "job heartbeat could not be persisted" do
    let prior ← db.requiredJob jobId
    requireWorkerLease prior owner attemptNumber now .running
    let current ← prior.replace (.extend prior now)
    let db ← db.persistTransition prior current
    pure (current, db)

/-! ## Outbox delivery -/

/-- `_persist_outbox`. -/
def persistOutbox (db : JobDatabase) (prior row : OutboxEvent) :
    Except PlatformError JobDatabase := do
  let outbox ← require
    (db.outbox.compareAndSet prior.outboxEventId (fun r => decide (r.version = prior.version)) row)
    (.jobConflict "outbox event changed concurrently")
  pure { db with outbox }

/-- The order in which events are delivered. -/
def deliveryOrder (row : OutboxEvent) : Int ×ₗ String := toLex (row.createdAt, row.outboxEventId)

/-- The first due event: one whose retry time has come, or whose lease has expired. -/
def dueOutbox (db : JobDatabase) (now : Instant) : Option OutboxEvent :=
  (sortedBy deliveryOrder <| db.outbox.values.filter fun row =>
    decide ((row.state.retryable = true ∧ ∃ next ∈ row.nextAttemptAt, next ≤ now) ∨
      (row.state = .claimed ∧ ∃ lease ∈ row.leaseExpiresAt, lease ≤ now))).head?

/-- The row of a claimed event. -/
def claimedRow (row : OutboxEvent) (owner : String) (now : Instant) : OutboxEvent :=
  { row with
    state := .claimed, attemptCount := row.attemptCount + 1, nextAttemptAt := none
    leaseOwner := some owner, leaseExpiresAt := some (now + jobLeaseDuration), safeError := none
    updatedAt := now, version := row.version + 1 }

/-- The row `_update_outbox_dead` writes. -/
def deadRow (row : OutboxEvent) (now : Instant) : OutboxEvent :=
  { row with
    state := .dead, nextAttemptAt := none, leaseOwner := none, leaseExpiresAt := none
    safeError := some deliveryExhaustedError, updatedAt := now, version := row.version + 1 }

/-- The transaction of `claim_outbox`. -/
def claimOutboxOnConnection (owner : String) (now : Instant) (db : JobDatabase) :
    Except PlatformError (Option ClaimedOutboxEvent × JobDatabase) :=
  match db.dueOutbox now with
  | none => .ok (none, db)
  | some row => do
      validateOutboxRow row
      requireForwardTime row.updatedAt now
      if jobMaxAttempts ≤ row.attemptCount then
        let db ← db.persistOutbox row (deadRow row now)
        pure (none, db)
      else
        let db ← db.persistOutbox row (claimedRow row owner now)
        let event ← ClaimedOutboxEvent.fromRow (claimedRow row owner now) owner
          (now + jobLeaseDuration)
        pure (some event, db)

/-- `except JobValidationError: raise JobPersistenceError(message)`. -/
def validationGuarded {α : Type} (message : String) (x : Except PlatformError α) :
    Except PlatformError α :=
  match x with
  | .error (.jobValidation _) => .error (.jobPersistence message)
  | x => x

/-- `claim_outbox`. -/
def claimOutbox (owner : String) (now : Instant) (db : JobDatabase) :
    Except PlatformError (Option ClaimedOutboxEvent × JobDatabase) := do
  requireResourceId owner "outbox lease owner"
  sqlGuarded "outbox event could not be claimed" <|
    validationGuarded "persisted outbox state is malformed" <|
      claimOutboxOnConnection owner now db

/-- The row of an extended lease. -/
def extendedRow (row : OutboxEvent) (now : Instant) : OutboxEvent :=
  { row with
    leaseExpiresAt := some (now + jobLeaseDuration), updatedAt := now, version := row.version + 1 }

/-- `heartbeat_outbox`. -/
def heartbeatOutbox (eventId owner : String) (attemptNumber : Int) (now : Instant)
    (db : JobDatabase) : Except PlatformError (ClaimedOutboxEvent × JobDatabase) := do
  requireResourceId eventId "outbox event ID"
  requireResourceId owner "outbox lease owner"
  requireAttemptNumber attemptNumber
  sqlGuarded "outbox heartbeat could not be persisted" do
    let row ← db.requiredOutbox eventId
    requireOutboxLease row owner attemptNumber now
    let db ← db.persistOutbox row (extendedRow row now)
    let event ← ClaimedOutboxEvent.fromRow (extendedRow row now) owner (now + jobLeaseDuration)
    pure (event, db)

/-- The row of a completed delivery. -/
def completedRow (row : OutboxEvent) (now : Instant) (error : Option SafeJobError)
    (nextAttemptAt : Option Instant) : OutboxEvent :=
  { row with
    state := match error with
      | none => .published
      | some _ => if nextAttemptAt.isSome then .failed else .dead
    nextAttemptAt, leaseOwner := none, leaseExpiresAt := none
    publishedAt := match error with
      | none => some now
      | some _ => none
    safeError := error, updatedAt := now, version := row.version + 1 }

/-- `_complete_outbox`: a publication carries no error, a failure does. -/
def completeOutbox (eventId owner : String) (attemptNumber : Int) (now : Instant)
    (error : Option SafeJobError) (db : JobDatabase) :
    Except PlatformError (Unit × JobDatabase) := do
  requireResourceId eventId "outbox event ID"
  requireResourceId owner "outbox lease owner"
  requireAttemptNumber attemptNumber
  sqlGuarded "outbox transition could not be persisted" do
    let row ← db.requiredOutbox eventId
    requireOutboxLease row owner attemptNumber now
    let next ← match error with
      | none => pure none
      | some _ => nextAttemptAfter row.attemptCount now
    let db ← db.persistOutbox row (completedRow row now error next)
    pure ((), db)

/-- `publish_outbox`. -/
def publishOutbox (eventId owner : String) (attemptNumber : Int) (now : Instant)
    (db : JobDatabase) : Except PlatformError (Unit × JobDatabase) :=
  completeOutbox eventId owner attemptNumber now none db

/-- `fail_outbox`. -/
def failOutbox (eventId owner : String) (attemptNumber : Int) (now : Instant)
    (error : SafeJobError) (db : JobDatabase) : Except PlatformError (Unit × JobDatabase) :=
  completeOutbox eventId owner attemptNumber now (some error) db

end JobDatabase

end Repository

end AdaptiveTrader
