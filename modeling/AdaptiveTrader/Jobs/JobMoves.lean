import AdaptiveTrader.Jobs.Repository

/-!
# What a job operation can do

Every job row an operation writes is written by one of seven moves (`JobAction`). `JobMove` states
for each the condition under which it happens and the status it writes; a move also appends at most
one attempt event and announces itself in the outbox, unless it only extends a lease.

`JobWrite` is one such write in the database, and each operation has one lemma that reads its
success backwards to a write or to nothing.
-/

set_option autoImplicit false

namespace AdaptiveTrader

open Foundation

/-- The moves of a job, with the worker, the failure and the result they take. -/
inductive JobAction
  | claimed (owner : String)
  | started (owner : String)
  | extended (owner : String)
  | succeeded (owner : String) (resultArtifactId : Option String)
  | failed (owner : String) (error : SafeJobError) (next : Option Instant)
  | abandoned (next : Option Instant)
  | canceled

/-- The worker holds the job under a live lease. -/
structure JobRecord.LeasedBy (job : JobRecord) (owner : String) (now : Instant) : Prop where
  forward : job.updatedAt ≤ now
  owner_eq : job.leaseOwner = some owner
  live : ∃ lease ∈ job.leaseExpiresAt, now < lease

namespace JobAction

/-- The move begins a new attempt. -/
def claims : JobAction → Bool
  | claimed _ => true
  | _ => false

/-- What a move writes. -/
def status (prior : JobRecord) (now : Instant) : JobAction → JobStatus
  | claimed owner => .claim prior owner now
  | started _ => .start prior now
  | extended _ => .extend prior now
  | succeeded _ resultArtifactId => .success prior now resultArtifactId
  | failed _ error next => .failure prior now (some error) next
  | abandoned next => .failure prior now (some leaseExpiredError) next
  | canceled => .cancellation prior now

/-- The condition under which an operation makes a move. -/
def Admitted (prior : JobRecord) (now : Instant) : JobAction → Prop
  | claimed _ => prior.state.retryable = true ∧ ∃ next ∈ prior.nextAttemptAt, next ≤ now
  | started owner => prior.state = .claimed ∧ prior.LeasedBy owner now
  | extended owner => prior.state = .running ∧ prior.LeasedBy owner now
  | succeeded owner _ => prior.state = .running ∧ prior.LeasedBy owner now
  | failed owner _ next =>
      prior.state = .running ∧ prior.LeasedBy owner now ∧
        nextAttemptAfter prior.attemptCount now = .ok next
  | abandoned next =>
      prior.state.leased = true ∧ (∃ lease ∈ prior.leaseExpiresAt, lease ≤ now) ∧
        nextAttemptAfter prior.attemptCount now = .ok next
  | canceled => prior.state.retryable = true

/-- The attempt event a move appends. -/
def attempt (prior current : JobRecord) (now : Instant) : JobAction → Option JobAttempt
  | claimed owner => some
      { jobId := current.jobId, attemptNumber := current.attemptCount, sequence := 1
        transition := .claimed, owner, occurredAt := now, leaseExpiresAt := current.leaseExpiresAt
        safeError := none }
  | started owner => some
      { jobId := current.jobId, attemptNumber := current.attemptCount, sequence := 2
        transition := .running, owner, occurredAt := now, leaseExpiresAt := none
        safeError := none }
  | extended _ => none
  | succeeded owner _ => some
      { jobId := current.jobId, attemptNumber := current.attemptCount, sequence := 3
        transition := .succeeded, owner, occurredAt := now, leaseExpiresAt := none
        safeError := none }
  | failed owner error _ => some
      { jobId := current.jobId, attemptNumber := current.attemptCount, sequence := 3
        transition := .failed, owner, occurredAt := now, leaseExpiresAt := none
        safeError := some error }
  | abandoned _ => some
      { jobId := current.jobId, attemptNumber := current.attemptCount
        sequence := if prior.state = .running then 3 else 2
        transition := .abandoned, owner := prior.leaseOwner.getD "", occurredAt := now
        leaseExpiresAt := none, safeError := some leaseExpiredError }
  | canceled => none

/-- The outbox event that announces a move; a heartbeat is not announced. -/
def announcement (current : JobRecord) : JobAction → Option OutboxEvent
  | claimed _ => some (outboxEventOf current "job.claimed" none)
  | started _ => some (outboxEventOf current (jobEventType current) none)
  | extended _ => none
  | succeeded _ _ => some (outboxEventOf current (jobEventType current) none)
  | failed _ error _ => some (outboxEventOf current (jobEventType current) (some error.code))
  | abandoned _ =>
      some (outboxEventOf current (jobEventType current) (some leaseExpiredError.code))
  | canceled => some (outboxEventOf current "job.canceled" none)

theorem attempt_jobId {prior current : JobRecord} {now : Instant} {action : JobAction}
    {attempt : JobAttempt} (h : action.attempt prior current now = some attempt) :
    attempt.jobId = current.jobId := by
  cases action <;> cases h <;> rfl

theorem announcement_aggregateId {current : JobRecord} {action : JobAction} {event : OutboxEvent}
    (h : action.announcement current = some event) : event.aggregateId = current.jobId := by
  cases action <;> cases h <;> rfl

end JobAction

/-- A failure that is retried is retried later. -/
theorem lt_of_nextAttemptAfter {attempts : Nat} {now next : Instant}
    (h : nextAttemptAfter attempts now = .ok (some next)) : now < next := by
  unfold nextAttemptAfter at h
  split at h
  · cases h
  · simp only [retryDelay, bind_eq_ok, rejectIf_eq_ok, require_eq_ok, pure_eq_ok,
      Option.some.injEq] at h
    obtain ⟨delay, ⟨-, -, hdelay⟩, rfl⟩ := h
    have hmem : delay ∈ jobRetryDelays := List.mem_of_getElem? hdelay
    have hpos : 0 < delay := by
      simp only [jobRetryDelays, List.mem_cons, List.not_mem_nil, or_false] at hmem
      rcases hmem with rfl | rfl | rfl <;> decide
    exact lt_add_of_pos_right now hpos

/-- One job row moves. -/
structure JobMove (now : Instant) (action : JobAction) (a b : JobRecord) : Prop where
  admitted : action.Admitted a now
  written : b.toJobFields = a.replacedFields (action.status a now)

namespace JobMove

variable {now : Instant} {action : JobAction} {a b : JobRecord}

theorem identity_eq (h : JobMove now action a b) : b.toJobIdentity = a.toJobIdentity := by
  rw [h.written]
  rfl

theorem jobId_eq (h : JobMove now action a b) : b.jobId = a.jobId :=
  congrArg JobIdentity.jobId h.identity_eq

theorem status_eq (h : JobMove now action a b) : b.toJobStatus = action.status a now := by
  rw [h.written]
  rfl

theorem version_eq (h : JobMove now action a b) : b.version = a.version + 1 := by
  rw [h.written]
  rfl

/-- A terminal job has no move. -/
theorem not_terminal (h : JobMove now action a b) : a.state.terminal = false := by
  have hopen : ∀ {s : JobState}, s.retryable = true ∨ s.leased = true → s.terminal = false := by
    intro s hs
    cases s <;> simp_all [JobState.retryable, JobState.leased, JobState.terminal]
  have hadmitted := h.admitted
  cases action with
  | claimed owner => exact hopen (Or.inl hadmitted.1)
  | started owner => rw [hadmitted.1]; rfl
  | extended owner => rw [hadmitted.1]; rfl
  | succeeded owner artifact => rw [hadmitted.1]; rfl
  | failed owner error next => rw [hadmitted.1]; rfl
  | abandoned next => exact hopen (Or.inr hadmitted.1)
  | canceled => exact hopen (Or.inl hadmitted)

/-- The attempts count the claims. -/
theorem attemptCount_eq (h : JobMove now action a b) :
    b.attemptCount = a.attemptCount + action.claims.toNat := by
  have hstatus : b.attemptCount = (action.status a now).attemptCount :=
    congrArg JobStatus.attemptCount h.status_eq
  rw [hstatus]
  cases action <;> rfl

theorem state_eq (h : JobMove now action a b) : b.state = (action.status a now).state :=
  congrArg JobStatus.state h.status_eq

end JobMove

/-! ## Writes -/

section Writes

variable [ContentHasher]

/-- Jobs are stored under their job ID, events under their event ID. -/
structure JobDatabase.Keyed (db : JobDatabase) : Prop where
  jobs : db.jobs.AllRows fun k a => a.jobId = k
  outbox : db.outbox.AllRows fun k e => e.outboxEventId = k

/-- An operation wrote one job row with its evidence. -/
structure JobWrite (db : JobDatabase) (current : JobRecord) (attempt : Option JobAttempt)
    (announcement : Option OutboxEvent) (db' : JobDatabase) : Prop where
  jobs : db'.jobs = db.jobs.set current.jobId current
  attempts : db'.attempts = db.attempts ++ attempt.toList
  unannounced : announcement = none → db'.outbox = db.outbox
  announced : ∀ e, announcement = some e →
    db.outbox.get? e.outboxEventId = none ∧ db'.outbox = db.outbox.set e.outboxEventId e

/-- An operation moved one stored job. -/
structure JobMoveWrite (now : Instant) (action : JobAction) (db : JobDatabase) (a b : JobRecord)
    (db' : JobDatabase) : Prop where
  stored : db.jobs.get? a.jobId = some a
  move : JobMove now action a b
  write : JobWrite db b (action.attempt a b now) (action.announcement b) db'

namespace JobDatabase

variable {repository : JobRepository} {db db' : JobDatabase} {prior current : JobRecord}

omit [ContentHasher] in
theorem persistTransition_eq_ok (hid : current.jobId = prior.jobId)
    (h : db.persistTransition prior current = .ok db') :
    db'.jobs = db.jobs.set current.jobId current ∧ db'.attempts = db.attempts ∧
      db'.outbox = db.outbox := by
  simp only [persistTransition, bind_eq_ok, require_eq_ok, Dict.compareAndSet_eq_some, pure_eq_ok]
    at h
  obtain ⟨jobs, ⟨_, -, -, rfl⟩, rfl⟩ := h
  rw [hid]
  exact ⟨rfl, rfl, rfl⟩

theorem appendTransitionEvidence_eq_ok {job : JobRecord} {eventType : String}
    {reasonCode : Option String}
    (h : db.appendTransitionEvidence repository job eventType reasonCode = .ok db') :
    db'.jobs = db.jobs ∧ db'.attempts = db.attempts ∧
      db.outbox.get? (outboxEventOf job eventType reasonCode).outboxEventId = none ∧
      db'.outbox = db.outbox.set (outboxEventOf job eventType reasonCode).outboxEventId
        (outboxEventOf job eventType reasonCode) := by
  simp only [appendTransitionEvidence, bind_eq_ok, rejectIf_eq_ok, pure_eq_ok] at h
  obtain ⟨-, hfresh, payload, -, auditEvents, -, rfl⟩ := h
  refine ⟨rfl, rfl, ?_, rfl⟩
  cases hget : db.outbox.get? (outboxEventOf job eventType reasonCode).outboxEventId with
  | none => rfl
  | some row => simp [hget] at hfresh

theorem transitionWithEvidence_write {attempt : JobAttempt} {eventType : String}
    {reasonCode : Option String} (hid : current.jobId = prior.jobId)
    (h : db.transitionWithEvidence repository prior current attempt eventType reasonCode = .ok db') :
    JobWrite db current (some attempt) (some (outboxEventOf current eventType reasonCode)) db' := by
  simp only [transitionWithEvidence, bind_eq_ok, appendAttempt, rejectIf_eq_ok, pure_eq_ok] at h
  obtain ⟨db₁, hpersist, db₂, ⟨-, -, rfl⟩, hevidence⟩ := h
  obtain ⟨hjobs, hattempts, houtbox⟩ := persistTransition_eq_ok hid hpersist
  obtain ⟨hjobs', hattempts', hfresh, houtbox'⟩ := appendTransitionEvidence_eq_ok hevidence
  refine ⟨hjobs'.trans hjobs, ?_, by rintro ⟨⟩, ?_⟩
  · rw [hattempts', hattempts]
    rfl
  · rintro e ⟨⟩
    rw [houtbox] at hfresh houtbox'
    exact ⟨hfresh, houtbox'⟩

/-- A row found under its key is stored under its own ID. -/
theorem stored_of_requiredJob (hkeyed : db.Keyed) {jobId : String}
    (h : db.requiredJob jobId = .ok prior) :
    db.jobs.get? jobId = some prior ∧ prior.jobId = jobId ∧
      db.jobs.get? prior.jobId = some prior := by
  have hget : db.jobs.get? jobId = some prior := by
    simpa only [requiredJob, require_eq_ok] using h
  have hid : prior.jobId = jobId := hkeyed.jobs jobId prior hget
  exact ⟨hget, hid, hid.symm ▸ hget⟩

end JobDatabase

end Writes

/-! ## Operations read backwards -/

theorem requireWorkerLease_eq_ok {job : JobRecord} {owner : String} {attemptNumber : Int}
    {now : Instant} {state : JobState} :
    requireWorkerLease job owner attemptNumber now state = .ok () ↔
      job.state = state ∧ (job.attemptCount : Int) = attemptNumber ∧ job.LeasedBy owner now := by
  simp only [requireWorkerLease, requireForwardTime, unit_bind_eq_ok, rejectIf_eq_ok, not_or,
    not_not, not_lt]
  constructor
  · rintro ⟨hforward, hstate, howner, hattempt, hlive⟩
    exact ⟨hstate, hattempt, hforward, howner, hlive⟩
  · rintro ⟨hstate, hattempt, hforward, howner, hlive⟩
    exact ⟨hforward, hstate, howner, hattempt, hlive⟩

/-- What every worker call found before it wrote. -/
structure WorkerCallHeld (db : JobDatabase) (jobId owner : String) (attemptNumber : Int)
    (now : Instant) (state : JobState) (prior : JobRecord) : Prop where
  found : db.jobs.get? jobId = some prior
  state_eq : prior.state = state
  attempt_eq : (prior.attemptCount : Int) = attemptNumber
  leased : prior.LeasedBy owner now

namespace JobDatabase

variable [ContentHasher] {repository : JobRepository} {db db' : JobDatabase}
  {current prior : JobRecord} {now : Instant}

theorem recoverExpired_write (hstored : db.jobs.get? prior.jobId = some prior)
    (hleased : prior.state.leased = true) (hexpired : ∃ lease ∈ prior.leaseExpiresAt, lease ≤ now)
    (h : recoverExpired repository prior now db = .ok (current, db')) :
    ∃ next, JobMoveWrite now (.abandoned next) db prior current db' := by
  simp only [recoverExpired, bind_eq_ok, JobRecord.replace_eq_ok, pure_eq_ok] at h
  obtain ⟨next, hnext, recovered, hwritten, db₁, hevidence, heq⟩ := h
  cases heq
  have hmove : JobMove now (.abandoned next) prior current :=
    ⟨⟨hleased, hexpired, hnext⟩, hwritten⟩
  exact ⟨next, hstored, hmove, transitionWithEvidence_write hmove.jobId_eq hevidence⟩

/-- A recovered job waits before its next attempt. -/
theorem not_due_of_recoverExpired (h : recoverExpired repository prior now db = .ok (current, db')) :
    ¬ ∃ next ∈ current.nextAttemptAt, next ≤ now := by
  simp only [recoverExpired, bind_eq_ok, pure_eq_ok, Prod.mk.injEq] at h
  obtain ⟨next, hnext, recovered, hreplace, _, -, rfl, -⟩ := h
  have hretry : recovered.nextAttemptAt = next :=
    congrArg (fun fields => fields.nextAttemptAt) (JobRecord.replace_eq_ok.1 hreplace)
  rw [hretry]
  rintro ⟨due, hdue, hle⟩
  rw [Option.mem_def] at hdue
  rw [hdue] at hnext
  exact absurd (lt_of_nextAttemptAfter hnext) (not_lt.2 hle)

theorem claimDue_write {owner : String} (hstored : db.jobs.get? prior.jobId = some prior)
    (hretryable : prior.state.retryable = true) (hdue : ∃ next ∈ prior.nextAttemptAt, next ≤ now)
    (h : claimDue repository prior owner now db = .ok (current, db')) :
    JobMoveWrite now (.claimed owner) db prior current db' := by
  simp only [claimDue, bind_eq_ok, JobRecord.replace_eq_ok, pure_eq_ok] at h
  obtain ⟨claimed, hwritten, db₁, hevidence, heq⟩ := h
  cases heq
  have hmove : JobMove now (.claimed owner) prior current := ⟨⟨hretryable, hdue⟩, hwritten⟩
  exact ⟨hstored, hmove, transitionWithEvidence_write hmove.jobId_eq hevidence⟩

/-- A worker transition is the move of the job that its worker holds. -/
theorem workerTransition_write (hkeyed : db.Keyed) {jobId owner : String} {attemptNumber : Int}
    {required target : JobState} {transition : JobAttemptTransition}
    {safeError : Option SafeJobError} {resultArtifactId : Option String}
    (h : workerTransition repository jobId owner attemptNumber now required target transition
      safeError resultArtifactId db = .ok (current, db')) :
    ∃ prior status sequence, WorkerCallHeld db jobId owner attemptNumber now required prior ∧
      db.jobs.get? prior.jobId = some prior ∧
      workerStatus prior target now safeError resultArtifactId = .ok (status, sequence) ∧
      current.toJobFields = prior.replacedFields status ∧
      JobWrite db current
        (some ⟨current.jobId, current.attemptCount, sequence, transition, owner, now, none,
          safeError⟩)
        (some (outboxEventOf current (jobEventType current) (safeError.map (·.code)))) db' := by
  simp only [workerTransition, sqlGuarded_eq_ok, bind_eq_ok, JobRecord.replace_eq_ok, pure_eq_ok]
    at h
  obtain ⟨_, -, _, -, _, -, prior, hprior, ⟨⟩, hlease, ⟨status, sequence⟩, hstatus, current',
    hwritten, db₁, hevidence, heq⟩ := h
  cases heq
  obtain ⟨hfound, hid, hstored⟩ := stored_of_requiredJob hkeyed hprior
  obtain ⟨hstate, hattempt, hleased⟩ := requireWorkerLease_eq_ok.1 hlease
  have hsame : current.jobId = prior.jobId :=
    congrArg (fun fields => fields.toJobIdentity.jobId) hwritten
  exact ⟨prior, status, sequence, ⟨hfound, hstate, hattempt, hleased⟩, hstored, hstatus, hwritten,
    transitionWithEvidence_write hsame hevidence⟩

theorem markRunning_write (hkeyed : db.Keyed) {jobId owner : String} {attemptNumber : Int}
    (h : markRunning repository jobId owner attemptNumber now db = .ok (current, db')) :
    ∃ prior, WorkerCallHeld db jobId owner attemptNumber now .claimed prior ∧
      JobMoveWrite now (.started owner) db prior current db' := by
  obtain ⟨prior, status, sequence, hheld, hstored, hstatus, hwritten, hwrite⟩ :=
    workerTransition_write hkeyed h
  cases hstatus
  exact ⟨prior, hheld, hstored, ⟨⟨hheld.state_eq, hheld.leased⟩, hwritten⟩, hwrite⟩

theorem succeed_write (hkeyed : db.Keyed) {jobId owner : String} {attemptNumber : Int}
    {resultArtifactId : Option String}
    (h : succeed repository jobId owner attemptNumber now resultArtifactId db =
      .ok (current, db')) :
    ∃ prior, WorkerCallHeld db jobId owner attemptNumber now .running prior ∧
      JobMoveWrite now (.succeeded owner resultArtifactId) db prior current db' := by
  simp only [succeed, rejectIf_bind_eq_ok] at h
  obtain ⟨prior, status, sequence, hheld, hstored, hstatus, hwritten, hwrite⟩ :=
    workerTransition_write hkeyed h.2
  cases hstatus
  exact ⟨prior, hheld, hstored, ⟨⟨hheld.state_eq, hheld.leased⟩, hwritten⟩, hwrite⟩

theorem fail_write (hkeyed : db.Keyed) {jobId owner : String} {attemptNumber : Int}
    {error : SafeJobError}
    (h : fail repository jobId owner attemptNumber now error db = .ok (current, db')) :
    ∃ prior next, WorkerCallHeld db jobId owner attemptNumber now .running prior ∧
      JobMoveWrite now (.failed owner error next) db prior current db' := by
  obtain ⟨prior, status, sequence, hheld, hstored, hstatus, hwritten, hwrite⟩ :=
    workerTransition_write hkeyed h
  simp only [workerStatus, bind_eq_ok, pure_eq_ok] at hstatus
  obtain ⟨next, hnext, heq⟩ := hstatus
  cases heq
  exact ⟨prior, next, hheld, hstored, ⟨⟨hheld.state_eq, hheld.leased, hnext⟩, hwritten⟩, hwrite⟩

theorem heartbeat_write (hkeyed : db.Keyed) {jobId owner : String} {attemptNumber : Int}
    (h : heartbeat jobId owner attemptNumber now db = .ok (current, db')) :
    ∃ prior, WorkerCallHeld db jobId owner attemptNumber now .running prior ∧
      JobMoveWrite now (.extended owner) db prior current db' := by
  simp only [heartbeat, sqlGuarded_eq_ok, bind_eq_ok, JobRecord.replace_eq_ok, pure_eq_ok] at h
  obtain ⟨_, -, _, -, _, -, prior, hprior, ⟨⟩, hlease, current', hwritten, db₁, hpersist, heq⟩ := h
  cases heq
  obtain ⟨hfound, hid, hstored⟩ := stored_of_requiredJob hkeyed hprior
  obtain ⟨hstate, hattempt, hleased⟩ := requireWorkerLease_eq_ok.1 hlease
  have hmove : JobMove now (.extended owner) prior current := ⟨⟨hstate, hleased⟩, hwritten⟩
  obtain ⟨hjobs, hattempts, houtbox⟩ := persistTransition_eq_ok hmove.jobId_eq hpersist
  have hwrite : JobWrite db current none none db' :=
    ⟨hjobs, hattempts.trans (List.append_nil _).symm, fun _ => houtbox, fun _ he => by cases he⟩
  exact ⟨prior, ⟨hfound, hstate, hattempt, hleased⟩, hstored, hmove, hwrite⟩

theorem cancel_write (hkeyed : db.Keyed) {jobId : String}
    (h : cancel repository jobId now db = .ok (current, db')) :
    ∃ prior, JobMoveWrite now .canceled db prior current db' := by
  simp only [cancel, sqlGuarded_eq_ok, bind_eq_ok, rejectIf_eq_ok, JobRecord.replace_eq_ok,
    pure_eq_ok] at h
  obtain ⟨_, -, prior, hprior, _, hretryable, _, -, current', hwritten, db₁, hpersist, db₂,
    hevidence, heq⟩ := h
  cases heq
  obtain ⟨-, -, hstored⟩ := stored_of_requiredJob hkeyed hprior
  have hmove : JobMove now .canceled prior current :=
    ⟨by simpa [JobAction.Admitted] using hretryable, hwritten⟩
  obtain ⟨hjobs, hattempts, houtbox⟩ := persistTransition_eq_ok hmove.jobId_eq hpersist
  obtain ⟨hjobs', hattempts', hfresh, houtbox'⟩ := appendTransitionEvidence_eq_ok hevidence
  refine ⟨prior, hstored, hmove, hjobs'.trans hjobs, ?_, by rintro ⟨⟩, ?_⟩
  · rw [hattempts', hattempts]
    exact (List.append_nil _).symm
  · rintro e ⟨⟩
    rw [houtbox] at hfresh houtbox'
    exact ⟨hfresh, houtbox'⟩

/-- A new job is pending, unclaimed and at version one. -/
def NewJob (request : JobCreateRequest) (job : JobRecord) : Prop :=
  job.toJobFields = newJobFields (jobIdOf request) request

/-- A creation finds the job or inserts it. -/
theorem create_write {request : JobCreateRequest}
    (h : create repository request db = .ok (current, db')) :
    db' = db ∨ (db.jobs.get? current.jobId = none ∧ NewJob request current ∧
      JobWrite db current none (some (outboxEventOf current "job.created" none)) db') := by
  have hinserted : createOnConnection repository request db = .ok (current, db') →
      db' = db ∨ (db.jobs.get? current.jobId = none ∧ NewJob request current ∧
        JobWrite db current none (some (outboxEventOf current "job.created" none)) db') := by
    intro h
    unfold createOnConnection at h
    split at h
    · simp only [rejectIf_bind_eq_ok, pure_eq_ok] at h
      cases h.2
      exact Or.inl rfl
    · next habsent =>
        simp only [bind_eq_ok, JobRecord.fromValues_eq_ok, insertJob, rejectIf_eq_ok, pure_eq_ok]
          at h
        obtain ⟨job, hjob, db₁, ⟨-, -, rfl⟩, db₂, hevidence, heq⟩ := h
        cases heq
        have hid : current.jobId = jobIdOf request :=
          congrArg (fun fields => fields.toJobIdentity.jobId) hjob
        obtain ⟨hjobs, hattempts, hfresh, houtbox⟩ := appendTransitionEvidence_eq_ok hevidence
        refine Or.inr ⟨hid ▸ habsent, hjob, hjobs, ?_, by rintro ⟨⟩, ?_⟩
        · rw [hattempts]
          exact (List.append_nil _).symm
        · rintro e ⟨⟩
          exact ⟨hfresh, houtbox⟩
  unfold create at h
  split at h
  · simp only [bind_eq_ok, pure_eq_ok] at h
    obtain ⟨job, -, heq⟩ := h
    cases heq
    exact Or.inl rfl
  · exact hinserted h

end JobDatabase

end AdaptiveTrader
