import AdaptiveTrader.Jobs.JobEffects
import AdaptiveTrader.Locks.AuditLocks

/-!
# Locks taken by job recovery

`claim_next` on PostgreSQL. Each expired attempt it recovers, and the job it claims, is announced in
the audit stream of the job, whose lock the append takes. The loop meets the jobs in the order of
their rows, so the locks come in that order and not in the order of their keys.

Without locks the loop here is the loop of `JobDatabase.claimNext`. With locks it returns the same
result when the locks ascend, and otherwise fails and leaves every attempt unrecovered
(`claimNextLocked_eq`, `claimNextLocked_eq_error`).
-/

set_option autoImplicit false

namespace AdaptiveTrader

open Foundation Storage

variable [ContentHasher] (repository : JobRepository) (keys : LockKeys)

/-- The audit stream of a job. -/
def JobRepository.auditStream (jobId : String) : String :=
  repository.auditWriter.value ++ ":job:" ++ jobId

namespace JobDatabase

/-- `_append_transition_evidence`. -/
def appendTransitionEvidenceLocked (job : JobRecord) (eventType : String)
    (reasonCode : Option String) (c : PostgresConnection) (db : JobDatabase) :
    Except PlatformError (PostgresConnection × JobDatabase) := do
  let event := outboxEventOf job eventType reasonCode
  rejectIf ((db.outbox.get? event.outboxEventId).isSome = true) (.sqlIntegrity "outbox_event_id")
  let payload ← AuditPayload.fromMapping
    (event.payload.entries ++
      [("idempotency_key", .text (deterministicId "jobevent" event.outboxHash))])
  let (c, auditEvents) ← appendAuditLocked keys repository.audit
    (repository.auditStream job.jobId) eventType job.updatedAt payload c db.auditEvents
  pure (c, { db with outbox := db.outbox.set event.outboxEventId event, auditEvents })

/-- One transition of a job with its attempt event and its announcement. -/
def transitionWithEvidenceLocked (prior current : JobRecord) (attempt : JobAttempt)
    (eventType : String) (reasonCode : Option String) (c : PostgresConnection) (db : JobDatabase) :
    Except PlatformError (PostgresConnection × JobDatabase) := do
  let db ← db.persistTransition prior current
  let db ← db.appendAttempt attempt
  appendTransitionEvidenceLocked repository keys current eventType reasonCode c db

/-- `_recover_expired`. -/
def recoverExpiredLocked (job : JobRecord) (now : Instant) (c : PostgresConnection)
    (db : JobDatabase) : Except PlatformError (PostgresConnection × JobRecord × JobDatabase) := do
  let next ← nextAttemptAfter job.attemptCount now
  let recovered ← job.replace (.failure job now (some leaseExpiredError) next)
  let (c, db) ← transitionWithEvidenceLocked repository keys job recovered
    { jobId := recovered.jobId, attemptNumber := recovered.attemptCount
      sequence := if job.state = .running then 3 else 2
      transition := .abandoned, owner := job.leaseOwner.getD "", occurredAt := now
      leaseExpiresAt := none, safeError := some leaseExpiredError }
    (jobEventType recovered) (some leaseExpiredError.code) c db
  pure (c, recovered, db)

/-- Claim a due job. -/
def claimDueLocked (candidate : JobRecord) (owner : String) (now : Instant)
    (c : PostgresConnection) (db : JobDatabase) :
    Except PlatformError (PostgresConnection × JobRecord × JobDatabase) := do
  let claimed ← candidate.replace (.claim candidate owner now)
  let (c, db) ← transitionWithEvidenceLocked repository keys candidate claimed
    { jobId := claimed.jobId, attemptNumber := claimed.attemptCount, sequence := 1
      transition := .claimed, owner, occurredAt := now, leaseExpiresAt := claimed.leaseExpiresAt
      safeError := none }
    "job.claimed" none c db
  pure (c, claimed, db)

/-- The loop of `claim_next`. -/
def claimEachLocked (owner : String) (now : Instant) :
    List JobRecord → PostgresConnection → JobDatabase →
      Except PlatformError (PostgresConnection × Option JobRecord × JobDatabase)
  | [], c, db => .ok (c, none, db)
  | candidate :: rest, c, db =>
      if candidate.state.leased = true then do
        let (c, recovered, db) ← recoverExpiredLocked repository keys candidate now c db
        if recovered.state ≠ .failed then
          claimEachLocked owner now rest c db
        else if ∃ next ∈ recovered.nextAttemptAt, next ≤ now then do
          let (c, claimed, db) ← claimDueLocked repository keys recovered owner now c db
          pure (c, some claimed, db)
        else
          claimEachLocked owner now rest c db
      else if ∃ next ∈ candidate.nextAttemptAt, next ≤ now then do
        let (c, claimed, db) ← claimDueLocked repository keys candidate owner now c db
        pure (c, some claimed, db)
      else
        claimEachLocked owner now rest c db

/-- `claim_next`, with the connection of its transaction. -/
def claimNextLocked (owner : String) (jobTypes : List JobType) (now : Instant)
    (c : PostgresConnection) (db : JobDatabase) :
    Except PlatformError (PostgresConnection × Option JobRecord × JobDatabase) := do
  requireResourceId owner "job lease owner"
  requireJobTypes jobTypes
  sqlGuarded "job could not be claimed" <|
    claimEachLocked repository keys owner now (db.claimCandidates repository now jobTypes) c db

/-! ## The locks of one call -/

/-- The jobs the loop announces, in order: expired attempts up to the first due job. -/
def announcedJobs (now : Instant) : List JobRecord → List JobRecord
  | [] => []
  | candidate :: rest =>
      if candidate.state.leased = true then candidate :: announcedJobs now rest
      else if ∃ next ∈ candidate.nextAttemptAt, next ≤ now then [candidate]
      else announcedJobs now rest

/-- The lock of the audit stream of a job. -/
def auditLock (job : JobRecord) : PostgresAdvisoryLockRequest :=
  keys.request .audit (repository.auditStream job.jobId)

/-- The locks `claim_next` takes, in order. -/
def claimLocks (now : Instant) (jobTypes : List JobType) (db : JobDatabase) :
    List PostgresAdvisoryLockRequest :=
  (announcedJobs now (db.claimCandidates repository now jobTypes)).map (auditLock repository keys)

variable {repository keys} {c : PostgresConnection} {db : JobDatabase} {job : JobRecord}
  {now : Instant}

theorem appendTransitionEvidenceLocked_takesLock {eventType : String}
    {reasonCode : Option String} : TakesLock c (auditLock repository keys job)
      (appendTransitionEvidenceLocked repository keys job eventType reasonCode c db)
      (db.appendTransitionEvidence repository job eventType reasonCode) := by
  unfold appendTransitionEvidenceLocked appendTransitionEvidence
  refine TakesLock.bind fun _ _ => TakesLock.bind fun payload _ => ?_
  exact (appendAuditLocked_takesLock keys repository.audit (repository.auditStream job.jobId)
    eventType job.updatedAt payload c db.auditEvents).map _

theorem transitionWithEvidenceLocked_takesLock {prior current : JobRecord} {attempt : JobAttempt}
    {eventType : String} {reasonCode : Option String} :
    TakesLock c (auditLock repository keys current)
      (transitionWithEvidenceLocked repository keys prior current attempt eventType reasonCode c db)
      (db.transitionWithEvidence repository prior current attempt eventType reasonCode) := by
  unfold transitionWithEvidenceLocked transitionWithEvidence
  refine TakesLock.bind fun _ _ => TakesLock.bind fun _ _ => ?_
  exact appendTransitionEvidenceLocked_takesLock

omit [ContentHasher] in
theorem auditLock_eq_of_replace {current : JobRecord} {status : JobStatus}
    (h : job.replace status = .ok current) :
    auditLock repository keys current = auditLock repository keys job := by
  have hid : current.jobId = job.jobId :=
    congrArg (fun fields => fields.jobId) (JobRecord.replace_eq_ok.1 h)
  rw [auditLock, hid, auditLock]

theorem recoverExpiredLocked_takesLock : TakesLock c (auditLock repository keys job)
    (recoverExpiredLocked repository keys job now c db) (recoverExpired repository job now db) := by
  unfold recoverExpiredLocked recoverExpired
  refine TakesLock.bind fun next _ => TakesLock.bind fun recovered hrecovered => ?_
  rw [← auditLock_eq_of_replace hrecovered]
  exact transitionWithEvidenceLocked_takesLock.map fun db => (recovered, db)

theorem claimDueLocked_takesLock {owner : String} : TakesLock c (auditLock repository keys job)
    (claimDueLocked repository keys job owner now c db)
    (claimDue repository job owner now db) := by
  unfold claimDueLocked claimDue
  refine TakesLock.bind fun claimed hclaimed => ?_
  rw [← auditLock_eq_of_replace hclaimed]
  exact transitionWithEvidenceLocked_takesLock.map fun db => (claimed, db)

/-! ## The loop with and without locks -/

variable {owner : String} {locks : List PostgresAdvisoryLockRequest}

/-- Locks that ascend change nothing. -/
theorem claimEachLocked_eq {candidates : List JobRecord} (hc : c.Holds locks)
    (h : Ascends locks ((announcedJobs now candidates).map (auditLock repository keys))) :
    (claimEachLocked repository keys owner now candidates c db).map Prod.snd =
      claimEach repository owner now candidates db := by
  induction candidates generalizing c locks db with
  | nil => rfl
  | cons candidate rest ih =>
      unfold announcedJobs at h
      unfold claimEachLocked claimEach
      by_cases hleased : candidate.state.leased = true
      · rw [if_pos hleased, List.map_cons] at h
        obtain ⟨hadmits, hrest⟩ := h
        obtain ⟨c', hlock, hc'⟩ := hc.lock_eq_ok hadmits
        rw [if_pos hleased, if_pos hleased, recoverExpiredLocked_takesLock.granted c' hlock]
        cases hrecover : recoverExpired repository candidate now db with
        | error e => rfl
        | ok recovered =>
            have hdue := not_due_of_recoverExpired hrecover
            simp only [Except.map, bind, Except.bind, if_neg hdue, ite_self]
            exact ih hc' hrest
      · rw [if_neg hleased] at h
        rw [if_neg hleased, if_neg hleased]
        by_cases hdue : ∃ next ∈ candidate.nextAttemptAt, next ≤ now
        · rw [if_pos hdue, List.map_singleton] at h
          obtain ⟨c', hlock, -⟩ := hc.lock_eq_ok h.1
          rw [if_pos hdue, if_pos hdue, claimDueLocked_takesLock.granted c' hlock]
          cases claimDue repository candidate owner now db <;> rfl
        · rw [if_neg hdue] at h
          rw [if_neg hdue, if_neg hdue]
          exact ih hc h

/-- Locks that do not ascend make a call fail that would succeed without them. -/
theorem claimEachLocked_eq_error {candidates : List JobRecord}
    {result : Option JobRecord × JobDatabase} (hc : c.Holds locks)
    (hplain : claimEach repository owner now candidates db = .ok result)
    (h : ¬ Ascends locks ((announcedJobs now candidates).map (auditLock repository keys))) :
    claimEachLocked repository keys owner now candidates c db = .error auditLockOrderError := by
  induction candidates generalizing c locks db with
  | nil => exact absurd trivial h
  | cons candidate rest ih =>
      unfold announcedJobs at h
      unfold claimEach at hplain
      unfold claimEachLocked
      by_cases hleased : candidate.state.leased = true
      · rw [if_pos hleased, List.map_cons] at h
        rw [if_pos hleased, bind_eq_ok] at hplain
        obtain ⟨recovered, hrecover, hplain⟩ := hplain
        have hdue := not_due_of_recoverExpired hrecover
        rw [if_neg hdue, ite_self] at hplain
        rw [if_pos hleased]
        by_cases hadmits : Admits locks (auditLock repository keys candidate)
        · obtain ⟨c', hlock, hc'⟩ := hc.lock_eq_ok hadmits
          have hrest := ih hc' hplain fun hrest => h ⟨hadmits, hrest⟩
          rw [recoverExpiredLocked_takesLock.granted c' hlock, hrecover]
          simp only [Except.map, bind, Except.bind, if_neg hdue, ite_self]
          exact hrest
        · rw [recoverExpiredLocked_takesLock.refused (hc.lock_eq_error hadmits) _ hrecover]
          rfl
      · rw [if_neg hleased] at h hplain
        rw [if_neg hleased]
        by_cases hdue : ∃ next ∈ candidate.nextAttemptAt, next ≤ now
        · rw [if_pos hdue, List.map_singleton] at h
          rw [if_pos hdue, bind_eq_ok] at hplain
          obtain ⟨claimed, hclaim, -⟩ := hplain
          have hadmits : ¬ Admits locks (auditLock repository keys candidate) :=
            fun hadmits => h ⟨hadmits, trivial⟩
          rw [if_pos hdue, claimDueLocked_takesLock.refused (hc.lock_eq_error hadmits) _ hclaim]
          rfl
        · rw [if_neg hdue] at h hplain
          rw [if_neg hdue]
          exact ih hc hplain h

omit [ContentHasher] in
theorem sqlGuarded_map {α β : Type} (message : String) (x : Except PlatformError α) (f : α → β) :
    (sqlGuarded message x).map f = sqlGuarded message (x.map f) := by
  cases x with
  | error e => cases e <;> rfl
  | ok a => rfl

variable {jobTypes : List JobType}

/-- With locks that ascend, `claim_next` does what it does without locks. -/
theorem claimNextLocked_eq (transaction : Nat)
    (h : Ascends [] (claimLocks repository keys now jobTypes db)) :
    (claimNextLocked repository keys owner jobTypes now { transaction := some transaction }
      db).map Prod.snd = claimNext repository owner jobTypes now db := by
  unfold claimNextLocked claimNext
  cases requireResourceId owner "job lease owner" with
  | error e => rfl
  | ok _ =>
      cases requireJobTypes jobTypes with
      | error e => rfl
      | ok _ =>
          have hloop := @claimEachLocked_eq _ repository keys _ db now owner [] _
            (PostgresConnection.holds_nil transaction) h
          rw [← hloop]
          exact sqlGuarded_map _ _ _

/-- With locks that do not ascend, it fails where it would succeed without them. -/
theorem claimNextLocked_eq_error (transaction : Nat) {result : Option JobRecord × JobDatabase}
    (hplain : claimNext repository owner jobTypes now db = .ok result)
    (h : ¬ Ascends [] (claimLocks repository keys now jobTypes db)) :
    claimNextLocked repository keys owner jobTypes now { transaction := some transaction } db =
      .error auditLockOrderError := by
  simp only [claimNext, unit_bind_eq_ok, sqlGuarded_eq_ok] at hplain
  obtain ⟨howner, htypes, hplain⟩ := hplain
  have hloop := claimEachLocked_eq_error (PostgresConnection.holds_nil transaction) hplain h
  unfold claimNextLocked
  rw [howner, htypes, hloop]
  rfl

end JobDatabase

end AdaptiveTrader
