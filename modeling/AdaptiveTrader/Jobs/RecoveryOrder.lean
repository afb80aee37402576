import AdaptiveTrader.Jobs.JobRuns
import AdaptiveTrader.Jobs.RecoveryLocks
import AdaptiveTrader.Scheduling.RecoveryLocks

/-!
# When recovery is blocked

A transaction that recovers several expired leases takes one audit lock for each, in the order of
the rows. `recovery_unblocked_iff` says exactly when the locks stand in the way: when the keys do not
ascend in this order. Nothing about the rows makes them ascend, so two leases that expire together
can block each other's recovery for as long as both are expired (`expired_jobs_blocked`).
-/

set_option autoImplicit false

namespace AdaptiveTrader

open Foundation Storage

/-- `claim_next` and `recover_expired_claims` on PostgreSQL do what they do without locks when their
locks ascend. Where they would succeed without locks, they fail on the lock order exactly when the
locks do not ascend. -/
theorem recovery_unblocked_iff [ContentHasher] (keys : LockKeys) (transaction : Nat) :
    (∀ (repository : JobRepository) (owner : String) (jobTypes : List JobType) (now : Instant)
        (db : JobDatabase),
      (Ascends [] (db.claimLocks repository keys now jobTypes) →
        (JobDatabase.claimNextLocked repository keys owner jobTypes now
          { transaction := some transaction } db).map Prod.snd =
            JobDatabase.claimNext repository owner jobTypes now db) ∧
      ∀ result, JobDatabase.claimNext repository owner jobTypes now db = .ok result →
        (JobDatabase.claimNextLocked repository keys owner jobTypes now
            { transaction := some transaction } db ≠ .error auditLockOrderError ↔
          Ascends [] (db.claimLocks repository keys now jobTypes))) ∧
    ∀ (owner : String) (now : Instant) (db : SlotDatabase (List AuditEvent)),
      (Ascends [] (db.recoveryLocks keys now) →
        (SlotDatabase.recoverExpiredClaims (auditSlotTransitionRecorderLocked keys) owner now
          (db.onConnection { transaction := some transaction })).map
            (fun w => (w.1, w.2.withoutConnection)) =
          SlotDatabase.recoverExpiredClaims auditSlotTransitionRecorder owner now db) ∧
      ∀ result, SlotDatabase.recoverExpiredClaims auditSlotTransitionRecorder owner now db =
          .ok result →
        (SlotDatabase.recoverExpiredClaims (auditSlotTransitionRecorderLocked keys) owner now
            (db.onConnection { transaction := some transaction }) ≠ .error auditLockOrderError ↔
          Ascends [] (db.recoveryLocks keys now)) := by
  constructor
  · intro repository owner jobTypes now db
    refine ⟨JobDatabase.claimNextLocked_eq transaction, ?_⟩
    intro result hplain
    constructor
    · intro hunblocked
      by_contra hlocks
      exact hunblocked (JobDatabase.claimNextLocked_eq_error transaction hplain hlocks)
    · intro hlocks herror
      have hsame := @JobDatabase.claimNextLocked_eq _ repository keys db now owner jobTypes
        transaction hlocks
      rw [herror, hplain] at hsame
      cases hsame
  · intro owner now db
    have hrecorder := @auditSlotTransitionRecorder_recordsBehindLock _ keys
    refine ⟨SlotDatabase.recoverExpiredClaims_locked hrecorder transaction, ?_⟩
    intro result hplain
    constructor
    · intro hunblocked
      by_contra hlocks
      exact hunblocked
        (SlotDatabase.recoverExpiredClaims_locked_error hrecorder transaction hplain hlocks)
    · intro hlocks herror
      have hsame := @SlotDatabase.recoverExpiredClaims_locked _ _ keys _ _ db now owner hrecorder
        transaction hlocks
      rw [herror, hplain] at hsame
      cases hsame

/-! ## Two workers whose leases expire together -/

section Sample

local instance recoveryHasher : ContentHasher := polynomialHasher

def laterJobRequest : JobCreateRequest where
  payload := sampleJobRequest.payload
  idempotencyKey := "demo-2"
  correlationId := "00000000-0000-0000-0000-000000000002"
  requestedAt := 1
  checked := by decide +kernel

def postgresJobRepository : JobRepository := ⟨.postgresql, some .control, .control⟩

/-- The row of a job that a worker has claimed once. -/
def claimedFields (request : JobCreateRequest) (owner : String) (now : Instant) : JobFields where
  jobId := jobIdOf request
  payload := request.payload
  idempotencyKey := request.idempotencyKey
  correlationId := request.correlationId
  createdAt := request.requestedAt
  state := .claimed
  attemptCount := 1
  leaseOwner := some owner
  leaseExpiresAt := some (now + jobLeaseDuration)
  claimedAt := some now
  updatedAt := now
  version := 2

theorem claimedFields_check :
    (claimedFields sampleJobRequest "worker-1" (seconds 2)).check = .ok () ∧
      (claimedFields laterJobRequest "worker-2" (seconds 3)).check = .ok () := by
  decide +kernel

/-- Two workers hold one job each. No other row stands in the way of a recovery. -/
def twoClaimedJobs : JobDatabase where
  jobs := (Dict.empty.set (jobIdOf sampleJobRequest) ⟨_, claimedFields_check.1⟩).set
    (jobIdOf laterJobRequest) ⟨_, claimedFields_check.2⟩
  attempts := []
  outbox := Dict.empty
  auditEvents := []

theorem keyed_twoClaimedJobs : twoClaimedJobs.Keyed where
  jobs := by
    intro k job h
    by_cases hlater : k = jobIdOf laterJobRequest
    · subst hlater
      rw [twoClaimedJobs, Dict.get?_set_self] at h
      cases h
      rfl
    rw [twoClaimedJobs, Dict.get?_set_of_ne _ _ hlater] at h
    by_cases hfirst : k = jobIdOf sampleJobRequest
    · subst hfirst
      rw [Dict.get?_set_self] at h
      cases h
      rfl
    · rw [Dict.get?_set_of_ne _ _ hfirst] at h
      simp at h
  outbox := by
    intro k event h
    simp [twoClaimedJobs] at h

/-- Keys under which the first job's stream has the larger one. -/
def invertedLockKeys : LockKeys where
  key _ resourceRef :=
    if resourceRef = postgresJobRepository.auditStream (jobIdOf sampleJobRequest) then 1 else 0
  signed _ resourceRef := by
    split <;> decide

/-- Both leases have expired, both jobs could be recovered, and the lock order prevents it. -/
theorem expired_jobs_blocked : ∃ db : JobDatabase, db.Keyed ∧
    (∃ result, JobDatabase.claimNext postgresJobRepository "worker-3" [.offlineDemo] (seconds 900)
      db = .ok result) ∧
    JobDatabase.claimNextLocked postgresJobRepository invertedLockKeys "worker-3" [.offlineDemo]
      (seconds 900) { transaction := some 1 } db = .error auditLockOrderError := by
  have hrows : (JobDatabase.claimNext postgresJobRepository "worker-3" [.offlineDemo]
      (seconds 900) twoClaimedJobs).isOk = true ∧
      ¬ Ascends [] (twoClaimedJobs.claimLocks postgresJobRepository invertedLockKeys (seconds 900)
        [.offlineDemo]) := by
    decide +kernel
  cases hplain : JobDatabase.claimNext postgresJobRepository "worker-3" [.offlineDemo]
      (seconds 900) twoClaimedJobs with
  | error e =>
      rw [hplain] at hrows
      exact absurd hrows.1 (by simp [Except.isOk, Except.toBool])
  | ok result =>
      exact ⟨_, keyed_twoClaimedJobs, ⟨result, hplain⟩,
        JobDatabase.claimNextLocked_eq_error 1 hplain hrows.2⟩

end Sample

end AdaptiveTrader
