import AdaptiveTrader.Jobs.JobEffects
import AdaptiveTrader.Jobs.JobRuns
import AdaptiveTrader.Jobs.OutboxMoves

/-!
# Whether a claim finds what is due

`claim_next` looks at the first 32 rows of one query, in which due jobs and expired leases are mixed.
It recovers the leases on its way and claims the first due job; a recovered job waits, so it is
never the one claimed (`not_due_of_recoverExpired`). An expired lease has no retry time: PostgreSQL
sorts it behind the due jobs, SQLite in front of them, where 32 of them hide every due job.

`claim_outbox` looks at one row. An event that has used its attempts is given up there and hides
those behind it.
-/

set_option autoImplicit false

namespace AdaptiveTrader

open Foundation

/-! ## Due jobs and expired leases -/

namespace JobRecord

/-- The job is of a requested type, waits for an attempt, and its time has come. -/
def Due (job : JobRecord) (jobTypes : List JobType) (now : Instant) : Prop :=
  job.payload.jobType ∈ jobTypes ∧ job.state.retryable = true ∧
    ∃ next ∈ job.nextAttemptAt, next ≤ now

/-- The job is of a requested type, and the lease of its worker has expired. -/
def LeaseExpired (job : JobRecord) (jobTypes : List JobType) (now : Instant) : Prop :=
  job.payload.jobType ∈ jobTypes ∧ job.state.leased = true ∧
    ∃ lease ∈ job.leaseExpiresAt, lease ≤ now

instance (job : JobRecord) (jobTypes : List JobType) (now : Instant) :
    Decidable (job.LeaseExpired jobTypes now) :=
  inferInstanceAs (Decidable (_ ∧ _ ∧ _))

/-- A leased job has no retry time. -/
theorem nextAttemptAt_of_leased {job : JobRecord} (h : job.state.leased = true) :
    job.nextAttemptAt = none := by
  have houtcome := job.checked_parts.2.2.1
  simp only [JobFields.checkOutcome, unit_bind_eq_ok, rejectIf_eq_ok, not_and, not_not]
    at houtcome
  refine houtcome.2.2.2.1 ?_
  cases hstate : job.state <;> simp [hstate, JobState.leased, JobState.retryable] at h ⊢

theorem not_leased_of_retryable {job : JobRecord} (h : job.state.retryable = true) :
    ¬ job.state.leased = true := by
  cases hstate : job.state <;> simp [hstate, JobState.leased, JobState.retryable] at h ⊢

end JobRecord

section Claims

variable [ContentHasher] {repository : JobRepository} {db db' : JobDatabase} {owner : String}
  {now : Instant} {jobTypes : List JobType}

/-- The job is due, or recovering it now would make it due. -/
def JobRecord.BecomesDue (repository : JobRepository) (db : JobDatabase) (job : JobRecord)
    (jobTypes : List JobType) (now : Instant) : Prop :=
  job.Due jobTypes now ∨ job.LeaseExpired jobTypes now ∧ ∃ recovered db',
    JobDatabase.recoverExpired repository job now db = .ok (recovered, db') ∧
      recovered.Due jobTypes now

/-- `claim_next` gives the worker a job whenever one is due. -/
def ClaimNextFinds (repository : JobRepository) (db : JobDatabase) (owner : String)
    (jobTypes : List JobType) (now : Instant) : Prop :=
  (∃ job ∈ db.jobs.values, job.BecomesDue repository db jobTypes now) →
    ∃ job db', JobDatabase.claimNext repository owner jobTypes now db = .ok (some job, db') ∧
      job.state = .claimed

/-- `claim_outbox` gives the publisher an event whenever one with attempts left is due. -/
def ClaimOutboxFinds (db : JobDatabase) (owner : String) (now : Instant) : Prop :=
  (∃ row ∈ db.outbox.values, row.Deliverable now ∧ row.attemptCount < jobMaxAttempts) →
    ∃ event db', JobDatabase.claimOutbox owner now db = .ok (some event, db')

/-- Expired leases cannot fill the window of the query in front of a due job. -/
def WindowOpen (repository : JobRepository) (db : JobDatabase) (jobTypes : List JobType)
    (now : Instant) : Prop :=
  (∃ job ∈ db.jobs.values, job.Due jobTypes now) →
    repository.dialect = .postgresql ∨
      db.jobs.values.countP (fun job => job.LeaseExpired jobTypes now) < 32

/-- No exhausted event is delivered before all those with attempts left. -/
def FirstHasAttempts (db : JobDatabase) (now : Instant) : Prop :=
  (∃ row ∈ db.outbox.values, row.Deliverable now ∧ row.attemptCount < jobMaxAttempts) →
    ∃ row ∈ db.outbox.values, row.Deliverable now ∧ row.attemptCount < jobMaxAttempts ∧
      ∀ other ∈ db.outbox.values, other.Deliverable now →
        JobDatabase.deliveryOrder row ≤ JobDatabase.deliveryOrder other

/-- Recovery makes no job due. -/
theorem JobRecord.becomesDue_iff {job : JobRecord} :
    job.BecomesDue repository db jobTypes now ↔ job.Due jobTypes now := by
  constructor
  · rintro (hdue | ⟨-, recovered, db', hrecover, -, -, hnext⟩)
    · exact hdue
    · exact absurd hnext (JobDatabase.not_due_of_recoverExpired hrecover)
  · exact Or.inl

/-! ## The loop -/

namespace JobDatabase

theorem state_of_claimDue {candidate claimed : JobRecord}
    (h : claimDue repository candidate owner now db = .ok (claimed, db')) :
    claimed.state = .claimed := by
  simp only [claimDue, bind_eq_ok, JobRecord.replace_eq_ok, pure_eq_ok] at h
  obtain ⟨claimed', hwritten, db₁, -, heq⟩ := h
  cases heq
  exact congrArg (fun fields => fields.state) hwritten

/-- The loop claims a job exactly when one of the candidates is not leased. -/
theorem claimEach_finds {candidates : List JobRecord} {reply : Option JobRecord}
    (hdue : ∀ job ∈ candidates, ¬ job.state.leased = true →
      ∃ next ∈ job.nextAttemptAt, next ≤ now)
    (h : claimEach repository owner now candidates db = .ok (reply, db')) :
    (reply.isSome = true ↔ ∃ job ∈ candidates, ¬ job.state.leased = true) ∧
      ∀ job ∈ reply, job.state = .claimed := by
  induction candidates generalizing db with
  | nil =>
      cases h
      simp
  | cons candidate rest ih =>
      have hrest : ∀ job ∈ rest, ¬ job.state.leased = true →
          ∃ next ∈ job.nextAttemptAt, next ≤ now :=
        fun job hjob => hdue job (List.mem_cons_of_mem _ hjob)
      unfold claimEach at h
      by_cases hleased : candidate.state.leased = true
      · -- An expired lease is recovered, and the loop goes on behind it.
        have hskip : (∃ job ∈ candidate :: rest, ¬ job.state.leased = true) ↔
            ∃ job ∈ rest, ¬ job.state.leased = true := by
          simp [hleased]
        rw [if_pos hleased] at h
        simp only [bind_eq_ok] at h
        obtain ⟨⟨recovered, db₁⟩, hrecover, h⟩ := h
        rw [hskip]
        split at h
        · exact ih hrest h
        split at h
        · next hnext => exact absurd hnext (not_due_of_recoverExpired hrecover)
        · exact ih hrest h
      · rw [if_neg hleased, if_pos (hdue candidate List.mem_cons_self hleased)] at h
        simp only [bind_eq_ok, pure_eq_ok] at h
        obtain ⟨⟨claimed, db₁⟩, hclaim, heq⟩ := h
        cases heq
        refine ⟨⟨fun _ => ⟨candidate, List.mem_cons_self, hleased⟩, fun _ => rfl⟩, ?_⟩
        rintro job ⟨⟩
        exact state_of_claimDue hclaim

/-! ## The window -/

/-- The rows the query selects, in front of its limit. -/
def selectedJobs (db : JobDatabase) (now : Instant) (jobTypes : List JobType) : List JobRecord :=
  db.jobs.values.filter fun job =>
    decide (job.payload.jobType ∈ jobTypes ∧
      ((job.state.retryable = true ∧ ∃ next ∈ job.nextAttemptAt, next ≤ now) ∨
        (job.state.leased = true ∧ ∃ lease ∈ job.leaseExpiresAt, lease ≤ now)))

omit [ContentHasher] in
theorem mem_selectedJobs {job : JobRecord} :
    job ∈ db.selectedJobs now jobTypes ↔
      job ∈ db.jobs.values ∧ (job.Due jobTypes now ∨ job.LeaseExpired jobTypes now) := by
  rw [selectedJobs, List.mem_filter, decide_eq_true_eq, and_or_left]
  rfl

omit [ContentHasher] in
/-- A selected job without a lease is due. -/
theorem due_of_selected {job : JobRecord} (h : job ∈ db.selectedJobs now jobTypes)
    (hleased : ¬ job.state.leased = true) : job.Due jobTypes now := by
  rcases (mem_selectedJobs.1 h).2 with hdue | hexpired
  · exact hdue
  · exact absurd hexpired.2.1 hleased

omit [ContentHasher] in
/-- Somewhere among the selected rows is a due job exactly when the table has one. -/
theorem exists_selected_iff :
    (∃ job ∈ db.selectedJobs now jobTypes, ¬ job.state.leased = true) ↔
      ∃ job ∈ db.jobs.values, job.Due jobTypes now := by
  constructor
  · rintro ⟨job, hjob, hleased⟩
    exact ⟨job, (mem_selectedJobs.1 hjob).1, due_of_selected hjob hleased⟩
  · rintro ⟨job, hjob, hdue⟩
    exact ⟨job, mem_selectedJobs.2 ⟨hjob, Or.inl hdue⟩, JobRecord.not_leased_of_retryable hdue.2.1⟩

omit [ContentHasher] in
theorem countP_selected :
    (db.selectedJobs now jobTypes).countP (fun job => ¬ ¬ job.state.leased = true) =
      db.jobs.values.countP fun job => job.LeaseExpired jobTypes now := by
  rw [selectedJobs, List.countP_filter]
  refine List.countP_congr fun job _ => ?_
  simp only [Bool.and_eq_true, decide_eq_true_eq, not_not]
  constructor
  · rintro ⟨hleased, htype, hwaiting | hexpired⟩
    · exact absurd hleased (JobRecord.not_leased_of_retryable hwaiting.1)
    · exact ⟨htype, hexpired⟩
  · rintro ⟨htype, hleased, hexpired⟩
    exact ⟨hleased, htype, Or.inr ⟨hleased, hexpired⟩⟩

omit [ContentHasher] in
theorem claimOrder_lt {dialect : SqlDialect} {a b : JobRecord}
    (h : retryOrder dialect a.nextAttemptAt < retryOrder dialect b.nextAttemptAt) :
    claimOrder dialect a < claimOrder dialect b :=
  Prod.Lex.toLex_lt_toLex.2 (Or.inl h)

omit [ContentHasher] in
/-- PostgreSQL sorts the due jobs first. -/
theorem due_first {a b : JobRecord} (hb : b ∈ db.selectedJobs now jobTypes)
    (h : claimOrder .postgresql a ≤ claimOrder .postgresql b) (hfree : ¬ b.state.leased = true) :
    ¬ a.state.leased = true := by
  intro hleased
  obtain ⟨-, -, next, hnext, -⟩ := due_of_selected hb hfree
  refine absurd (claimOrder_lt ?_) (not_lt.2 h)
  rw [JobRecord.nextAttemptAt_of_leased hleased, Option.mem_def.1 hnext]
  exact Prod.Lex.toLex_lt_toLex.2 (Or.inl Int.zero_lt_one)

omit [ContentHasher] in
/-- SQLite sorts them last. -/
theorem due_last {a b : JobRecord} (ha : a ∈ db.selectedJobs now jobTypes)
    (h : claimOrder .sqlite a ≤ claimOrder .sqlite b) (hfree : ¬ a.state.leased = true) :
    ¬ b.state.leased = true := by
  intro hleased
  obtain ⟨-, -, next, hnext, -⟩ := due_of_selected ha hfree
  refine absurd (claimOrder_lt ?_) (not_lt.2 h)
  rw [JobRecord.nextAttemptAt_of_leased hleased, Option.mem_def.1 hnext]
  exact Prod.Lex.toLex_lt_toLex.2 (Or.inl neg_one_lt_zero)

omit [ContentHasher] in
/-- The window holds a due job exactly when there is one and, on SQLite, the expired leases leave
room for it. -/
theorem exists_candidate_iff :
    (∃ job ∈ db.claimCandidates repository now jobTypes, ¬ job.state.leased = true) ↔
      (∃ job ∈ db.jobs.values, job.Due jobTypes now) ∧
        (repository.dialect = .postgresql ∨
          db.jobs.values.countP (fun job => job.LeaseExpired jobTypes now) < 32) := by
  set sorted := sortedBy (claimOrder repository.dialect) (db.selectedJobs now jobTypes) with hsorted
  have hwindow : db.claimCandidates repository now jobTypes = sorted.take 32 := rfl
  have hperm : sorted.Perm (db.selectedJobs now jobTypes) := sortedBy_perm _ _
  have hexists : (∃ job ∈ sorted, ¬ job.state.leased = true) ↔
      ∃ job ∈ db.jobs.values, job.Due jobTypes now := by
    rw [← exists_selected_iff]
    exact exists_congr fun job => and_congr_left fun _ => hperm.mem_iff
  have horder := sortedBy_pairwise (claimOrder repository.dialect) (db.selectedJobs now jobTypes)
  rw [hwindow]
  cases hdialect : repository.dialect with
  | postgresql =>
      rw [hdialect] at horder hsorted
      have hfirst : sorted.Pairwise fun a b => ¬ b.state.leased = true → ¬ a.state.leased = true := by
        rw [hsorted]
        exact horder.imp_of_mem fun _ hb => due_first (mem_sortedBy.1 hb)
      rw [exists_mem_take_iff_of_first hfirst (by decide), hexists]
      exact ⟨fun h => ⟨h, Or.inl rfl⟩, fun h => h.1⟩
  | sqlite =>
      rw [hdialect] at horder hsorted
      have hlast : sorted.Pairwise fun a b => ¬ a.state.leased = true → ¬ b.state.leased = true := by
        rw [hsorted]
        exact horder.imp_of_mem fun ha _ => due_last (mem_sortedBy.1 ha)
      rw [exists_mem_take_iff_of_last hlast, hexists, hperm.countP_eq, countP_selected]
      exact and_congr_right fun _ => ⟨Or.inr, fun h => h.resolve_left nofun⟩

/-- A call that returns gives the worker a job exactly when the window holds a due one. -/
theorem claimNext_finds {reply : Option JobRecord}
    (h : claimNext repository owner jobTypes now db = .ok (reply, db')) :
    (reply.isSome = true ↔
      ∃ job ∈ db.claimCandidates repository now jobTypes, ¬ job.state.leased = true) ∧
      ∀ job ∈ reply, job.state = .claimed := by
  simp only [claimNext, unit_bind_eq_ok, sqlGuarded_eq_ok] at h
  refine claimEach_finds (fun job hjob hleased => ?_) h.2.2
  have hselected : job ∈ db.selectedJobs now jobTypes :=
    mem_sortedBy.1 (List.mem_of_mem_take hjob)
  exact (due_of_selected hselected hleased).2.2

/-! ## The first event -/

/-- The first event is delivered before every other one. -/
theorem dueOutbox_spec {row : OutboxEvent} (h : db.dueOutbox now = some row) :
    (row ∈ db.outbox.values ∧ row.Deliverable now) ∧
      ∀ other ∈ db.outbox.values, other.Deliverable now →
        deliveryOrder row ≤ deliveryOrder other := by
  set events := db.outbox.values.filter fun row =>
    decide ((row.state.retryable = true ∧ ∃ next ∈ row.nextAttemptAt, next ≤ now) ∨
      (row.state = .claimed ∧ ∃ lease ∈ row.leaseExpiresAt, lease ≤ now)) with hevents
  have hmem : ∀ other, other ∈ events ↔ other ∈ db.outbox.values ∧ other.Deliverable now := by
    intro other
    rw [hevents, List.mem_filter, decide_eq_true_eq]
    rfl
  have hhead : (sortedBy deliveryOrder events).head? = some row := h
  obtain ⟨rest, hrest⟩ := List.head?_eq_some_iff.1 hhead
  have hpairwise := sortedBy_pairwise deliveryOrder events
  rw [hrest] at hpairwise
  refine ⟨(hmem row).1 (mem_sortedBy.1 (hrest ▸ List.mem_cons_self)), fun other hother hdue => ?_⟩
  have hlisted : other ∈ row :: rest := hrest ▸ mem_sortedBy.2 ((hmem other).2 ⟨hother, hdue⟩)
  rcases List.mem_cons.1 hlisted with rfl | hlater
  · exact le_refl _
  · exact (List.pairwise_cons.1 hpairwise).1 other hlater

/-- No first event, no event at all. -/
theorem not_deliverable_of_dueOutbox (h : db.dueOutbox now = none) {row : OutboxEvent}
    (hrow : row ∈ db.outbox.values) : ¬ row.Deliverable now := by
  intro hdue
  have hmem : row ∈ sortedBy deliveryOrder (db.outbox.values.filter fun row =>
      decide ((row.state.retryable = true ∧ ∃ next ∈ row.nextAttemptAt, next ≤ now) ∨
        (row.state = .claimed ∧ ∃ lease ∈ row.leaseExpiresAt, lease ≤ now))) :=
    mem_sortedBy.2 (List.mem_filter.2 ⟨hrow, decide_eq_true hdue⟩)
  rw [List.head?_eq_none_iff.1 h] at hmem
  cases hmem

/-- A call that returns takes the first event unless that one has used its attempts. -/
theorem claimOutbox_finds {reply : Option ClaimedOutboxEvent}
    (h : claimOutbox owner now db = .ok (reply, db')) :
    reply.isSome = true ↔ ∃ row, db.dueOutbox now = some row ∧ row.attemptCount < jobMaxAttempts := by
  simp only [claimOutbox, unit_bind_eq_ok, sqlGuarded_eq_ok, validationGuarded_eq_ok] at h
  obtain ⟨-, h⟩ := h
  unfold claimOutboxOnConnection at h
  cases hdue : db.dueOutbox now with
  | none =>
      rw [hdue] at h
      cases h
      simp
  | some row =>
      rw [hdue] at h
      simp only [bind_eq_ok] at h
      obtain ⟨-, -, -, -, h⟩ := h
      split at h
      · next hlimit =>
          simp only [bind_eq_ok, pure_eq_ok] at h
          obtain ⟨_, -, heq⟩ := h
          cases heq
          simpa using hlimit
      · next hlimit =>
          simp only [bind_eq_ok, pure_eq_ok] at h
          obtain ⟨_, -, _, -, heq⟩ := h
          cases heq
          simpa using hlimit

/-- Two rows that are delivered at one place are one row. -/
theorem eq_of_deliveryOrder_eq (hkeyed : db.Keyed) {a b : OutboxEvent} (ha : a ∈ db.outbox.values)
    (hb : b ∈ db.outbox.values) (h : deliveryOrder a = deliveryOrder b) : a = b := by
  obtain ⟨k, hk⟩ := Dict.mem_values_iff.1 ha
  obtain ⟨k', hk'⟩ := Dict.mem_values_iff.1 hb
  have hid : a.outboxEventId = b.outboxEventId := congrArg (fun p => (ofLex p).2) h
  rw [← hkeyed.outbox k a hk, hid, hkeyed.outbox k' b hk'] at hk
  exact Option.some.inj (hk.symm.trans hk')

end JobDatabase

/-! ## Completeness -/

theorem claimNextFinds_iff
    (hreturns : ∃ reply db', JobDatabase.claimNext repository owner jobTypes now db =
      .ok (reply, db')) :
    ClaimNextFinds repository db owner jobTypes now ↔ WindowOpen repository db jobTypes now := by
  obtain ⟨reply, db', h⟩ := hreturns
  obtain ⟨hsome, hclaimed⟩ := JobDatabase.claimNext_finds h
  rw [JobDatabase.exists_candidate_iff] at hsome
  constructor
  · rintro hfinds ⟨job, hjob, hdue⟩
    obtain ⟨claimed, db'', h', -⟩ := hfinds ⟨job, hjob, JobRecord.becomesDue_iff.2 hdue⟩
    rw [h, Except.ok.injEq, Prod.mk.injEq] at h'
    exact (hsome.1 (by rw [h'.1]; rfl)).2
  · rintro hopen ⟨job, hjob, hdue⟩
    have hexists : ∃ job ∈ db.jobs.values, job.Due jobTypes now :=
      ⟨job, hjob, JobRecord.becomesDue_iff.1 hdue⟩
    obtain ⟨claimed, rfl⟩ := Option.isSome_iff_exists.1 (hsome.2 ⟨hexists, hopen hexists⟩)
    exact ⟨claimed, db', h, hclaimed claimed rfl⟩

theorem claimOutboxFinds_iff (hkeyed : db.Keyed)
    (hreturns : ∃ reply db', JobDatabase.claimOutbox owner now db = .ok (reply, db')) :
    ClaimOutboxFinds db owner now ↔ FirstHasAttempts db now := by
  obtain ⟨reply, db', h⟩ := hreturns
  have hsome := JobDatabase.claimOutbox_finds h
  constructor
  · intro hfinds hexists
    obtain ⟨event, db'', h'⟩ := hfinds hexists
    rw [h, Except.ok.injEq, Prod.mk.injEq] at h'
    obtain ⟨row, hdue, hattempts⟩ := hsome.1 (by rw [h'.1]; rfl)
    obtain ⟨⟨hrow, hdeliverable⟩, hfirst⟩ := JobDatabase.dueOutbox_spec hdue
    exact ⟨row, hrow, hdeliverable, hattempts, hfirst⟩
  · intro hfirst hexists
    obtain ⟨row, hrow, hdeliverable, hattempts, hleast⟩ := hfirst hexists
    cases hdue : db.dueOutbox now with
    | none => exact absurd hdeliverable (JobDatabase.not_deliverable_of_dueOutbox hdue hrow)
    | some head =>
        -- The head of the query and the least row come at one place.
        obtain ⟨⟨hhead, hheadDue⟩, hheadLeast⟩ := JobDatabase.dueOutbox_spec hdue
        have hplace := le_antisymm (hheadLeast row hrow hdeliverable) (hleast head hhead hheadDue)
        obtain rfl := JobDatabase.eq_of_deliveryOrder_eq hkeyed hhead hrow hplace
        obtain ⟨event, rfl⟩ := Option.isSome_iff_exists.1 (hsome.2 ⟨head, hdue, hattempts⟩)
        exact ⟨event, db', h⟩

/-- Of calls that return, `claim_next` finds what is due exactly when expired leases do not fill its
window, and `claim_outbox` exactly when the first event has attempts left. -/
theorem claims_find_iff (repository : JobRepository) (jobTypes : List JobType) (hkeyed : db.Keyed)
    {worker publisher : String}
    (hnext : ∃ reply db',
      JobDatabase.claimNext repository worker jobTypes now db = .ok (reply, db'))
    (houtbox : ∃ reply db', JobDatabase.claimOutbox publisher now db = .ok (reply, db')) :
    (ClaimNextFinds repository db worker jobTypes now ↔ WindowOpen repository db jobTypes now) ∧
      (ClaimOutboxFinds db publisher now ↔ FirstHasAttempts db now) :=
  ⟨claimNextFinds_iff hnext, claimOutboxFinds_iff hkeyed houtbox⟩

end Claims

/-! ## An exhausted event in front of a due one -/

section Sample

local instance windowHasher : ContentHasher := polynomialHasher

/-- The announcement of a new job. -/
def createdMessage (jobId : String) (createdAt : Instant) : OutboxMessage where
  aggregateId := jobId
  eventType := "job.created"
  payload := ⟨jobId, .offlineDemo, "correlation-1", .pending, 0, 1, none⟩
  createdAt

/-- An event whose third delivery was never completed. -/
def spentEvent : OutboxEvent where
  toOutboxMessage := createdMessage "job-1" 0
  state := .claimed
  attemptCount := 3
  leaseOwner := some "publisher-1"
  leaseExpiresAt := some (seconds 200)
  updatedAt := seconds 140
  version := 4

/-- A later event that waits for its first delivery. -/
def freshEvent : OutboxEvent where
  toOutboxMessage := createdMessage "job-2" (seconds 150)
  state := .pending
  attemptCount := 0
  nextAttemptAt := some (seconds 150)
  updatedAt := seconds 150
  version := 1

/-- A job that waits for its first attempt. -/
def waitingJob : JobRecord :=
  ⟨newJobFields (jobIdOf sampleJobRequest) sampleJobRequest, by decide +kernel⟩

def spentDatabase : JobDatabase where
  jobs := Dict.empty.set waitingJob.jobId waitingJob
  attempts := []
  outbox := (Dict.empty.set spentEvent.outboxEventId spentEvent).set freshEvent.outboxEventId
    freshEvent
  auditEvents := []

theorem keyed_spentDatabase : spentDatabase.Keyed where
  jobs := by
    intro k a h
    by_cases hk : k = waitingJob.jobId
    · subst hk
      rw [spentDatabase, Dict.get?_set_self] at h
      cases h
      rfl
    · rw [spentDatabase, Dict.get?_set_of_ne _ _ hk] at h
      simp at h
  outbox := by
    intro k e h
    by_cases hfresh : k = freshEvent.outboxEventId
    · subst hfresh
      rw [spentDatabase, Dict.get?_set_self] at h
      cases h
      rfl
    rw [spentDatabase, Dict.get?_set_of_ne _ _ hfresh] at h
    by_cases hspent : k = spentEvent.outboxEventId
    · subst hspent
      rw [Dict.get?_set_self] at h
      cases h
      rfl
    · rw [Dict.get?_set_of_ne _ _ hspent] at h
      simp at h

/-- The second event is due and has attempts left, the publisher gets nothing, and the worker's call
returns. -/
theorem spentDatabase_replies :
    (∃ row ∈ spentDatabase.outbox.values,
      row.Deliverable (seconds 210) ∧ row.attemptCount < jobMaxAttempts) ∧
    ((JobDatabase.claimOutbox "publisher-1" (seconds 210) spentDatabase).toOption.map
      fun reply => reply.1.isNone) = some true ∧
    (JobDatabase.claimNext sampleJobRepository "worker-1" [.offlineDemo] (seconds 210)
      spentDatabase).isOk = true := by
  unfold OutboxEvent.Deliverable
  decide +kernel

/-- The call gives the first event up and returns nothing. -/
theorem claimOutbox_spentDatabase : ∃ db',
    JobDatabase.claimOutbox "publisher-1" (seconds 210) spentDatabase = .ok (none, db') := by
  have hnone := spentDatabase_replies.2.1
  cases h : JobDatabase.claimOutbox "publisher-1" (seconds 210) spentDatabase with
  | error e =>
      rw [h] at hnone
      cases hnone
  | ok reply =>
      rw [h] at hnone
      obtain ⟨event, db'⟩ := reply
      obtain rfl : event = none := Option.isNone_iff_eq_none.1 (Option.some.inj hnone)
      exact ⟨db', rfl⟩

theorem claimNext_spentDatabase : ∃ reply db',
    JobDatabase.claimNext sampleJobRepository "worker-1" [.offlineDemo] (seconds 210)
      spentDatabase = .ok (reply, db') := by
  have hreturns := spentDatabase_replies.2.2
  cases h : JobDatabase.claimNext sampleJobRepository "worker-1" [.offlineDemo] (seconds 210)
    spentDatabase with
  | error e =>
      rw [h] at hreturns
      cases hreturns
  | ok reply => exact ⟨reply.1, reply.2, rfl⟩

theorem claimOutbox_returns : ∃ reply db',
    JobDatabase.claimOutbox "publisher-1" (seconds 210) spentDatabase = .ok (reply, db') := by
  obtain ⟨db', h⟩ := claimOutbox_spentDatabase
  exact ⟨none, db', h⟩

theorem not_claimOutboxFinds : ¬ ClaimOutboxFinds spentDatabase "publisher-1" (seconds 210) := by
  intro hfinds
  obtain ⟨event, db', h⟩ := hfinds spentDatabase_replies.1
  obtain ⟨db'', hnone⟩ := claimOutbox_spentDatabase
  rw [hnone] at h
  cases h

/-- A publisher gets nothing although an event with attempts left is due. -/
theorem spent_event_hides_fresh_event :
    ¬ ∀ (repository : JobRepository) (db : JobDatabase) owner jobTypes now, db.Keyed →
      ClaimNextFinds repository db owner jobTypes now ∧ ClaimOutboxFinds db owner now := by
  intro hall
  have hboth := hall sampleJobRepository spentDatabase "publisher-1" [.offlineDemo] (seconds 210)
    keyed_spentDatabase
  exact not_claimOutboxFinds hboth.2

/-- The waiting job is found, and the first event has used its attempts. -/
theorem spentDatabase_claims :
    ClaimNextFinds sampleJobRepository spentDatabase "worker-1" [.offlineDemo] (seconds 210) ∧
      ¬ FirstHasAttempts spentDatabase (seconds 210) := by
  have h := claims_find_iff sampleJobRepository [.offlineDemo] keyed_spentDatabase
    claimNext_spentDatabase claimOutbox_returns
  refine ⟨h.1.2 fun _ => Or.inr ?_, fun hfirst => not_claimOutboxFinds (h.2.2 hfirst)⟩
  exact List.countP_le_length.trans_lt (by decide)

end Sample

end AdaptiveTrader
