import AdaptiveTrader.Jobs.JobMoves

/-!
# The effect of one job call

A call of the job repository is one transaction. `JobChange` states what it does to one job: the
row, the attempt events and the outbox stay; or the job is created and announced; or it makes one
move with the attempt event and the announcement of that move. `OutboxMove` is the counterpart for
delivery, which changes outbox rows and nothing else. `JobDatabase.perform_effect` collects both for
every call.
-/

set_option autoImplicit false

namespace AdaptiveTrader

open Foundation

/-! ## What happens to one job -/

/-- The attempt events of one job, in the order in which they were appended. -/
def JobDatabase.attemptsOf (db : JobDatabase) (k : String) : List JobAttempt :=
  db.attempts.filter fun a => a.jobId = k

/-- The event is new in the outbox and announces the job `k`. -/
structure NewEvent (k : String) (db db' : JobDatabase) (id : String) (e : OutboxEvent) :
    Prop where
  absent : db.outbox.get? id = none
  present : db'.outbox.get? id = some e
  aggregate : e.aggregateId = k

/-- The rows of the outbox stay. -/
def OutboxGrows (db db' : JobDatabase) : Prop :=
  ∀ id e, db.outbox.get? id = some e → db'.outbox.get? id = some e

section Changes

variable [ContentHasher]

/-- The new events of the job `k` are the given announcement. -/
def Announced (k : String) (db db' : JobDatabase) (announcement : Option OutboxEvent) : Prop :=
  ∀ id e, NewEvent k db db' id e ↔ announcement = some e ∧ id = e.outboxEventId

/-- Nothing happened to the job `k`. -/
structure JobKept (k : String) (db db' : JobDatabase) : Prop where
  row : db'.jobs.get? k = db.jobs.get? k
  attempts : db'.attemptsOf k = db.attemptsOf k
  announced : Announced k db db' none

/-- The job `k` was created. -/
structure JobCreated (k : String) (db db' : JobDatabase) (b : JobRecord) : Prop where
  absent : db.jobs.get? k = none
  row : db'.jobs.get? k = some b
  jobId_eq : b.jobId = k
  new : ∃ request, JobDatabase.NewJob request b
  attempts : db'.attemptsOf k = db.attemptsOf k
  announced : Announced k db db' (some (outboxEventOf b "job.created" none))

/-- The job `k` made one move. -/
structure JobMoved (now : Instant) (k : String) (db db' : JobDatabase) (a b : JobRecord)
    (action : JobAction) : Prop where
  before : db.jobs.get? k = some a
  after : db'.jobs.get? k = some b
  jobId_eq : b.jobId = k
  move : JobMove now action a b
  attempts : db'.attemptsOf k = db.attemptsOf k ++ (action.attempt a b now).toList
  announced : Announced k db db' (action.announcement b)

/-- What a call does to the job `k`, when its moves are among `makes` and it claims the job
`claimed`. -/
inductive JobChange (makes : JobAction → Prop) (now : Instant) (claimed : Option String)
    (k : String) (db db' : JobDatabase) : Prop
  | kept (h : JobKept k db db') (hclaimed : claimed ≠ some k)
  | created (b : JobRecord) (h : JobCreated k db db' b) (hclaimed : claimed ≠ some k)
  | moved (a b : JobRecord) (action : JobAction) (hmakes : makes action)
      (h : JobMoved now k db db' a b action) (hclaimed : action.claims = true ↔ claimed = some k)

/-- What a call does to the jobs. -/
structure JobsEffect (makes : JobAction → Prop) (now : Instant) (claimed : Option String)
    (db db' : JobDatabase) : Prop where
  each : ∀ k, JobChange makes now claimed k db db'
  grows : OutboxGrows db db'

variable {makes : JobAction → Prop} {now : Instant} {claimed : Option String} {k : String}
  {db e db' : JobDatabase}

omit [ContentHasher] in
theorem NewEvent.not_self {id : String} {event : OutboxEvent} : ¬ NewEvent k db db id event := by
  intro h
  have hpresent := h.present
  rw [h.absent] at hpresent
  cases hpresent

theorem JobKept.refl (k : String) (db : JobDatabase) : JobKept k db db where
  row := rfl
  attempts := rfl
  announced id event := by simp [NewEvent.not_self]

/-- Events announced first stay the new ones when the rest announces nothing of the job. -/
theorem Announced.before_kept {o : Option OutboxEvent} (h : Announced k db e o)
    (hgrows : OutboxGrows e db') (hquiet : Announced k e db' none) : Announced k db db' o := by
  intro id event
  rw [← h id event]
  constructor
  · intro hnew
    cases hmid : e.outbox.get? id with
    | none =>
        have hlate : NewEvent k e db' id event := ⟨hmid, hnew.present, hnew.aggregate⟩
        exact absurd ((hquiet id event).1 hlate).1 nofun
    | some row =>
        have hsame := (hgrows id row hmid).symm.trans hnew.present
        cases hsame
        exact ⟨hnew.absent, hmid, hnew.aggregate⟩
  · intro hnew
    exact ⟨hnew.absent, hgrows id event hnew.present, hnew.aggregate⟩

/-- Events announced after a part that announces nothing of the job. -/
theorem Announced.after_kept {o : Option OutboxEvent} (hquiet : Announced k db e none)
    (hgrows : OutboxGrows db e) (hgrows' : OutboxGrows e db') (h : Announced k e db' o) :
    Announced k db db' o := by
  intro id event
  rw [← h id event]
  constructor
  · intro hnew
    refine ⟨?_, hnew.present, hnew.aggregate⟩
    cases hmid : e.outbox.get? id with
    | none => rfl
    | some row =>
        -- The row would be an event of the job that the first part announced.
        have hsame := (hgrows' id row hmid).symm.trans hnew.present
        cases hsame
        exact absurd ((hquiet id event).1 ⟨hnew.absent, hmid, hnew.aggregate⟩).1 nofun
  · intro hnew
    refine ⟨?_, hnew.present, hnew.aggregate⟩
    cases hfirst : db.outbox.get? id with
    | none => rfl
    | some row =>
        have hmid := hgrows id row hfirst
        rw [hnew.absent] at hmid
        cases hmid

theorem JobKept.trans (h₁ : JobKept k db e) (hgrows : OutboxGrows e db') (h₂ : JobKept k e db') :
    JobKept k db db' where
  row := h₂.row.trans h₁.row
  attempts := h₂.attempts.trans h₁.attempts
  announced := h₁.announced.before_kept hgrows h₂.announced

namespace JobChange

/-- A change before which nothing happened to the job. -/
theorem after_kept (hkept : JobKept k db e) (hgrows : OutboxGrows db e)
    (hgrows' : OutboxGrows e db') (h : JobChange makes now claimed k e db') :
    JobChange makes now claimed k db db' := by
  cases h with
  | kept h hclaimed => exact kept (hkept.trans hgrows' h) hclaimed
  | created b h hclaimed =>
      exact created b ⟨hkept.row.symm.trans h.absent, h.row, h.jobId_eq, h.new,
        h.attempts.trans hkept.attempts, hkept.announced.after_kept hgrows hgrows' h.announced⟩
        hclaimed
  | moved a b action hmakes h hclaimed =>
      refine moved a b action hmakes ⟨hkept.row.symm.trans h.before, h.after, h.jobId_eq, h.move, ?_,
        hkept.announced.after_kept hgrows hgrows' h.announced⟩ hclaimed
      rw [h.attempts, hkept.attempts]

/-- A change after which nothing happened to the job. -/
theorem before_kept (h : JobChange makes now none k db e) (hgrows : OutboxGrows e db')
    (hkept : JobKept k e db') (hclaimed : claimed ≠ some k) :
    JobChange makes now claimed k db db' := by
  cases h with
  | kept h _ => exact kept (h.trans hgrows hkept) hclaimed
  | created b h _ =>
      exact created b ⟨h.absent, hkept.row.trans h.row, h.jobId_eq, h.new,
        hkept.attempts.trans h.attempts, h.announced.before_kept hgrows hkept.announced⟩ hclaimed
  | moved a b action hmakes h hnone =>
      refine moved a b action hmakes ⟨h.before, hkept.row.trans h.after, h.jobId_eq, h.move,
        hkept.attempts.trans h.attempts, h.announced.before_kept hgrows hkept.announced⟩ ?_
      constructor
      · intro hclaims
        exact absurd (hnone.1 hclaims) nofun
      · intro hsome
        exact absurd hsome hclaimed

end JobChange

namespace JobsEffect

theorem refl (makes : JobAction → Prop) (now : Instant) (db : JobDatabase) :
    JobsEffect makes now none db db where
  each k := JobChange.kept (JobKept.refl k db) nofun
  grows _ _ h := h

/-- Effects in sequence are one effect when no job is changed by both. -/
theorem trans (h₁ : JobsEffect makes now none db e) (h₂ : JobsEffect makes now claimed e db')
    (hdisjoint : ∀ k, JobKept k db e ∨ (JobKept k e db' ∧ claimed ≠ some k)) :
    JobsEffect makes now claimed db db' where
  each k := by
    rcases hdisjoint k with hfirst | ⟨hsecond, hclaimed⟩
    · exact (h₂.each k).after_kept hfirst h₁.grows h₂.grows
    · exact (h₁.each k).before_kept h₂.grows hsecond hclaimed
  grows id event h := h₂.grows id event (h₁.grows id event h)

end JobsEffect

/-! ## One write -/

namespace JobWrite

variable {current : JobRecord} {attempt : Option JobAttempt} {announcement : Option OutboxEvent}

theorem grows (h : JobWrite db current attempt announcement db') : OutboxGrows db db' := by
  intro id row hrow
  cases ha : announcement with
  | none => rw [h.unannounced ha, hrow]
  | some event =>
      obtain ⟨hfresh, houtbox⟩ := h.announced event ha
      have hne : id ≠ event.outboxEventId := by
        rintro rfl
        rw [hrow] at hfresh
        cases hfresh
      rw [houtbox, Dict.get?_set_of_ne _ _ hne, hrow]

/-- The new events of a job are the announcement, when it is the job's. -/
theorem newEvent_iff (h : JobWrite db current attempt announcement db') {id : String}
    {event : OutboxEvent} : NewEvent k db db' id event ↔
      announcement = some event ∧ id = event.outboxEventId ∧ event.aggregateId = k := by
  constructor
  · intro hnew
    cases ha : announcement with
    | none =>
        have hpresent := hnew.present
        rw [h.unannounced ha, hnew.absent] at hpresent
        cases hpresent
    | some announced =>
        obtain ⟨-, houtbox⟩ := h.announced announced ha
        have hpresent := hnew.present
        rw [houtbox] at hpresent
        by_cases hid : id = announced.outboxEventId
        · subst hid
          rw [Dict.get?_set_self, Option.some.injEq] at hpresent
          subst hpresent
          exact ⟨rfl, rfl, hnew.aggregate⟩
        · rw [Dict.get?_set_of_ne _ _ hid, hnew.absent] at hpresent
          cases hpresent
  · rintro ⟨ha, rfl, haggregate⟩
    obtain ⟨hfresh, houtbox⟩ := h.announced event ha
    exact ⟨hfresh, by rw [houtbox, Dict.get?_set_self], haggregate⟩

theorem attemptsOf_eq (h : JobWrite db current attempt announcement db') (k : String) :
    db'.attemptsOf k = db.attemptsOf k ++ attempt.toList.filter fun a => a.jobId = k := by
  rw [JobDatabase.attemptsOf, h.attempts, List.filter_append]
  rfl

/-- A write leaves every other job alone. -/
theorem kept_of_ne (h : JobWrite db current attempt announcement db')
    (hattempt : ∀ a, attempt = some a → a.jobId = current.jobId)
    (hevent : ∀ e, announcement = some e → e.aggregateId = current.jobId)
    (hk : k ≠ current.jobId) : JobKept k db db' where
  row := by rw [h.jobs, Dict.get?_set_of_ne _ _ hk]
  attempts := by
    rw [h.attemptsOf_eq k]
    cases ha : attempt with
    | none => exact List.append_nil _
    | some a =>
        have hne : a.jobId ≠ k := by
          rw [hattempt a ha]
          exact hk.symm
        simp [hne]
  announced id event := by
    rw [h.newEvent_iff]
    constructor
    · rintro ⟨ha, -, haggregate⟩
      exact absurd (haggregate.symm.trans (hevent event ha)) hk
    · rintro ⟨hnone, -⟩
      cases hnone

/-- A write announces what it announces of its own job. -/
theorem announced_self (h : JobWrite db current attempt announcement db')
    (hevent : ∀ e, announcement = some e → e.aggregateId = current.jobId) :
    Announced current.jobId db db' announcement := by
  intro id event
  rw [h.newEvent_iff]
  constructor
  · rintro ⟨ha, hid, -⟩
    exact ⟨ha, hid⟩
  · rintro ⟨ha, hid⟩
    exact ⟨ha, hid, hevent event ha⟩

end JobWrite

namespace JobMoveWrite

variable {action : JobAction} {a b : JobRecord}

theorem kept_of_ne (h : JobMoveWrite now action db a b db') (hk : k ≠ a.jobId) :
    JobKept k db db' :=
  h.write.kept_of_ne (fun _ => JobAction.attempt_jobId)
    (fun _ => JobAction.announcement_aggregateId) (h.move.jobId_eq ▸ hk)

theorem moved (h : JobMoveWrite now action db a b db') :
    JobMoved now a.jobId db db' a b action where
  before := h.stored
  after := by rw [h.write.jobs, h.move.jobId_eq, Dict.get?_set_self]
  jobId_eq := h.move.jobId_eq
  move := h.move
  attempts := by
    rw [h.write.attemptsOf_eq]
    cases ha : action.attempt a b now with
    | none => rfl
    | some attempt => simp [JobAction.attempt_jobId ha, h.move.jobId_eq]
  announced :=
    h.move.jobId_eq ▸ h.write.announced_self fun _ => JobAction.announcement_aggregateId

/-- A move of one job is an effect that claims the job when the move does. -/
theorem effect (h : JobMoveWrite now action db a b db') (hmakes : makes action)
    (hclaimed : ∀ k, claimed = some k ↔ action.claims = true ∧ k = a.jobId) :
    JobsEffect makes now claimed db db' where
  each k := by
    by_cases hk : k = a.jobId
    · subst hk
      refine JobChange.moved a b action hmakes h.moved ?_
      rw [hclaimed]
      exact ⟨fun hclaims => ⟨hclaims, rfl⟩, And.left⟩
    · refine JobChange.kept (h.kept_of_ne hk) ?_
      rw [ne_eq, hclaimed]
      exact fun hboth => hk hboth.2
  grows := h.write.grows

/-- A move that begins no attempt claims nothing. -/
theorem effect_none (h : JobMoveWrite now action db a b db') (hmakes : makes action)
    (hclaims : action.claims = false) : JobsEffect makes now none db db' :=
  h.effect hmakes fun k => by simp [hclaims]

end JobMoveWrite

/-! ## The claim loop -/

/-- What selects a job for a claim: it waits and is due, or its lease has expired. -/
def JobRecord.Claimable (job : JobRecord) (now : Instant) : Prop :=
  (job.state.retryable = true ∧ ∃ next ∈ job.nextAttemptAt, next ≤ now) ∨
    (job.state.leased = true ∧ ∃ lease ∈ job.leaseExpiresAt, lease ≤ now)

/-- The moves of the claim loop. -/
def JobAction.InClaimLoop : JobAction → Prop
  | .claimed _ => True
  | .abandoned _ => True
  | _ => False

namespace JobDatabase

variable {repository : JobRepository}

omit [ContentHasher] in
theorem claimable_of_mem {jobTypes : List JobType} {job : JobRecord}
    (h : job ∈ db.claimCandidates repository now jobTypes) :
    job ∈ db.jobs.values ∧ job.Claimable now := by
  have hmem := mem_sortedBy.1 (List.mem_of_mem_take h)
  obtain ⟨hvalue, hselected⟩ := List.mem_filter.1 hmem
  exact ⟨hvalue, (of_decide_eq_true hselected).2⟩

theorem stored_of_mem_jobs (hkeyed : db.Keyed) {job : JobRecord} (h : job ∈ db.jobs.values) :
    db.jobs.get? job.jobId = some job := by
  obtain ⟨k, hk⟩ := Dict.mem_values_iff.1 h
  rw [hkeyed.jobs k job hk]
  exact hk

/-- The candidates are distinct jobs. -/
theorem nodup_claimCandidates (hkeyed : db.Keyed) (jobTypes : List JobType) :
    ((db.claimCandidates repository now jobTypes).map fun job => job.jobId).Nodup := by
  have hvalues : (db.jobs.values.map fun job => job.jobId).Nodup :=
    Dict.nodup_map_values fun k a h => hkeyed.jobs k a h
  have hsorted : ∀ l : List JobRecord, (l.map fun job => job.jobId).Nodup →
      ((sortedBy (claimOrder repository.dialect) l).map fun job => job.jobId).Nodup := by
    intro l hl
    exact ((sortedBy_perm _ l).map _).nodup_iff.2 hl
  exact (hsorted _ (hvalues.sublist (List.filter_sublist.map _))).sublist
    ((List.take_sublist _ _).map _)

/-- The loop moves each candidate at most once and claims at most the last one it moves. -/
theorem claimEach_spec {owner : String} {now : Instant} :
    ∀ {candidates : List JobRecord} {db db' : JobDatabase} {claimed : Option JobRecord},
      (candidates.map fun job => job.jobId).Nodup →
      (∀ job ∈ candidates, db.jobs.get? job.jobId = some job) →
      (∀ job ∈ candidates, job.Claimable now) →
      claimEach repository owner now candidates db = .ok (claimed, db') →
      JobsEffect JobAction.InClaimLoop now (claimed.map fun job => job.jobId) db db' ∧
        ∀ k, k ∉ candidates.map (fun job => job.jobId) →
          JobKept k db db' ∧ claimed.map (fun job => job.jobId) ≠ some k := by
  intro candidates
  induction candidates with
  | nil =>
      intro db db' claimed _ _ _ h
      cases h
      exact ⟨JobsEffect.refl _ now db, fun k _ => ⟨JobKept.refl k db, nofun⟩⟩
  | cons candidate rest ih =>
      intro db db' claimed hnodup hstored hclaimable h
      simp only [List.map_cons, List.nodup_cons] at hnodup
      have hcandidate := hstored candidate List.mem_cons_self
      have hrestClaimable : ∀ job ∈ rest, job.Claimable now :=
        fun job hjob => hclaimable job (List.mem_cons_of_mem _ hjob)
      -- What remains of the loop once the candidate has been recovered.
      have hcontinue : ∀ {next : Option Instant} {recovered : JobRecord} {db₁ : JobDatabase},
          JobMoveWrite now (.abandoned next) db candidate recovered db₁ →
          claimEach repository owner now rest db₁ = .ok (claimed, db') →
          JobsEffect JobAction.InClaimLoop now (claimed.map fun job => job.jobId) db db' ∧
            ∀ k, k ∉ (candidate :: rest).map (fun job => job.jobId) →
              JobKept k db db' ∧ claimed.map (fun job => job.jobId) ≠ some k := by
        intro next recovered db₁ hwrite hrest
        have hrestStored : ∀ job ∈ rest, db₁.jobs.get? job.jobId = some job := by
          intro job hjob
          have hne : job.jobId ≠ candidate.jobId := fun he =>
            hnodup.1 (he ▸ List.mem_map_of_mem hjob)
          rw [(hwrite.kept_of_ne hne).row]
          exact hstored job (List.mem_cons_of_mem _ hjob)
        obtain ⟨heffect, hkeep⟩ := ih hnodup.2 hrestStored hrestClaimable hrest
        refine ⟨(hwrite.effect_none trivial rfl).trans heffect fun k => ?_, fun k hk => ?_⟩
        · by_cases hk : k = candidate.jobId
          · subst hk
            exact Or.inr (hkeep _ hnodup.1)
          · exact Or.inl (hwrite.kept_of_ne hk)
        · simp only [List.map_cons, List.mem_cons, not_or] at hk
          obtain ⟨hkept, hclaimed⟩ := hkeep k hk.2
          exact ⟨(hwrite.kept_of_ne hk.1).trans heffect.grows hkept, hclaimed⟩
      unfold claimEach at h
      split at h
      · next hleased =>
          have hexpired : ∃ lease ∈ candidate.leaseExpiresAt, lease ≤ now := by
            rcases hclaimable candidate List.mem_cons_self with ⟨hretryable, -⟩ | ⟨-, hexpired⟩
            · cases hstate : candidate.state <;>
                simp [hstate, JobState.leased, JobState.retryable] at hleased hretryable
            · exact hexpired
          simp only [bind_eq_ok] at h
          obtain ⟨⟨recovered, db₁⟩, hrecover, h⟩ := h
          obtain ⟨next, hwrite⟩ := recoverExpired_write hcandidate hleased hexpired hrecover
          split at h
          · exact hcontinue hwrite h
          split at h
          · next hdue => exact absurd hdue (not_due_of_recoverExpired hrecover)
          · exact hcontinue hwrite h
      · next hfree =>
          have hretryable : candidate.state.retryable = true ∧
              ∃ next ∈ candidate.nextAttemptAt, next ≤ now := by
            rcases hclaimable candidate List.mem_cons_self with hwaiting | ⟨hleased, -⟩
            · exact hwaiting
            · exact absurd hleased hfree
          rw [if_pos hretryable.2] at h
          simp only [bind_eq_ok, pure_eq_ok] at h
          obtain ⟨⟨current, db₁⟩, hclaim, heq⟩ := h
          cases heq
          have hwrite := claimDue_write hcandidate hretryable.1 hretryable.2 hclaim
          have hid : current.jobId = candidate.jobId := hwrite.move.jobId_eq
          refine ⟨hwrite.effect trivial fun k => ?_, fun k hk => ?_⟩
          · simp [JobAction.claims, hid, eq_comm]
          · simp only [List.map_cons, List.mem_cons, not_or] at hk
            refine ⟨hwrite.kept_of_ne hk.1, ?_⟩
            simpa [hid] using fun he => hk.1 he.symm

theorem claimNext_effect (hkeyed : db.Keyed) {owner : String} {jobTypes : List JobType}
    {current : Option JobRecord}
    (h : claimNext repository owner jobTypes now db = .ok (current, db')) :
    JobsEffect JobAction.InClaimLoop now (current.map fun job => job.jobId) db db' := by
  simp only [claimNext, unit_bind_eq_ok, sqlGuarded_eq_ok] at h
  refine (claimEach_spec (nodup_claimCandidates hkeyed jobTypes) (fun job hjob => ?_)
    (fun job hjob => (claimable_of_mem hjob).2) h.2.2).1
  exact stored_of_mem_jobs hkeyed (claimable_of_mem hjob).1

/-- A creation keeps the database or creates one job. -/
theorem create_effect {request : JobCreateRequest} {current : JobRecord}
    (h : create repository request db = .ok (current, db')) :
    JobsEffect makes now none db db' := by
  rcases create_write h with rfl | ⟨habsent, hnew, hwrite⟩
  · exact JobsEffect.refl makes now db'
  · have hevent : ∀ e, some (outboxEventOf current "job.created" none) = some e →
        e.aggregateId = current.jobId := by
      rintro e ⟨⟩
      rfl
    refine ⟨fun k => ?_, hwrite.grows⟩
    by_cases hk : k = current.jobId
    · subst hk
      refine JobChange.created current ⟨habsent, ?_, rfl, ⟨request, hnew⟩, ?_,
        hwrite.announced_self hevent⟩ nofun
      · rw [hwrite.jobs, Dict.get?_set_self]
      · rw [hwrite.attemptsOf_eq]
        exact List.append_nil _
    · exact JobChange.kept (hwrite.kept_of_ne (fun _ => nofun) hevent hk) nofun

end JobDatabase

end Changes

end AdaptiveTrader
