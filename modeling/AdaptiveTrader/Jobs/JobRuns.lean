import AdaptiveTrader.Foundation.Exec
import AdaptiveTrader.Foundation.Transition
import AdaptiveTrader.Jobs.JobEffects
import AdaptiveTrader.Jobs.OutboxMoves

/-!
# Runs of the job repository

A run is any sequence of calls of any workers and publishers, each through a repository of its own on
the common database and at any instant; a call is one serialized transaction, and one that raises
changes nothing. `JobCallEffect` states what a successful call does to the jobs and to the outbox.
-/

set_option autoImplicit false

namespace AdaptiveTrader

open Foundation

/-- The calls of the job repository. -/
inductive JobCall
  | create (request : JobCreateRequest)
  | claimNext (owner : String) (jobTypes : List JobType) (now : Instant)
  | markRunning (jobId owner : String) (attemptNumber : Int) (now : Instant)
  | heartbeat (jobId owner : String) (attemptNumber : Int) (now : Instant)
  | succeed (jobId owner : String) (attemptNumber : Int) (now : Instant)
      (resultArtifactId : Option String)
  | fail (jobId owner : String) (attemptNumber : Int) (now : Instant) (error : SafeJobError)
  | cancel (jobId : String) (now : Instant)
  | claimOutbox (owner : String) (now : Instant)
  | heartbeatOutbox (eventId owner : String) (attemptNumber : Int) (now : Instant)
  | publishOutbox (eventId owner : String) (attemptNumber : Int) (now : Instant)
  | failOutbox (eventId owner : String) (attemptNumber : Int) (now : Instant)
      (error : SafeJobError)

namespace JobCall

/-- The instant a call is made at. -/
def now : JobCall → Instant
  | create request => request.requestedAt
  | claimNext _ _ now | markRunning _ _ _ now | heartbeat _ _ _ now | succeed _ _ _ now _
  | fail _ _ _ now _ | cancel _ now | claimOutbox _ now | heartbeatOutbox _ _ _ now
  | publishOutbox _ _ _ now | failOutbox _ _ _ now _ => now

/-- The job, worker, attempt and state of a worker's call on its attempt. -/
def heldJob : JobCall → Option (String × String × Int × JobState)
  | markRunning jobId owner attemptNumber _ => some (jobId, owner, attemptNumber, .claimed)
  | heartbeat jobId owner attemptNumber _ | succeed jobId owner attemptNumber _ _
  | fail jobId owner attemptNumber _ _ => some (jobId, owner, attemptNumber, .running)
  | _ => none

/-- The event, publisher and attempt of a publisher's call on its delivery. -/
def heldEvent : JobCall → Option (String × String × Int)
  | heartbeatOutbox eventId owner attemptNumber _ | publishOutbox eventId owner attemptNumber _
  | failOutbox eventId owner attemptNumber _ _ => some (eventId, owner, attemptNumber)
  | _ => none

/-- The call extends the lease of a running job. -/
def isHeartbeat : JobCall → Bool
  | heartbeat _ _ _ _ => true
  | _ => false

/-- The moves a call makes. -/
def Makes : JobCall → JobAction → Prop
  | claimNext _ _ _, action => action.InClaimLoop
  | markRunning _ owner _ _, action => action = .started owner
  | heartbeat _ owner _ _, action => action = .extended owner
  | succeed _ owner _ _ resultArtifactId, action => action = .succeeded owner resultArtifactId
  | fail _ owner _ _ error, action => ∃ next, action = .failed owner error next
  | cancel _ _, action => action = .canceled
  | _, _ => False

end JobCall

/-- What a successful call returns. -/
inductive JobReply
  | job (job : JobRecord)
  | claim (job : Option JobRecord)
  | delivery (event : Option ClaimedOutboxEvent)
  | extended (event : ClaimedOutboxEvent)
  | done

namespace JobReply

/-- The job a claim handed out. -/
def claimedJob : JobReply → Option String
  | claim claimed => claimed.map fun job => job.jobId
  | _ => none

/-- The event a claim handed out. -/
def claimedEvent : JobReply → Option String
  | delivery event => event.map fun e => e.outboxEventId
  | _ => none

end JobReply

/-- One call through a repository, with its reply. -/
structure JobEvent where
  repository : JobRepository
  call : JobCall
  reply : Except PlatformError JobReply

section Runs

variable [ContentHasher]

/-- Make one call. -/
def JobDatabase.perform (repository : JobRepository) (call : JobCall) (db : JobDatabase) :
    Except PlatformError (JobReply × JobDatabase) :=
  match call with
  | .create request => (create repository request db).map fun r => (.job r.1, r.2)
  | .claimNext owner jobTypes now =>
      (claimNext repository owner jobTypes now db).map fun r => (.claim r.1, r.2)
  | .markRunning jobId owner attemptNumber now =>
      (markRunning repository jobId owner attemptNumber now db).map fun r => (.job r.1, r.2)
  | .heartbeat jobId owner attemptNumber now =>
      (heartbeat jobId owner attemptNumber now db).map fun r => (.job r.1, r.2)
  | .succeed jobId owner attemptNumber now resultArtifactId =>
      (succeed repository jobId owner attemptNumber now resultArtifactId db).map
        fun r => (.job r.1, r.2)
  | .fail jobId owner attemptNumber now error =>
      (fail repository jobId owner attemptNumber now error db).map fun r => (.job r.1, r.2)
  | .cancel jobId now => (cancel repository jobId now db).map fun r => (.job r.1, r.2)
  | .claimOutbox owner now => (claimOutbox owner now db).map fun r => (.delivery r.1, r.2)
  | .heartbeatOutbox eventId owner attemptNumber now =>
      (heartbeatOutbox eventId owner attemptNumber now db).map fun r => (.extended r.1, r.2)
  | .publishOutbox eventId owner attemptNumber now =>
      (publishOutbox eventId owner attemptNumber now db).map fun r => (.done, r.2)
  | .failOutbox eventId owner attemptNumber now error =>
      (failOutbox eventId owner attemptNumber now error db).map fun r => (.done, r.2)

/-- Runs that start without jobs and events. -/
def jobRuns : Transition JobDatabase JobEvent where
  init db := db.jobs = Dict.empty ∧ db.attempts = [] ∧ db.outbox = Dict.empty
  step db event db' :=
    Exec.transaction (JobDatabase.perform event.repository event.call) db = (event.reply, db')

/-- How a call changes the rows of the outbox, when it claims the event `claimed`. -/
def OutboxChanges (now : Instant) (claimed : Option String) (db db' : JobDatabase) : Prop :=
  Dict.RowChanges (fun id b => ∃ job eventType reasonCode,
      b = outboxEventOf job eventType reasonCode ∧ id = b.outboxEventId)
    (fun id a b => ∃ action, OutboxMove now action a b ∧
      (action.claims = true ↔ claimed = some id)) db.outbox db'.outbox

/-- What a successful call does. -/
structure JobCallEffect (call : JobCall) (reply : JobReply) (db db' : JobDatabase) : Prop where
  jobs : ∀ k, JobChange call.Makes call.now reply.claimedJob k db db'
  outbox : OutboxChanges call.now reply.claimedEvent db db'
  unclaimed : ∀ id, db'.outbox.get? id = db.outbox.get? id → reply.claimedEvent ≠ some id
  claimed_stored : ∀ {id}, reply.claimedEvent = some id → db.outbox.get? id ≠ none

variable {makes : JobAction → Prop} {db db' : JobDatabase} {now : Instant}
  {claimed : Option String}

omit [ContentHasher] in
/-- Every announcement is the initial row of an event about the job. -/
theorem JobAction.announcement_eq {current : JobRecord} {action : JobAction} {event : OutboxEvent}
    (h : action.announcement current = some event) :
    ∃ eventType reasonCode, event = outboxEventOf current eventType reasonCode := by
  cases action <;> cases h <;> exact ⟨_, _, rfl⟩

theorem JobChange.announced {k : String} (h : JobChange makes now claimed k db db') :
    ∃ announcement, Announced k db db' announcement ∧
      ∀ event, announcement = some event →
        ∃ job eventType reasonCode, event = outboxEventOf job eventType reasonCode := by
  cases h with
  | kept h _ => exact ⟨none, h.announced, fun _ hnone => by cases hnone⟩
  | created b h _ =>
      refine ⟨_, h.announced, ?_⟩
      rintro event ⟨⟩
      exact ⟨b, _, _, rfl⟩
  | moved a b action _ h _ =>
      refine ⟨_, h.announced, fun event hevent => ?_⟩
      obtain ⟨eventType, reasonCode, heq⟩ := JobAction.announcement_eq hevent
      exact ⟨b, eventType, reasonCode, heq⟩

/-- A job operation adds announcements to the outbox and leaves its rows alone. -/
theorem JobsEffect.outboxChanges (h : JobsEffect makes now claimed db db') :
    OutboxChanges now none db db' where
  kept id a ha := ⟨a, h.grows id a ha, Or.inl rfl⟩
  added id b hnone hsome := by
    obtain ⟨announcement, hannounced, hevents⟩ := (h.each b.aggregateId).announced
    obtain ⟨heq, hid⟩ := (hannounced id b).1 ⟨hnone, hsome, rfl⟩
    obtain ⟨job, eventType, reasonCode, hb⟩ := hevents b heq
    exact ⟨job, eventType, reasonCode, hb, hid⟩

/-- A job operation as a call. -/
theorem JobCallEffect.of_jobs {call : JobCall} {reply : JobReply}
    (h : JobsEffect call.Makes call.now reply.claimedJob db db') (hevent : reply.claimedEvent = none) :
    JobCallEffect call reply db db' where
  jobs := h.each
  outbox := hevent.symm ▸ h.outboxChanges
  unclaimed id _ := by
    rw [hevent]
    exact nofun
  claimed_stored hclaimed := by
    rw [hevent] at hclaimed
    cases hclaimed

theorem jobKept_of_outboxWrite {action : OutboxAction} {eventId : String} {a b : OutboxEvent}
    (h : OutboxWrite now action eventId db a b db') (k : String) : JobKept k db db' where
  row := by rw [h.jobs]
  attempts := by rw [JobDatabase.attemptsOf, h.attempts, JobDatabase.attemptsOf]
  announced id event := by
    constructor
    · intro hnew
      have hne : id ≠ eventId := by
        rintro rfl
        have habsent := hnew.absent
        rw [h.stored] at habsent
        cases habsent
      have hpresent := hnew.present
      rw [h.outbox, Dict.get?_set_of_ne _ _ hne, hnew.absent] at hpresent
      cases hpresent
    · rintro ⟨hnone, -⟩
      cases hnone

/-- A delivery operation as a call. -/
theorem JobCallEffect.of_outbox {call : JobCall} {reply : JobReply} {action : OutboxAction}
    {eventId : String} {a b : OutboxEvent} (h : OutboxWrite call.now action eventId db a b db')
    (hjob : reply.claimedJob = none)
    (hevent : ∀ id, reply.claimedEvent = some id ↔ action.claims = true ∧ id = eventId) :
    JobCallEffect call reply db db' where
  jobs k := by
    rw [hjob]
    exact JobChange.kept (jobKept_of_outboxWrite h k) nofun
  outbox := by
    rw [OutboxChanges, h.outbox]
    refine Dict.RowChanges.write h.stored ⟨action, h.move, ?_⟩
    rw [hevent]
    exact ⟨fun hclaims => ⟨hclaims, rfl⟩, And.left⟩
  unclaimed id hsame hclaimed := by
    obtain ⟨-, rfl⟩ := (hevent id).1 hclaimed
    -- A written row has a new version, so it is not the old one.
    rw [h.outbox, Dict.get?_set_self, h.stored, Option.some.injEq] at hsame
    have hversion := h.move.version_eq
    rw [hsame] at hversion
    omega
  claimed_stored hclaimed := by
    obtain ⟨-, rfl⟩ := (hevent _).1 hclaimed
    rw [h.stored]
    exact nofun

namespace JobDatabase

variable {repository : JobRepository} {call : JobCall} {reply : JobReply}

/-- The effect of a successful call. -/
theorem perform_effect (hkeyed : db.Keyed)
    (h : JobDatabase.perform repository call db = .ok (reply, db')) :
    JobCallEffect call reply db db' := by
  cases call with
  | create request =>
      obtain ⟨⟨current, db₁⟩, hcreate, heq⟩ := map_eq_ok.1 h
      cases heq
      exact JobCallEffect.of_jobs (create_effect hcreate) rfl
  | claimNext owner jobTypes now =>
      obtain ⟨⟨current, db₁⟩, hclaim, heq⟩ := map_eq_ok.1 h
      cases heq
      exact JobCallEffect.of_jobs (claimNext_effect hkeyed hclaim) rfl
  | markRunning jobId owner attemptNumber now =>
      obtain ⟨⟨current, db₁⟩, hmark, heq⟩ := map_eq_ok.1 h
      cases heq
      obtain ⟨prior, -, hwrite⟩ := markRunning_write hkeyed hmark
      exact JobCallEffect.of_jobs (hwrite.effect_none rfl rfl) rfl
  | heartbeat jobId owner attemptNumber now =>
      obtain ⟨⟨current, db₁⟩, hbeat, heq⟩ := map_eq_ok.1 h
      cases heq
      obtain ⟨prior, -, hwrite⟩ := heartbeat_write hkeyed hbeat
      exact JobCallEffect.of_jobs (hwrite.effect_none rfl rfl) rfl
  | succeed jobId owner attemptNumber now resultArtifactId =>
      obtain ⟨⟨current, db₁⟩, hsucceed, heq⟩ := map_eq_ok.1 h
      cases heq
      obtain ⟨prior, -, hwrite⟩ := succeed_write hkeyed hsucceed
      exact JobCallEffect.of_jobs (hwrite.effect_none rfl rfl) rfl
  | fail jobId owner attemptNumber now error =>
      obtain ⟨⟨current, db₁⟩, hfail, heq⟩ := map_eq_ok.1 h
      cases heq
      obtain ⟨prior, next, -, hwrite⟩ := fail_write hkeyed hfail
      exact JobCallEffect.of_jobs (hwrite.effect_none ⟨next, rfl⟩ rfl) rfl
  | cancel jobId now =>
      obtain ⟨⟨current, db₁⟩, hcancel, heq⟩ := map_eq_ok.1 h
      cases heq
      obtain ⟨prior, hwrite⟩ := cancel_write hkeyed hcancel
      exact JobCallEffect.of_jobs (hwrite.effect_none rfl rfl) rfl
  | claimOutbox owner now =>
      obtain ⟨⟨event, db₁⟩, hclaim, heq⟩ := map_eq_ok.1 h
      cases heq
      rcases claimOutbox_write hkeyed hclaim with ⟨rfl, rfl⟩ | ⟨rfl, eventId, a, b, hwrite⟩ |
        ⟨claim, a, b, rfl, hwrite⟩
      · exact JobCallEffect.of_jobs (JobsEffect.refl _ _ _) rfl
      · exact JobCallEffect.of_outbox hwrite rfl fun id => by
          simp [JobReply.claimedEvent, OutboxAction.claims]
      · exact JobCallEffect.of_outbox hwrite rfl fun id => by
          simp [JobReply.claimedEvent, OutboxAction.claims, eq_comm]
  | heartbeatOutbox eventId owner attemptNumber now =>
      obtain ⟨⟨event, db₁⟩, hbeat, heq⟩ := map_eq_ok.1 h
      cases heq
      obtain ⟨a, b, -, hwrite⟩ := heartbeatOutbox_write hkeyed hbeat
      exact JobCallEffect.of_outbox hwrite rfl fun id => by
        simp [JobReply.claimedEvent, OutboxAction.claims]
  | publishOutbox eventId owner attemptNumber now =>
      obtain ⟨⟨done, db₁⟩, hpublish, heq⟩ := map_eq_ok.1 h
      cases heq
      obtain ⟨a, b, -, hwrite⟩ := publishOutbox_write hkeyed hpublish
      exact JobCallEffect.of_outbox hwrite rfl fun id => by
        simp [JobReply.claimedEvent, OutboxAction.claims]
  | failOutbox eventId owner attemptNumber now error =>
      obtain ⟨⟨done, db₁⟩, hfail, heq⟩ := map_eq_ok.1 h
      cases heq
      obtain ⟨next, a, b, -, hwrite⟩ := failOutbox_write hkeyed hfail
      exact JobCallEffect.of_outbox hwrite rfl fun id => by
        simp [JobReply.claimedEvent, OutboxAction.claims]

/-- A worker's call succeeds for the attempt, worker and state it names, under a live lease. -/
theorem perform_heldJob (hkeyed : db.Keyed)
    (h : JobDatabase.perform repository call db = .ok (reply, db')) {jobId owner : String}
    {attemptNumber : Int} {state : JobState}
    (hcall : call.heldJob = some (jobId, owner, attemptNumber, state)) :
    ∃ prior, WorkerCallHeld db jobId owner attemptNumber call.now state prior := by
  cases call with
  | markRunning jobId owner attemptNumber now =>
      cases hcall
      obtain ⟨⟨current, db₁⟩, hmark, -⟩ := map_eq_ok.1 h
      obtain ⟨prior, hheld, -⟩ := markRunning_write hkeyed hmark
      exact ⟨prior, hheld⟩
  | heartbeat jobId owner attemptNumber now =>
      cases hcall
      obtain ⟨⟨current, db₁⟩, hbeat, -⟩ := map_eq_ok.1 h
      obtain ⟨prior, hheld, -⟩ := heartbeat_write hkeyed hbeat
      exact ⟨prior, hheld⟩
  | succeed jobId owner attemptNumber now resultArtifactId =>
      cases hcall
      obtain ⟨⟨current, db₁⟩, hsucceed, -⟩ := map_eq_ok.1 h
      obtain ⟨prior, hheld, -⟩ := succeed_write hkeyed hsucceed
      exact ⟨prior, hheld⟩
  | fail jobId owner attemptNumber now error =>
      cases hcall
      obtain ⟨⟨current, db₁⟩, hfail, -⟩ := map_eq_ok.1 h
      obtain ⟨prior, next, hheld, -⟩ := fail_write hkeyed hfail
      exact ⟨prior, hheld⟩
  | _ => cases hcall

/-- A publisher's call succeeds for the attempt and publisher it names, under a live lease. -/
theorem perform_heldEvent (hkeyed : db.Keyed)
    (h : JobDatabase.perform repository call db = .ok (reply, db')) {eventId owner : String}
    {attemptNumber : Int} (hcall : call.heldEvent = some (eventId, owner, attemptNumber)) :
    ∃ prior, DeliveryHeld db eventId owner attemptNumber call.now prior := by
  cases call with
  | heartbeatOutbox eventId owner attemptNumber now =>
      cases hcall
      obtain ⟨⟨event, db₁⟩, hbeat, -⟩ := map_eq_ok.1 h
      obtain ⟨prior, b, hheld, -⟩ := heartbeatOutbox_write hkeyed hbeat
      exact ⟨prior, hheld⟩
  | publishOutbox eventId owner attemptNumber now =>
      cases hcall
      obtain ⟨⟨done, db₁⟩, hpublish, -⟩ := map_eq_ok.1 h
      obtain ⟨prior, b, hheld, -⟩ := publishOutbox_write hkeyed hpublish
      exact ⟨prior, hheld⟩
  | failOutbox eventId owner attemptNumber now error =>
      cases hcall
      obtain ⟨⟨done, db₁⟩, hfail, -⟩ := map_eq_ok.1 h
      obtain ⟨next, prior, b, hheld, -⟩ := failOutbox_write hkeyed hfail
      exact ⟨prior, hheld⟩
  | _ => cases hcall

end JobDatabase

/-! ## Keys -/

/-- Calls keep every row under its ID. -/
theorem JobDatabase.Keyed.of_effect {call : JobCall} {reply : JobReply} (hkeyed : db.Keyed)
    (h : JobCallEffect call reply db db') : db'.Keyed where
  jobs k b hb := by
    cases h.jobs k with
    | kept hkept _ => exact hkeyed.jobs k b (hkept.row.symm.trans hb)
    | created b' hcreated _ =>
        cases hb.symm.trans hcreated.row
        exact hcreated.jobId_eq
    | moved a b' action _ hmoved _ =>
        cases hb.symm.trans hmoved.after
        exact hmoved.jobId_eq
  outbox := by
    refine h.outbox.allRows ?_ ?_ hkeyed.outbox
    · rintro id b ⟨job, eventType, reasonCode, -, rfl⟩
      rfl
    · rintro id a b ha ⟨action, hmove, -⟩
      rw [← ha]
      exact congrArg OutboxMessage.outboxEventId hmove.message_eq

theorem keyed_of_jobInit (h : jobRuns.init db) : db.Keyed where
  jobs := by
    rw [h.1]
    exact Dict.allRows_empty _
  outbox := by
    rw [h.2.2]
    exact Dict.allRows_empty _

/-- A step is a successful call with its effect, or leaves the database alone. -/
theorem jobStep_cases {event : JobEvent} (hkeyed : db.Keyed) (h : jobRuns.step db event db') :
    (∃ reply, event.reply = .ok reply ∧
      JobDatabase.perform event.repository event.call db = .ok (reply, db') ∧
      JobCallEffect event.call reply db db') ∨
    ((∃ e, event.reply = .error e) ∧ db' = db) := by
  have hcall : Exec.transaction (JobDatabase.perform event.repository event.call) db =
    (event.reply, db') := h
  cases hreply : event.reply with
  | ok reply =>
      rw [hreply] at hcall
      have hperform := Exec.transaction_eq_ok_iff.1 hcall
      exact Or.inl ⟨reply, rfl, hperform, JobDatabase.perform_effect hkeyed hperform⟩
  | error e =>
      rw [hreply] at hcall
      exact Or.inr ⟨⟨e, rfl⟩, Exec.transaction_error hcall⟩

theorem keyed_of_jobStep {event : JobEvent} (hkeyed : db.Keyed)
    (h : jobRuns.step db event db') : db'.Keyed := by
  rcases jobStep_cases hkeyed h with ⟨reply, -, -, heffect⟩ | ⟨-, rfl⟩
  · exact hkeyed.of_effect heffect
  · exact hkeyed

end Runs

/-! ## A sample run -/

section Sample

local instance jobHasher : ContentHasher := polynomialHasher

def sampleJobRequest : JobCreateRequest where
  payload := ⟨⟨.offlineDemo, "default"⟩, by decide +kernel⟩
  idempotencyKey := "demo-1"
  correlationId := "00000000-0000-0000-0000-000000000001"
  requestedAt := 0
  checked := by decide +kernel

def sampleJobRepository : JobRepository := ⟨.sqlite, some .control, .control⟩

def emptyJobDatabase : JobDatabase := ⟨Dict.empty, [], Dict.empty, []⟩

theorem emptyJobDatabase_init : jobRuns.init emptyJobDatabase := ⟨rfl, rfl, rfl⟩

def sampleJobId : String := jobIdOf sampleJobRequest

/-- The calls in order, with their replies. -/
def performJobCalls : List JobCall → JobDatabase → List JobEvent × JobDatabase
  | [], db => ([], db)
  | call :: rest, db =>
      let called := Exec.transaction (JobDatabase.perform sampleJobRepository call) db
      let later := performJobCalls rest called.2
      (⟨sampleJobRepository, call, called.1⟩ :: later.1, later.2)

theorem run_performJobCalls {calls : List JobCall} {db : JobDatabase}
    {outcome : List JobEvent × JobDatabase} (h : performJobCalls calls db = outcome) :
    jobRuns.Run db outcome.1 outcome.2 := by
  subst h
  induction calls generalizing db with
  | nil => exact Transition.Run.refl
  | cons call rest ih =>
      have hcalled : jobRuns.step db
          ⟨sampleJobRepository, call,
            (Exec.transaction (JobDatabase.perform sampleJobRepository call) db).1⟩
          (Exec.transaction (JobDatabase.perform sampleJobRepository call) db).2 := rfl
      exact (Transition.Run.single hcalled).trans ih

/-- A job is created, and the announcement of its creation is claimed. -/
def sampleJobCalls : List JobCall :=
  [.create sampleJobRequest, .claimOutbox "publisher-1" (seconds 3)]

/-- The events of the calls and the database they lead to. -/
def sampleJobOutcome : List JobEvent × JobDatabase :=
  performJobCalls sampleJobCalls emptyJobDatabase

theorem sample_jobRun :
    jobRuns.Run emptyJobDatabase sampleJobOutcome.1 sampleJobOutcome.2 :=
  run_performJobCalls rfl

/-- The job waits for its first attempt, the event is in its first delivery. -/
theorem sampleJobOutcome_rows :
    (∃ job, sampleJobOutcome.2.jobs.get? sampleJobId = some job ∧ job.state = .pending) ∧
      ∃ e ∈ sampleJobOutcome.2.outbox.values, e.state = .claimed ∧ e.attemptCount = 1 := by
  have hjob : ∃ job ∈ sampleJobOutcome.2.jobs.get? sampleJobId, job.state = .pending ∧
      ∃ e ∈ sampleJobOutcome.2.outbox.values, e.state = .claimed ∧ e.attemptCount = 1 := by
    decide +kernel
  obtain ⟨job, hjob, hpending, hevent⟩ := hjob
  exact ⟨⟨job, hjob, hpending⟩, hevent⟩

end Sample

end AdaptiveTrader
