import AdaptiveTrader.Jobs.JobRuns

/-!
# Job lease fencing and lifecycle

The safety of one call (`JobCallSafe`), the attempt evidence of every job (`AttemptsRecorded`) and,
by induction on the run, what the whole run keeps: a terminal job stays, the attempts count the
claims, and a call for a superseded attempt raises (`job_lease_fencing`).

The evidence of an attempt is a word over sequence numbers and transitions; `AttemptPhase` is the
automaton that accepts it, and the phase of each attempt is a function of the job row.
-/

set_option autoImplicit false

namespace AdaptiveTrader

open Foundation

/-! ## Attempt evidence -/

/-- The evidence of one attempt, in the order in which it was appended. -/
def traceOf (attempts : List JobAttempt) (n : Nat) : List (Nat × JobAttemptTransition) :=
  (attempts.filter fun a => a.attemptNumber = n).map fun a => (a.sequence, a.transition)

/-- How far an attempt is. -/
inductive AttemptPhase
  | unstarted
  | claimed
  | running
  | closed
  deriving DecidableEq

/-- The evidence an attempt has in each phase. -/
def AttemptPhase.Recorded : AttemptPhase → List (Nat × JobAttemptTransition) → Prop
  | unstarted, trace => trace = []
  | claimed, trace => trace = [(1, .claimed)]
  | running, trace => trace = [(1, .claimed), (2, .running)]
  | closed, trace =>
      trace = [(1, .claimed), (2, .abandoned)] ∨
        trace = [(1, .claimed), (2, .running), (3, .abandoned)] ∨
        trace = [(1, .claimed), (2, .running), (3, .succeeded)] ∨
        trace = [(1, .claimed), (2, .running), (3, .failed)]

/-- The phase of the attempt `n`: attempts before the current one are closed, and the current one
is open as long as the job is leased. -/
def JobRecord.phase (job : JobRecord) (n : Nat) : AttemptPhase :=
  if n = 0 ∨ job.attemptCount < n then .unstarted
  else if n < job.attemptCount then .closed
  else
    match job.state with
    | .claimed => .claimed
    | .running => .running
    | _ => .closed

/-- The evidence of every attempt is that of its phase; a job that does not exist has none. -/
def AttemptsRecorded (db : JobDatabase) : Prop :=
  ∀ k, (db.jobs.get? k = none → db.attemptsOf k = []) ∧
    ∀ a, db.jobs.get? k = some a → ∀ n, (a.phase n).Recorded (traceOf (db.attemptsOf k) n)

theorem traceOf_append (attempts : List JobAttempt) (attempt : JobAttempt) (n : Nat) :
    traceOf (attempts ++ [attempt]) n =
      traceOf attempts n ++
        if attempt.attemptNumber = n then [(attempt.sequence, attempt.transition)] else [] := by
  unfold traceOf
  by_cases hn : attempt.attemptNumber = n
  · simp [hn]
  · simp [hn]

/-- Evidence of another attempt. -/
theorem traceOf_append_of_ne (attempts : List JobAttempt) {attempt : JobAttempt} {n : Nat}
    (h : attempt.attemptNumber ≠ n) : traceOf (attempts ++ [attempt]) n = traceOf attempts n := by
  rw [traceOf_append, if_neg h, List.append_nil]

/-- Evidence of the attempt itself. -/
theorem traceOf_append_self (attempts : List JobAttempt) (attempt : JobAttempt) :
    traceOf (attempts ++ [attempt]) attempt.attemptNumber =
      traceOf attempts attempt.attemptNumber ++ [(attempt.sequence, attempt.transition)] := by
  rw [traceOf_append, if_pos rfl]

namespace JobRecord

theorem phase_current {job : JobRecord} (h : 1 ≤ job.attemptCount) :
    job.phase job.attemptCount =
      match job.state with
      | .claimed => .claimed
      | .running => .running
      | _ => .closed := by
  have hne : ¬ (job.attemptCount = 0 ∨ job.attemptCount < job.attemptCount) := by omega
  rw [phase, if_neg hne, if_neg (lt_irrefl _)]

theorem phase_zero (job : JobRecord) : job.phase 0 = .unstarted := by
  simp [phase]

theorem phase_of_lt {job : JobRecord} {n : Nat} (h : job.attemptCount < n) :
    job.phase n = .unstarted := by
  simp [phase, h]

theorem phase_of_superseded {job : JobRecord} {n : Nat} (hpos : 1 ≤ n)
    (h : n < job.attemptCount) : job.phase n = .closed := by
  have hne : ¬ (n = 0 ∨ job.attemptCount < n) := by omega
  rw [phase, if_neg hne, if_pos h]

/-- The phases of the other attempts depend on the attempt count alone. -/
theorem phase_congr {a b : JobRecord} (hcount : b.attemptCount = a.attemptCount) {n : Nat}
    (hn : n ≠ a.attemptCount) : b.phase n = a.phase n := by
  unfold phase
  rw [hcount]
  by_cases hunstarted : n = 0 ∨ a.attemptCount < n
  · rw [if_pos hunstarted, if_pos hunstarted]
  · have hlt : n < a.attemptCount := by omega
    rw [if_neg hunstarted, if_neg hunstarted, if_pos hlt, if_pos hlt]

/-- The current attempt of a job nobody holds is closed. -/
theorem phase_current_of_unleased {job : JobRecord} (h : 1 ≤ job.attemptCount)
    (hfree : job.state.leased = false) : job.phase job.attemptCount = .closed := by
  rw [phase_current h]
  cases hs : job.state <;> simp [hs, JobState.leased] at hfree ⊢

end JobRecord

/-! ## Evidence of one move -/

namespace JobMove

variable {now : Instant} {action : JobAction} {a b : JobRecord} {attempts : List JobAttempt}

/-- A move of the current attempt appends the event that leads from its old phase to its new one. -/
theorem recorded_of_current {attempt : JobAttempt} {start goal : AttemptPhase}
    (hcount : b.attemptCount = a.attemptCount) (hnumber : attempt.attemptNumber = b.attemptCount)
    (hstart : a.phase a.attemptCount = start) (hgoal : b.phase b.attemptCount = goal)
    (hextend : ∀ trace, start.Recorded trace →
      goal.Recorded (trace ++ [(attempt.sequence, attempt.transition)]))
    (ha : ∀ n, (a.phase n).Recorded (traceOf attempts n)) (n : Nat) :
    (b.phase n).Recorded (traceOf (attempts ++ [attempt]) n) := by
  by_cases hn : n = b.attemptCount
  · have hself : n = attempt.attemptNumber := hn.trans hnumber.symm
    have htrace := ha a.attemptCount
    rw [hstart, ← hcount, ← hn] at htrace
    rw [hn, hgoal, ← hn, hself, traceOf_append_self, ← hself]
    exact hextend _ htrace
  · have hne : attempt.attemptNumber ≠ n := by
      rw [hnumber]
      exact Ne.symm hn
    rw [JobRecord.phase_congr hcount (hcount ▸ hn), traceOf_append_of_ne attempts hne]
    exact ha n

/-- A move without evidence that keeps the phase of the current attempt. -/
theorem recorded_of_silent (hcount : b.attemptCount = a.attemptCount)
    (hcurrent : b.phase b.attemptCount = a.phase a.attemptCount)
    (ha : ∀ n, (a.phase n).Recorded (traceOf attempts n)) (n : Nat) :
    (b.phase n).Recorded (traceOf attempts n) := by
  by_cases hn : n = b.attemptCount
  · rw [hn, hcurrent, hcount]
    exact ha _
  · rw [JobRecord.phase_congr hcount (hcount ▸ hn)]
    exact ha n

/-- A claim opens the next attempt; the ones before it are closed. -/
theorem recorded_of_claim {attempt : JobAttempt} (hcount : b.attemptCount = a.attemptCount + 1)
    (hwaiting : a.state.leased = false) (hclaimed : b.state = .claimed)
    (hnumber : attempt.attemptNumber = b.attemptCount) (hsequence : attempt.sequence = 1)
    (htransition : attempt.transition = .claimed)
    (ha : ∀ n, (a.phase n).Recorded (traceOf attempts n)) (n : Nat) :
    (b.phase n).Recorded (traceOf (attempts ++ [attempt]) n) := by
  have hpos : 1 ≤ b.attemptCount := by omega
  by_cases hn : n = b.attemptCount
  · have hnone := ha n
    rw [JobRecord.phase_of_lt (by omega)] at hnone
    have hempty : traceOf attempts n = [] := hnone
    have hself : n = attempt.attemptNumber := hn.trans hnumber.symm
    rw [hn, JobRecord.phase_current hpos, hclaimed, ← hn, hself, traceOf_append_self, ← hself,
      hempty, hsequence, htransition]
    rfl
  · have hne : attempt.attemptNumber ≠ n := by
      rw [hnumber]
      exact Ne.symm hn
    have hrecorded := ha n
    rw [traceOf_append_of_ne attempts hne]
    rcases Nat.lt_or_ge b.attemptCount n with hlater | hearlier
    · rw [JobRecord.phase_of_lt hlater]
      rwa [JobRecord.phase_of_lt (by omega)] at hrecorded
    · rcases Nat.eq_zero_or_pos n with rfl | hn_pos
      · rw [JobRecord.phase_zero] at hrecorded ⊢
        exact hrecorded
      · rw [JobRecord.phase_of_superseded hn_pos (by omega)]
        rcases Nat.lt_or_ge n a.attemptCount with hbefore | hlast
        · rwa [JobRecord.phase_of_superseded hn_pos hbefore] at hrecorded
        · have hcurrent : n = a.attemptCount := by omega
          subst hcurrent
          rwa [JobRecord.phase_current_of_unleased hn_pos hwaiting] at hrecorded

/-- A waiting job is not leased. -/
theorem unleased_of_retryable {s : JobState} (h : s.retryable = true) : s.leased = false := by
  cases s <;> simp [JobState.retryable, JobState.leased] at h ⊢

/-- A job that failed is not leased, whether it is retried or not. -/
theorem unleased_of_failure {error : Option SafeJobError} {next : Option Instant}
    (h : b.state = (JobStatus.failure a now error next).state) : b.state.leased = false := by
  rw [h]
  cases next <;> rfl

/-- A move records the phase it leads to. -/
theorem recorded (h : JobMove now action a b)
    (ha : ∀ n, (a.phase n).Recorded (traceOf attempts n)) (n : Nat) :
    (b.phase n).Recorded (traceOf (attempts ++ (action.attempt a b now).toList) n) := by
  have hcount := h.attemptCount_eq
  have hstate := h.state_eq
  have hleased : a.state.leased = true → 1 ≤ a.attemptCount :=
    fun hl => (JobRecord.lease_of_leased hl).1
  cases action with
  | claimed owner =>
      exact recorded_of_claim hcount (unleased_of_retryable h.admitted.1) hstate rfl rfl rfl ha n
  | started owner =>
      have hpos := hleased (by rw [h.admitted.1]; rfl)
      refine recorded_of_current hcount rfl (JobRecord.phase_current hpos)
        (JobRecord.phase_current (hcount.symm ▸ hpos)) ?_ ha n
      rw [h.admitted.1, show b.state = .running from hstate]
      rintro trace rfl
      rfl
  | extended owner =>
      have hpos := hleased (by rw [h.admitted.1]; rfl)
      rw [show (JobAction.extended owner).attempt a b now = none from rfl, Option.toList_none,
        List.append_nil]
      refine recorded_of_silent hcount ?_ ha n
      rw [JobRecord.phase_current (hcount.symm ▸ hpos), JobRecord.phase_current hpos,
        h.admitted.1, show b.state = .running from hstate]
  | succeeded owner artifact =>
      have hpos := hleased (by rw [h.admitted.1]; rfl)
      refine recorded_of_current hcount rfl (JobRecord.phase_current hpos)
        (JobRecord.phase_current_of_unleased (hcount.symm ▸ hpos) ?_) ?_ ha n
      · rw [show b.state = .succeeded from hstate]
        rfl
      · rw [h.admitted.1]
        rintro trace rfl
        exact Or.inr (Or.inr (Or.inl rfl))
  | failed owner error next =>
      have hpos := hleased (by rw [h.admitted.1]; rfl)
      refine recorded_of_current hcount rfl (JobRecord.phase_current hpos)
        (JobRecord.phase_current_of_unleased (hcount.symm ▸ hpos) (unleased_of_failure hstate)) ?_
        ha n
      rw [h.admitted.1]
      rintro trace rfl
      exact Or.inr (Or.inr (Or.inr rfl))
  | abandoned next =>
      have hpos := hleased h.admitted.1
      refine recorded_of_current hcount rfl (JobRecord.phase_current hpos)
        (JobRecord.phase_current_of_unleased (hcount.symm ▸ hpos) (unleased_of_failure hstate)) ?_
        ha n
      -- The lease ran out before or after the attempt was started.
      have hl := h.admitted.1
      cases hs : a.state with
      | claimed =>
          rintro trace rfl
          exact Or.inl (by simp)
      | running =>
          rintro trace rfl
          exact Or.inr (Or.inl (by simp))
      | _ => simp [hs, JobState.leased] at hl
  | canceled =>
      rw [show JobAction.canceled.attempt a b now = none from rfl, Option.toList_none,
        List.append_nil]
      have hwaiting := unleased_of_retryable h.admitted
      have hfree : b.state.leased = false := by
        rw [show b.state = .canceled from hstate]
        rfl
      refine recorded_of_silent hcount ?_ ha n
      rcases Nat.eq_zero_or_pos a.attemptCount with hzero | hpos
      · have hzero' : b.attemptCount = 0 := hcount.trans hzero
        rw [hzero, hzero', JobRecord.phase_zero, JobRecord.phase_zero]
      · rw [JobRecord.phase_current_of_unleased (hcount.symm ▸ hpos) hfree,
          JobRecord.phase_current_of_unleased hpos hwaiting]

end JobMove

/-! ## Safety of one call -/

section Safety

variable [ContentHasher] {db db' : JobDatabase}

/-- The job a reply hands to a worker. -/
def claimedJob : Except PlatformError JobReply → Option String
  | .ok reply => reply.claimedJob
  | .error _ => none

/-- What no call violates, whether it succeeds or raises. -/
structure JobCallSafe (call : JobCall) (reply : Except PlatformError JobReply)
    (db db' : JobDatabase) : Prop where
  /-- A job stays; a change counts one version up. -/
  version : ∀ k a, db.jobs.get? k = some a →
    ∃ b, db'.jobs.get? k = some b ∧ (b = a ∨ b.version = a.version + 1)
  /-- A job in a terminal state does not change. -/
  terminal : ∀ k a, db.jobs.get? k = some a → a.state.terminal = true → db'.jobs.get? k = some a
  /-- The attempts count one up when the call hands the job to a worker, and else stay. -/
  attempts : ∀ k a b, db.jobs.get? k = some a → db'.jobs.get? k = some b →
    b.attemptCount = a.attemptCount + if claimedJob reply = some k then 1 else 0
  /-- A new job has no attempt and version one. -/
  created : ∀ k b, db.jobs.get? k = none → db'.jobs.get? k = some b →
    b.attemptCount = 0 ∧ b.version = 1 ∧ claimedJob reply ≠ some k
  /-- A worker's call succeeds for the current attempt, its owner and its state, while the lease is
  live. -/
  fenced : ∀ jobId owner attemptNumber state,
    call.heldJob = some (jobId, owner, attemptNumber, state) → (∃ r, reply = .ok r) →
    ∃ a, WorkerCallHeld db jobId owner attemptNumber call.now state a

namespace JobCallSafe

variable {call : JobCall} {repository : JobRepository}

omit [ContentHasher] in
/-- A call that raises changes nothing. -/
theorem of_error (e : PlatformError) : JobCallSafe call (.error e) db db where
  version k a ha := ⟨a, ha, Or.inl rfl⟩
  terminal k a ha _ := ha
  attempts k a b ha hb := by
    cases ha.symm.trans hb
    rfl
  created k b hnone hb := by
    rw [hnone] at hb
    cases hb
  fenced jobId owner attemptNumber state _ hok := by
    obtain ⟨r, hr⟩ := hok
    cases hr

theorem of_ok {reply : JobReply} (hkeyed : db.Keyed)
    (h : JobDatabase.perform repository call db = .ok (reply, db')) :
    JobCallSafe call (.ok reply) db db' := by
  have heffect := JobDatabase.perform_effect hkeyed h
  refine ⟨fun k a ha => ?_, fun k a ha hterminal => ?_, fun k a b ha hb => ?_,
    fun k b hnone hb => ?_, fun jobId owner attemptNumber state hcall _ =>
      JobDatabase.perform_heldJob hkeyed h hcall⟩
  · cases heffect.jobs k with
    | kept hkept _ => exact ⟨a, hkept.row.trans ha, Or.inl rfl⟩
    | created b hcreated _ =>
        rw [hcreated.absent] at ha
        cases ha
    | moved a' b action _ hmoved _ =>
        cases ha.symm.trans hmoved.before
        exact ⟨b, hmoved.after, Or.inr hmoved.move.version_eq⟩
  · cases heffect.jobs k with
    | kept hkept _ => exact hkept.row.trans ha
    | created b hcreated _ =>
        rw [hcreated.absent] at ha
        cases ha
    | moved a' b action _ hmoved _ =>
        cases ha.symm.trans hmoved.before
        rw [hmoved.move.not_terminal] at hterminal
        cases hterminal
  · show b.attemptCount = a.attemptCount + if reply.claimedJob = some k then 1 else 0
    cases heffect.jobs k with
    | kept hkept hclaimed =>
        cases (hkept.row.trans ha).symm.trans hb
        rw [if_neg hclaimed, Nat.add_zero]
    | created b' hcreated _ =>
        rw [hcreated.absent] at ha
        cases ha
    | moved a' b' action _ hmoved hclaimed =>
        cases ha.symm.trans hmoved.before
        cases hb.symm.trans hmoved.after
        rw [hmoved.move.attemptCount_eq]
        cases hclaims : action.claims with
        | true => rw [if_pos (hclaimed.1 hclaims)]; rfl
        | false =>
            have hnot : reply.claimedJob ≠ some k := fun hsome => by
              rw [hclaimed.2 hsome] at hclaims
              cases hclaims
            rw [if_neg hnot]
            rfl
  · cases heffect.jobs k with
    | kept hkept _ =>
        rw [hkept.row, hnone] at hb
        cases hb
    | created b' hcreated hclaimed =>
        cases hb.symm.trans hcreated.row
        obtain ⟨request, hnew⟩ := hcreated.new
        have hfields : b.toJobFields = newJobFields (jobIdOf request) request := hnew
        refine ⟨?_, ?_, hclaimed⟩
        · rw [hfields]
          rfl
        · rw [hfields]
          rfl
    | moved a b' action _ hmoved _ =>
        rw [hmoved.before] at hnone
        cases hnone

end JobCallSafe

/-- Every call is safe in a keyed database. -/
theorem jobCallSafe_of_step {event : JobEvent} (hkeyed : db.Keyed)
    (h : jobRuns.step db event db') : JobCallSafe event.call event.reply db db' := by
  rcases jobStep_cases hkeyed h with ⟨reply, hreply, hperform, -⟩ | ⟨⟨e, hreply⟩, rfl⟩
  · rw [hreply]
    exact JobCallSafe.of_ok hkeyed hperform
  · rw [hreply]
    exact JobCallSafe.of_error e

/-! ## Safety of runs -/

/-- Steps keep the evidence of every attempt. -/
theorem attemptsRecorded_of_step {event : JobEvent} (hkeyed : db.Keyed)
    (hrecorded : AttemptsRecorded db) (h : jobRuns.step db event db') : AttemptsRecorded db' := by
  rcases jobStep_cases hkeyed h with ⟨reply, -, -, heffect⟩ | ⟨-, rfl⟩
  · intro k
    obtain ⟨hnone, hsome⟩ := hrecorded k
    cases heffect.jobs k with
    | kept hkept _ =>
        rw [hkept.row, hkept.attempts]
        exact ⟨hnone, hsome⟩
    | created b hcreated _ =>
        rw [hcreated.row, hcreated.attempts]
        refine ⟨nofun, fun b' hb' n => ?_⟩
        cases hb'
        obtain ⟨request, hnew⟩ := hcreated.new
        have hzero : b.attemptCount = 0 := by
          have hfields : b.toJobFields = newJobFields (jobIdOf request) request := hnew
          rw [hfields]
          rfl
        -- No attempt of a new job is started, and none has evidence.
        rw [hnone hcreated.absent]
        rcases Nat.eq_zero_or_pos n with rfl | hpos
        · rw [JobRecord.phase_zero]
          rfl
        · rw [JobRecord.phase_of_lt (by omega)]
          rfl
    | moved a b action _ hmoved _ =>
        rw [hmoved.after, hmoved.attempts]
        refine ⟨nofun, fun b' hb' n => ?_⟩
        cases hb'
        exact hmoved.move.recorded (hsome a hmoved.before) n
  · exact hrecorded

/-- How many replies along a run handed the job to a worker. -/
def totalClaims (k : String) (events : List JobEvent) : Nat :=
  events.countP fun event => claimedJob event.reply == some k

omit [ContentHasher] in
theorem totalClaims_snoc (k : String) (events : List JobEvent) (event : JobEvent) :
    totalClaims k (events ++ [event]) =
      totalClaims k events + if claimedJob event.reply = some k then 1 else 0 := by
  simp [totalClaims, List.countP_append, List.countP_singleton]

/-- What holds along a run: rows under their IDs, evidence of every attempt, and attempts that count
the claims since the start. -/
structure JobHistory (events : List JobEvent) (db : JobDatabase) : Prop where
  keyed : db.Keyed
  recorded : AttemptsRecorded db
  counted : ∀ k a, db.jobs.get? k = some a → a.attemptCount = totalClaims k events
  unborn : ∀ k, db.jobs.get? k = none → totalClaims k events = 0

theorem JobHistory.snoc {events : List JobEvent} {event : JobEvent} (hdb : JobHistory events db)
    (h : jobRuns.step db event db') : JobHistory (events ++ [event]) db' where
  keyed := keyed_of_jobStep hdb.keyed h
  recorded := attemptsRecorded_of_step hdb.keyed hdb.recorded h
  counted k b hb := by
    have hsafe := jobCallSafe_of_step hdb.keyed h
    rw [totalClaims_snoc]
    cases hk : db.jobs.get? k with
    | none =>
        obtain ⟨hzero, -, hclaimed⟩ := hsafe.created k b hk hb
        rw [hzero, hdb.unborn k hk, if_neg hclaimed]
    | some a => rw [hsafe.attempts k a b hk hb, hdb.counted k a hk]
  unborn k hnone := by
    have hsafe := jobCallSafe_of_step hdb.keyed h
    have hbefore : db.jobs.get? k = none := by
      cases hk : db.jobs.get? k with
      | none => rfl
      | some a =>
          obtain ⟨b, hb, -⟩ := hsafe.version k a hk
          rw [hnone] at hb
          cases hb
    rw [totalClaims_snoc, hdb.unborn k hbefore, Nat.zero_add, if_neg]
    intro hclaimed
    rcases jobStep_cases hdb.keyed h with ⟨reply, hreply, -, heffect⟩ | ⟨⟨e, hreply⟩, -⟩
    · rw [hreply] at hclaimed
      cases heffect.jobs k with
      | kept hkept hother => exact hother hclaimed
      | created b hcreated hother => exact hother hclaimed
      | moved a b action _ hmoved _ =>
          rw [hmoved.before] at hbefore
          cases hbefore
    · rw [hreply] at hclaimed
      cases hclaimed

theorem JobHistory.of_init (h : jobRuns.init db) : JobHistory [] db where
  keyed := keyed_of_jobInit h
  recorded k := by
    rw [h.1]
    refine ⟨fun _ => ?_, fun a ha => ?_⟩
    · rw [JobDatabase.attemptsOf, h.2.1]
      rfl
    · simp at ha
  counted k a ha := by
    rw [h.1] at ha
    simp at ha
  unborn _ _ := rfl

theorem JobHistory.of_run {events : List JobEvent} (hinit : jobRuns.init db)
    (hrun : jobRuns.Run db events db') : JobHistory events db' := by
  induction hrun with
  | refl => exact JobHistory.of_init hinit
  | snoc _ hstep ih => exact ih.snoc hstep

/-- Along a run a job stays, and its attempts and its version never decrease. -/
theorem job_monotone {events : List JobEvent} (hkeyed : db.Keyed)
    (hrun : jobRuns.Run db events db') {k : String} {a : JobRecord}
    (ha : db.jobs.get? k = some a) :
    ∃ b, db'.jobs.get? k = some b ∧ a.attemptCount ≤ b.attemptCount ∧ a.version ≤ b.version := by
  have hstep : ∀ (t : JobDatabase) (event : JobEvent) (u : JobDatabase),
      (t.Keyed ∧ ∃ b, t.jobs.get? k = some b ∧ a.attemptCount ≤ b.attemptCount ∧
        a.version ≤ b.version) → jobRuns.step t event u →
      u.Keyed ∧ ∃ b, u.jobs.get? k = some b ∧ a.attemptCount ≤ b.attemptCount ∧
        a.version ≤ b.version := by
    rintro t event u ⟨hkeyed, b, hb, hattempts, hversion⟩ hstep
    have hsafe := jobCallSafe_of_step hkeyed hstep
    obtain ⟨c, hc, hchange⟩ := hsafe.version k b hb
    refine ⟨keyed_of_jobStep hkeyed hstep, c, hc, ?_, ?_⟩
    · rw [hsafe.attempts k b c hb hc]
      exact hattempts.trans (Nat.le_add_right _ _)
    · rcases hchange with rfl | hnext
      · exact hversion
      · omega
  exact (hrun.preserves hstep ⟨hkeyed, a, ha, le_rfl, le_rfl⟩).2

/-- A terminal job stays for the rest of every run. -/
theorem terminal_job_of_run {events : List JobEvent} (hkeyed : db.Keyed)
    (hrun : jobRuns.Run db events db') {k : String} {a : JobRecord}
    (ha : db.jobs.get? k = some a) (hterminal : a.state.terminal = true) :
    db'.jobs.get? k = some a := by
  have hstep : ∀ (t : JobDatabase) (event : JobEvent) (u : JobDatabase),
      (t.Keyed ∧ t.jobs.get? k = some a) → jobRuns.step t event u →
      u.Keyed ∧ u.jobs.get? k = some a := by
    rintro t event u ⟨hkeyed, ht⟩ hstep
    exact ⟨keyed_of_jobStep hkeyed hstep,
      (jobCallSafe_of_step hkeyed hstep).terminal k a ht hterminal⟩
  exact (hrun.preserves hstep ⟨hkeyed, ha⟩).2

/-- A call for an attempt that was superseded raises, whoever makes it. -/
theorem superseded_call_raises {event : JobEvent} (hkeyed : db.Keyed) {k owner : String}
    {n : Int} {state : JobState} {a : JobRecord} (ha : db.jobs.get? k = some a)
    (hn : n < a.attemptCount) (hcall : event.call.heldJob = some (k, owner, n, state))
    (h : jobRuns.step db event db') : db' = db ∧ ∃ e, event.reply = .error e := by
  rcases jobStep_cases hkeyed h with ⟨reply, -, hperform, -⟩ | ⟨herror, rfl⟩
  · obtain ⟨prior, hheld⟩ := JobDatabase.perform_heldJob hkeyed hperform hcall
    cases ha.symm.trans hheld.found
    exact absurd hheld.attempt_eq hn.ne'
  · exact ⟨rfl, herror⟩

/-- Job lease fencing and lifecycle. Along every run that starts without jobs: every call is safe;
the attempts of a job count its claims, at most three of them, and are used up when it is dead; the
evidence of every attempt is that of its phase; a terminal job never changes again; and once an
attempt is superseded, every later call for it raises and changes nothing. -/
theorem job_lease_fencing {db₀ : JobDatabase} {events : List JobEvent} (hinit : jobRuns.init db₀)
    (hrun : jobRuns.Run db₀ events db) :
    (∀ event db', jobRuns.step db event db' → JobCallSafe event.call event.reply db db') ∧
    (∀ k a, db.jobs.get? k = some a → a.attemptCount = totalClaims k events ∧
      a.attemptCount ≤ jobMaxAttempts ∧ (a.state = .dead → a.attemptCount = jobMaxAttempts)) ∧
    (∀ k a, db.jobs.get? k = some a → ∀ n,
      (a.phase n).Recorded (traceOf (db.attemptsOf k) n)) ∧
    (∀ k a, db.jobs.get? k = some a → a.state.terminal = true →
      ∀ later db', jobRuns.Run db later db' → db'.jobs.get? k = some a) ∧
    (∀ k a, db.jobs.get? k = some a → ∀ n : Int, n < a.attemptCount →
      ∀ later db', jobRuns.Run db later db' → ∀ event owner state db'',
        event.call.heldJob = some (k, owner, n, state) → jobRuns.step db' event db'' →
          db'' = db' ∧ ∃ e, event.reply = .error e) := by
  have hhistory := JobHistory.of_run hinit hrun
  refine ⟨?_, ?_, ?_, ?_, ?_⟩
  · intro event db' hstep
    exact jobCallSafe_of_step hhistory.keyed hstep
  · intro k a ha
    exact ⟨hhistory.counted k a ha, a.attemptCount_le, JobRecord.attemptCount_of_dead⟩
  · intro k a ha
    exact (hhistory.recorded k).2 a ha
  · intro k a ha hterminal later db' hlater
    exact terminal_job_of_run hhistory.keyed hlater ha hterminal
  · intro k a ha n hn later db' hlater event owner state db'' hcall hstep
    obtain ⟨b, hb, hattempts, -⟩ := job_monotone hhistory.keyed hlater ha
    have hkeyed : db'.Keyed :=
      (hlater.preserves (fun _ _ _ ht hstep => keyed_of_jobStep ht hstep) hhistory.keyed)
    exact superseded_call_raises hkeyed hb (by omega) hcall hstep

end Safety

section Sample

local instance jobLeaseHasher : ContentHasher := polynomialHasher

/-- The job of the sample run has no attempt yet, and every call on it is safe. -/
theorem job_lease_fencing_sample :
    (∃ job, sampleJobOutcome.2.jobs.get? sampleJobId = some job ∧
      job.attemptCount = totalClaims sampleJobId sampleJobOutcome.1) ∧
    ∀ event db', jobRuns.step sampleJobOutcome.2 event db' →
      JobCallSafe event.call event.reply sampleJobOutcome.2 db' := by
  obtain ⟨hsafe, hcounted, -⟩ := job_lease_fencing emptyJobDatabase_init sample_jobRun
  obtain ⟨job, hjob, -⟩ := sampleJobOutcome_rows.1
  exact ⟨⟨job, hjob, (hcounted sampleJobId job hjob).1⟩, hsafe⟩

end Sample

end AdaptiveTrader
