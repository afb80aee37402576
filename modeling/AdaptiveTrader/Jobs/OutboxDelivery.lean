import AdaptiveTrader.Jobs.JobLeases

/-!
# Outbox delivery

The safety of one call for the outbox (`OutboxCallSafe`): a job transition inserts exactly one event
and nothing else inserts any, events stay, and a delivery is fenced by its lease. Along a run the
delivery attempts of an event count its claims, and an event that is neither published nor given up
waits for its next delivery or is leased (`outbox_delivery`).
-/

set_option autoImplicit false

namespace AdaptiveTrader

open Foundation

/-! ## Rows of the outbox -/

/-- No event is lost: one that is neither published nor given up has a next delivery time or a
lease. The delivery attempts are bounded. -/
structure OutboxEvent.Pursued (e : OutboxEvent) : Prop where
  attempts : e.attemptCount ≤ jobMaxAttempts
  waiting : e.state.retryable = true → ∃ next, e.nextAttemptAt = some next
  leased : e.state = .claimed →
    ∃ owner lease, e.leaseOwner = some owner ∧ e.leaseExpiresAt = some lease

/-- A new announcement waits since the transition it announces. -/
theorem pursued_outboxEventOf (job : JobRecord) (eventType : String) (reasonCode : Option String) :
    (outboxEventOf job eventType reasonCode).Pursued where
  attempts := Nat.zero_le _
  waiting _ := ⟨job.updatedAt, rfl⟩
  leased h := by cases h

/-- Every move of the delivery keeps an event pursued. -/
theorem OutboxMove.pursued {now : Instant} {action : OutboxAction} {a b : OutboxEvent}
    (h : OutboxMove now action a b) (ha : a.Pursued) : b.Pursued where
  attempts := h.attemptCount_le ha.attempts
  waiting hretryable := by
    rw [h.written] at hretryable ⊢
    cases action with
    | claimed owner => cases hretryable
    | exhausted => cases hretryable
    | extended owner =>
        have hclaimed : a.state = .claimed := h.admitted.claimed
        have hsame : a.state.retryable = true := hretryable
        rw [hclaimed] at hsame
        cases hsame
    | published owner => cases hretryable
    | failed owner error next =>
        cases next with
        | none => cases hretryable
        | some next => exact ⟨next, rfl⟩
  leased hclaimed := by
    rw [h.written] at hclaimed ⊢
    cases action with
    | claimed owner => exact ⟨owner, _, rfl, rfl⟩
    | exhausted => cases hclaimed
    | extended owner => exact ⟨owner, _, h.admitted.owner_eq, rfl⟩
    | published owner => cases hclaimed
    | failed owner error next => cases next <;> cases hclaimed

/-! ## Safety of one call -/

section Safety

variable [ContentHasher] {db db' : JobDatabase}

/-- The event a reply hands to a publisher. -/
def claimedEvent : Except PlatformError JobReply → Option String
  | .ok reply => reply.claimedEvent
  | .error _ => none

/-- What no call violates, whether it succeeds or raises. -/
structure OutboxCallSafe (call : JobCall) (reply : Except PlatformError JobReply)
    (db db' : JobDatabase) : Prop where
  /-- A job that a call other than a heartbeat creates or changes is announced by exactly one new
  event, which carries its new state. -/
  inserted : call.isHeartbeat = false → ∀ k b, db'.jobs.get? k = some b →
    db.jobs.get? k ≠ some b →
    ∃ e, NewEvent k db db' e.outboxEventId e ∧ e.payload.state = b.state ∧
      e.payload.version = b.version ∧ e.state = .pending ∧
      ∀ id e', NewEvent k db db' id e' → e' = e ∧ id = e.outboxEventId
  /-- There is no other new event. -/
  silent : ∀ k, (call.isHeartbeat = true ∨ db'.jobs.get? k = db.jobs.get? k) →
    ∀ id e, ¬ NewEvent k db db' id e
  /-- An event stays; a change counts one version up and keeps the message. -/
  kept : ∀ id a, db.outbox.get? id = some a → ∃ b, db'.outbox.get? id = some b ∧
    b.toOutboxMessage = a.toOutboxMessage ∧ (b = a ∨ b.version = a.version + 1)
  /-- An event that was published or given up does not change and is not claimed. -/
  terminal : ∀ id a, db.outbox.get? id = some a → a.state.terminal = true →
    db'.outbox.get? id = some a ∧ claimedEvent reply ≠ some id
  /-- The delivery attempts count one up when the call hands the event to a publisher, and else
  stay. -/
  attempts : ∀ id a b, db.outbox.get? id = some a → db'.outbox.get? id = some b →
    b.attemptCount = a.attemptCount + if claimedEvent reply = some id then 1 else 0
  /-- A publisher's call succeeds for the current attempt and its owner, while the lease is
  live. -/
  fenced : ∀ id owner attemptNumber, call.heldEvent = some (id, owner, attemptNumber) →
    (∃ r, reply = .ok r) → ∃ a, DeliveryHeld db id owner attemptNumber call.now a

omit [ContentHasher] in
/-- A move other than an extension is announced with the state it leads to. -/
theorem JobAction.announcement_of_makes {call : JobCall} {action : JobAction} {current : JobRecord}
    (hmakes : call.Makes action) (hcall : call.isHeartbeat = false) :
    ∃ eventType reasonCode, action.announcement current =
      some (outboxEventOf current eventType reasonCode) := by
  cases action with
  | extended owner =>
      cases call <;>
        simp [JobCall.Makes, JobCall.isHeartbeat, JobAction.InClaimLoop] at hmakes hcall
  | _ => exact ⟨_, _, rfl⟩

omit [ContentHasher] in
/-- A heartbeat is not announced. -/
theorem JobAction.announcement_of_heartbeat {call : JobCall} {action : JobAction}
    {current : JobRecord} (hmakes : call.Makes action) (hcall : call.isHeartbeat = true) :
    action.announcement current = none := by
  cases call <;> simp [JobCall.isHeartbeat] at hcall
  have hextended : action = .extended _ := hmakes
  rw [hextended]
  rfl

/-- A heartbeat creates no job. -/
theorem absent_of_heartbeat {repository : JobRepository} {call : JobCall} {reply : JobReply}
    (hkeyed : db.Keyed) (h : JobDatabase.perform repository call db = .ok (reply, db'))
    (hcall : call.isHeartbeat = true) {k : String} (hk : db.jobs.get? k = none) :
    db'.jobs.get? k = none := by
  cases call with
  | heartbeat jobId owner attemptNumber now =>
      obtain ⟨⟨current, db₁⟩, hbeat, heq⟩ := map_eq_ok.1 h
      cases heq
      obtain ⟨prior, -, hwrite⟩ := JobDatabase.heartbeat_write hkeyed hbeat
      have hne : k ≠ prior.jobId := by
        rintro rfl
        rw [hwrite.stored] at hk
        cases hk
      rw [(hwrite.kept_of_ne hne).row, hk]
  | _ => cases hcall

namespace OutboxCallSafe

variable {call : JobCall} {repository : JobRepository}

theorem newEvent_none {k : String} (h : Announced k db db' none) (id : String) (e : OutboxEvent) :
    ¬ NewEvent k db db' id e := fun hnew =>
  absurd ((h id e).1 hnew).1 nofun

/-- The one new event of an announced job. -/
theorem inserted_of_announced {k : String} {b : JobRecord} {eventType : String}
    {reasonCode : Option String}
    (h : Announced k db db' (some (outboxEventOf b eventType reasonCode))) :
    ∃ e, NewEvent k db db' e.outboxEventId e ∧ e.payload.state = b.state ∧
      e.payload.version = b.version ∧ e.state = .pending ∧
      ∀ id e', NewEvent k db db' id e' → e' = e ∧ id = e.outboxEventId := by
  refine ⟨outboxEventOf b eventType reasonCode, (h _ _).2 ⟨rfl, rfl⟩, rfl, rfl, rfl, ?_⟩
  intro id e' hnew
  obtain ⟨heq, hid⟩ := (h id e').1 hnew
  cases heq
  exact ⟨rfl, hid⟩

/-- A call that raises changes nothing. -/
theorem of_error (e : PlatformError) : OutboxCallSafe call (.error e) db db where
  inserted _ k b hb hne := absurd hb hne
  silent k _ id event := NewEvent.not_self
  kept id a ha := ⟨a, ha, rfl, Or.inl rfl⟩
  terminal id a ha _ := ⟨ha, nofun⟩
  attempts id a b ha hb := by
    cases ha.symm.trans hb
    rfl
  fenced id owner attemptNumber _ hok := by
    obtain ⟨r, hr⟩ := hok
    cases hr

theorem of_ok {reply : JobReply} (hkeyed : db.Keyed)
    (h : JobDatabase.perform repository call db = .ok (reply, db')) :
    OutboxCallSafe call (.ok reply) db db' := by
  have heffect := JobDatabase.perform_effect hkeyed h
  refine ⟨fun hcall k b hb hne => ?_, fun k hquiet => ?_, fun id a ha => ?_,
    fun id a ha hterminal => ?_, fun id a b ha hb => ?_, fun id owner attemptNumber hcall _ =>
      JobDatabase.perform_heldEvent hkeyed h hcall⟩
  · cases heffect.jobs k with
    | kept hkept _ =>
        rw [hkept.row] at hb
        exact absurd hb hne
    | created b' hcreated _ =>
        cases hb.symm.trans hcreated.row
        exact inserted_of_announced hcreated.announced
    | moved a b' action hmakes hmoved _ =>
        cases hb.symm.trans hmoved.after
        obtain ⟨eventType, reasonCode, heq⟩ := JobAction.announcement_of_makes hmakes hcall
        have hannounced := hmoved.announced
        rw [heq] at hannounced
        exact inserted_of_announced hannounced
  · cases heffect.jobs k with
    | kept hkept _ => exact newEvent_none hkept.announced
    | created b hcreated _ =>
        have habsent : db'.jobs.get? k = none := by
          rcases hquiet with hcall | hsame
          · exact absent_of_heartbeat hkeyed h hcall hcreated.absent
          · exact hsame.trans hcreated.absent
        rw [hcreated.row] at habsent
        cases habsent
    | moved a b action hmakes hmoved _ =>
        rcases hquiet with hcall | hsame
        · have hannounced := hmoved.announced
          rw [JobAction.announcement_of_heartbeat hmakes hcall] at hannounced
          exact newEvent_none hannounced
        · -- A moved row has a new version, so it is not the old one.
          have hversion := hmoved.move.version_eq
          rw [hmoved.after, hmoved.before, Option.some.injEq] at hsame
          rw [hsame] at hversion
          omega
  · obtain ⟨b, hb, heq | ⟨action, hmove, -⟩⟩ := heffect.outbox.kept id a ha
    · exact ⟨b, hb, by rw [heq], Or.inl heq⟩
    · exact ⟨b, hb, hmove.message_eq, Or.inr hmove.version_eq⟩
  · have hstay : db'.outbox.get? id = some a := by
      refine heffect.outbox.get?_of_stuck ha fun b hstep => ?_
      obtain ⟨action, hmove, -⟩ := hstep
      rw [hmove.not_terminal] at hterminal
      cases hterminal
    exact ⟨hstay, heffect.unclaimed id (hstay.trans ha.symm)⟩
  · show b.attemptCount = a.attemptCount + if reply.claimedEvent = some id then 1 else 0
    obtain ⟨b', hb', heq | ⟨action, hmove, hclaimed⟩⟩ := heffect.outbox.kept id a ha
    · cases hb.symm.trans hb'
      rw [if_neg (heffect.unclaimed id (hb.trans (by rw [heq, ha]))), heq]
      rfl
    · cases hb.symm.trans hb'
      rw [hmove.attemptCount_eq]
      cases hclaims : action.claims with
      | true =>
          rw [if_pos (hclaimed.1 hclaims)]
          rfl
      | false =>
          have hnot : reply.claimedEvent ≠ some id := fun hsome => by
            rw [hclaimed.2 hsome] at hclaims
            cases hclaims
          rw [if_neg hnot]
          rfl

end OutboxCallSafe

/-- Every call is safe for the outbox of a keyed database. -/
theorem outboxCallSafe_of_step {event : JobEvent} (hkeyed : db.Keyed)
    (h : jobRuns.step db event db') : OutboxCallSafe event.call event.reply db db' := by
  rcases jobStep_cases hkeyed h with ⟨reply, hreply, hperform, -⟩ | ⟨⟨e, hreply⟩, rfl⟩
  · rw [hreply]
    exact OutboxCallSafe.of_ok hkeyed hperform
  · rw [hreply]
    exact OutboxCallSafe.of_error e

/-! ## Safety of runs -/

/-- How many replies along a run handed the event to a publisher. -/
def totalDeliveries (id : String) (events : List JobEvent) : Nat :=
  events.countP fun event => claimedEvent event.reply == some id

omit [ContentHasher] in
theorem totalDeliveries_snoc (id : String) (events : List JobEvent) (event : JobEvent) :
    totalDeliveries id (events ++ [event]) =
      totalDeliveries id events + if claimedEvent event.reply = some id then 1 else 0 := by
  simp [totalDeliveries, List.countP_append, List.countP_singleton]

/-- What holds of the outbox along a run. -/
structure OutboxHistory (events : List JobEvent) (db : JobDatabase) : Prop where
  keyed : db.Keyed
  pursued : db.outbox.AllRows fun _ e => e.Pursued
  counted : db.outbox.AllRows fun id e => e.attemptCount = totalDeliveries id events
  unborn : ∀ id, db.outbox.get? id = none → totalDeliveries id events = 0

theorem pursued_of_step {event : JobEvent} (hkeyed : db.Keyed)
    (hpursued : db.outbox.AllRows fun _ e => e.Pursued) (h : jobRuns.step db event db') :
    db'.outbox.AllRows fun _ e => e.Pursued := by
  rcases jobStep_cases hkeyed h with ⟨reply, -, -, heffect⟩ | ⟨-, rfl⟩
  · refine heffect.outbox.allRows ?_ ?_ hpursued
    · rintro id b ⟨job, eventType, reasonCode, rfl, -⟩
      exact pursued_outboxEventOf job eventType reasonCode
    · rintro id a b ha ⟨action, hmove, -⟩
      exact hmove.pursued ha
  · exact hpursued

/-- An event that appears has not been claimed by the call that inserts it. -/
theorem fresh_of_step {event : JobEvent} (hkeyed : db.Keyed) (h : jobRuns.step db event db')
    {id : String} (hnone : db.outbox.get? id = none) :
    claimedEvent event.reply ≠ some id ∧
      ∀ b, db'.outbox.get? id = some b → b.attemptCount = 0 := by
  rcases jobStep_cases hkeyed h with ⟨reply, hreply, -, heffect⟩ | ⟨⟨e, hreply⟩, rfl⟩
  · rw [hreply]
    refine ⟨?_, fun b hb => ?_⟩
    · intro hclaimed
      exact heffect.claimed_stored hclaimed hnone
    · obtain ⟨job, eventType, reasonCode, rfl, -⟩ := heffect.outbox.added id b hnone hb
      rfl
  · rw [hreply]
    refine ⟨nofun, fun b hb => ?_⟩
    rw [hnone] at hb
    cases hb

theorem OutboxHistory.snoc {events : List JobEvent} {event : JobEvent}
    (hdb : OutboxHistory events db) (h : jobRuns.step db event db') :
    OutboxHistory (events ++ [event]) db' where
  keyed := keyed_of_jobStep hdb.keyed h
  pursued := pursued_of_step hdb.keyed hdb.pursued h
  counted id b hb := by
    have hsafe := outboxCallSafe_of_step hdb.keyed h
    show b.attemptCount = totalDeliveries id (events ++ [event])
    rw [totalDeliveries_snoc]
    cases hid : db.outbox.get? id with
    | none =>
        obtain ⟨hclaimed, hzero⟩ := fresh_of_step hdb.keyed h hid
        rw [hzero b hb, hdb.unborn id hid, if_neg hclaimed]
    | some a =>
        have hcounted : a.attemptCount = totalDeliveries id events := hdb.counted id a hid
        rw [hsafe.attempts id a b hid hb, hcounted]
  unborn id hnone := by
    have hbefore : db.outbox.get? id = none := by
      cases hid : db.outbox.get? id with
      | none => rfl
      | some a =>
          obtain ⟨b, hb, -⟩ := (outboxCallSafe_of_step hdb.keyed h).kept id a hid
          rw [hnone] at hb
          cases hb
    rw [totalDeliveries_snoc, hdb.unborn id hbefore, if_neg (fresh_of_step hdb.keyed h hbefore).1]

theorem OutboxHistory.of_run {events : List JobEvent} (hinit : jobRuns.init db)
    (hrun : jobRuns.Run db events db') : OutboxHistory events db' := by
  induction hrun with
  | refl =>
      have hempty : db.outbox = Dict.empty := hinit.2.2
      refine ⟨keyed_of_jobInit hinit, ?_, ?_, fun _ _ => rfl⟩
      · rw [hempty]
        exact Dict.allRows_empty _
      · rw [hempty]
        exact Dict.allRows_empty _
  | snoc _ hstep ih => exact ih.snoc hstep

/-- Along a run an event stays with its message, and its delivery attempts never decrease. -/
theorem outbox_monotone {events : List JobEvent} (hkeyed : db.Keyed)
    (hrun : jobRuns.Run db events db') {id : String} {a : OutboxEvent}
    (ha : db.outbox.get? id = some a) :
    ∃ b, db'.outbox.get? id = some b ∧ b.toOutboxMessage = a.toOutboxMessage ∧
      a.attemptCount ≤ b.attemptCount := by
  have hstep : ∀ (t : JobDatabase) (event : JobEvent) (u : JobDatabase),
      (t.Keyed ∧ ∃ b, t.outbox.get? id = some b ∧ b.toOutboxMessage = a.toOutboxMessage ∧
        a.attemptCount ≤ b.attemptCount) → jobRuns.step t event u →
      u.Keyed ∧ ∃ b, u.outbox.get? id = some b ∧ b.toOutboxMessage = a.toOutboxMessage ∧
        a.attemptCount ≤ b.attemptCount := by
    rintro t event u ⟨hkeyed, b, hb, hmessage, hattempts⟩ hstep
    have hsafe := outboxCallSafe_of_step hkeyed hstep
    obtain ⟨c, hc, hsame, -⟩ := hsafe.kept id b hb
    refine ⟨keyed_of_jobStep hkeyed hstep, c, hc, hsame.trans hmessage, ?_⟩
    rw [hsafe.attempts id b c hb hc]
    exact hattempts.trans (Nat.le_add_right _ _)
  exact (hrun.preserves hstep ⟨hkeyed, a, ha, rfl, le_rfl⟩).2

/-- An event that was published or given up stays for the rest of every run. -/
theorem terminal_event_of_run {events : List JobEvent} (hkeyed : db.Keyed)
    (hrun : jobRuns.Run db events db') {id : String} {a : OutboxEvent}
    (ha : db.outbox.get? id = some a) (hterminal : a.state.terminal = true) :
    db'.outbox.get? id = some a := by
  have hstep : ∀ (t : JobDatabase) (event : JobEvent) (u : JobDatabase),
      (t.Keyed ∧ t.outbox.get? id = some a) → jobRuns.step t event u →
      u.Keyed ∧ u.outbox.get? id = some a := by
    rintro t event u ⟨hkeyed, ht⟩ hstep
    exact ⟨keyed_of_jobStep hkeyed hstep,
      ((outboxCallSafe_of_step hkeyed hstep).terminal id a ht hterminal).1⟩
  exact (hrun.preserves hstep ⟨hkeyed, ha⟩).2

/-- A call for a delivery attempt that was superseded raises, whoever makes it. -/
theorem superseded_delivery_raises {event : JobEvent} (hkeyed : db.Keyed) {id owner : String}
    {n : Int} {a : OutboxEvent} (ha : db.outbox.get? id = some a) (hn : n < a.attemptCount)
    (hcall : event.call.heldEvent = some (id, owner, n)) (h : jobRuns.step db event db') :
    db' = db ∧ ∃ e, event.reply = .error e := by
  rcases jobStep_cases hkeyed h with ⟨reply, -, hperform, -⟩ | ⟨herror, rfl⟩
  · obtain ⟨prior, hheld⟩ := JobDatabase.perform_heldEvent hkeyed hperform hcall
    cases ha.symm.trans hheld.found
    exact absurd hheld.attempt_eq hn.ne'
  · exact ⟨rfl, herror⟩

/-- Outbox delivery. Along every run that starts without jobs and events: every call inserts the
announcements of the jobs it moves and no other event, and is fenced; an event is claimed at most
three times, its attempts count the claims, and it is pursued until it is published or given up;
from then on it never changes and is never claimed; and once a delivery attempt is superseded,
every later call for it raises and changes nothing. -/
theorem outbox_delivery {db₀ : JobDatabase} {events : List JobEvent} (hinit : jobRuns.init db₀)
    (hrun : jobRuns.Run db₀ events db) :
    (∀ event db', jobRuns.step db event db' → OutboxCallSafe event.call event.reply db db') ∧
    (∀ id e, db.outbox.get? id = some e →
      e.attemptCount = totalDeliveries id events ∧ e.Pursued) ∧
    (∀ id, totalDeliveries id events ≤ jobMaxAttempts) ∧
    (∀ id e, db.outbox.get? id = some e → e.state.terminal = true →
      ∀ later db', jobRuns.Run db later db' → db'.outbox.get? id = some e ∧
        ∀ event db'', jobRuns.step db' event db'' → claimedEvent event.reply ≠ some id) ∧
    (∀ id e, db.outbox.get? id = some e → ∀ n : Int, n < e.attemptCount →
      ∀ later db', jobRuns.Run db later db' → ∀ event owner db'',
        event.call.heldEvent = some (id, owner, n) → jobRuns.step db' event db'' →
          db'' = db' ∧ ∃ e, event.reply = .error e) := by
  have hhistory := OutboxHistory.of_run hinit hrun
  have hkeyed_later : ∀ {later db'}, jobRuns.Run db later db' → db'.Keyed := fun hlater =>
    hlater.preserves (fun _ _ _ ht hstep => keyed_of_jobStep ht hstep) hhistory.keyed
  refine ⟨?_, ?_, ?_, ?_, ?_⟩
  · intro event db' hstep
    exact outboxCallSafe_of_step hhistory.keyed hstep
  · intro id e he
    exact ⟨hhistory.counted id e he, hhistory.pursued id e he⟩
  · intro id
    cases hid : db.outbox.get? id with
    | none => exact (hhistory.unborn id hid).trans_le (Nat.zero_le _)
    | some e =>
        have hcounted : e.attemptCount = totalDeliveries id events := hhistory.counted id e hid
        rw [← hcounted]
        exact (hhistory.pursued id e hid).attempts
  · intro id e he hterminal later db' hlater
    have hstay := terminal_event_of_run hhistory.keyed hlater he hterminal
    refine ⟨hstay, fun event db'' hstep => ?_⟩
    exact ((outboxCallSafe_of_step (hkeyed_later hlater) hstep).terminal id e hstay hterminal).2
  · intro id e he n hn later db' hlater event owner db'' hcall hstep
    obtain ⟨b, hb, -, hattempts⟩ := outbox_monotone hhistory.keyed hlater he
    exact superseded_delivery_raises (hkeyed_later hlater) hb (by omega) hcall hstep

end Safety

section Sample

local instance outboxDeliveryHasher : ContentHasher := polynomialHasher

/-- The event of the sample run is in its first delivery, and every call on it is safe. -/
theorem outbox_delivery_sample :
    (∃ id e, sampleJobOutcome.2.outbox.get? id = some e ∧ e.attemptCount = 1 ∧
      e.attemptCount = totalDeliveries id sampleJobOutcome.1) ∧
    ∀ event db', jobRuns.step sampleJobOutcome.2 event db' →
      OutboxCallSafe event.call event.reply sampleJobOutcome.2 db' := by
  obtain ⟨hsafe, hrows, -⟩ := outbox_delivery emptyJobDatabase_init sample_jobRun
  obtain ⟨e, he, -, hone⟩ := sampleJobOutcome_rows.2
  obtain ⟨id, hid⟩ := Dict.mem_values_iff.1 he
  exact ⟨⟨id, e, hid, hone, (hrows id e hid).1⟩, hsafe⟩

end Sample

end AdaptiveTrader
