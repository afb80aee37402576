import AdaptiveTrader.Scheduling.SlotLeases

/-!
# Recovery of materialized slots

A claimed strategy slot with an expired lease and a materialized decision is to be completed by
whoever recovers it. The code does so before the deadline of the slot; from the deadline on the
guard on the completion deadline comes first and expires the slot
(`claimLocked_of_recoverable`, `materialized_recovery_iff`). The branch that would complete it after
the deadline is never reached.
-/

set_option autoImplicit false

namespace AdaptiveTrader

open Foundation

section Recovery

variable [ContentHasher] {ρ : Type}

/-- The recorder writes its evidence for every transition. -/
def SlotTransitionRecorder.Records (recorder : SlotTransitionRecorder ρ) : Prop :=
  ∀ evidence previous current occurredAt, ∃ evidence',
    recorder.record evidence previous current occurredAt = .ok evidence'

/-- A claimed strategy slot with an expired lease and a materialized decision. -/
structure Recoverable (db : SlotDatabase ρ) (slot : DecisionSlot) (now : Instant) : Prop where
  stored : db.slots.get? slot.slotId = some slot
  strategy : slot.decisionType = .strategy
  claimed : slot.state = .claimed
  expired : ∃ lease ∈ slot.leaseExpiresAt, lease ≤ now
  materialized : db.decisions.materialized slot.slotId = true

/-- The calls by which a worker attempts to recover a slot. -/
inductive RecoveryAttempt (db : SlotDatabase ρ) (slot : DecisionSlot) (now : Instant) :
    SlotCall → Prop
  | claim {owner : String} (howner : isVersionText owner = true) :
      RecoveryAttempt db slot now (.claim slot.slotId owner now)
  | claimNext {owner : String} (howner : isVersionText owner = true)
      (hnext : (db.eligibleSlots now).head? = some slot) :
      RecoveryAttempt db slot now (.claimNext owner now)
  | recoverExpiredClaims {owner : String} (howner : isVersionText owner = true) :
      RecoveryAttempt db slot now (.recoverExpiredClaims owner now)

/-- The slot was completed by a recovery. -/
def CompletedByRecovery (slot : DecisionSlot) : Prop :=
  slot.state = .completed ∧ slot.reasonCode = some "decision_materialized_before_recovery"

/-- The outcome of a recovery, before and from the deadline of the slot on. -/
def RecoveryOutcome (slot : DecisionSlot) (now : Instant) (b : DecisionSlot) : Prop :=
  if now < slot.deadlineAt then CompletedByRecovery b else b.state = .expired

namespace SlotDatabase

variable {recorder : SlotTransitionRecorder ρ} {db db' : SlotDatabase ρ} {slot : DecisionSlot}
  {now : Instant} {owner : String}

omit [ContentHasher] in
/-- A valid update of a valid slot is a valid slot. -/
theorem evolvedFields_check {update : SlotUpdate} (hclaim : update.checkClaim = .ok ())
    (houtcome : update.checkOutcome = .ok ()) : (slot.evolvedFields update).check = .ok () := by
  have h := slot.checked
  simp only [DecisionSlotFields.check, unit_bind_eq_ok, rejectIf_eq_ok] at h ⊢
  obtain ⟨hid, hversion, hhash, hprovider, hproviderVersion, hordered, -, -, -⟩ := h
  exact ⟨hid, hversion, hhash, hprovider, hproviderVersion, hordered,
    by simp [DecisionSlot.evolvedFields], hclaim, houtcome⟩

/-- A valid transition of a stored slot succeeds when its evidence is recorded. -/
theorem transition_total (hrecords : recorder.Records) {update : SlotUpdate}
    (hstored : db.slots.get? slot.slotId = some slot)
    (hallowed : update.state ∈ slot.state.allowedNextStates)
    (hclaim : update.checkClaim = .ok ()) (houtcome : update.checkOutcome = .ok ()) :
    ∃ current db', transition recorder db slot update now = .ok (current, db') := by
  let current : DecisionSlot := ⟨slot.evolvedFields update, evolvedFields_check hclaim houtcome⟩
  obtain ⟨evidence, hevidence⟩ := hrecords db.evidence (some slot) current now
  refine ⟨current, { db with slots := db.slots.set slot.slotId current, evidence }, ?_⟩
  simp only [transition, bind_eq_ok, rejectIf_eq_ok, require_eq_ok, not_not,
    DecisionSlot.evolve_eq_ok, Dict.compareAndSet_eq_some, pure_eq_ok]
  exact ⟨(), hallowed, current, rfl, _, ⟨slot, hstored, by simp, rfl⟩, evidence, hevidence, rfl⟩

omit [ContentHasher] in
theorem outcome_checks {state : SlotState} {reason : String} (hterminal : state.terminal = true)
    (hreason : isSafeCode reason = true) :
    (SlotUpdate.outcome slot state now reason).checkClaim = .ok () ∧
      (SlotUpdate.outcome slot state now reason).checkOutcome = .ok () := by
  constructor
  · cases state <;> first | rfl | cases hterminal
  · simp [SlotUpdate.checkOutcome, SlotUpdate.outcome, hterminal, hreason]

omit [ContentHasher] in
theorem claim_checks (howner : isVersionText owner = true) (attemptCount : Nat) :
    (SlotUpdate.claim owner now attemptCount).checkClaim = .ok () ∧
      (SlotUpdate.claim owner now attemptCount).checkOutcome = .ok () := by
  constructor
  · simp [SlotUpdate.claim, SlotUpdate.checkClaim, howner]
  · simp [SlotUpdate.claim, SlotUpdate.checkOutcome, SlotState.terminal, SlotState.reasonRequired]

/-- A claimed slot expires when its evidence is recorded. -/
theorem expireLocked_total (hrecords : recorder.Records) {reason : Option String}
    (hstored : db.slots.get? slot.slotId = some slot) (hclaimed : slot.state = .claimed)
    (hreason : ∀ r ∈ reason, isSafeCode r = true) :
    ∃ current db', expireLocked recorder db slot now reason = .ok (current, db') := by
  have hdefault : ∀ text, isSafeCode text = true → isSafeCode (reason.getD text) = true := by
    intro text htext
    cases reason with
    | none => exact htext
    | some r => exact hreason r rfl
  have hchecks : (SlotUpdate.expiry slot now reason).checkClaim = .ok () ∧
      (SlotUpdate.expiry slot now reason).checkOutcome = .ok () := by
    unfold SlotUpdate.expiry
    split
    · exact outcome_checks rfl (hdefault _ (by decide))
    · exact outcome_checks rfl (hdefault _ (by decide))
  refine transition_total hrecords hstored ?_ hchecks.1 hchecks.2
  rw [hclaimed]
  rcases (SlotMove.expiry_fields slot now reason).2 with hfailed | hexpired
  · rw [hfailed]
    decide
  · rw [hexpired]
    decide

omit [ContentHasher] in
theorem completionDeadlineReason_safe (slot : DecisionSlot) :
    ∀ r ∈ completionDeadlineReason slot, isSafeCode r = true := by
  intro r hr
  unfold completionDeadlineReason at hr
  split at hr
  · cases hr
    decide
  · cases hr

/-- A claim of a claimed slot succeeds when its evidence is recorded. -/
theorem claimLocked_total (hrecords : recorder.Records) (howner : isVersionText owner = true)
    (hstored : db.slots.get? slot.slotId = some slot) (hclaimed : slot.state = .claimed) :
    ∃ result db', claimLocked recorder slot owner now db = .ok (result, db') := by
  have hcompletes : SlotState.completed ∈ slot.state.allowedNextStates := by
    rw [hclaimed]
    decide
  have hreclaims : SlotState.claimed ∈ slot.state.allowedNextStates := by
    rw [hclaimed]
    decide
  have hexpire : ∀ reason : Option String, (∀ r ∈ reason, isSafeCode r = true) →
      ∃ result db', (do
        let expired ← expireLocked recorder db slot now reason
        pure (claimed .deadlineElapsed expired)) = Except.ok (result, db') := by
    intro reason hreason
    obtain ⟨current, db', h⟩ :=
      @expireLocked_total _ _ _ _ _ now hrecords reason hstored hclaimed hreason
    exact ⟨_, _, by simp only [h]; rfl⟩
  have hcomplete : ∃ result db', (do
      let completed ← transition recorder db slot
        (.outcome slot .completed now "decision_materialized_before_recovery") now
      pure (claimed .materialized completed)) = Except.ok (result, db') := by
    have hchecks := @outcome_checks slot now .completed "decision_materialized_before_recovery" rfl
      (by decide)
    obtain ⟨current, db', h⟩ := @transition_total _ _ _ _ _ now hrecords _ hstored
      hcompletes hchecks.1 hchecks.2
    exact ⟨_, _, by simp only [h]; rfl⟩
  unfold claimLocked
  rw [if_neg (by rw [hclaimed]; decide), if_pos hclaimed]
  split
  · exact hexpire _ (completionDeadlineReason_safe slot)
  split
  · exact ⟨_, _, rfl⟩
  split
  · exact hexpire _ (by rintro r ⟨⟩; decide)
  split
  · split
    · exact hcomplete
    · exact hexpire none (by rintro r ⟨⟩)
  split
  · exact hcomplete
  · have hchecks := @claim_checks now owner howner (slot.attemptCount + 1)
    obtain ⟨current, db', h⟩ := @transition_total _ _ _ _ _ now hrecords _ hstored
      hreclaims hchecks.1 hchecks.2
    exact ⟨_, _, by simp only [h]; rfl⟩

/-- A recovery completes a recoverable slot before its deadline and expires it from then on. -/
theorem claimLocked_of_recoverable {result : ClaimResult} (h : Recoverable db slot now)
    (hclaim : claimLocked recorder slot owner now db = .ok (result, db')) :
    ∃ b, db'.slots.get? slot.slotId = some b ∧ RecoveryOutcome slot now b := by
  have hwritten : ∀ {update : SlotUpdate} {status : ClaimStatus},
      (do let written ← transition recorder db slot update now
          pure (claimed status written)) = Except.ok (result, db') →
      ∃ b, db'.slots.get? slot.slotId = some b ∧ b.toSlotUpdate = update := by
    intro update status h
    simp only [bind_eq_ok, pure_eq_ok] at h
    obtain ⟨⟨b, db₁⟩, hwrite, heq⟩ := h
    cases heq
    obtain ⟨-, hfields, hslots, -⟩ := transition_spec hwrite
    refine ⟨b, by rw [hslots, Dict.get?_set_self], ?_⟩
    rw [hfields]
    rfl
  have hmissed : completionDeadlineMissed slot now = decide (slot.deadlineAt ≤ now) := by
    simp only [completionDeadlineMissed, h.strategy]
  have hlease : ¬ ∃ lease ∈ slot.leaseExpiresAt, now < lease := by
    obtain ⟨lease, hlease, hle⟩ := h.expired
    rintro ⟨lease', hlease', hlt⟩
    cases hlease.symm.trans hlease'
    exact absurd hle (not_le.2 hlt)
  unfold claimLocked at hclaim
  rw [if_neg (by rw [h.claimed]; decide), if_pos h.claimed, hmissed] at hclaim
  by_cases hdeadline : slot.deadlineAt ≤ now
  · -- The guard on the completion deadline comes first.
    rw [if_pos (by simpa using hdeadline)] at hclaim
    obtain ⟨b, hb, hupdate⟩ := hwritten hclaim
    refine ⟨b, hb, ?_⟩
    rw [RecoveryOutcome, if_neg (not_lt.2 hdeadline)]
    have hstate := congrArg SlotUpdate.state hupdate
    simpa [SlotUpdate.expiry, h.strategy, SlotUpdate.outcome] using hstate
  · have hnotForced : slot.decisionType ≠ .forcedFlat := by
      rw [h.strategy]
      decide
    rw [if_neg (by simpa using hdeadline), if_neg hlease, if_neg (fun hc => hnotForced hc.1),
      if_neg (fun hc => hdeadline hc.2), if_pos ⟨hnotForced, h.materialized⟩] at hclaim
    obtain ⟨b, hb, hupdate⟩ := hwritten hclaim
    refine ⟨b, hb, ?_⟩
    rw [RecoveryOutcome, if_pos (not_le.1 hdeadline)]
    exact ⟨congrArg SlotUpdate.state hupdate, congrArg SlotUpdate.reasonCode hupdate⟩

/-- Recovering a list of claimed slots succeeds and recovers each recoverable one. -/
theorem recoverEach_of_recoverable (hrecords : recorder.Records)
    (howner : isVersionText owner = true) :
    ∀ {slots : List DecisionSlot} {db : SlotDatabase ρ},
      (slots.map DecisionSlot.slotId).Nodup →
      (∀ s ∈ slots, db.slots.get? s.slotId = some s ∧ s.state = .claimed) →
      ∃ results db', recoverEach recorder owner now slots db = .ok (results, db') ∧
        ∀ s ∈ slots, Recoverable db s now →
          ∃ b, db'.slots.get? s.slotId = some b ∧ RecoveryOutcome s now b := by
  intro slots
  induction slots with
  | nil => exact fun _ _ => ⟨[], _, rfl, by simp⟩
  | cons slot rest ih =>
      intro db hnodup hstored
      simp only [List.map_cons, List.nodup_cons] at hnodup
      obtain ⟨hslot, hclaimed⟩ := hstored slot List.mem_cons_self
      obtain ⟨first, db₁, hfirst⟩ := @claimLocked_total _ _ _ _ _ now owner hrecords howner hslot hclaimed
      -- The first claim leaves the other rows and the decisions alone.
      have hframe : (∀ k, k ≠ slot.slotId → db₁.slots.get? k = db.slots.get? k) ∧
          db₁.decisions = db.decisions := by
        rcases claimLocked_spec hslot hfirst with ⟨-, hkept⟩ | ⟨action, b, hwrite, -⟩
        · exact ⟨fun k _ => by rw [hkept.slots], hkept.decisions⟩
        · exact ⟨fun k hk => by rw [hwrite.slots, Dict.get?_set_of_ne _ _ hk], hwrite.decisions⟩
      have hne : ∀ s ∈ rest, s.slotId ≠ slot.slotId := fun s hs he =>
        hnodup.1 (he ▸ List.mem_map_of_mem hs)
      have hrest : ∀ s ∈ rest, db₁.slots.get? s.slotId = some s ∧ s.state = .claimed := by
        intro s hs
        rw [hframe.1 _ (hne s hs)]
        exact hstored s (List.mem_cons_of_mem _ hs)
      obtain ⟨others, db₂, hothers, hrecovered⟩ := ih hnodup.2 hrest
      refine ⟨first :: others, db₂, ?_, ?_⟩
      · simp only [recoverEach, hfirst, bind_eq_ok, pure_eq_ok]
        exact ⟨_, rfl, _, hothers, rfl⟩
      · intro s hs hs'
        rcases List.mem_cons.1 hs with rfl | hmem
        · obtain ⟨b, hb, houtcome⟩ := claimLocked_of_recoverable hs' hfirst
          have hkeep := (recoverEach_spec hnodup.2 (fun s hs => (hrest s hs).1) hothers).2 s.slotId
            hnodup.1
          exact ⟨b, hkeep.trans hb, houtcome⟩
        · refine hrecovered s hmem ⟨(hrest s hmem).1, hs'.strategy, hs'.claimed, hs'.expired, ?_⟩
          rw [hframe.2]
          exact hs'.materialized

/-- Slot IDs have the syntax of slot IDs. -/
theorem requireSlotId_slotId (slot : DecisionSlot) : requireSlotId slot.slotId = .ok () := by
  have hdigest := isSha256_sha256Hex (DecisionSlot.identityPayload slot.toSlotIdentity)
  have hchars : slot.slotId.toList = "slot_".toList ++
      (sha256Hex (DecisionSlot.identityPayload slot.toSlotIdentity)).toList := by
    simp [DecisionSlot.slotId, deterministicIdFromHashInput, deterministicId, String.toList_append]
  have hlength := isSha256_length hdigest
  simp only [requireSlotId, unit_bind_eq_ok, rejectIf_eq_ok, not_not, hchars, Bool.not_eq_false]
  refine ⟨⟨?_, ?_⟩, ?_⟩
  · simp
  · simp [hlength]
  · have hdrop : ("slot_".toList ++
        (sha256Hex (DecisionSlot.identityPayload slot.toSlotIdentity)).toList).drop 5 =
        (sha256Hex (DecisionSlot.identityPayload slot.toSlotIdentity)).toList := by
      simp
    rw [hdrop]
    exact hdigest

/-- Every attempt to recover a recoverable slot succeeds, with the outcome of the deadline. -/
theorem perform_of_recoverable (hrecords : recorder.Records) (hkeyed : Keyed db.slots)
    (h : Recoverable db slot now) {call : SlotCall} (hattempt : RecoveryAttempt db slot now call) :
    ∃ reply db' b, perform recorder call db = .ok (reply, db') ∧
      db'.slots.get? slot.slotId = some b ∧ RecoveryOutcome slot now b := by
  cases hattempt with
  | @claim owner howner =>
      obtain ⟨result, db', hclaim⟩ :=
        @claimLocked_total _ _ _ _ _ now owner hrecords howner h.stored h.claimed
      obtain ⟨b, hb, houtcome⟩ := claimLocked_of_recoverable h hclaim
      refine ⟨.claims [result], db', b, ?_, hb, houtcome⟩
      simp only [perform, SlotDatabase.claim, requireSlot, map_eq_ok, bind_eq_ok, require_eq_ok]
      exact ⟨(result, db'), ⟨(), by simp [requireOwner, howner], slot,
        ⟨(), requireSlotId_slotId slot, h.stored⟩, hclaim⟩, rfl⟩
  | @claimNext owner howner hnext =>
      obtain ⟨result, db', hclaim⟩ :=
        @claimLocked_total _ _ _ _ _ now owner hrecords howner h.stored h.claimed
      obtain ⟨b, hb, houtcome⟩ := claimLocked_of_recoverable h hclaim
      refine ⟨.claims [result], db', b, ?_, hb, houtcome⟩
      have hexpired : ¬ (slot.state = .claimed ∧ (∃ lease ∈ slot.leaseExpiresAt, now < lease) ∧
          completionDeadlineMissed slot now = false) := by
        rintro ⟨-, ⟨lease, hlease, hlt⟩, -⟩
        obtain ⟨lease', hlease', hle⟩ := h.expired
        cases hlease.symm.trans hlease'
        exact absurd hle (not_le.2 hlt)
      simp only [perform, claimNext, hnext, map_eq_ok, bind_eq_ok]
      refine ⟨(some result, db'), ⟨(), by simp [requireOwner, howner], ?_⟩, rfl⟩
      rw [if_neg hexpired]
      simp only [bind_eq_ok, pure_eq_ok]
      exact ⟨_, hclaim, rfl⟩
  | @recoverExpiredClaims owner howner =>
      have hclaims : ∀ s ∈ db.expiredClaims now,
          db.slots.get? s.slotId = some s ∧ s.state = .claimed := by
        intro s hs
        refine ⟨stored_of_mem_values hkeyed (mem_values_of_expiredClaims hs), ?_⟩
        have hfilter := (List.mem_filter.1 (mem_sortedBy.1 hs)).2
        exact (of_decide_eq_true hfilter).1
      have hmem : slot ∈ db.expiredClaims now := by
        refine mem_sortedBy.2 (List.mem_filter.2 ⟨Dict.mem_values_iff.2 ⟨_, h.stored⟩, ?_⟩)
        exact decide_eq_true ⟨h.claimed, Or.inl h.expired⟩
      obtain ⟨results, db', heach, hrecovered⟩ :=
        @recoverEach_of_recoverable _ _ _ now _ hrecords howner _ _
          (nodup_expiredClaims hkeyed now) hclaims
      obtain ⟨b, hb, houtcome⟩ := hrecovered slot hmem h
      refine ⟨.claims results, db', b, ?_, hb, houtcome⟩
      simp only [perform, recoverExpiredClaims, map_eq_ok, bind_eq_ok]
      exact ⟨(results, db'), ⟨(), by simp [requireOwner, howner], heach⟩, rfl⟩

/-- A pending slot whose minute has arrived becomes ready. -/
theorem evaluateReadiness_of_reached (hrecords : recorder.Records)
    {watermark : Option Instant} (hstored : db.slots.get? slot.slotId = some slot)
    (hstrategy : slot.decisionType ≠ .forcedFlat) (hpending : slot.state = .pending)
    (hdeadline : ¬ slot.deadlineAt ≤ now) (hopen : ¬ now < slot.readyAt)
    (hreached : ∃ w ∈ watermark, slot.sourceIntervalEnd ≤ w) :
    ∃ current db', evaluateReadiness recorder slot.slotId watermark now db = .ok (current, db') ∧
      db'.slots.get? slot.slotId = some current ∧ current.toSlotContract = slot.toSlotContract ∧
      current.state = .ready ∧ db'.decisions = db.decisions := by
  have hallowed : SlotState.ready ∈ slot.state.allowedNextStates := by
    rw [hpending]
    decide
  obtain ⟨current, db', h⟩ := @transition_total _ _ _ _ _ now hrecords
    { state := .ready, attemptCount := slot.attemptCount, reasonCode := none } hstored
    hallowed rfl rfl
  obtain ⟨-, hfields, hslots, hdecisions⟩ := transition_spec h
  refine ⟨current, db', ?_, ?_, ?_, ?_, hdecisions⟩
  · have hrequired : db.requireSlot slot.slotId = .ok slot := by
      simp only [requireSlot, unit_bind_eq_ok, require_eq_ok]
      exact ⟨requireSlotId_slotId slot, hstored⟩
    have hclosed : ¬ (slot.decisionType = .forcedFlat ∨ slot.state.terminal = true) := by
      rw [hpending]
      simp [hstrategy, SlotState.terminal]
    simp only [evaluateReadiness, bind_eq_ok]
    refine ⟨slot, hrequired, ?_⟩
    rw [if_neg hclosed, if_neg (by simp [hpending]), if_neg hdeadline, if_neg hopen,
      if_pos hreached, if_neg (by simp [hpending])]
    exact h
  · rw [hslots, Dict.get?_set_self]
  · rw [hfields]
    rfl
  · rw [hfields]
    rfl

/-- The claim of a ready slot before its deadline takes it with a fresh lease. -/
theorem claim_of_ready (hrecords : recorder.Records) (howner : isVersionText owner = true)
    (hstored : db.slots.get? slot.slotId = some slot) (hready : slot.state = .ready)
    (hdeadline : ¬ slot.deadlineAt ≤ now) (hopen : ¬ now < slot.readyAt) :
    ∃ current db', claim recorder slot.slotId owner now db = .ok (⟨.claimed, current⟩, db') ∧
      db'.slots.get? slot.slotId = some current ∧ current.toSlotContract = slot.toSlotContract ∧
      current.state = .claimed ∧ current.leaseExpiresAt = some (now + leaseDuration) := by
  have hallowed : SlotState.claimed ∈ slot.state.allowedNextStates := by
    rw [hready]
    decide
  have hchecks := @claim_checks now owner howner (slot.attemptCount + 1)
  obtain ⟨current, db', h⟩ := @transition_total _ _ _ _ _ now hrecords _ hstored hallowed
    hchecks.1 hchecks.2
  obtain ⟨-, hfields, hslots, -⟩ := transition_spec h
  refine ⟨current, db', ?_, ?_, ?_, ?_, ?_⟩
  · have hclaim : claimLocked recorder slot owner now db = .ok (⟨.claimed, current⟩, db') := by
      rw [claimLocked, if_neg (by simp [hready, SlotState.terminal]), if_neg (by simp [hready]),
        if_neg hdeadline, if_neg (by simp [hready, not_lt.1 hopen]), h]
      rfl
    simp only [claim, requireSlot, bind_eq_ok, require_eq_ok]
    exact ⟨(), by simp [requireOwner, howner], slot, ⟨(), requireSlotId_slotId slot, hstored⟩,
      hclaim⟩
  · rw [hslots, Dict.get?_set_self]
  · rw [hfields]
    rfl
  · rw [hfields]
    rfl
  · rw [hfields]
    rfl

end SlotDatabase

/-- An attempt to recover a claimed strategy slot with an expired lease and a materialized decision
completes the slot exactly when it is made before the deadline of the slot. -/
theorem materialized_recovery_iff {recorder : SlotTransitionRecorder ρ}
    (hrecords : recorder.Records) {db : SlotDatabase ρ} (hdb : (slotRuns recorder).Reachable db)
    {slot : DecisionSlot} {now : Instant} (h : Recoverable db slot now) {call : SlotCall}
    (hattempt : RecoveryAttempt db slot now call) :
    (∃ reply db' b, SlotDatabase.perform recorder call db = .ok (reply, db') ∧
      db'.slots.get? slot.slotId = some b ∧ CompletedByRecovery b) ↔ now < slot.deadlineAt := by
  obtain ⟨db₀, events, hinit, hrun⟩ := hdb
  have hkeyed := (SlotHistory.of_run hinit hrun).keyed
  obtain ⟨reply, db', b, hperform, hb, houtcome⟩ :=
    SlotDatabase.perform_of_recoverable hrecords hkeyed h hattempt
  constructor
  · rintro ⟨reply', db'', b', hperform', hb', hcompleted⟩
    cases hperform.symm.trans hperform'
    cases hb.symm.trans hb'
    by_contra hlate
    rw [RecoveryOutcome, if_neg hlate] at houtcome
    rw [hcompleted.1] at houtcome
    cases houtcome
  · intro hearly
    rw [RecoveryOutcome, if_pos hearly] at houtcome
    exact ⟨reply, db', b, hperform, hb, houtcome⟩

/-- Slots that conflict neither with the stored rows nor with each other are all stored. -/
theorem SlotDatabase.createEach_fresh {recorder : SlotTransitionRecorder ρ} (hrecords : recorder.Records) {slots : List DecisionSlot}
    {recordedAt : Instant} {db : SlotDatabase ρ}
    (hstored : ∀ s ∈ slots, ∀ row ∈ db.slots.values, conflicting s row = false)
    (hpairs : slots.Pairwise fun s t => conflicting t s = false) :
    ∃ db', createEach recorder Dict.empty recordedAt slots db = .ok (slots, db') ∧
      db'.decisions = db.decisions ∧ (∀ s ∈ slots, db'.slots.get? s.slotId = some s) ∧
        ∀ k row, db.slots.get? k = some row → (∀ s ∈ slots, s.slotId ≠ k) →
          db'.slots.get? k = some row := by
  induction slots generalizing db with
  | nil => exact ⟨db, rfl, rfl, by simp, fun k row hrow _ => hrow⟩
  | cons s rest ih =>
      obtain ⟨hfirst, hrest⟩ := List.pairwise_cons.1 hpairs
      obtain ⟨evidence, hevidence⟩ := hrecords db.evidence none s recordedAt
      have hinsert : insertSlot recorder s recordedAt db =
          .ok { db with slots := db.slots.set s.slotId s, evidence } := by
        simp only [insertSlot, bind_eq_ok, rejectIf_eq_ok, pure_eq_ok]
        refine ⟨(), ?_, evidence, hevidence, rfl⟩
        rw [List.any_eq_true]
        rintro ⟨row, hrow, hconflict⟩
        rw [hstored s List.mem_cons_self row hrow] at hconflict
        exact Bool.false_ne_true hconflict
      have hlater : ∀ t ∈ rest, ∀ row ∈ (db.slots.set s.slotId s).values,
          conflicting t row = false := by
        intro t ht row hrow
        obtain ⟨k, hk⟩ := Dict.mem_values_iff.1 hrow
        rw [Dict.get?_set] at hk
        split at hk
        · cases hk
          exact hfirst t ht
        · exact hstored t (List.mem_cons_of_mem _ ht) row (Dict.mem_values_iff.2 ⟨k, hk⟩)
      obtain ⟨db', hcreate, hdecisions, hnew, hkept⟩ :=
        @ih { db with slots := db.slots.set s.slotId s, evidence } hlater hrest
      have hdistinct : ∀ t ∈ rest, t.slotId ≠ s.slotId := by
        intro t ht heq
        have hconflict := hfirst t ht
        simp [conflicting, heq] at hconflict
      refine ⟨db', ?_, hdecisions, ?_, ?_⟩
      · have hnone : (Dict.empty : Dict String DecisionSlot).get? s.slotId = none := rfl
        simp only [createEach, hnone, hinsert, bind, Except.bind, hcreate, pure, Except.pure]
      · intro t ht
        rcases List.mem_cons.1 ht with rfl | ht
        · exact hkept _ _ (Dict.get?_set_self _ _ _) hdistinct
        · exact hnew t ht
      · intro k row hrow hne
        apply hkept k row _ fun t ht => hne t (List.mem_cons_of_mem _ ht)
        rw [Dict.get?_set_of_ne _ _ (Ne.symm (hne s List.mem_cons_self))]
        exact hrow

end Recovery

/-! ## A recovery at and before the deadline -/

section Sample

/-- A recorder that logs the state and the instant of each transition. -/
def loggingRecorder : SlotTransitionRecorder (List (SlotState × Instant)) where
  record evidence _ current occurredAt := .ok (evidence ++ [(current.state, occurredAt)])

theorem loggingRecorder_records : loggingRecorder.Records :=
  fun _ _ _ _ => ⟨_, rfl⟩

local instance slotHasher : ContentHasher := polynomialHasher

def sampleDate : CalendarDate := ⟨2026, 9, 8⟩

/-- A clock without time zone. -/
def sampleInstant (_ : CalendarDate) (time : LocalTime) : Instant :=
  seconds (3600 * time.1 + 60 * time.2)

def sampleSlotPlan : SlotPlan where
  experimentId := "experiment"
  experimentVersion := 1
  experimentHash := "0000000000000000000000000000000000000000000000000000000000000000"
  signalProviderId := "provider"
  signalProviderVersion := "v1"

/-- The first strategy slot of the sample session becomes ready at this instant. -/
def sampleReadyAt : Instant := sampleInstant sampleDate (9, 46)

def sampleSlotId : String :=
  match strategySlot sampleInstant sampleSlotPlan sampleDate (9, 45) with
  | .ok slot => slot.slotId
  | .error _ => ""

/-- The session is scheduled, its first slot becomes ready and is claimed. -/
def sampleSlotCalls : List SlotCall :=
  match buildSessionSchedule sampleInstant sampleSlotPlan sampleDate
    (some ⟨sampleInstant sampleDate (9, 30), sampleInstant sampleDate (16, 0), true⟩) with
  | .ok schedule =>
      [.createSchedule schedule 0,
        .evaluateReadiness sampleSlotId (some (sampleInstant sampleDate (9, 45))) sampleReadyAt,
        .claim sampleSlotId "worker-1" (sampleReadyAt + seconds 5)]
  | .error _ => []

/-! ### The slots of the sample session -/

/-- The identity of a strategy slot of the session. -/
def strategyIdentity (closeTime : LocalTime) : SlotIdentity where
  experimentId := sampleSlotPlan.experimentId
  experimentVersion := sampleSlotPlan.experimentVersion
  experimentHash := sampleSlotPlan.experimentHash
  signalProviderId := sampleSlotPlan.signalProviderId
  signalProviderVersion := sampleSlotPlan.signalProviderVersion
  sessionDate := sampleDate
  sourceIntervalStart := sampleInstant sampleDate closeTime - seconds 900
  sourceIntervalEnd := sampleInstant sampleDate closeTime
  decisionType := .strategy

/-- The identity of the forced-flat slot of the session. -/
def forcedFlatIdentity : SlotIdentity :=
  { strategyIdentity (15, 43) with
    sourceIntervalStart := sampleInstant sampleDate (15, 43) - seconds 60
    decisionType := .forcedFlat }

def sampleIdentities : List SlotIdentity :=
  strategyCloseTimes.map strategyIdentity ++ [forcedFlatIdentity]

theorem sampleSlotPlan_checks : isSafeCode sampleSlotPlan.experimentId = true ∧
    isSha256 sampleSlotPlan.experimentHash = true ∧
      isSafeCode sampleSlotPlan.signalProviderId = true ∧
        isVersionText sampleSlotPlan.signalProviderVersion = true := by
  decide +kernel

theorem sampleSlotPlan_experimentVersion : sampleSlotPlan.experimentVersion = 1 := rfl

theorem exists_strategySlot (closeTime : LocalTime) :
    ∃ slot, strategySlot sampleInstant sampleSlotPlan sampleDate closeTime = .ok slot := by
  obtain ⟨hid, hhash, hprovider, hversion⟩ := sampleSlotPlan_checks
  refine ⟨_, validated_of_ok ?_⟩
  simp [DecisionSlotFields.check, SlotUpdate.checkClaim, SlotUpdate.checkOutcome,
    SlotState.terminal, SlotState.reasonRequired, hid, hhash, hprovider, hversion, seconds,
    sampleSlotPlan_experimentVersion]

theorem exists_forcedFlatSlot :
    ∃ slot, forcedFlatSlot sampleInstant sampleSlotPlan sampleDate = .ok slot := by
  obtain ⟨hid, hhash, hprovider, hversion⟩ := sampleSlotPlan_checks
  simp only [forcedFlatSlot, DecisionSlot.create]
  refine ⟨_, validated_of_ok ?_⟩
  simp [DecisionSlotFields.check, SlotUpdate.checkClaim, SlotUpdate.checkOutcome,
    SlotState.terminal, SlotState.reasonRequired, hid, hhash, hprovider, hversion, seconds,
    sampleSlotPlan_experimentVersion, sampleInstant]

theorem identity_of_strategySlot {closeTime : LocalTime} {slot : DecisionSlot}
    (h : strategySlot sampleInstant sampleSlotPlan sampleDate closeTime = .ok slot) :
    slot.toSlotIdentity = strategyIdentity closeTime := by
  rw [(DecisionSlot.create_fields h).1]
  rfl

theorem identities_of_strategySlots {times : List LocalTime} {slots : List DecisionSlot}
    (h : List.Forall₂ (fun t slot =>
      strategySlot sampleInstant sampleSlotPlan sampleDate t = .ok slot) times slots) :
    slots.map (·.toSlotIdentity) = times.map strategyIdentity := by
  induction h with
  | nil => rfl
  | cons hslot _ ih => rw [List.map_cons, List.map_cons, identity_of_strategySlot hslot, ih]

/-- The session has a schedule of one slot for each identity. -/
theorem exists_sampleSchedule : ∃ (schedule : SessionSlotSchedule) (first : DecisionSlot),
    buildSessionSchedule sampleInstant sampleSlotPlan sampleDate
      (some ⟨sampleInstant sampleDate (9, 30), sampleInstant sampleDate (16, 0), true⟩) =
        .ok schedule ∧
    schedule.slots.map (·.toSlotIdentity) = sampleIdentities ∧ first ∈ schedule.slots ∧
    strategySlot sampleInstant sampleSlotPlan sampleDate (9, 45) = .ok first := by
  obtain ⟨strategySlots, hstrategy⟩ := exists_collect
    fun t (_ : t ∈ strategyCloseTimes) => exists_strategySlot t
  obtain ⟨forced, hforced⟩ := exists_forcedFlatSlot
  have hrows := collect_eq_ok_iff.1 hstrategy
  have hlength : strategySlots.length = strategyCloseTimes.length := hrows.length_eq.symm
  have hcheck : (⟨sampleDate, strategySlots, some forced, none⟩ : SessionSlotScheduleFields).check =
      .ok () := by
    simp [SessionSlotScheduleFields.check, hlength]
  obtain ⟨schedule, hcreate⟩ : ∃ schedule,
      SessionSlotSchedule.create ⟨sampleDate, strategySlots, some forced, none⟩ = .ok schedule :=
    ⟨_, validated_of_ok hcheck⟩
  have hslots : schedule.slots = strategySlots ++ [forced] := slots_of_create hcreate
  obtain ⟨first, rest, hfirst, -, heq⟩ := List.forall₂_cons_left_iff.1 hrows
  refine ⟨schedule, first, ?_, ?_, ?_, hfirst⟩
  · simp only [buildSessionSchedule, Bool.true_eq_false, if_false, bind_eq_ok, rejectIf_eq_ok]
    exact ⟨(), by simp, strategySlots, hstrategy, forced, hforced, hcreate⟩
  · have hforcedIdentity : forced.toSlotIdentity = forcedFlatIdentity := by
      rw [(DecisionSlot.create_fields hforced).1]
      rfl
    rw [hslots, List.map_append, identities_of_strategySlots hrows, List.map_singleton,
      hforcedIdentity, sampleIdentities]
  · rw [hslots]
    exact List.mem_append_left _ (heq ▸ List.mem_cons_self)

/-- The digest behind the slot ID. -/
def slotDigest (identity : SlotIdentity) : Nat :=
  digestValue 0 (DecisionSlot.identityPayload identity) % 16 ^ 64

/-- The digest behind the correlation ID. -/
def correlationDigest (identity : SlotIdentity) : Nat :=
  digestValue 0 (.seq [.text "slot-correlation-v1", .text
    (deterministicIdFromHashInput "slot" (DecisionSlot.identityPayload identity))]) % 16 ^ 64

theorem nodup_sampleIdentities : (sampleIdentities.map slotDigest).Nodup ∧
    (sampleIdentities.map correlationDigest).Nodup ∧
    (sampleIdentities.map fun i => (i.sourceIntervalEnd, i.decisionType)).Nodup := by
  decide +kernel

theorem slotId_ne {s t : DecisionSlot}
    (h : slotDigest s.toSlotIdentity ≠ slotDigest t.toSlotIdentity) : s.slotId ≠ t.slotId := by
  intro heq
  have hhash := deterministicId_injective heq
  exact polynomialHasher_ne h hhash

theorem correlationId_ne {s t : DecisionSlot}
    (h : correlationDigest s.toSlotIdentity ≠ correlationDigest t.toSlotIdentity) :
    s.correlationId ≠ t.correlationId := by
  intro heq
  have hhash := deterministicId_injective heq
  exact polynomialHasher_ne h hhash

theorem pairwise_of_nodup {β : Type} (g : SlotIdentity → β) {slots : List DecisionSlot}
    (h : slots.map (·.toSlotIdentity) = sampleIdentities) (hn : (sampleIdentities.map g).Nodup) :
    slots.Pairwise fun s t => g s.toSlotIdentity ≠ g t.toSlotIdentity := by
  rw [← h, List.map_map] at hn
  exact List.pairwise_map.1 hn

theorem pairwise_not_conflicting {slots : List DecisionSlot}
    (h : slots.map (·.toSlotIdentity) = sampleIdentities) :
    slots.Pairwise fun s t => SlotDatabase.conflicting t s = false := by
  have hslot := pairwise_of_nodup slotDigest h nodup_sampleIdentities.1
  have hcorrelation := pairwise_of_nodup correlationDigest h nodup_sampleIdentities.2.1
  have hinterval := pairwise_of_nodup _ h nodup_sampleIdentities.2.2
  apply ((hslot.and hcorrelation).and hinterval).imp
  rintro s t ⟨⟨hslot, hcorrelation⟩, hinterval⟩
  have hid := slotId_ne hslot
  have hcorrelationId := correlationId_ne hcorrelation
  rw [SlotDatabase.conflicting, decide_eq_false_iff_not]
  rintro (heq | heq | ⟨-, hend, htype⟩)
  · exact hid heq
  · exact hcorrelationId heq
  · exact hinterval (Prod.ext hend htype)

/-- The calls in order, with their replies. -/
def performCalls {ρ : Type} (recorder : SlotTransitionRecorder ρ) :
    List SlotCall → SlotDatabase ρ → List SlotEvent × SlotDatabase ρ
  | [], db => ([], db)
  | call :: rest, db =>
      let called := Exec.transaction (SlotDatabase.perform recorder call) db
      let later := performCalls recorder rest called.2
      (.called call called.1 :: later.1, later.2)

theorem run_performCalls {ρ : Type} (recorder : SlotTransitionRecorder ρ) {calls : List SlotCall}
    {db : SlotDatabase ρ} {outcome : List SlotEvent × SlotDatabase ρ}
    (h : performCalls recorder calls db = outcome) :
    (slotRuns recorder).Run db outcome.1 outcome.2 := by
  subst h
  induction calls generalizing db with
  | nil => exact Transition.Run.refl
  | cons call rest ih =>
      have hcalled : (slotRuns recorder).step db
          (.called call (Exec.transaction (SlotDatabase.perform recorder call) db).1)
          (Exec.transaction (SlotDatabase.perform recorder call) db).2 := rfl
      exact (Transition.Run.single hcalled).trans ih

theorem performCalls_cons {ρ : Type} {recorder : SlotTransitionRecorder ρ} {call : SlotCall}
    {calls : List SlotCall} {db db' : SlotDatabase ρ} {reply : SlotReply}
    (h : SlotDatabase.perform recorder call db = .ok (reply, db')) :
    (performCalls recorder (call :: calls) db).2 = (performCalls recorder calls db').2 := by
  simp only [performCalls, Exec.transaction, h]

theorem performCalls_append {ρ : Type} (recorder : SlotTransitionRecorder ρ)
    (first later : List SlotCall) (db : SlotDatabase ρ) :
    (performCalls recorder (first ++ later) db).2 =
      (performCalls recorder later (performCalls recorder first db).2).2 := by
  induction first generalizing db with
  | nil => rfl
  | cons call rest ih => exact ih _

/-- No slot, no decision, no evidence. -/
def emptySlotDatabase : SlotDatabase (List (SlotState × Instant)) :=
  ⟨Dict.empty, ⟨[], [], []⟩, []⟩

/-- The calls for a calendar session. -/
def sessionCalls (session : Option ExchangeSession) : List SlotCall :=
  match buildSessionSchedule sampleInstant sampleSlotPlan sampleDate session with
  | .ok schedule =>
      [.createSchedule schedule 0,
        .evaluateReadiness sampleSlotId (some (sampleInstant sampleDate (9, 45))) sampleReadyAt,
        .claim sampleSlotId "worker-1" (sampleReadyAt + seconds 5)]
  | .error _ => []

theorem sampleSlotCalls_eq : sampleSlotCalls = sessionCalls
    (some ⟨sampleInstant sampleDate (9, 30), sampleInstant sampleDate (16, 0), true⟩) := rfl

theorem sessionCalls_of_build {session : Option ExchangeSession} {schedule : SessionSlotSchedule}
    (h : buildSessionSchedule sampleInstant sampleSlotPlan sampleDate session = .ok schedule) :
    sessionCalls session = [.createSchedule schedule 0,
      .evaluateReadiness sampleSlotId (some (sampleInstant sampleDate (9, 45))) sampleReadyAt,
      .claim sampleSlotId "worker-1" (sampleReadyAt + seconds 5)] := by
  unfold sessionCalls
  rw [h]

theorem sampleSlotCalls_of_build {schedule : SessionSlotSchedule}
    (h : buildSessionSchedule sampleInstant sampleSlotPlan sampleDate
      (some ⟨sampleInstant sampleDate (9, 30), sampleInstant sampleDate (16, 0), true⟩) =
        .ok schedule) :
    sampleSlotCalls = [.createSchedule schedule 0,
      .evaluateReadiness sampleSlotId (some (sampleInstant sampleDate (9, 45))) sampleReadyAt,
      .claim sampleSlotId "worker-1" (sampleReadyAt + seconds 5)] := by
  rw [sampleSlotCalls_eq, sessionCalls_of_build h]

theorem slotId_of_strategySlot {slot : DecisionSlot}
    (h : strategySlot sampleInstant sampleSlotPlan sampleDate (9, 45) = .ok slot) :
    slot.slotId = sampleSlotId := by
  unfold sampleSlotId
  generalize strategySlot sampleInstant sampleSlotPlan sampleDate (9, 45) = r at h ⊢
  subst h
  rfl

/-- The session is scheduled on the empty database. -/
theorem exists_scheduledSlot : ∃ (schedule : SessionSlotSchedule) (reply : SlotReply)
    (db : SlotDatabase (List (SlotState × Instant))) (slot : DecisionSlot),
    sampleSlotCalls = [.createSchedule schedule 0,
      .evaluateReadiness sampleSlotId (some (sampleInstant sampleDate (9, 45))) sampleReadyAt,
      .claim sampleSlotId "worker-1" (sampleReadyAt + seconds 5)] ∧
    SlotDatabase.perform loggingRecorder (.createSchedule schedule 0) emptySlotDatabase =
      .ok (reply, db) ∧
    db.slots.get? slot.slotId = some slot ∧ slot.slotId = sampleSlotId ∧
    strategySlot sampleInstant sampleSlotPlan sampleDate (9, 45) = .ok slot := by
  obtain ⟨schedule, slot, hbuild, hidentities, hmem, hslot⟩ := exists_sampleSchedule
  have hnothing : ∀ s ∈ schedule.slots, ∀ row ∈ emptySlotDatabase.slots.values,
      SlotDatabase.conflicting s row = false := by
    intro s _ row hrow
    cases hrow
  obtain ⟨db, hcreate, -, hstored, -⟩ := @SlotDatabase.createEach_fresh _ _ _
    loggingRecorder_records _ 0 _ hnothing (pairwise_not_conflicting hidentities)
  refine ⟨schedule, .scheduled schedule.slots, db, slot, sampleSlotCalls_of_build hbuild, ?_,
    hstored slot hmem, slotId_of_strategySlot hslot, hslot⟩
  show Except.map _ (SlotDatabase.createEach loggingRecorder Dict.empty 0 schedule.slots
    emptySlotDatabase) = _
  rw [hcreate]
  rfl

theorem fields_of_strategySlot {slot : DecisionSlot}
    (h : strategySlot sampleInstant sampleSlotPlan sampleDate (9, 45) = .ok slot) :
    slot.decisionType = .strategy ∧ slot.readyAt = sampleReadyAt ∧
      slot.deadlineAt = sampleReadyAt + seconds 60 ∧
      slot.sourceIntervalEnd = sampleInstant sampleDate (9, 45) ∧ slot.state = .pending := by
  obtain ⟨hcontract, hpending, -, -⟩ := DecisionSlot.create_fields h
  refine ⟨?_, ?_, ?_, ?_, hpending⟩ <;> rw [hcontract] <;> rfl

/-- The first slot becomes ready when its minute has arrived. -/
theorem evaluateReadiness_scheduled {db : SlotDatabase (List (SlotState × Instant))}
    {slot : DecisionSlot} (hstored : db.slots.get? slot.slotId = some slot)
    (hslot : strategySlot sampleInstant sampleSlotPlan sampleDate (9, 45) = .ok slot) :
    ∃ current db', SlotDatabase.perform loggingRecorder (.evaluateReadiness slot.slotId
        (some (sampleInstant sampleDate (9, 45))) sampleReadyAt) db = .ok (.slot current, db') ∧
      db'.slots.get? slot.slotId = some current ∧ current.toSlotContract = slot.toSlotContract ∧
      current.state = .ready ∧ db'.decisions = db.decisions := by
  obtain ⟨hstrategy, hreadyAt, hdeadline, hend, hpending⟩ := fields_of_strategySlot hslot
  have hopen : slot.decisionType ≠ .forcedFlat := by
    rw [hstrategy]
    decide
  have hearly : ¬ slot.deadlineAt ≤ sampleReadyAt := by
    rw [hdeadline]
    decide
  have hreached : ∃ watermark ∈ some (sampleInstant sampleDate (9, 45)),
      slot.sourceIntervalEnd ≤ watermark :=
    ⟨_, rfl, hend.le⟩
  obtain ⟨current, db', hevaluate, hcurrent, hcontract, hready, hdecisions⟩ :=
    SlotDatabase.evaluateReadiness_of_reached loggingRecorder_records hstored hopen hpending hearly
      (not_lt.2 hreadyAt.le) hreached
  refine ⟨current, db', ?_, hcurrent, hcontract, hready, hdecisions⟩
  rw [SlotDatabase.perform, hevaluate]
  rfl

/-- The database after the first calls of the session. -/
def afterFirst (n : Nat) : SlotDatabase (List (SlotState × Instant)) :=
  (performCalls loggingRecorder (sampleSlotCalls.take n) emptySlotDatabase).2

theorem afterFirst_eq (n : Nat) : afterFirst n =
    (performCalls loggingRecorder (sampleSlotCalls.take n) emptySlotDatabase).2 := rfl

/-- After the first two calls, the first slot is ready. -/
theorem exists_readiedSlot : ∃ slot, (afterFirst 2).slots.get? slot.slotId = some slot ∧
    slot.slotId = sampleSlotId ∧ slot.decisionType = .strategy ∧ slot.state = .ready ∧
      slot.readyAt = sampleReadyAt ∧ slot.deadlineAt = sampleReadyAt + seconds 60 ∧
      slot.sourceIntervalEnd = sampleInstant sampleDate (9, 45) := by
  obtain ⟨schedule, reply, db, slot, hcalls, hcreate, hstored, hid, hslot⟩ := exists_scheduledSlot
  obtain ⟨hstrategy, hreadyAt, hdeadline, hend, -⟩ := fields_of_strategySlot hslot
  obtain ⟨current, db', hevaluate, hcurrent, hcontract, hready, -⟩ :=
    evaluateReadiness_scheduled hstored hslot
  have hslotId : current.slotId = slot.slotId := by
    rw [DecisionSlot.slotId, hcontract, DecisionSlot.slotId]
  refine ⟨current, ?_, hslotId.trans hid, ?_, hready, ?_, ?_, ?_⟩
  · rw [hid] at hevaluate
    rw [afterFirst_eq, hcalls, List.take_succ_cons, List.take_succ_cons, List.take_zero, performCalls_cons hcreate,
      performCalls_cons hevaluate, hslotId]
    exact hcurrent
  · rw [hcontract, hstrategy]
  · rw [hcontract, hreadyAt]
  · rw [hcontract, hdeadline]
  · rw [hcontract, hend]

theorem drop_sampleSlotCalls : sampleSlotCalls.drop 2 =
    [.claim sampleSlotId "worker-1" (sampleReadyAt + seconds 5)] := by
  obtain ⟨schedule, reply, db, slot, hcalls, -⟩ := exists_scheduledSlot
  rw [hcalls]
  rfl

/-- The events of the calls and the database they lead to. -/
def sampleSlotOutcome : List SlotEvent × SlotDatabase (List (SlotState × Instant)) :=
  performCalls loggingRecorder sampleSlotCalls emptySlotDatabase

/-- The signal of the slot. -/
def sampleDecisions : DecisionTables := ⟨[("signal", sampleSlotId)], [], []⟩

/-- The slot was claimed and its signal was written. -/
def sampleSlotDatabase : SlotDatabase (List (SlotState × Instant)) :=
  { sampleSlotOutcome.2 with decisions := sampleDecisions }

theorem sample_slotRun : (slotRuns loggingRecorder).Run emptySlotDatabase
    (sampleSlotOutcome.1 ++ [.decided sampleDecisions]) sampleSlotDatabase := by
  have hcalls : (slotRuns loggingRecorder).Run emptySlotDatabase sampleSlotOutcome.1
      sampleSlotOutcome.2 := run_performCalls loggingRecorder rfl
  have hdecided : (slotRuns loggingRecorder).step sampleSlotOutcome.2 (.decided sampleDecisions)
      sampleSlotDatabase := rfl
  exact hcalls.snoc hdecided

theorem sample_slotInit : (slotRuns loggingRecorder).init emptySlotDatabase :=
  rfl

theorem sample_slotReachable : (slotRuns loggingRecorder).Reachable sampleSlotDatabase :=
  ⟨emptySlotDatabase, _, sample_slotInit, sample_slotRun⟩

/-- The claimed slot, with a lease that ends before the deadline. -/
theorem exists_sampleSlot : ∃ slot ∈ sampleSlotDatabase.slots.get? sampleSlotId,
    slot.slotId = sampleSlotId ∧ slot.decisionType = .strategy ∧ slot.state = .claimed ∧
      slot.leaseExpiresAt = some (sampleReadyAt + seconds 35) ∧
      slot.deadlineAt = sampleReadyAt + seconds 60 := by
  obtain ⟨ready, hstored, hid, hstrategy, hready, hreadyAt, hdeadline, -⟩ := exists_readiedSlot
  have hlate : ¬ ready.deadlineAt ≤ sampleReadyAt + seconds 5 := by
    rw [hdeadline]
    decide
  have hopen : ¬ sampleReadyAt + seconds 5 < ready.readyAt := by
    rw [hreadyAt]
    decide
  obtain ⟨slot, db, hclaim, hslot, hcontract, hclaimed, hlease⟩ :=
    @SlotDatabase.claim_of_ready _ _ _ _ _ _ "worker-1" loggingRecorder_records (by decide) hstored
      hready hlate hopen
  have hperform : SlotDatabase.perform loggingRecorder
      (.claim sampleSlotId "worker-1" (sampleReadyAt + seconds 5)) (afterFirst 2) =
        .ok (.claims [⟨.claimed, slot⟩], db) := by
    rw [SlotDatabase.perform, ← hid, hclaim]
    rfl
  have hdb : sampleSlotOutcome.2 = db := by
    rw [sampleSlotOutcome, ← List.take_append_drop 2 sampleSlotCalls, performCalls_append,
      ← afterFirst_eq, drop_sampleSlotCalls, performCalls_cons hperform]
    rfl
  have hslotId : slot.slotId = ready.slotId := by
    rw [DecisionSlot.slotId, hcontract, DecisionSlot.slotId]
  refine ⟨slot, ?_, hslotId.trans hid, ?_, hclaimed, ?_, ?_⟩
  · rw [← hid, sampleSlotDatabase, hdb]
    exact hslot
  · rw [hcontract, hstrategy]
  · rw [hlease, add_assoc]
    rfl
  · rw [hcontract, hdeadline]

/-- From the end of its lease on, the sample slot is recoverable. -/
theorem sample_recoverable {slot : DecisionSlot} {now : Instant}
    (hslot : slot ∈ sampleSlotDatabase.slots.get? sampleSlotId) (hid : slot.slotId = sampleSlotId)
    (hstrategy : slot.decisionType = .strategy) (hclaimed : slot.state = .claimed)
    (hlease : slot.leaseExpiresAt = some (sampleReadyAt + seconds 35))
    (hnow : sampleReadyAt + seconds 35 ≤ now) : Recoverable sampleSlotDatabase slot now where
  stored := hid ▸ hslot
  strategy := hstrategy
  claimed := hclaimed
  expired := ⟨_, hlease, hnow⟩
  materialized := by
    rw [hid]
    simp [sampleSlotDatabase, sampleDecisions, DecisionTables.materialized]

/-- Twenty-five seconds before the deadline, the equivalence yields the completion. -/
theorem materialized_recovery_before_deadline : ∃ slot reply db' b,
    SlotDatabase.perform loggingRecorder
        (.recoverExpiredClaims "worker-2" (sampleReadyAt + seconds 35)) sampleSlotDatabase =
      .ok (reply, db') ∧
    db'.slots.get? (DecisionSlot.slotId slot) = some b ∧ CompletedByRecovery b := by
  obtain ⟨slot, hslot, hid, hstrategy, hclaimed, hlease, hdeadline⟩ := exists_sampleSlot
  have hrecoverable := sample_recoverable hslot hid hstrategy hclaimed hlease le_rfl
  have hearly : sampleReadyAt + seconds 35 < slot.deadlineAt := by
    rw [hdeadline]
    decide
  exact ⟨slot, (materialized_recovery_iff loggingRecorder_records sample_slotReachable hrecoverable
    (.recoverExpiredClaims (by decide))).2 hearly⟩

/-- At the deadline, a restarted worker expires the materialized slot. -/
theorem materialized_recovery_expired_at_deadline :
    ∃ slot, Recoverable sampleSlotDatabase slot (sampleReadyAt + seconds 60) ∧
      ∃ reply db' b, SlotDatabase.perform loggingRecorder
          (.recoverExpiredClaims "worker-2" (sampleReadyAt + seconds 60)) sampleSlotDatabase =
        .ok (reply, db') ∧
      db'.slots.get? slot.slotId = some b ∧ b.state = .expired := by
  obtain ⟨slot, hslot, hid, hstrategy, hclaimed, hlease, hdeadline⟩ := exists_sampleSlot
  have hrecoverable := sample_recoverable hslot hid hstrategy hclaimed hlease
    (show _ ≤ sampleReadyAt + seconds 60 by decide)
  have hkeyed := (SlotHistory.of_run sample_slotInit sample_slotRun).keyed
  obtain ⟨reply, db', b, hperform, hb, houtcome⟩ :=
    SlotDatabase.perform_of_recoverable loggingRecorder_records hkeyed hrecoverable
      (@RecoveryAttempt.recoverExpiredClaims _ _ _ _ _ "worker-2" (by decide))
  rw [RecoveryOutcome, hdeadline, if_neg (by decide)] at houtcome
  exact ⟨slot, hrecoverable, reply, db', b, hperform, hb, houtcome⟩

/-- Along the sample run, the attempts of the slot count the results that handed it over. -/
theorem slot_lease_safety_sample : ∃ slot created,
    sampleSlotDatabase.slots.get? sampleSlotId = some slot ∧
      created ∈ scheduledSlots (sampleSlotOutcome.1 ++ [.decided sampleDecisions]) ∧
      created.slotId = sampleSlotId ∧
      slot.attemptCount = created.attemptCount +
        totalHandovers sampleSlotId (sampleSlotOutcome.1 ++ [.decided sampleDecisions]) := by
  obtain ⟨slot, hslot, -⟩ := exists_sampleSlot
  obtain ⟨created, hmem, hid, hcount⟩ :=
    (slot_lease_safety loggingRecorder sample_slotInit sample_slotRun).2.1 sampleSlotId slot hslot
  exact ⟨slot, created, hslot, hmem, hid, hcount⟩

end Sample

end AdaptiveTrader
