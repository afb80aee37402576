import AdaptiveTrader.Scheduling.SlotMoves
import AdaptiveTrader.Locks.AuditLocks

/-!
# Locks taken by slot recovery

`AuditSlotTransitionRecorder` appends each transition to the audit stream of its slot, and on
PostgreSQL the append takes the lock of the stream. `create_schedule` takes the locks of all its
slots first, in their order; `recover_expired_claims` takes them one by one, in the order of the
deadlines.

Beside the recorder that takes locks stands the one that takes none. A recovery with the first
returns what a recovery with the second returns when the locks of the expired claims ascend, and
otherwise fails and recovers no claim (`recoverExpiredClaims_locked`,
`recoverExpiredClaims_locked_error`).
-/

set_option autoImplicit false

namespace AdaptiveTrader

open Foundation Storage

/-- `state.value.lower()`. -/
def SlotState.lower : SlotState → String
  | pending => "pending"
  | waitingForData => "waiting_for_data"
  | ready => "ready"
  | claimed => "claimed"
  | completed => "completed"
  | skipped => "skipped"
  | expired => "expired"
  | failed => "failed"
  | flattenRequired => "flatten_required"

/-- The audit stream of a slot. -/
def slotAuditStream (slotId : String) : String := AuditWriter.scheduler.value ++ ":" ++ slotId

variable [ContentHasher] {ρ : Type} (keys : LockKeys)

/-- The payload `AuditSlotTransitionRecorder.record` writes. -/
def slotTransitionPayload (previous : Option DecisionSlot) (current : DecisionSlot) :
    List (String × Canonical) :=
  [("attempt_count", .int current.attemptCount),
    ("from_state", .text ((previous.map fun slot => slot.state.lower).getD "pending")),
    ("idempotency_key", .text (deterministicIdFromHashInput "slot_transition"
      (.seq [.text "slot-transition-v1", .text current.slotId, .int current.version]))),
    ("slot_id", .text current.slotId), ("to_state", .text current.state.lower),
    ("version", .int current.version)] ++
  (current.reasonCode.map fun reason => ("reason_code", Canonical.text reason)).toList ++
  (current.completedAt.map fun instant => ("completed_at", Canonical.instant instant)).toList

/-- The type of the event. -/
def slotEventType (previous : Option DecisionSlot) : String :=
  if previous.isNone then "slot.created" else "slot.transitioned"

/-- `AuditSlotTransitionRecorder` where appends take no locks. -/
def auditSlotTransitionRecorder : SlotTransitionRecorder (List AuditEvent) where
  record events previous current occurredAt := do
    let payload ← AuditPayload.fromMapping (slotTransitionPayload previous current)
    appendAudit (some .scheduler) (slotAuditStream current.slotId) (slotEventType previous)
      occurredAt payload events

/-- `AuditSlotTransitionRecorder` on PostgreSQL. -/
def auditSlotTransitionRecorderLocked :
    SlotTransitionRecorder (PostgresConnection × List AuditEvent) where
  record evidence previous current occurredAt := do
    let payload ← AuditPayload.fromMapping (slotTransitionPayload previous current)
    appendAuditLocked keys (some .scheduler) (slotAuditStream current.slotId)
      (slotEventType previous) occurredAt payload evidence.1 evidence.2

/-- The lock of the audit stream of a slot. -/
def slotLock (slot : DecisionSlot) : PostgresAdvisoryLockRequest :=
  keys.request .audit (slotAuditStream slot.slotId)

/-- A recorder that takes the lock of the slot, beside the same recorder without the lock. -/
def RecordsBehindLock (locked : SlotTransitionRecorder (PostgresConnection × ρ))
    (recorder : SlotTransitionRecorder ρ) : Prop :=
  ∀ c evidence previous current occurredAt, TakesLock c (slotLock keys current)
    (locked.record (c, evidence) previous current occurredAt)
    (recorder.record evidence previous current occurredAt)

variable {keys} in
theorem auditSlotTransitionRecorder_recordsBehindLock : RecordsBehindLock keys
    (auditSlotTransitionRecorderLocked keys) auditSlotTransitionRecorder := by
  intro c evidence previous current occurredAt
  refine TakesLock.bind fun payload _ => ?_
  exact appendAuditLocked_takesLock keys (some .scheduler) (slotAuditStream current.slotId)
    (slotEventType previous) occurredAt payload c evidence

namespace SlotDatabase

/-- A database in a transaction on a connection. -/
def onConnection (db : SlotDatabase ρ) (c : PostgresConnection) :
    SlotDatabase (PostgresConnection × ρ) where
  slots := db.slots
  decisions := db.decisions
  evidence := (c, db.evidence)

/-- A database without the connection of its transaction. -/
def withoutConnection (db : SlotDatabase (PostgresConnection × ρ)) : SlotDatabase ρ where
  slots := db.slots
  decisions := db.decisions
  evidence := db.evidence.2

/-- The locks `recover_expired_claims` takes, in order. -/
def recoveryLocks (now : Instant) (db : SlotDatabase ρ) : List PostgresAdvisoryLockRequest :=
  (db.expiredClaims now).map (slotLock keys)

variable {keys} {recorder : SlotTransitionRecorder ρ}
  {locked : SlotTransitionRecorder (PostgresConnection × ρ)} {c : PostgresConnection} {db : SlotDatabase ρ}
  {slot : DecisionSlot} {now : Instant} {owner : String}

/-- A claim whose lease or deadline has passed. -/
def Expired (slot : DecisionSlot) (now : Instant) : Prop :=
  slot.state = .claimed ∧ ((∃ lease ∈ slot.leaseExpiresAt, lease ≤ now) ∨
    completionDeadlineMissed slot now = true)

/-- What a recovery writes depends on the slot, the decisions and the instant only. -/
theorem claimLocked_of_expired (h : Expired slot now) (decisions : DecisionTables)
    (owner : String) : ∃ (status : ClaimStatus) (update : SlotUpdate),
      ∀ {σ : Type} (recorder : SlotTransitionRecorder σ) (db : SlotDatabase σ),
        db.decisions = decisions → claimLocked recorder slot owner now db = (do
          let written ← transition recorder db slot update now
          pure (claimed status written)) := by
  obtain ⟨hclaimed, hexpired⟩ := h
  have hterminal : ¬ slot.state.terminal = true := by
    rw [hclaimed]
    decide
  by_cases hmissed : completionDeadlineMissed slot now = true
  · refine ⟨.deadlineElapsed, .expiry slot now (completionDeadlineReason slot), ?_⟩
    intro σ recorder db _
    unfold claimLocked
    rw [if_neg hterminal, if_pos hclaimed, if_pos hmissed]
    rfl
  obtain ⟨lease, hlease, hle⟩ := hexpired.resolve_right hmissed
  have hheld : ¬ ∃ lease ∈ slot.leaseExpiresAt, now < lease := by
    rintro ⟨lease', hlease', hlt⟩
    cases hlease.symm.trans hlease'
    exact absurd hle (not_le.2 hlt)
  by_cases hcutoff : slot.decisionType = .forcedFlat ∧ slot.deadlineAt ≤ now
  · refine ⟨.deadlineElapsed,
      .expiry slot now (some "forced_flat_lease_expired_after_submission_cutoff"), ?_⟩
    intro σ recorder db _
    unfold claimLocked
    rw [if_neg hterminal, if_pos hclaimed, if_neg hmissed, if_neg hheld, if_pos hcutoff]
    rfl
  -- The deadline of a strategy slot is its completion deadline, which has not passed.
  have hdeadline : ¬ (slot.decisionType ≠ .forcedFlat ∧ slot.deadlineAt ≤ now) := by
    rintro ⟨hstrategy, hdeadline⟩
    cases htype : slot.decisionType with
    | forcedFlat => exact hstrategy htype
    | strategy => simp [completionDeadlineMissed, htype, hdeadline] at hmissed
  by_cases hmaterialized : slot.decisionType ≠ .forcedFlat ∧
      decisions.materialized slot.slotId = true
  · refine ⟨.materialized,
      .outcome slot .completed now "decision_materialized_before_recovery", ?_⟩
    rintro σ recorder db rfl
    unfold claimLocked
    rw [if_neg hterminal, if_pos hclaimed, if_neg hmissed, if_neg hheld, if_neg hcutoff,
      if_neg hdeadline, if_pos hmaterialized]
  · refine ⟨.reclaimed, .claim owner now (slot.attemptCount + 1), ?_⟩
    rintro σ recorder db rfl
    unfold claimLocked
    rw [if_neg hterminal, if_pos hclaimed, if_neg hmissed, if_neg hheld, if_neg hcutoff,
      if_neg hdeadline, if_neg hmaterialized]

/-! ## A recovery with and without locks -/

/-- The connection of a result and the result without it. -/
def separate {α : Type} (w : α × SlotDatabase (PostgresConnection × ρ)) :
    PostgresConnection × α × SlotDatabase ρ :=
  (w.2.evidence.1, w.1, w.2.withoutConnection)

theorem transition_takesLock (hlocked : RecordsBehindLock keys locked recorder)
    {update : SlotUpdate} : TakesLock c (slotLock keys slot)
    (transition locked (db.onConnection c) slot update now >>=
      fun w => pure (separate w))
    (transition recorder db slot update now) := by
  unfold transition
  simp only [bind_assoc]
  refine TakesLock.bind fun _ _ => TakesLock.bind fun current hcurrent =>
    TakesLock.bind fun slots _ => ?_
  have hid : current.slotId = slot.slotId :=
    DecisionSlot.slotId_of_evolved (DecisionSlot.evolve_eq_ok.1 hcurrent)
  have hlock : slotLock keys slot = slotLock keys current := by
    rw [slotLock, slotLock, hid]
  rw [hlock]
  exact (hlocked c db.evidence (some slot) current now).map fun evidence => (current, { db with slots, evidence })

/-- A recovered claim takes the lock of its slot. -/
theorem claimLocked_takesLock (hlocked : RecordsBehindLock keys locked recorder)
    (h : Expired slot now) : TakesLock c (slotLock keys slot)
    (claimLocked locked slot owner now (db.onConnection c) >>=
      fun w => pure (separate w))
    (claimLocked recorder slot owner now db) := by
  obtain ⟨status, update, hmove⟩ := claimLocked_of_expired h db.decisions owner
  rw [hmove recorder db rfl, hmove locked (db.onConnection c) rfl]
  have hwritten := (@transition_takesLock _ _ keys recorder locked c db slot now hlocked update).map
    fun w => claimed status w
  simp only [bind_assoc, pure_bind] at hwritten ⊢
  exact hwritten

/-- The selected rows are expired claims. -/
theorem expired_of_mem_expiredClaims (h : slot ∈ db.expiredClaims now) : Expired slot now := by
  simp only [expiredClaims, mem_sortedBy, List.mem_filter, decide_eq_true_eq] at h
  obtain ⟨-, hclaimed, hexpired⟩ := h
  refine ⟨hclaimed, ?_⟩
  rcases hexpired with hlease | ⟨htype, hle⟩ | ⟨htype, hlt⟩
  · exact Or.inl hlease
  · refine Or.inr ?_
    cases hslot : slot.decisionType with
    | forcedFlat => exact absurd hslot htype
    | strategy => simpa [completionDeadlineMissed, hslot] using hle
  · refine Or.inr ?_
    simpa [completionDeadlineMissed, htype] using hlt

omit [ContentHasher] in
theorem withoutConnection_separate {α : Type} {x : Except PlatformError
      (α × SlotDatabase (PostgresConnection × ρ))} {y : Except PlatformError (α × SlotDatabase ρ)}
    {c' : PostgresConnection}
    (h : (x >>= fun w => pure (separate w)) = y.map fun b => (c', b)) :
    x = y.map fun b => (b.1, b.2.onConnection c') := by
  cases x with
  | error e =>
      cases y with
      | error e' =>
          have he : e = e' := Except.error.inj h
          rw [he]
          rfl
      | ok b => cases h
  | ok w =>
      cases y with
      | error e' => cases h
      | ok b =>
          obtain ⟨hc, hpair⟩ := Prod.mk.inj (Except.ok.inj h)
          subst hc
          rw [← hpair]
          rfl

/-- The loop with locks that ascend. -/
theorem recoverEach_locked (hlocked : RecordsBehindLock keys locked recorder)
    {slots : List DecisionSlot} {locks : List PostgresAdvisoryLockRequest} (hc : c.Holds locks) (hslots : ∀ s ∈ slots, Expired s now)
    (h : Ascends locks (slots.map (slotLock keys))) :
    (recoverEach locked owner now slots (db.onConnection c)).map
        (fun w => (w.1, w.2.withoutConnection)) = recoverEach recorder owner now slots db := by
  induction slots generalizing c locks db with
  | nil => rfl
  | cons slot rest ih =>
      obtain ⟨hadmits, hrest⟩ := h
      obtain ⟨c', hlock, hc'⟩ := hc.lock_eq_ok hadmits
      have htakes := @claimLocked_takesLock _ _ keys recorder locked c db slot now owner hlocked
        (hslots slot List.mem_cons_self)
      have hfirst := withoutConnection_separate (htakes.granted c' hlock)
      have hothers : ∀ d : SlotDatabase ρ,
          (recoverEach locked owner now rest (d.onConnection c')).map
            (fun w => (w.1, w.2.withoutConnection)) = recoverEach recorder owner now rest d :=
        fun d => ih hc' (fun s hs => hslots s (List.mem_cons_of_mem _ hs)) hrest
      unfold recoverEach
      rw [hfirst]
      cases claimLocked recorder slot owner now db with
      | error e => rfl
      | ok first =>
          simp only [Except.map, bind, Except.bind]
          rw [← hothers first.2]
          cases recoverEach locked owner now rest
            (first.2.onConnection c') <;> rfl

/-- The loop with locks that do not ascend. -/
theorem recoverEach_locked_error (hlocked : RecordsBehindLock keys locked recorder)
    {slots : List DecisionSlot}
    {locks : List PostgresAdvisoryLockRequest} {result : List ClaimResult × SlotDatabase ρ}
    (hc : c.Holds locks) (hslots : ∀ s ∈ slots, Expired s now)
    (hplain : recoverEach recorder owner now slots db = .ok result)
    (h : ¬ Ascends locks (slots.map (slotLock keys))) :
    recoverEach locked owner now slots (db.onConnection c) =
      .error auditLockOrderError := by
  induction slots generalizing c locks db result with
  | nil => exact absurd trivial h
  | cons slot rest ih =>
      have htakes := @claimLocked_takesLock _ _ keys recorder locked c db slot now owner hlocked
        (hslots slot List.mem_cons_self)
      simp only [recoverEach, bind_eq_ok] at hplain
      obtain ⟨first, hfirst, others, hothers, -⟩ := hplain
      unfold recoverEach
      by_cases hadmits : Admits locks (slotLock keys slot)
      · obtain ⟨c', hlock, hc'⟩ := hc.lock_eq_ok hadmits
        have hrest := ih hc' (fun s hs => hslots s (List.mem_cons_of_mem _ hs)) hothers
          fun hrest => h ⟨hadmits, hrest⟩
        rw [withoutConnection_separate (htakes.granted c' hlock), hfirst]
        simp only [Except.map, bind, Except.bind, hrest]
      · have hrefused := htakes.refused (hc.lock_eq_error hadmits) first hfirst
        cases hlocked : claimLocked locked slot owner now
            (db.onConnection c) with
        | error e =>
            rw [hlocked] at hrefused
            exact congrArg Except.error (Except.error.inj hrefused)
        | ok w =>
            rw [hlocked] at hrefused
            cases hrefused

/-- With locks that ascend, a recovery does what it does without locks. -/
theorem recoverExpiredClaims_locked (hlocked : RecordsBehindLock keys locked recorder)
    (transaction : Nat)
    (h : Ascends [] (db.recoveryLocks keys now)) :
    (recoverExpiredClaims locked owner now
      (db.onConnection { transaction := some transaction })).map
        (fun w => (w.1, w.2.withoutConnection)) = recoverExpiredClaims recorder owner now db := by
  have hloop := @recoverEach_locked _ _ keys recorder locked _ db now owner hlocked _ _
    (PostgresConnection.holds_nil transaction) (fun s hs => expired_of_mem_expiredClaims hs) h
  unfold recoverExpiredClaims
  cases requireOwner owner with
  | error e => rfl
  | ok _ => exact hloop

/-- With locks that do not ascend, it fails where it would succeed without them. -/
theorem recoverExpiredClaims_locked_error (hlocked : RecordsBehindLock keys locked recorder)
    (transaction : Nat)
    {result : List ClaimResult × SlotDatabase ρ}
    (hplain : recoverExpiredClaims recorder owner now db = .ok result)
    (h : ¬ Ascends [] (db.recoveryLocks keys now)) :
    recoverExpiredClaims locked owner now
      (db.onConnection { transaction := some transaction }) = .error auditLockOrderError := by
  simp only [recoverExpiredClaims, unit_bind_eq_ok] at hplain
  have hloop := recoverEach_locked_error hlocked (PostgresConnection.holds_nil transaction)
    (fun s hs => expired_of_mem_expiredClaims hs) hplain.2 h
  unfold recoverExpiredClaims
  rw [hplain.1]
  exact hloop

end SlotDatabase

end AdaptiveTrader
