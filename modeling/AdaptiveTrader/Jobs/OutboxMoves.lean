import AdaptiveTrader.Jobs.JobMoves

/-!
# What a delivery operation can do

The delivery of an outbox event has five moves (`OutboxAction`). Every operation of a publisher
changes at most one row of the outbox, by one move (`OutboxWrite`), and leaves the jobs and their
attempt events alone.
-/

set_option autoImplicit false

namespace AdaptiveTrader

open Foundation

/-- The moves of an outbox event, with the publisher and the failure they take. -/
inductive OutboxAction
  | claimed (owner : String)
  | exhausted
  | extended (owner : String)
  | published (owner : String)
  | failed (owner : String) (error : SafeJobError) (next : Option Instant)

/-- The move begins a new delivery attempt. -/
def OutboxAction.claims : OutboxAction → Bool
  | claimed _ => true
  | _ => false

/-- What selects an event for delivery: it waits and is due, or its lease has expired. -/
def OutboxEvent.Deliverable (row : OutboxEvent) (now : Instant) : Prop :=
  (row.state.retryable = true ∧ ∃ next ∈ row.nextAttemptAt, next ≤ now) ∨
    (row.state = .claimed ∧ ∃ lease ∈ row.leaseExpiresAt, lease ≤ now)

/-- The publisher holds the event under a live lease. -/
structure OutboxEvent.LeasedBy (row : OutboxEvent) (owner : String) (now : Instant) : Prop where
  claimed : row.state = .claimed
  forward : row.updatedAt ≤ now
  owner_eq : row.leaseOwner = some owner
  live : ∃ lease ∈ row.leaseExpiresAt, now < lease

namespace OutboxAction

/-- The row a move writes. -/
def row (prior : OutboxEvent) (now : Instant) : OutboxAction → OutboxEvent
  | claimed owner => JobDatabase.claimedRow prior owner now
  | exhausted => JobDatabase.deadRow prior now
  | extended _ => JobDatabase.extendedRow prior now
  | published _ => JobDatabase.completedRow prior now none none
  | failed _ error next => JobDatabase.completedRow prior now (some error) next

/-- The condition under which an operation makes a move. -/
def Admitted (prior : OutboxEvent) (now : Instant) : OutboxAction → Prop
  | claimed _ => prior.Deliverable now ∧ prior.attemptCount < jobMaxAttempts
  | exhausted => prior.Deliverable now ∧ jobMaxAttempts ≤ prior.attemptCount
  | extended owner => prior.LeasedBy owner now
  | published owner => prior.LeasedBy owner now
  | failed owner _ next =>
      prior.LeasedBy owner now ∧ nextAttemptAfter prior.attemptCount now = .ok next

end OutboxAction

/-- One event moves. -/
structure OutboxMove (now : Instant) (action : OutboxAction) (a b : OutboxEvent) : Prop where
  admitted : action.Admitted a now
  written : b = action.row a now

/-- A publisher holds an event: a call found the row, its attempt and a live lease. -/
structure DeliveryHeld (db : JobDatabase) (eventId owner : String) (attemptNumber : Int)
    (now : Instant) (prior : OutboxEvent) : Prop where
  found : db.outbox.get? eventId = some prior
  attempt_eq : (prior.attemptCount : Int) = attemptNumber
  leased : prior.LeasedBy owner now

/-- An operation moved one stored event and changed nothing else. -/
structure OutboxWrite (now : Instant) (action : OutboxAction) (eventId : String) (db : JobDatabase)
    (a b : OutboxEvent) (db' : JobDatabase) : Prop where
  stored : db.outbox.get? eventId = some a
  move : OutboxMove now action a b
  outbox : db'.outbox = db.outbox.set eventId b
  jobs : db'.jobs = db.jobs
  attempts : db'.attempts = db.attempts

namespace OutboxMove

variable {now : Instant} {action : OutboxAction} {a b : OutboxEvent}

/-- The message never changes. -/
theorem message_eq (h : OutboxMove now action a b) : b.toOutboxMessage = a.toOutboxMessage := by
  rw [h.written]
  cases action <;> rfl

theorem version_eq (h : OutboxMove now action a b) : b.version = a.version + 1 := by
  rw [h.written]
  cases action <;> rfl

/-- The delivery attempts count the claims. -/
theorem attemptCount_eq (h : OutboxMove now action a b) :
    b.attemptCount = a.attemptCount + action.claims.toNat := by
  rw [h.written]
  cases action <;> rfl

/-- Nothing that was published or given up moves. -/
theorem not_terminal (h : OutboxMove now action a b) : a.state.terminal = false := by
  have hdeliverable : a.Deliverable now → a.state.terminal = false := by
    rintro (⟨hretryable, -⟩ | ⟨hclaimed, -⟩)
    · cases hstate : a.state <;>
        simp [hstate, OutboxState.retryable, OutboxState.terminal] at hretryable ⊢
    · rw [hclaimed]
      rfl
  have hleased : ∀ {owner : String}, a.LeasedBy owner now → a.state.terminal = false := by
    intro owner hheld
    rw [hheld.claimed]
    rfl
  have hadmitted := h.admitted
  cases action with
  | claimed owner => exact hdeliverable hadmitted.1
  | exhausted => exact hdeliverable hadmitted.1
  | extended owner => exact hleased hadmitted
  | published owner => exact hleased hadmitted
  | failed owner error next => exact hleased hadmitted.1

/-- No delivery attempt goes beyond the limit. -/
theorem attemptCount_le (h : OutboxMove now action a b) (ha : a.attemptCount ≤ jobMaxAttempts) :
    b.attemptCount ≤ jobMaxAttempts := by
  rw [h.attemptCount_eq]
  cases action with
  | claimed owner => exact h.admitted.2
  | exhausted => exact ha
  | extended owner => exact ha
  | published owner => exact ha
  | failed owner error next => exact ha

end OutboxMove

/-! ## Operations read backwards -/

namespace JobDatabase

variable [ContentHasher] {db db' : JobDatabase} {row : OutboxEvent} {now : Instant}

theorem requireOutboxLease_eq_ok {owner : String} {attemptNumber : Int}
    (h : requireOutboxLease row owner attemptNumber now = .ok ()) :
    (row.attemptCount : Int) = attemptNumber ∧ row.LeasedBy owner now := by
  simp only [requireOutboxLease, requireForwardTime, unit_bind_eq_ok, rejectIf_eq_ok, not_or,
    not_not, not_lt] at h
  obtain ⟨-, hforward, hstate, howner, hattempt, hlive⟩ := h
  exact ⟨hattempt, hstate, hforward, howner, hlive⟩

theorem requiredOutbox_eq_ok {eventId : String} (h : db.requiredOutbox eventId = .ok row) :
    db.outbox.get? eventId = some row := by
  simp only [requiredOutbox, bind_eq_ok, require_eq_ok, pure_eq_ok] at h
  obtain ⟨found, hfound, -, -, rfl⟩ := h
  exact hfound

/-- The guarded write of an event that is stored under its ID. -/
theorem persistOutbox_write (hkeyed : db.Keyed) {eventId : String} {action : OutboxAction}
    (hstored : db.outbox.get? eventId = some row) (hadmitted : action.Admitted row now)
    (h : db.persistOutbox row (action.row row now) = .ok db') :
    OutboxWrite now action eventId db row (action.row row now) db' := by
  simp only [persistOutbox, bind_eq_ok, require_eq_ok, Dict.compareAndSet_eq_some, pure_eq_ok] at h
  obtain ⟨outbox, ⟨_, -, -, rfl⟩, rfl⟩ := h
  have hid : row.outboxEventId = eventId := hkeyed.outbox eventId row hstored
  exact ⟨hstored, ⟨hadmitted, rfl⟩, by rw [hid], rfl, rfl⟩

theorem stored_of_dueOutbox (hkeyed : db.Keyed) (h : db.dueOutbox now = some row) :
    db.outbox.get? row.outboxEventId = some row ∧ row.Deliverable now := by
  obtain ⟨hvalue, hselected⟩ := List.mem_filter.1 (mem_sortedBy.1 (List.mem_of_head? h))
  obtain ⟨k, hk⟩ := Dict.mem_values_iff.1 hvalue
  have hdeliverable := of_decide_eq_true hselected
  rw [hkeyed.outbox k row hk]
  exact ⟨hk, hdeliverable⟩

omit [ContentHasher] in
theorem validationGuarded_eq_ok {α : Type} {message : String} {x : Except PlatformError α} {a : α} :
    validationGuarded message x = .ok a ↔ x = .ok a := by
  unfold validationGuarded
  split
  · simp
  · rfl

/-- A claim finds nothing due, gives an exhausted event up, or takes the due event. -/
theorem claimOutbox_write (hkeyed : db.Keyed) {owner : String}
    {event : Option ClaimedOutboxEvent} (h : claimOutbox owner now db = .ok (event, db')) :
    (event = none ∧ db' = db) ∨
      (event = none ∧ ∃ eventId a b, OutboxWrite now .exhausted eventId db a b db') ∨
      ∃ claim a b, event = some claim ∧
        OutboxWrite now (.claimed owner) claim.outboxEventId db a b db' := by
  simp only [claimOutbox, unit_bind_eq_ok, sqlGuarded_eq_ok, validationGuarded_eq_ok] at h
  obtain ⟨-, h⟩ := h
  unfold claimOutboxOnConnection at h
  split at h
  · cases h
    exact Or.inl ⟨rfl, rfl⟩
  · next row hdue =>
      obtain ⟨hstored, hdeliverable⟩ := stored_of_dueOutbox hkeyed hdue
      simp only [bind_eq_ok] at h
      obtain ⟨-, -, -, -, h⟩ := h
      split at h
      · next hlimit =>
          simp only [bind_eq_ok, pure_eq_ok] at h
          obtain ⟨db₁, hpersist, heq⟩ := h
          cases heq
          have hadmitted : OutboxAction.exhausted.Admitted row now := ⟨hdeliverable, hlimit⟩
          exact Or.inr (Or.inl ⟨rfl, _, _, _,
            persistOutbox_write hkeyed hstored hadmitted hpersist⟩)
      · next hlimit =>
          simp only [bind_eq_ok, pure_eq_ok] at h
          obtain ⟨db₁, hpersist, claim, hclaim, heq⟩ := h
          cases heq
          obtain ⟨_, rfl⟩ := validated_eq_ok.1 hclaim
          have hadmitted : (OutboxAction.claimed owner).Admitted row now :=
            ⟨hdeliverable, not_le.1 hlimit⟩
          exact Or.inr (Or.inr ⟨_, _, _, rfl,
            persistOutbox_write hkeyed hstored hadmitted hpersist⟩)

theorem heartbeatOutbox_write (hkeyed : db.Keyed) {eventId owner : String} {attemptNumber : Int}
    {event : ClaimedOutboxEvent}
    (h : heartbeatOutbox eventId owner attemptNumber now db = .ok (event, db')) :
    ∃ a b, DeliveryHeld db eventId owner attemptNumber now a ∧
      OutboxWrite now (.extended owner) eventId db a b db' := by
  simp only [heartbeatOutbox, sqlGuarded_eq_ok, bind_eq_ok, pure_eq_ok] at h
  obtain ⟨_, -, _, -, _, -, row, hrow, ⟨⟩, hlease, db₁, hpersist, claim, -, heq⟩ := h
  cases heq
  have hstored := requiredOutbox_eq_ok hrow
  obtain ⟨hattempt, hleased⟩ := requireOutboxLease_eq_ok hlease
  have hadmitted : (OutboxAction.extended owner).Admitted row now := hleased
  exact ⟨row, _, ⟨hstored, hattempt, hleased⟩,
    persistOutbox_write hkeyed hstored hadmitted hpersist⟩

theorem publishOutbox_write (hkeyed : db.Keyed) {eventId owner : String} {attemptNumber : Int}
    {reply : Unit} (h : publishOutbox eventId owner attemptNumber now db = .ok (reply, db')) :
    ∃ a b, DeliveryHeld db eventId owner attemptNumber now a ∧
      OutboxWrite now (.published owner) eventId db a b db' := by
  simp only [publishOutbox, completeOutbox, sqlGuarded_eq_ok, bind_eq_ok, pure_eq_ok] at h
  obtain ⟨_, -, _, -, _, -, row, hrow, ⟨⟩, hlease, next, rfl, db₁, hpersist, heq⟩ := h
  cases heq
  have hstored := requiredOutbox_eq_ok hrow
  obtain ⟨hattempt, hleased⟩ := requireOutboxLease_eq_ok hlease
  have hadmitted : (OutboxAction.published owner).Admitted row now := hleased
  exact ⟨row, _, ⟨hstored, hattempt, hleased⟩,
    persistOutbox_write hkeyed hstored hadmitted hpersist⟩

theorem failOutbox_write (hkeyed : db.Keyed) {eventId owner : String} {attemptNumber : Int}
    {error : SafeJobError} {reply : Unit}
    (h : failOutbox eventId owner attemptNumber now error db = .ok (reply, db')) :
    ∃ next a b, DeliveryHeld db eventId owner attemptNumber now a ∧
      OutboxWrite now (.failed owner error next) eventId db a b db' := by
  simp only [failOutbox, completeOutbox, sqlGuarded_eq_ok, bind_eq_ok, pure_eq_ok] at h
  obtain ⟨_, -, _, -, _, -, row, hrow, ⟨⟩, hlease, next, hnext, db₁, hpersist, heq⟩ := h
  cases heq
  have hstored := requiredOutbox_eq_ok hrow
  obtain ⟨hattempt, hleased⟩ := requireOutboxLease_eq_ok hlease
  have hadmitted : (OutboxAction.failed owner error next).Admitted row now := ⟨hleased, hnext⟩
  exact ⟨next, row, _, ⟨hstored, hattempt, hleased⟩,
    persistOutbox_write hkeyed hstored hadmitted hpersist⟩

end JobDatabase

end AdaptiveTrader
