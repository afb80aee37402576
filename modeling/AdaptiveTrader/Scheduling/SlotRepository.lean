import AdaptiveTrader.Foundation.Exec
import AdaptiveTrader.Foundation.Sorted
import AdaptiveTrader.Foundation.Tables
import AdaptiveTrader.Scheduling.Slots

/-!
# The slot repository

The operations of `DecisionSlotRepository`. Each is one serialized transaction: a function from the
database to an error or a reply with the next database; an error rolls everything back. A transition
writes a row that still has the version and content it was read with, and records its evidence in
the same transaction.

The recorder of transitions is injected, so it is an argument and may reject any transition. The
materialization probe reads the tables of signals, risk decisions and plans, which other components
write.
-/

set_option autoImplicit false

namespace AdaptiveTrader

open Foundation

/-- Outcomes of a claim attempt. -/
inductive ClaimStatus
  | claimed
  | reclaimed
  | leaseHeld
  | notReady
  | notAvailable
  | deadlineElapsed
  | materialized
  deriving DecidableEq

structure ClaimResult where
  status : ClaimStatus
  slot : DecisionSlot
  deriving DecidableEq

/-- Records one slot state in the transaction of its projection update. -/
structure SlotTransitionRecorder (ρ : Type) where
  record : ρ → Option DecisionSlot → DecisionSlot → Instant → Except PlatformError ρ

/-- The tables the materialization probe reads: signals and risk decisions with their slot, and
plans with their risk decision. -/
structure DecisionTables where
  signalEnvelopes : List (String × String)
  riskDecisions : List (String × String)
  executionPlans : List (String × String)

/-- `PlatformMaterializationProbe.exists`. -/
def DecisionTables.materialized (d : DecisionTables) (slotId : String) : Bool :=
  d.signalEnvelopes.any (fun signal => signal.2 == slotId) ||
    d.riskDecisions.any (fun risk => risk.2 == slotId) ||
    d.executionPlans.any fun plan =>
      d.riskDecisions.any fun risk => plan.2 == risk.1 && risk.2 == slotId

/-- The slot table, the decision tables and the evidence of the recorder. -/
structure SlotDatabase (ρ : Type) where
  slots : Dict String DecisionSlot
  decisions : DecisionTables
  evidence : ρ

/-- `_completion_deadline_missed`. -/
def completionDeadlineMissed (slot : DecisionSlot) (now : Instant) : Bool :=
  match slot.decisionType with
  | .forcedFlat => decide (slot.requiredCompletionAt < now)
  | .strategy => decide (slot.deadlineAt ≤ now)

/-- `_completion_deadline_reason`. -/
def completionDeadlineReason (slot : DecisionSlot) : Option String :=
  match slot.decisionType with
  | .forcedFlat => some "forced_flat_required_completion_deadline_missed"
  | .strategy => none

/-- `_require_owner`. -/
def requireOwner (owner : String) : Except PlatformError Unit :=
  rejectIf (isVersionText owner = false) (.slotTransition "claim owner is invalid")

/-- `_require_reason`. -/
def requireReason (reason : String) : Except PlatformError Unit :=
  rejectIf (isSafeCode reason = false) (.slotTransition "reason code is invalid")

/-- `_require_slot_id`. -/
def requireSlotId (slotId : String) : Except PlatformError Unit := do
  rejectIf (¬ ("slot_".toList.isPrefixOf slotId.toList = true ∧ slotId.toList.length = 69))
    (.slotTransition "slot ID is invalid")
  rejectIf (matchesExactly isHexDigit 64 (slotId.toList.drop 5) = false)
    (.slotTransition "hash is invalid")

/-- `_require_owned_claim`. -/
def requireOwnedClaim (slot : DecisionSlot) (owner : String) : Except PlatformError Unit :=
  rejectIf (slot.state ≠ .claimed ∨ slot.claimOwner ≠ some owner)
    (.slotTransition "slot is not claimed by this worker")

/-- `_require_live_claim`. -/
def requireLiveClaim (slot : DecisionSlot) (now : Instant) : Except PlatformError Unit :=
  rejectIf (∃ lease ∈ slot.leaseExpiresAt, lease ≤ now) (.slotTransition "slot lease has expired")

namespace SlotUpdate

/-- A lease of thirty seconds. -/
def claim (owner : String) (now : Instant) (attemptCount : Nat) : SlotUpdate :=
  { state := .claimed, claimOwner := some owner, claimedAt := some now,
    leaseExpiresAt := some (now + leaseDuration), attemptCount, reasonCode := none }

/-- A terminal outcome. -/
def outcome (slot : DecisionSlot) (state : SlotState) (now : Instant) (reason : String) :
    SlotUpdate :=
  { state, attemptCount := slot.attemptCount, completedAt := some now, reasonCode := some reason }

/-- What `_expire_locked` writes. -/
def expiry (slot : DecisionSlot) (now : Instant) (reason : Option String) : SlotUpdate :=
  match slot.decisionType with
  | .forcedFlat =>
      outcome slot .failed now (reason.getD "forced_flat_submission_deadline_elapsed")
  | .strategy => outcome slot .expired now (reason.getD "decision_deadline_elapsed")

end SlotUpdate

section Repository

variable [ContentHasher] {ρ : Type} (recorder : SlotTransitionRecorder ρ)

namespace SlotDatabase

/-- `_require_on_connection`. -/
def requireSlot (db : SlotDatabase ρ) (slotId : String) : Except PlatformError DecisionSlot := do
  requireSlotId slotId
  require (db.slots.get? slotId) (.slotTransition "decision slot does not exist")

/-- `_transition`. -/
def transition (db : SlotDatabase ρ) (previous : DecisionSlot) (update : SlotUpdate)
    (now : Instant) : Except PlatformError (DecisionSlot × SlotDatabase ρ) := do
  rejectIf (update.state ∉ previous.state.allowedNextStates)
    (.slotTransition "slot state transition is prohibited")
  let current ← previous.evolve update
  let slots ← require
    (db.slots.compareAndSet previous.slotId
      (fun row => decide (row.version = previous.version ∧ row.contentHash = previous.contentHash))
      current)
    (.slotTransition "decision slot changed during transition")
  let evidence ← recorder.record db.evidence (some previous) current now
  pure (current, { db with slots, evidence })

/-- `_expire_locked`. -/
def expireLocked (db : SlotDatabase ρ) (slot : DecisionSlot) (now : Instant)
    (reason : Option String := none) : Except PlatformError (DecisionSlot × SlotDatabase ρ) :=
  transition recorder db slot (.expiry slot now reason) now

/-- `evaluate_readiness`. -/
def evaluateReadiness (slotId : String) (activeBasketWatermark : Option Instant) (now : Instant)
    (db : SlotDatabase ρ) : Except PlatformError (DecisionSlot × SlotDatabase ρ) := do
  let slot ← db.requireSlot slotId
  if slot.decisionType = .forcedFlat ∨ slot.state.terminal = true then
    pure (slot, db)
  else if slot.state = .claimed then
    .error (.slotTransition "claimed slot readiness cannot be reevaluated")
  else if slot.deadlineAt ≤ now then
    expireLocked recorder db slot now
  else if now < slot.readyAt then
    pure (slot, db)
  else if ∃ watermark ∈ activeBasketWatermark, slot.sourceIntervalEnd ≤ watermark then
    if slot.state = .ready then
      pure (slot, db)
    else
      transition recorder db slot
        { state := .ready, attemptCount := slot.attemptCount, reasonCode := none } now
  else if slot.state = .waitingForData then
    pure (slot, db)
  else
    transition recorder db slot
      { state := .waitingForData, attemptCount := slot.attemptCount,
        reasonCode := some "active_basket_not_ready" } now

/-- Replace the slot of a claim result by the transitioned one. -/
def claimed (status : ClaimStatus) (written : DecisionSlot × SlotDatabase ρ) :
    ClaimResult × SlotDatabase ρ :=
  (⟨status, written.1⟩, written.2)

/-- `_claim_locked`. -/
def claimLocked (slot : DecisionSlot) (owner : String) (now : Instant) (db : SlotDatabase ρ) :
    Except PlatformError (ClaimResult × SlotDatabase ρ) :=
  if slot.state.terminal = true then
    .ok (⟨.notAvailable, slot⟩, db)
  else if slot.state = .claimed then
    if completionDeadlineMissed slot now = true then do
      let expired ← expireLocked recorder db slot now (completionDeadlineReason slot)
      pure (claimed .deadlineElapsed expired)
    else if ∃ lease ∈ slot.leaseExpiresAt, now < lease then
      .ok (⟨.leaseHeld, slot⟩, db)
    else if slot.decisionType = .forcedFlat ∧ slot.deadlineAt ≤ now then do
      let expired ← expireLocked recorder db slot now
        (some "forced_flat_lease_expired_after_submission_cutoff")
      pure (claimed .deadlineElapsed expired)
    else if slot.decisionType ≠ .forcedFlat ∧ slot.deadlineAt ≤ now then
      -- For a strategy slot the completion deadline is this deadline, so the first guard has
      -- already expired it.
      if db.decisions.materialized slot.slotId = true then do
        let completed ← transition recorder db slot
          (.outcome slot .completed now "decision_materialized_before_recovery") now
        pure (claimed .materialized completed)
      else do
        let expired ← expireLocked recorder db slot now
        pure (claimed .deadlineElapsed expired)
    else if slot.decisionType ≠ .forcedFlat ∧ db.decisions.materialized slot.slotId = true then do
      let completed ← transition recorder db slot
        (.outcome slot .completed now "decision_materialized_before_recovery") now
      pure (claimed .materialized completed)
    else do
      let reclaimed ← transition recorder db slot (.claim owner now (slot.attemptCount + 1)) now
      pure (claimed .reclaimed reclaimed)
  else if slot.deadlineAt ≤ now then do
    let expired ← expireLocked recorder db slot now
    pure (claimed .deadlineElapsed expired)
  else if ¬ (slot.state = .ready ∨ slot.state = .flattenRequired) ∨ now < slot.readyAt then
    .ok (⟨.notReady, slot⟩, db)
  else do
    let fresh ← transition recorder db slot (.claim owner now (slot.attemptCount + 1)) now
    pure (claimed .claimed fresh)

/-- `claim`. -/
def claim (slotId owner : String) (now : Instant) (db : SlotDatabase ρ) :
    Except PlatformError (ClaimResult × SlotDatabase ρ) := do
  requireOwner owner
  let slot ← db.requireSlot slotId
  claimLocked recorder slot owner now db

/-- The order in which slots are offered to workers. -/
def deadlineOrder (slot : DecisionSlot) : Int ×ₗ String := toLex (slot.deadlineAt, slot.slotId)

/-- The rows `claim_next` selects, in order. -/
def eligibleSlots (db : SlotDatabase ρ) (now : Instant) : List DecisionSlot :=
  sortedBy deadlineOrder <| db.slots.values.filter fun slot =>
    decide (slot.readyAt ≤ now ∧
      (slot.state = .ready ∨ slot.state = .flattenRequired ∨
        (slot.state = .claimed ∧
          ((∃ lease ∈ slot.leaseExpiresAt, lease ≤ now) ∨ slot.deadlineAt ≤ now))))

/-- `claim_next`. -/
def claimNext (owner : String) (now : Instant) (db : SlotDatabase ρ) :
    Except PlatformError (Option ClaimResult × SlotDatabase ρ) := do
  requireOwner owner
  match (db.eligibleSlots now).head? with
  | none => pure (none, db)
  | some slot =>
      if slot.state = .claimed ∧ (∃ lease ∈ slot.leaseExpiresAt, now < lease) ∧
          completionDeadlineMissed slot now = false then
        pure (none, db)
      else
        let result ← claimLocked recorder slot owner now db
        pure (some result.1, result.2)

/-- `renew_lease`. -/
def renewLease (slotId owner : String) (now : Instant) (db : SlotDatabase ρ) :
    Except PlatformError (DecisionSlot × SlotDatabase ρ) := do
  requireOwner owner
  let slot ← db.requireSlot slotId
  requireOwnedClaim slot owner
  if completionDeadlineMissed slot now = true then
    expireLocked recorder db slot now (completionDeadlineReason slot)
  else
    requireLiveClaim slot now
    transition recorder db slot (.claim owner now slot.attemptCount) now

/-- `complete`. -/
def complete (slotId owner : String) (now : Instant) (db : SlotDatabase ρ) :
    Except PlatformError (DecisionSlot × SlotDatabase ρ) := do
  requireOwner owner
  let slot ← db.requireSlot slotId
  requireOwnedClaim slot owner
  if completionDeadlineMissed slot now = true then
    expireLocked recorder db slot now (completionDeadlineReason slot)
  else
    requireLiveClaim slot now
    if db.decisions.materialized slot.slotId = false then
      if slot.deadlineAt ≤ now then
        expireLocked recorder db slot now
      else
        .error (.slotTransition "slot cannot complete before decision materialization")
    else
      transition recorder db slot (.outcome slot .completed now "decision_materialized") now

/-- `skip`. -/
def skip (slotId reasonCode : String) (now : Instant) (db : SlotDatabase ρ) :
    Except PlatformError (DecisionSlot × SlotDatabase ρ) := do
  requireReason reasonCode
  let slot ← db.requireSlot slotId
  rejectIf (¬ (slot.state = .pending ∨ slot.state = .waitingForData ∨ slot.state = .ready))
    (.slotTransition "slot is not eligible to be skipped")
  rejectIf (db.decisions.materialized slot.slotId = true)
    (.slotTransition "materialized decision cannot be skipped")
  transition recorder db slot (.outcome slot .skipped now reasonCode) now

/-- `fail`. -/
def fail (slotId owner reasonCode : String) (now : Instant) (db : SlotDatabase ρ) :
    Except PlatformError (DecisionSlot × SlotDatabase ρ) := do
  requireOwner owner
  requireReason reasonCode
  let slot ← db.requireSlot slotId
  requireOwnedClaim slot owner
  if ¬ (slot.decisionType = .forcedFlat ∧ slot.requiredCompletionAt < now) then
    requireLiveClaim slot now
  transition recorder db slot (.outcome slot .failed now reasonCode) now

/-- The rows `recover_expired_claims` selects, in order. -/
def expiredClaims (db : SlotDatabase ρ) (now : Instant) : List DecisionSlot :=
  sortedBy deadlineOrder <| db.slots.values.filter fun slot =>
    decide (slot.state = .claimed ∧
      ((∃ lease ∈ slot.leaseExpiresAt, lease ≤ now) ∨
        (slot.decisionType ≠ .forcedFlat ∧ slot.deadlineAt ≤ now) ∨
        (slot.decisionType = .forcedFlat ∧ slot.requiredCompletionAt < now)))

/-- Claim each of the given slots, in order. -/
def recoverEach (owner : String) (now : Instant) :
    List DecisionSlot → SlotDatabase ρ → Except PlatformError (List ClaimResult × SlotDatabase ρ)
  | [], db => .ok ([], db)
  | slot :: rest, db => do
      let first ← claimLocked recorder slot owner now db
      let others ← recoverEach owner now rest first.2
      pure (first.1 :: others.1, others.2)

/-- `recover_expired_claims`. -/
def recoverExpiredClaims (owner : String) (now : Instant) (db : SlotDatabase ρ) :
    Except PlatformError (List ClaimResult × SlotDatabase ρ) := do
  requireOwner owner
  recoverEach recorder owner now (db.expiredClaims now) db

/-- A row that shares a unique key with the slot: the slot ID, the correlation ID, or experiment,
interval end and decision type. -/
def conflicting (slot row : DecisionSlot) : Bool :=
  decide (row.slotId = slot.slotId ∨ row.correlationId = slot.correlationId ∨
    (row.experimentHash = slot.experimentHash ∧ row.sourceIntervalEnd = slot.sourceIntervalEnd ∧
      row.decisionType = slot.decisionType))

/-- Insert one slot and record its creation. -/
def insertSlot (slot : DecisionSlot) (recordedAt : Instant) (db : SlotDatabase ρ) :
    Except PlatformError (SlotDatabase ρ) := do
  rejectIf (db.slots.values.any (conflicting slot) = true)
    (.slotPersistence "decision schedule conflicts with durable state")
  let evidence ← recorder.record db.evidence none slot recordedAt
  pure { db with slots := db.slots.set slot.slotId slot, evidence }

/-- The loop of `create_schedule`: a slot found before the loop is compared and kept. -/
def createEach (existing : Dict String DecisionSlot) (recordedAt : Instant) :
    List DecisionSlot → SlotDatabase ρ →
      Except PlatformError (List DecisionSlot × SlotDatabase ρ)
  | [], db => .ok ([], db)
  | slot :: rest, db =>
      match existing.get? slot.slotId with
      | some found => do
          rejectIf (found.toSlotContract ≠ slot.toSlotContract)
            (.slotPersistence "deterministic slot identity already has different content")
          let others ← createEach existing recordedAt rest db
          pure (found :: others.1, others.2)
      | none => do
          let db ← insertSlot recorder slot recordedAt db
          let others ← createEach existing recordedAt rest db
          pure (slot :: others.1, others.2)

/-- `create_schedule`. -/
def createSchedule (schedule : SessionSlotSchedule) (recordedAt : Instant) (db : SlotDatabase ρ) :
    Except PlatformError (List DecisionSlot × SlotDatabase ρ) :=
  createEach recorder db.slots recordedAt schedule.slots db

end SlotDatabase

end Repository

end AdaptiveTrader
