import AdaptiveTrader.Foundation.Sorted
import AdaptiveTrader.Platform.Domain

/-!
# Risk latches

A latch is an append-only stream of engagements and clearances. `RiskLatchState.fromEvents`
rebuilds the set of engaged latches of one experiment and refuses histories that no sequence of
engagements and clearances produces.
-/

set_option autoImplicit false

namespace AdaptiveTrader

open Foundation

/-- The blocking latches of the execution boundary. -/
inductive RiskLatchKind
  | deploymentDrawdown
  | operatorHalt
  | reconciliation
  | sessionLoss
  deriving DecidableEq

namespace RiskLatchKind

def value : RiskLatchKind → String
  | deploymentDrawdown => "deployment_drawdown"
  | operatorHalt => "operator_halt"
  | reconciliation => "reconciliation"
  | sessionLoss => "session_loss"

/-- Every latch, in the order of the values. -/
def inOrder : List RiskLatchKind := [deploymentDrawdown, operatorHalt, reconciliation, sessionLoss]

theorem mem_inOrder (k : RiskLatchKind) : k ∈ inOrder := by
  cases k <;> simp [inOrder]

theorem nodup_inOrder : inOrder.Nodup := by decide

end RiskLatchKind

/-- The transitions of a latch. -/
inductive RiskLatchAction
  | engaged
  | cleared
  deriving DecidableEq

def RiskLatchAction.value : RiskLatchAction → String
  | engaged => "ENGAGED"
  | cleared => "CLEARED"

/-! ## Events -/

/-- The fields of one latch transition. -/
structure RiskLatchEventFields where
  experimentHash : String
  latchType : RiskLatchKind
  sequence : Nat
  action : RiskLatchAction
  reasonCode : String
  actor : String
  occurredAt : Instant
  correlationId : String
  idempotencyKey : String
  deriving DecidableEq

/-- `_validate_event`. -/
def RiskLatchEventFields.check (e : RiskLatchEventFields) : Except PlatformError Unit := do
  rejectIf (isSha256 e.experimentHash = false)
    (.riskLatch "experiment_hash must be lowercase SHA-256")
  rejectIf (e.sequence < 1) (.riskLatch "latch sequence must be a positive integer")
  rejectIf (isSafeCode e.reasonCode = false)
    (.riskLatch "reason_code must be a lowercase ASCII identifier")
  rejectIf (isSafeCode e.actor = false) (.riskLatch "actor must be a lowercase ASCII identifier")
  rejectIf (isSafeCode e.idempotencyKey = false)
    (.riskLatch "idempotency_key must be a lowercase ASCII identifier")
  rejectIf (isPrefixedDigest "correlation" e.correlationId = false) (.riskLatch "correlation ID is invalid")

/-- One immutable transition of a latch stream. -/
structure RiskLatchEvent extends RiskLatchEventFields where
  checked : toRiskLatchEventFields.check = .ok ()
  deriving DecidableEq

namespace RiskLatchEvent

/-- `RiskLatchEvent.create`. -/
def create (fields : RiskLatchEventFields) : Except PlatformError RiskLatchEvent :=
  validated RiskLatchEventFields.check fields fun h => ⟨fields, h⟩

section Hashed

variable [ContentHasher]

def payloadHash (e : RiskLatchEvent) : String :=
  sha256Hex (.mapping [
    ("action", .text e.action.value),
    ("actor", .text e.actor),
    ("correlation_id", .text e.correlationId),
    ("experiment_hash", .text e.experimentHash),
    ("idempotency_key", .text e.idempotencyKey),
    ("latch_type", .text e.latchType.value),
    ("occurred_at", .instant e.occurredAt),
    ("reason_code", .text e.reasonCode),
    ("schema", .text "risk-latch-event-v1"),
    ("sequence", .int e.sequence)])

def latchEventId (e : RiskLatchEvent) : String :=
  deterministicIdFromHashInput "latch" (.seq [.text "risk-latch-id-v1", .text e.payloadHash])

def contentHash (e : RiskLatchEvent) : String :=
  sha256Hex (.mapping [
    ("latch_event_id", .text e.latchEventId),
    ("payload_hash", .text e.payloadHash),
    ("schema", .text "risk-latch-content-v1")])

end Hashed

theorem isSha256_experimentHash (e : RiskLatchEvent) : isSha256 e.experimentHash = true := by
  have h := e.checked
  simp only [RiskLatchEventFields.check, rejectIf_bind_eq_ok, Bool.not_eq_false] at h
  exact h.1

end RiskLatchEvent

/-! ## State -/

/-- The longest history that can be hashed: the encoder refuses a value of more than 4,096 nodes,
and the hashed value has four besides one for each event. -/
def maxLatchHistory : Nat := 4092

/-- The latches of one experiment as its history leaves them. -/
structure RiskLatchState where
  experimentHash : String
  active : List RiskLatchKind
  lastSequences : List (RiskLatchKind × Nat)
  eventCount : Nat
  sourceHash : String
  deriving DecidableEq

/-- The history names one experiment and repeats no event. -/
def checkLatchHistory [ContentHasher] (experimentHash : String) :
    List String → List RiskLatchEvent → Except PlatformError Unit
  | _, [] => .ok ()
  | seenIds, event :: rest => do
      rejectIf (event.experimentHash ≠ experimentHash)
        (.riskLatch "latch history contains another experiment")
      rejectIf (event.latchEventId ∈ seenIds) (.riskLatch "latch history contains a duplicate event")
      checkLatchHistory experimentHash (event.latchEventId :: seenIds) rest

/-- Engagements and clearances alternate, starting with an engagement. -/
def replayLatchActions : Bool → List RiskLatchEvent → Except PlatformError Bool
  | engaged, [] => .ok engaged
  | engaged, event :: rest =>
      match event.action with
      | .engaged => do
          rejectIf (engaged = true) (.riskLatch "an active latch cannot be engaged again")
          replayLatchActions true rest
      | .cleared => do
          rejectIf (engaged = false) (.riskLatch "an inactive latch cannot be cleared")
          replayLatchActions false rest

/-- One latch's stream in sequence order. -/
def latchStream (events : List RiskLatchEvent) (kind : RiskLatchKind) : List RiskLatchEvent :=
  sortedBy (·.sequence) (events.filter fun e => e.latchType = kind)

/-- Replay one latch's stream. -/
def replayLatchStream (stream : List RiskLatchEvent) : Except PlatformError Bool := do
  rejectIf (stream.map (·.sequence) ≠ List.range' 1 stream.length)
    (.riskLatch "latch event sequence is not contiguous")
  replayLatchActions false stream

/-- Replay the streams of the listed latches; each latch with its outcome. -/
def replayLatchStreams (events : List RiskLatchEvent) :
    List RiskLatchKind → Except PlatformError (List (RiskLatchKind × Bool))
  | [] => .ok []
  | kind :: rest => do
      let engaged ← replayLatchStream (latchStream events kind)
      let others ← replayLatchStreams events rest
      pure ((kind, engaged) :: others)

namespace RiskLatchState

section Hashed

variable [ContentHasher]

/-- `_state_hash`. -/
def contentHash (s : RiskLatchState) : String :=
  sha256Hex (.mapping [
    ("active", .texts (s.active.map (·.value))),
    ("event_count", .int s.eventCount),
    ("experiment_hash", .text s.experimentHash),
    ("last_sequences", .seq (s.lastSequences.map fun v => .seq [.text v.1.value, .int v.2])),
    ("schema", .text "risk-latch-state-v1"),
    ("source_hash", .text s.sourceHash)])

/-- `RiskLatchState.from_events`. The latches that occur are visited in the order of their values,
so the resulting tuples are ordered. -/
def fromEvents (experimentHash : String) (events : List RiskLatchEvent) :
    Except PlatformError RiskLatchState := do
  rejectIf (isSha256 experimentHash = false)
    (.riskLatch "experiment_hash must be lowercase SHA-256")
  checkLatchHistory experimentHash [] events
  let kinds := RiskLatchKind.inOrder.filter fun kind => events.any fun e => e.latchType = kind
  let outcomes ← replayLatchStreams events kinds
  rejectIf (maxLatchHistory < events.length)
    (.canonicalization "canonical node limit exceeded at $[2][4092]")
  let ordered := sortedBy (fun e => toLex (e.latchType.value, e.sequence)) events
  pure {
    experimentHash := experimentHash
    active := (outcomes.filter (·.2)).map (·.1)
    lastSequences := kinds.map fun kind =>
      (kind, ((latchStream events kind).getLast?.map (·.sequence)).getD 0)
    eventCount := events.length
    sourceHash := sha256Hex (.seq [.text "risk-latch-events-v1", .text experimentHash,
      .texts (ordered.map (·.contentHash))]) }

end Hashed

/-- The streams are replayed one by one, in the given order. -/
theorem replayLatchStreams_kinds {events : List RiskLatchEvent} {kinds : List RiskLatchKind}
    {outcomes : List (RiskLatchKind × Bool)} (h : replayLatchStreams events kinds = .ok outcomes) :
    outcomes.map Prod.fst = kinds := by
  induction kinds generalizing outcomes with
  | nil =>
      cases h
      rfl
  | cons kind rest ih =>
      simp only [replayLatchStreams, bind_eq_ok, pure_eq_ok] at h
      obtain ⟨engaged, -, others, hothers, rfl⟩ := h
      rw [List.map_cons, ih hothers]

/-- The engaged latches are listed in the order of their values. -/
theorem fromEvents_active_ordered [ContentHasher] {experimentHash : String}
    {events : List RiskLatchEvent} {state : RiskLatchState}
    (h : fromEvents experimentHash events = .ok state) :
    state.active.map (·.value) = sortedSet (state.active.map (·.value)) := by
  simp only [fromEvents, bind_eq_ok, pure_eq_ok] at h
  obtain ⟨_, -, _, -, outcomes, houtcomes, _, -, rfl⟩ := h
  have hkinds := replayLatchStreams_kinds houtcomes
  have hsub : ((outcomes.filter (·.2)).map (·.1)).Sublist RiskLatchKind.inOrder := by
    refine (List.filter_sublist.map Prod.fst).trans ?_
    rw [hkinds]
    exact List.filter_sublist
  have hordered : (RiskLatchKind.inOrder.map (·.value)).Pairwise (· < ·) := by decide +kernel
  exact eq_sortedSet_iff.2 (hordered.sublist (hsub.map _))

/-! ### Histories in another order -/

section Reordered

variable {experimentHash : String} {events reordered : List RiskLatchEvent}

/-- A history names one experiment and no event twice, nor one already seen. -/
theorem checkLatchHistory_eq_ok [ContentHasher] {seenIds : List String} :
    checkLatchHistory experimentHash seenIds events = .ok () ↔
      (∀ e ∈ events, e.experimentHash = experimentHash ∧ e.latchEventId ∉ seenIds) ∧
        (events.map (·.latchEventId)).Nodup := by
  induction events generalizing seenIds with
  | nil => simp [checkLatchHistory]
  | cons event rest ih =>
      rw [List.forall_mem_cons]
      simp only [checkLatchHistory, rejectIf_bind_eq_ok, not_not, ih, List.map_cons,
        List.nodup_cons, List.mem_cons, not_or, List.mem_map, not_exists, not_and]
      constructor
      · rintro ⟨hexperiment, hseen, hrest, hnodup⟩
        exact ⟨⟨⟨hexperiment, hseen⟩, fun e he => ⟨(hrest e he).1, (hrest e he).2.2⟩⟩,
          fun e he => (hrest e he).2.1, hnodup⟩
      · rintro ⟨⟨⟨hexperiment, hseen⟩, hrest⟩, hnew, hnodup⟩
        exact ⟨hexperiment, hseen, fun e he => ⟨(hrest e he).1, hnew e he, (hrest e he).2⟩, hnodup⟩

/-- A stream that can be replayed has one event for each number, so its order is determined. -/
theorem latchStream_perm (h : events.Perm reordered) {kind : RiskLatchKind} {engaged : Bool}
    (hreplay : replayLatchStream (latchStream events kind) = .ok engaged) :
    latchStream reordered kind = latchStream events kind := by
  have hnumbers : (latchStream events kind).map (·.sequence) =
      List.range' 1 (latchStream events kind).length := by
    simp only [replayLatchStream, rejectIf_bind_eq_ok, not_not] at hreplay
    exact hreplay.1
  have hnodup : ((events.filter fun e => e.latchType = kind).map (·.sequence)).Nodup := by
    have hsorted : ((latchStream events kind).map (·.sequence)).Nodup :=
      hnumbers ▸ List.nodup_range'
    exact (((sortedBy_perm _ _).map _).nodup_iff).1 hsorted
  exact (sortedBy_eq_of_perm (h.filter _) hnodup).symm

theorem replayLatchStreams_perm (h : events.Perm reordered) {kinds : List RiskLatchKind}
    {outcomes : List (RiskLatchKind × Bool)} (hreplay : replayLatchStreams events kinds = .ok outcomes) :
    replayLatchStreams reordered kinds = .ok outcomes := by
  induction kinds generalizing outcomes with
  | nil => exact hreplay
  | cons kind rest ih =>
      simp only [replayLatchStreams, bind_eq_ok, pure_eq_ok] at hreplay ⊢
      obtain ⟨engaged, hengaged, others, hothers, rfl⟩ := hreplay
      refine ⟨engaged, ?_, others, ih hothers, rfl⟩
      rw [latchStream_perm h hengaged]
      exact hengaged

/-- The order in which a history is read does not matter for the latches it leaves engaged. -/
theorem fromEvents_perm [ContentHasher] (h : events.Perm reordered) {state : RiskLatchState}
    (hstate : fromEvents experimentHash events = .ok state) :
    ∃ state', fromEvents experimentHash reordered = .ok state' ∧ state'.active = state.active := by
  have hkinds : (fun kind : RiskLatchKind => reordered.any fun e => e.latchType = kind) =
      fun kind => events.any fun e => e.latchType = kind := by
    funext kind
    rw [Bool.eq_iff_iff]
    simp only [List.any_eq_true, h.mem_iff]
  simp only [fromEvents, bind_eq_ok, pure_eq_ok, hkinds] at hstate ⊢
  obtain ⟨_, hsha, _, hhistory, outcomes, houtcomes, _, hlimit, rfl⟩ := hstate
  obtain ⟨hexperiments, hnodup⟩ := checkLatchHistory_eq_ok.1 hhistory
  refine ⟨_, ⟨(), hsha, (), ?_, outcomes, replayLatchStreams_perm h houtcomes, (), ?_, rfl⟩, rfl⟩
  swap
  · rwa [← h.length_eq]
  refine checkLatchHistory_eq_ok.2 ⟨fun e he => hexperiments e (h.mem_iff.2 he), ?_⟩
  exact ((h.map _).nodup_iff).1 hnodup

end Reordered

def isActive (s : RiskLatchState) (kind : RiskLatchKind) : Bool := decide (kind ∈ s.active)

/-- The sequence number of the next event of a latch. -/
def nextSequence (s : RiskLatchState) (kind : RiskLatchKind) : Nat :=
  ((s.lastSequences.find? fun v => v.1 = kind).map (·.2)).getD 0 + 1

end RiskLatchState

/-- `create_latch_engagement`. -/
def createLatchEngagement (latchState : RiskLatchState) (latchType : RiskLatchKind)
    (reasonCode actor : String) (occurredAt : Instant) (correlationId idempotencyKey : String) :
    Except PlatformError RiskLatchEvent := do
  rejectIf (latchState.isActive latchType = true)
    (.riskLatch "an active latch cannot be engaged again")
  RiskLatchEvent.create {
    experimentHash := latchState.experimentHash
    latchType := latchType
    sequence := latchState.nextSequence latchType
    action := .engaged
    reasonCode := reasonCode
    actor := actor
    occurredAt := occurredAt
    correlationId := correlationId
    idempotencyKey := idempotencyKey }

/-- `LATCH_CLEAR_ACKNOWLEDGEMENT`. -/
def latchClearAcknowledgement : String := "I_HAVE_REVIEWED_AQA_PAPER_STATE"

/-- `create_authenticated_latch_clear`. -/
def createAuthenticatedLatchClear (latchState : RiskLatchState) (latchType : RiskLatchKind)
    (authenticated : Bool) (acknowledgement actor : String) (occurredAt : Instant)
    (correlationId idempotencyKey : String) : Except PlatformError RiskLatchEvent := do
  rejectIf (authenticated = false) (.riskLatch "latch clear requires an authenticated operator")
  rejectIf (acknowledgement ≠ latchClearAcknowledgement)
    (.riskLatch "latch clear acknowledgement is invalid")
  rejectIf (latchState.isActive latchType = false)
    (.riskLatch "an inactive latch cannot be cleared")
  RiskLatchEvent.create {
    experimentHash := latchState.experimentHash
    latchType := latchType
    sequence := latchState.nextSequence latchType
    action := .cleared
    reasonCode := "operator_reviewed_state"
    actor := actor
    occurredAt := occurredAt
    correlationId := correlationId
    idempotencyKey := idempotencyKey }

end AdaptiveTrader
