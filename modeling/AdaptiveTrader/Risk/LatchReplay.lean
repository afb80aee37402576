import AdaptiveTrader.Risk.Latches

/-!
# Replay of latch histories

A history is accepted exactly when each latch has the sequence numbers `1..n` once each, its
engagements at the odd ones and its clearances at the even ones, and there are not more events than
the encoder can hash. The state such a history is replayed to is written down (`replayed`) and does
not depend on the order of the events. An event that an accepted history is continued with changes
the latch it names and no other.

That SHA-256 has no collision is assumed for the values that the events in question hash.
-/

set_option autoImplicit false

namespace AdaptiveTrader

open Foundation

/-! ## Streams -/

/-- The events of one latch. -/
def ofKind (events : List RiskLatchEvent) (kind : RiskLatchKind) : List RiskLatchEvent :=
  events.filter fun e => e.latchType = kind

/-- The sequence numbers of a latch are `1..n`, each once; it is engaged at the odd ones and cleared
at the even ones. -/
structure Alternating (events : List RiskLatchEvent) (kind : RiskLatchKind) : Prop where
  numbers : ((ofKind events kind).map (·.sequence)).Perm
    (List.range' 1 (ofKind events kind).length)
  actions : ∀ e ∈ ofKind events kind, e.action = .engaged ↔ e.sequence % 2 = 1

theorem mem_ofKind {events : List RiskLatchEvent} {kind : RiskLatchKind} {e : RiskLatchEvent} :
    e ∈ ofKind events kind ↔ e ∈ events ∧ e.latchType = kind := by
  simp [ofKind]

theorem length_latchStream (events : List RiskLatchEvent) (kind : RiskLatchKind) :
    (latchStream events kind).length = (ofKind events kind).length :=
  (sortedBy_perm _ _).length_eq

theorem mem_latchStream {events : List RiskLatchEvent} {kind : RiskLatchKind} {e : RiskLatchEvent} :
    e ∈ latchStream events kind ↔ e ∈ ofKind events kind :=
  mem_sortedBy

/-- Actions are replayed when the odd numbers engage and the even numbers clear. -/
theorem replayLatchActions_eq_ok {stream : List RiskLatchEvent} {start : Nat} {engaged : Bool}
    (hnumbers : stream.map (·.sequence) = List.range' (start + 1) stream.length) :
    replayLatchActions (decide (start % 2 = 1)) stream = .ok engaged ↔
      (∀ e ∈ stream, e.action = .engaged ↔ e.sequence % 2 = 1) ∧
        engaged = decide ((start + stream.length) % 2 = 1) := by
  induction stream generalizing start with
  | nil => simp [replayLatchActions, eq_comm]
  | cons event rest ih =>
      simp only [List.map_cons, List.length_cons, List.range'_succ, List.cons.injEq] at hnumbers
      obtain ⟨hfirst, hrest⟩ := hnumbers
      have hlength : start + (rest.length + 1) = start + 1 + rest.length := by omega
      rw [List.forall_mem_cons, List.length_cons, hlength, hfirst]
      -- the sign of the first number decides which of the two actions is accepted
      rcases Nat.mod_two_eq_zero_or_one start with heven | hodd
      · have hodd' : (start + 1) % 2 = 1 := by omega
        cases haction : event.action with
        | engaged =>
            have hstep := ih hrest
            simp only [hodd', decide_true] at hstep
            simp [replayLatchActions, haction, heven, hodd', hstep]
        | cleared => simp [replayLatchActions, haction, heven, hodd']
      · have heven' : (start + 1) % 2 = 0 := by omega
        cases haction : event.action with
        | engaged => simp [replayLatchActions, haction, hodd, heven']
        | cleared =>
            have hstep := ih hrest
            simp only [heven', Nat.zero_ne_one, decide_false] at hstep
            simp [replayLatchActions, haction, hodd, heven', hstep]

/-- A stream is replayed when it alternates; it is left engaged by an odd number of events. -/
theorem replayLatchStream_eq_ok {events : List RiskLatchEvent} {kind : RiskLatchKind}
    {engaged : Bool} :
    replayLatchStream (latchStream events kind) = .ok engaged ↔
      Alternating events kind ∧ engaged = decide ((ofKind events kind).length % 2 = 1) := by
  have hperm : (latchStream events kind).Perm (ofKind events kind) := sortedBy_perm _ _
  have hnumbers : (latchStream events kind).map (·.sequence) =
      List.range' 1 (latchStream events kind).length ↔
      ((ofKind events kind).map (·.sequence)).Perm
        (List.range' 1 (ofKind events kind).length) := by
    rw [length_latchStream]
    constructor
    · intro h
      exact h ▸ (hperm.map _).symm
    · intro h
      have hsorted : ((latchStream events kind).map (·.sequence)).Pairwise (· ≤ ·) :=
        List.pairwise_map.2 (sortedBy_pairwise _ _)
      have hrange : (List.range' 1 (ofKind events kind).length).Pairwise (· ≤ ·) :=
        List.pairwise_le_range'
      exact ((hperm.map _).trans h).eq_of_pairwise (fun _ _ _ _ => Nat.le_antisymm) hsorted hrange
  simp only [replayLatchStream, rejectIf_bind_eq_ok, not_not]
  constructor
  · rintro ⟨hrange, hactions⟩
    have hreplay := (@replayLatchActions_eq_ok _ 0 engaged hrange).1 hactions
    rw [Nat.zero_add, length_latchStream] at hreplay
    exact ⟨⟨hnumbers.1 hrange, fun e he => hreplay.1 e (mem_latchStream.2 he)⟩, hreplay.2⟩
  · rintro ⟨halt, hengaged⟩
    have hrange := hnumbers.2 halt.numbers
    refine ⟨hrange, (@replayLatchActions_eq_ok _ 0 engaged hrange).2 ⟨?_, ?_⟩⟩
    · intro e he
      exact halt.actions e (mem_latchStream.1 he)
    · rw [Nat.zero_add, length_latchStream]
      exact hengaged

/-- The streams are replayed when each of them alternates. -/
theorem replayLatchStreams_eq_ok {events : List RiskLatchEvent} {kinds : List RiskLatchKind}
    {outcomes : List (RiskLatchKind × Bool)} :
    replayLatchStreams events kinds = .ok outcomes ↔
      (∀ kind ∈ kinds, Alternating events kind) ∧
        outcomes = kinds.map fun kind => (kind, decide ((ofKind events kind).length % 2 = 1)) := by
  induction kinds generalizing outcomes with
  | nil => simp [replayLatchStreams, eq_comm]
  | cons kind rest ih =>
      rw [List.forall_mem_cons, List.map_cons]
      simp only [replayLatchStreams, bind_eq_ok, pure_eq_ok, replayLatchStream_eq_ok, ih]
      constructor
      · rintro ⟨_, ⟨hfirst, rfl⟩, _, ⟨hrest, rfl⟩, rfl⟩
        exact ⟨⟨hfirst, hrest⟩, rfl⟩
      · rintro ⟨⟨hfirst, hrest⟩, rfl⟩
        exact ⟨_, ⟨hfirst, rfl⟩, _, ⟨hrest, rfl⟩, rfl⟩

/-- A latch without events alternates. -/
theorem alternating_of_absent {events : List RiskLatchEvent} {kind : RiskLatchKind}
    (h : ofKind events kind = []) : Alternating events kind := by
  constructor
  · rw [h]
    exact List.Perm.refl _
  · rw [h]
    intro e he
    cases he

/-- The latches with an odd number of events are engaged. -/
def engagedKinds (events : List RiskLatchEvent) : List RiskLatchKind :=
  RiskLatchKind.inOrder.filter fun kind => (ofKind events kind).length % 2 = 1

/-- The latches with an event, each with its highest sequence number. -/
def highestSequences (events : List RiskLatchEvent) : List (RiskLatchKind × Nat) :=
  (RiskLatchKind.inOrder.filter fun kind => ofKind events kind ≠ []).map fun kind =>
    (kind, (ofKind events kind).length)

theorem any_latchType_eq (events : List RiskLatchEvent) :
    (fun kind : RiskLatchKind => events.any fun e => decide (e.latchType = kind)) =
      fun kind => decide (ofKind events kind ≠ []) := by
  funext kind
  rw [Bool.eq_iff_iff]
  simp [ofKind]

/-- The last event of an alternating stream carries its length. -/
theorem getLast?_latchStream {events : List RiskLatchEvent} {kind : RiskLatchKind}
    (h : Alternating events kind) :
    ((latchStream events kind).getLast?.map (·.sequence)).getD 0 = (ofKind events kind).length := by
  have hengaged := (@replayLatchStream_eq_ok events kind _).2 ⟨h, rfl⟩
  simp only [replayLatchStream, rejectIf_bind_eq_ok, not_not] at hengaged
  obtain ⟨hnumbers, -⟩ := hengaged
  rw [← List.getLast?_map, hnumbers, length_latchStream]
  cases (ofKind events kind).length with
  | zero => rfl
  | succ n => simp [List.range'_concat, Nat.add_comm]

/-! ## Hashes -/

section Hashed

variable [ContentHasher]

namespace RiskLatchEvent

/-- What the payload hash covers. -/
def payloadValue (e : RiskLatchEvent) : Canonical :=
  .mapping [
    ("action", .text e.action.value),
    ("actor", .text e.actor),
    ("correlation_id", .text e.correlationId),
    ("experiment_hash", .text e.experimentHash),
    ("idempotency_key", .text e.idempotencyKey),
    ("latch_type", .text e.latchType.value),
    ("occurred_at", .instant e.occurredAt),
    ("reason_code", .text e.reasonCode),
    ("schema", .text "risk-latch-event-v1"),
    ("sequence", .int e.sequence)]

/-- What the ID is derived from. -/
def identityValue (e : RiskLatchEvent) : Canonical :=
  .seq [.text "risk-latch-id-v1", .text e.payloadHash]

/-- What the content hash covers. -/
def contentValue (e : RiskLatchEvent) : Canonical :=
  .mapping [
    ("latch_event_id", .text e.latchEventId),
    ("payload_hash", .text e.payloadHash),
    ("schema", .text "risk-latch-content-v1")]

/-- Every value an event hashes. -/
def hashedValues (e : RiskLatchEvent) : Set Canonical :=
  {e.payloadValue, e.identityValue, e.contentValue}

theorem payloadValue_mem (e : RiskLatchEvent) : e.payloadValue ∈ e.hashedValues := by
  simp [hashedValues]

theorem identityValue_mem (e : RiskLatchEvent) : e.identityValue ∈ e.hashedValues := by
  simp [hashedValues]

theorem contentValue_mem (e : RiskLatchEvent) : e.contentValue ∈ e.hashedValues := by
  simp [hashedValues]

theorem payloadHash_eq (e : RiskLatchEvent) : e.payloadHash = sha256Hex e.payloadValue := rfl

theorem contentHash_eq (e : RiskLatchEvent) : e.contentHash = sha256Hex e.contentValue := rfl

theorem latchEventId_eq (e : RiskLatchEvent) :
    e.latchEventId = deterministicId "latch" (sha256Hex e.identityValue) := rfl

omit [ContentHasher] in
theorem action_value_injective : Function.Injective RiskLatchAction.value := by
  intro a b
  cases a <;> cases b <;> simp [RiskLatchAction.value]

omit [ContentHasher] in
theorem kind_value_injective : Function.Injective RiskLatchKind.value := by
  intro a b
  cases a <;> cases b <;> simp [RiskLatchKind.value]

omit [ContentHasher] in
/-- The payload lists every field. -/
theorem payloadValue_injective : Function.Injective payloadValue := by
  rintro ⟨e, he⟩ ⟨f, hf⟩ h
  simp only [payloadValue, Canonical.mapping.injEq, List.cons.injEq, Prod.mk.injEq,
    Canonical.text.injEq, Canonical.instant.injEq, Canonical.int.injEq, Nat.cast_inj, true_and,
    and_true] at h
  obtain ⟨haction, hactor, hcorrelation, hexperiment, hkey, htype, hat, hreason, hsequence⟩ := h
  have hfields : e = f := by
    cases e
    cases f
    simp only [RiskLatchEventFields.mk.injEq]
    exact ⟨hexperiment, kind_value_injective htype, hsequence, action_value_injective haction,
      hreason, hactor, hat, hcorrelation, hkey⟩
  subst hfields
  rfl

variable {H : Set Canonical}

theorem eq_of_payloadHash (hH : Set.InjOn sha256Hex H) {e f : RiskLatchEvent}
    (he : e.hashedValues ⊆ H) (hf : f.hashedValues ⊆ H) (h : e.payloadHash = f.payloadHash) :
    e = f := by
  rw [payloadHash_eq, payloadHash_eq] at h
  exact payloadValue_injective (hH (he e.payloadValue_mem) (hf f.payloadValue_mem) h)

/-- Events with the same ID are the same. -/
theorem eq_of_latchEventId (hH : Set.InjOn sha256Hex H) {e f : RiskLatchEvent}
    (he : e.hashedValues ⊆ H) (hf : f.hashedValues ⊆ H) (h : e.latchEventId = f.latchEventId) :
    e = f := by
  rw [latchEventId_eq, latchEventId_eq] at h
  have hdigest := deterministicId_injective h
  have hvalue := hH (he e.identityValue_mem) (hf f.identityValue_mem) hdigest
  simp only [identityValue, Canonical.seq.injEq, List.cons.injEq, Canonical.text.injEq, true_and,
    and_true] at hvalue
  exact eq_of_payloadHash hH he hf hvalue

/-- Events with the same content hash are the same. -/
theorem eq_of_contentHash (hH : Set.InjOn sha256Hex H) {e f : RiskLatchEvent}
    (he : e.hashedValues ⊆ H) (hf : f.hashedValues ⊆ H) (h : e.contentHash = f.contentHash) :
    e = f := by
  rw [contentHash_eq, contentHash_eq] at h
  have hvalue := hH (he e.contentValue_mem) (hf f.contentValue_mem) h
  simp only [contentValue, Canonical.mapping.injEq, List.cons.injEq, Prod.mk.injEq,
    Canonical.text.injEq, true_and, and_true] at hvalue
  exact eq_of_payloadHash hH he hf hvalue.2

end RiskLatchEvent

/-! ## The replayed state -/

/-- What the source hash of a history covers. -/
def latchSourceValue (experimentHash : String) (events : List RiskLatchEvent) : Canonical :=
  .seq [.text "risk-latch-events-v1", .text experimentHash,
    .texts ((sortedBy (fun e => toLex (e.latchType.value, e.sequence)) events).map (·.contentHash))]

/-- The state an accepted history is replayed to. -/
def RiskLatchState.replayed (experimentHash : String) (events : List RiskLatchEvent) :
    RiskLatchState where
  experimentHash := experimentHash
  active := engagedKinds events
  lastSequences := highestSequences events
  eventCount := events.length
  sourceHash := sha256Hex (latchSourceValue experimentHash events)

/-- A history of one experiment that alternates, repeats no event and can be hashed. -/
structure Replayable (experimentHash : String) (events : List RiskLatchEvent) : Prop where
  isSha256 : isSha256 experimentHash = true
  experiment : ∀ e ∈ events, e.experimentHash = experimentHash
  distinct : (events.map (·.latchEventId)).Nodup
  alternating : ∀ kind, Alternating events kind
  bounded : events.length ≤ maxLatchHistory

variable {experimentHash : String} {events : List RiskLatchEvent}

/-- **A history is accepted exactly when it is replayable.** -/
theorem fromEvents_eq_ok {state : RiskLatchState} :
    RiskLatchState.fromEvents experimentHash events = .ok state ↔
      Replayable experimentHash events ∧ state = .replayed experimentHash events := by
  have hactive : ((((RiskLatchKind.inOrder.filter fun kind =>
      decide (ofKind events kind ≠ [])).map fun kind =>
        (kind, decide ((ofKind events kind).length % 2 = 1))).filter (·.2)).map (·.1)) =
      engagedKinds events := by
    rw [List.filter_map, List.map_map, List.filter_filter, engagedKinds]
    have hid : (Prod.fst ∘ fun kind : RiskLatchKind =>
        (kind, decide ((ofKind events kind).length % 2 = 1))) = id := rfl
    rw [hid, List.map_id]
    apply List.filter_congr
    intro kind _
    by_cases hodd : (ofKind events kind).length % 2 = 1
    · have hne : ofKind events kind ≠ [] := by
        rintro hnil
        rw [hnil] at hodd
        cases hodd
      simp [hodd, hne]
    · simp [hodd]
  simp only [RiskLatchState.fromEvents, bind_eq_ok, rejectIf_eq_ok, pure_eq_ok,
    replayLatchStreams_eq_ok, any_latchType_eq]
  constructor
  · rintro ⟨_, hsha, _, hhistory, _, ⟨halternating, rfl⟩, _, hbounded, rfl⟩
    obtain ⟨hexperiment, hdistinct⟩ := RiskLatchState.checkLatchHistory_eq_ok.1 hhistory
    have hall : ∀ kind, Alternating events kind := by
      intro kind
      by_cases hnil : ofKind events kind = []
      · exact alternating_of_absent hnil
      · exact halternating kind
          (List.mem_filter.2 ⟨kind.mem_inOrder, decide_eq_true hnil⟩)
    refine ⟨⟨by simpa using hsha, fun e he => (hexperiment e he).1, hdistinct, hall, by simpa using hbounded⟩, ?_⟩
    rw [hactive, RiskLatchState.replayed, highestSequences]
    simp only [getLast?_latchStream (hall _)]
    rfl
  · rintro ⟨h, rfl⟩
    have hhistory : checkLatchHistory experimentHash [] events = .ok () :=
      RiskLatchState.checkLatchHistory_eq_ok.2
        ⟨fun e he => ⟨h.experiment e he, List.not_mem_nil⟩, h.distinct⟩
    refine ⟨(), by simpa using h.isSha256, (), hhistory, _,
      ⟨fun kind _ => h.alternating kind, rfl⟩, (), by simpa using h.bounded, ?_⟩
    rw [hactive, RiskLatchState.replayed, highestSequences]
    simp only [getLast?_latchStream (h.alternating _)]
    rfl

/-! ## Acceptance -/

omit [ContentHasher] in
theorem Alternating.nodup {kind : RiskLatchKind} (h : Alternating events kind) :
    ((ofKind events kind).map (·.sequence)).Nodup :=
  h.numbers.nodup_iff.2 List.nodup_range'

omit [ContentHasher] in
/-- Streams without a repeated number make the pairs of latch and number distinct. -/
theorem nodup_kind_sequence (h : ∀ kind, ((ofKind events kind).map (·.sequence)).Nodup) :
    (events.map fun e => (e.latchType, e.sequence)).Nodup := by
  induction events with
  | nil => exact List.nodup_nil
  | cons e rest ih =>
      rw [List.map_cons, List.nodup_cons]
      constructor
      · intro hmem
        obtain ⟨f, hf, hkey⟩ := List.mem_map.1 hmem
        obtain ⟨hkind, hsequence⟩ := Prod.mk.inj hkey
        have hstream := h e.latchType
        rw [ofKind, List.filter_cons_of_pos (by simp), List.map_cons, List.nodup_cons] at hstream
        exact hstream.1 (List.mem_map.2 ⟨f, mem_ofKind.2 ⟨hf, hkind⟩, hsequence⟩)
      · apply ih
        intro kind
        exact (h kind).sublist (((List.sublist_cons_self e rest).filter _).map _)

/-- Alternating streams repeat no event. -/
theorem distinct_of_alternating {H : Set Canonical} (hH : Set.InjOn sha256Hex H)
    (hhashed : ∀ e ∈ events, e.hashedValues ⊆ H) (h : ∀ kind, Alternating events kind) :
    (events.map (·.latchEventId)).Nodup := by
  have hkeys := List.pairwise_map.1 (nodup_kind_sequence fun kind => (h kind).nodup)
  apply List.pairwise_map.2
  apply hkeys.imp_of_mem
  intro e f he hf hne hid
  have heq := RiskLatchEvent.eq_of_latchEventId hH (hhashed e he) (hhashed f hf) hid
  exact hne (by rw [heq])

/-- The events of an experiment are accepted when their streams alternate. -/
theorem replayable_iff {H : Set Canonical} (hH : Set.InjOn sha256Hex H)
    (hsha : isSha256 experimentHash = true)
    (hexperiment : ∀ e ∈ events, e.experimentHash = experimentHash)
    (hhashed : ∀ e ∈ events, e.hashedValues ⊆ H) :
    Replayable experimentHash events ↔
      events.length ≤ maxLatchHistory ∧ ∀ kind, Alternating events kind := by
  constructor
  · intro h
    exact ⟨h.bounded, h.alternating⟩
  · rintro ⟨hbounded, halternating⟩
    exact ⟨hsha, hexperiment, distinct_of_alternating hH hhashed halternating, halternating,
      hbounded⟩

/-! ## The order of a history -/

section Reordered

variable {reordered : List RiskLatchEvent}

omit [ContentHasher] in
theorem ofKind_perm (h : events.Perm reordered) (kind : RiskLatchKind) :
    (ofKind events kind).Perm (ofKind reordered kind) :=
  h.filter _

omit [ContentHasher] in
theorem Alternating.perm (hperm : events.Perm reordered) {kind : RiskLatchKind}
    (h : Alternating events kind) : Alternating reordered kind := by
  have hstream := ofKind_perm hperm kind
  constructor
  · rw [← hstream.length_eq]
    exact (hstream.map _).symm.trans h.numbers
  · intro e he
    exact h.actions e (hstream.mem_iff.2 he)

theorem Replayable.perm (hperm : events.Perm reordered) (h : Replayable experimentHash events) :
    Replayable experimentHash reordered where
  isSha256 := h.isSha256
  experiment e he := h.experiment e (hperm.mem_iff.2 he)
  distinct := (hperm.map _).nodup_iff.1 h.distinct
  alternating kind := (h.alternating kind).perm hperm
  bounded := hperm.length_eq ▸ h.bounded

/-- The source hash covers the events in an order of their own. -/
theorem latchSourceValue_perm (hperm : events.Perm reordered)
    (h : Replayable experimentHash events) :
    latchSourceValue experimentHash events = latchSourceValue experimentHash reordered := by
  have hkeys := nodup_kind_sequence fun kind => (h.alternating kind).nodup
  have hnodup : (events.map fun e => toLex (e.latchType.value, e.sequence)).Nodup := by
    have hinj : Function.Injective fun k : RiskLatchKind × Nat => toLex (k.1.value, k.2) := by
      rintro ⟨k, n⟩ ⟨l, m⟩ hkl
      obtain ⟨hk, hn⟩ := Prod.mk.inj (toLex.injective hkl)
      exact Prod.ext (RiskLatchEvent.kind_value_injective hk) hn
    have hmap := hkeys.map hinj
    rwa [List.map_map] at hmap
  rw [latchSourceValue, latchSourceValue, sortedBy_eq_of_perm hperm hnodup]

theorem replayed_perm (hperm : events.Perm reordered) (h : Replayable experimentHash events) :
    RiskLatchState.replayed experimentHash events =
      RiskLatchState.replayed experimentHash reordered := by
  have hlength : ∀ kind, (ofKind events kind).length = (ofKind reordered kind).length :=
    fun kind => (ofKind_perm hperm kind).length_eq
  have hne : ∀ kind, ofKind events kind ≠ [] ↔ ofKind reordered kind ≠ [] := by
    intro kind
    rw [← List.length_pos_iff, ← List.length_pos_iff, hlength]
  simp only [RiskLatchState.replayed, engagedKinds, highestSequences, hlength, hne,
    hperm.length_eq, latchSourceValue_perm hperm h]

/-- **The replayed state does not depend on the order of the history.** -/
theorem fromEvents_reordered (hperm : events.Perm reordered) (state : RiskLatchState) :
    RiskLatchState.fromEvents experimentHash events = .ok state ↔
      RiskLatchState.fromEvents experimentHash reordered = .ok state := by
  rw [fromEvents_eq_ok, fromEvents_eq_ok]
  constructor
  · rintro ⟨h, rfl⟩
    exact ⟨h.perm hperm, replayed_perm hperm h⟩
  · rintro ⟨h, rfl⟩
    exact ⟨h.perm hperm.symm, replayed_perm hperm.symm h⟩

end Reordered

/-! ## The latches of a state -/

theorem isActive_replayed (kind : RiskLatchKind) :
    (RiskLatchState.replayed experimentHash events).isActive kind =
      decide ((ofKind events kind).length % 2 = 1) := by
  simp [RiskLatchState.isActive, RiskLatchState.replayed, engagedKinds, kind.mem_inOrder]

theorem nextSequence_replayed (kind : RiskLatchKind) :
    (RiskLatchState.replayed experimentHash events).nextSequence kind =
      (ofKind events kind).length + 1 := by
  have hfind : ∀ kinds : List RiskLatchKind, (((kinds.map fun k =>
      (k, (ofKind events k).length)).find? fun v => decide (v.1 = kind)).map (·.2)) =
      if kind ∈ kinds then some (ofKind events kind).length else none := by
    intro kinds
    induction kinds with
    | nil => rfl
    | cons k rest ih =>
        by_cases hk : k = kind
        · simp [hk]
        · rw [List.map_cons, List.find?_cons_of_neg (by simpa using hk), ih]
          simp [Ne.symm hk]
  rw [RiskLatchState.nextSequence, RiskLatchState.replayed, highestSequences, hfind]
  by_cases hnil : ofKind events kind = []
  · simp [hnil]
  · simp [hnil, kind.mem_inOrder]

omit [ContentHasher] in
/-- The number of an event of an alternating stream is at most its length. -/
theorem Alternating.sequence_le {kind : RiskLatchKind} (h : Alternating events kind)
    {e : RiskLatchEvent} (he : e ∈ ofKind events kind) :
    1 ≤ e.sequence ∧ e.sequence ≤ (ofKind events kind).length := by
  have hmem : e.sequence ∈ List.range' 1 (ofKind events kind).length :=
    h.numbers.mem_iff.1 (List.mem_map.2 ⟨e, he, rfl⟩)
  rw [List.mem_range'_1] at hmem
  omega

omit [ContentHasher] in
/-- A latch with events has one that carries the length of its stream. -/
theorem Alternating.exists_last {kind : RiskLatchKind} (h : Alternating events kind)
    (hpos : 0 < (ofKind events kind).length) :
    ∃ e ∈ ofKind events kind, e.sequence = (ofKind events kind).length := by
  have hmem : (ofKind events kind).length ∈ (ofKind events kind).map (·.sequence) := by
    apply h.numbers.mem_iff.2
    rw [List.mem_range'_1]
    omega
  obtain ⟨e, he, hsequence⟩ := List.mem_map.1 hmem
  exact ⟨e, he, hsequence⟩

/-- **A latch is engaged exactly when its highest event engages it.** -/
theorem isActive_replayed_iff {kind : RiskLatchKind} (h : Alternating events kind) :
    (RiskLatchState.replayed experimentHash events).isActive kind = true ↔
      ∃ e ∈ events, e.latchType = kind ∧ e.action = .engaged ∧
        ∀ f ∈ events, f.latchType = kind → f.sequence ≤ e.sequence := by
  rw [isActive_replayed, decide_eq_true_iff]
  constructor
  · intro hodd
    obtain ⟨e, he, hlast⟩ := h.exists_last (by omega)
    refine ⟨e, (mem_ofKind.1 he).1, (mem_ofKind.1 he).2, (h.actions e he).2 (hlast ▸ hodd), ?_⟩
    intro f hf hkind
    rw [hlast]
    exact (h.sequence_le (mem_ofKind.2 ⟨hf, hkind⟩)).2
  · rintro ⟨e, he, hkind, haction, hhighest⟩
    have hmem := mem_ofKind.2 ⟨he, hkind⟩
    obtain ⟨f, hf, hlast⟩ := h.exists_last (List.length_pos_of_mem hmem)
    have hle := hhighest f (mem_ofKind.1 hf).1 (mem_ofKind.1 hf).2
    have hge := (h.sequence_le hmem).2
    have heq : e.sequence = (ofKind events kind).length := by omega
    rw [← heq]
    exact (h.actions e hmem).1 haction

/-! ## Source hashes -/

omit [ContentHasher] in
/-- A function that separates the items of two lists separates the lists. -/
theorem eq_of_map_eq {α β : Type} {f : α → β} {l m : List α} (h : l.map f = m.map f)
    (hf : ∀ a ∈ l, ∀ b ∈ m, f a = f b → a = b) : l = m := by
  induction l generalizing m with
  | nil => exact (List.map_eq_nil_iff.1 h.symm).symm
  | cons a rest ih =>
      cases m with
      | nil => simp at h
      | cons b rest' =>
          obtain ⟨hfirst, hrest⟩ := List.cons.inj h
          have hab := hf a List.mem_cons_self b List.mem_cons_self hfirst
          have htail := ih hrest fun x hx y hy =>
            hf x (List.mem_cons_of_mem _ hx) y (List.mem_cons_of_mem _ hy)
          rw [hab, htail]

/-- **Histories with the same source hash have the same events.** -/
theorem perm_of_sourceHash {H : Set Canonical} (hH : Set.InjOn sha256Hex H) {other : String}
    {events' : List RiskLatchEvent} (hhashed : ∀ e ∈ events, e.hashedValues ⊆ H)
    (hhashed' : ∀ e ∈ events', e.hashedValues ⊆ H)
    (hsource : latchSourceValue experimentHash events ∈ H)
    (hsource' : latchSourceValue other events' ∈ H)
    (h : (RiskLatchState.replayed experimentHash events).sourceHash =
      (RiskLatchState.replayed other events').sourceHash) : events.Perm events' := by
  have hvalue := hH hsource hsource' h
  simp only [latchSourceValue, Canonical.seq.injEq, List.cons.injEq, true_and, and_true] at hvalue
  have hhashes := Canonical.texts_injective hvalue.2
  have hordered := eq_of_map_eq hhashes fun e he f hf => RiskLatchEvent.eq_of_contentHash hH
    (hhashed e (mem_sortedBy.1 he)) (hhashed' f (mem_sortedBy.1 hf))
  have hsorted := sortedBy_perm (fun e => toLex (e.latchType.value, e.sequence)) events
  rw [hordered] at hsorted
  exact hsorted.symm.trans (sortedBy_perm _ _)

/-! ## Continued histories -/

/-- The history continued by the event is accepted, and only this latch changed. -/
def ChangesOnly (experimentHash : String) (events : List RiskLatchEvent) (state : RiskLatchState)
    (e : RiskLatchEvent) (kind : RiskLatchKind) (engaged : Bool) : Prop :=
  ∃ state', RiskLatchState.fromEvents experimentHash (events ++ [e]) = .ok state' ∧
    (∀ k, state'.isActive k = if k = kind then engaged else state.isActive k) ∧
    ∀ k, state'.nextSequence k =
      if k = kind then state.nextSequence k + 1 else state.nextSequence k

omit [ContentHasher] in
theorem ofKind_append (e : RiskLatchEvent) (kind : RiskLatchKind) :
    ofKind (events ++ [e]) kind = ofKind events kind ++ if e.latchType = kind then [e] else [] := by
  rw [ofKind, List.filter_append, ← ofKind]
  by_cases h : e.latchType = kind <;> simp [h]

omit [ContentHasher] in
/-- The next event of an alternating stream continues it. -/
theorem Alternating.append {e : RiskLatchEvent} {kind : RiskLatchKind} (h : Alternating events kind)
    (hnext : e.latchType = kind → e.sequence = (ofKind events kind).length + 1 ∧
      (e.action = .engaged ↔ e.sequence % 2 = 1)) : Alternating (events ++ [e]) kind := by
  by_cases hkind : e.latchType = kind
  · obtain ⟨hsequence, haction⟩ := hnext hkind
    have hstream : ofKind (events ++ [e]) kind = ofKind events kind ++ [e] := by
      rw [ofKind_append, if_pos hkind]
    constructor
    · rw [hstream, List.map_append, List.length_append, List.length_singleton, List.range'_concat]
      have hone : 1 + 1 * (ofKind events kind).length = e.sequence := by omega
      rw [hone]
      exact h.numbers.append_right _
    · rw [hstream]
      intro f hf
      rcases List.mem_append.1 hf with hold | hnew
      · exact h.actions f hold
      · rw [List.mem_singleton.1 hnew]
        exact haction
  · have hstream : ofKind (events ++ [e]) kind = ofKind events kind := by
      rw [ofKind_append, if_neg hkind, List.append_nil]
    constructor
    · rw [hstream]
      exact h.numbers
    · rw [hstream]
      exact h.actions

/-- The next event of a latch changes this latch and no other. -/
theorem changesOnly_of_next {H : Set Canonical} (hH : Set.InjOn sha256Hex H)
    (h : Replayable experimentHash events) (hroom : events.length < maxLatchHistory)
    (hhashed : ∀ e ∈ events, e.hashedValues ⊆ H) {e : RiskLatchEvent} (he : e.hashedValues ⊆ H)
    {engaged : Bool} (hexperiment : e.experimentHash = experimentHash)
    (hsequence : e.sequence = (ofKind events e.latchType).length + 1)
    (haction : e.action = .engaged ↔ engaged = true)
    (hturn : decide ((ofKind events e.latchType).length % 2 = 1) = !engaged) :
    ChangesOnly experimentHash events (.replayed experimentHash events) e e.latchType engaged := by
  have hparity : engaged = true ↔ e.sequence % 2 = 1 := by
    rw [hsequence]
    cases engaged with
    | true =>
        simp only [Bool.not_true, decide_eq_false_iff_not] at hturn
        simp only [true_iff]
        omega
    | false =>
        simp only [Bool.not_false, decide_eq_true_eq] at hturn
        simp only [Bool.false_eq_true, false_iff]
        omega
  have halternating : ∀ kind, Alternating (events ++ [e]) kind := by
    intro kind
    apply (h.alternating kind).append
    rintro rfl
    exact ⟨hsequence, haction.trans hparity⟩
  have hall : ∀ f ∈ events ++ [e], f.hashedValues ⊆ H := by
    intro f hf
    rcases List.mem_append.1 hf with hold | hnew
    · exact hhashed f hold
    · rw [List.mem_singleton.1 hnew]
      exact he
  have hexperiments : ∀ f ∈ events ++ [e], f.experimentHash = experimentHash := by
    intro f hf
    rcases List.mem_append.1 hf with hold | hnew
    · exact h.experiment f hold
    · rw [List.mem_singleton.1 hnew]
      exact hexperiment
  have hbounded : (events ++ [e]).length ≤ maxLatchHistory := by
    rw [List.length_append, List.length_singleton]
    omega
  have hreplay : Replayable experimentHash (events ++ [e]) :=
    (replayable_iff hH h.isSha256 hexperiments hall).2 ⟨hbounded, halternating⟩
  refine ⟨_, fromEvents_eq_ok.2 ⟨hreplay, rfl⟩, ?_, ?_⟩
  · intro k
    rw [isActive_replayed, isActive_replayed, ofKind_append]
    by_cases hk : e.latchType = k
    · subst hk
      rw [if_pos rfl, if_pos rfl, List.length_append, List.length_singleton, ← hsequence]
      rw [Bool.eq_iff_iff, decide_eq_true_iff]
      exact hparity.symm
    · rw [if_neg hk, if_neg (Ne.symm hk), List.append_nil]
  · intro k
    rw [nextSequence_replayed, nextSequence_replayed, ofKind_append]
    by_cases hk : e.latchType = k
    · subst hk
      rw [if_pos rfl, if_pos rfl, List.length_append, List.length_singleton]
    · rw [if_neg hk, if_neg (Ne.symm hk), List.append_nil]

theorem changesOnly_engagement {H : Set Canonical} (hH : Set.InjOn sha256Hex H)
    (h : Replayable experimentHash events) (hroom : events.length < maxLatchHistory)
    (hhashed : ∀ e ∈ events, e.hashedValues ⊆ H) {kind : RiskLatchKind}
    {reasonCode actor : String} {occurredAt : Instant} {correlationId idempotencyKey : String}
    {e : RiskLatchEvent} (hcreate : createLatchEngagement (.replayed experimentHash events) kind
      reasonCode actor occurredAt correlationId idempotencyKey = .ok e) (he : e.hashedValues ⊆ H) :
    ChangesOnly experimentHash events (.replayed experimentHash events) e kind true := by
  simp only [createLatchEngagement, bind_eq_ok, rejectIf_eq_ok, Bool.not_eq_true,
    isActive_replayed, nextSequence_replayed, RiskLatchEvent.create, validated_eq_ok] at hcreate
  obtain ⟨_, hinactive, hchecked, rfl⟩ := hcreate
  exact changesOnly_of_next hH h hroom hhashed he rfl rfl (by simp) hinactive

theorem changesOnly_clear {H : Set Canonical} (hH : Set.InjOn sha256Hex H)
    (h : Replayable experimentHash events) (hroom : events.length < maxLatchHistory)
    (hhashed : ∀ e ∈ events, e.hashedValues ⊆ H) {kind : RiskLatchKind} {authenticated : Bool}
    {acknowledgement actor : String} {occurredAt : Instant} {correlationId idempotencyKey : String}
    {e : RiskLatchEvent} (hcreate : createAuthenticatedLatchClear (.replayed experimentHash events)
      kind authenticated acknowledgement actor occurredAt correlationId idempotencyKey = .ok e)
    (he : e.hashedValues ⊆ H) :
    ChangesOnly experimentHash events (.replayed experimentHash events) e kind false := by
  simp only [createAuthenticatedLatchClear, bind_eq_ok, rejectIf_eq_ok, Bool.not_eq_false,
    isActive_replayed, nextSequence_replayed, RiskLatchEvent.create, validated_eq_ok] at hcreate
  obtain ⟨_, -, _, -, _, hactive, hchecked, rfl⟩ := hcreate
  exact changesOnly_of_next hH h hroom hhashed he rfl rfl (by simp) hactive

/-- **Replay of latch histories.** A history of one experiment is accepted exactly when it can be
hashed and every latch alternates; its state does not depend on the order; a latch is engaged
exactly when its highest event engages it; the source hash determines the events; and an engagement
or a clearance made from the state continues the history and changes the latch it names only. -/
theorem latch_replay {H : Set Canonical} (hH : Set.InjOn sha256Hex H)
    (hsha : isSha256 experimentHash = true)
    (hexperiment : ∀ e ∈ events, e.experimentHash = experimentHash)
    (hhashed : ∀ e ∈ events, e.hashedValues ⊆ H) :
    ((∃ state, RiskLatchState.fromEvents experimentHash events = .ok state) ↔
      events.length ≤ maxLatchHistory ∧ ∀ kind, Alternating events kind) ∧
    (∀ reordered, events.Perm reordered → ∀ state,
      RiskLatchState.fromEvents experimentHash events = .ok state ↔
        RiskLatchState.fromEvents experimentHash reordered = .ok state) ∧
    ∀ state, RiskLatchState.fromEvents experimentHash events = .ok state →
      (∀ kind, state.isActive kind = true ↔
        ∃ e ∈ events, e.latchType = kind ∧ e.action = .engaged ∧
          ∀ f ∈ events, f.latchType = kind → f.sequence ≤ e.sequence) ∧
      (∀ other events' state', RiskLatchState.fromEvents other events' = .ok state' →
        (∀ e ∈ events', e.hashedValues ⊆ H) → latchSourceValue experimentHash events ∈ H →
          latchSourceValue other events' ∈ H → state.sourceHash = state'.sourceHash →
            events.Perm events') ∧
      (events.length < maxLatchHistory → ∀ kind reasonCode actor occurredAt correlationId idempotencyKey e,
        createLatchEngagement state kind reasonCode actor occurredAt correlationId
          idempotencyKey = .ok e → e.hashedValues ⊆ H →
            ChangesOnly experimentHash events state e kind true) ∧
      (events.length < maxLatchHistory → ∀ kind authenticated acknowledgement actor occurredAt correlationId
        idempotencyKey e, createAuthenticatedLatchClear state kind authenticated acknowledgement
          actor occurredAt correlationId idempotencyKey = .ok e → e.hashedValues ⊆ H →
            ChangesOnly experimentHash events state e kind false) := by
  refine ⟨?_, fun reordered hperm state => fromEvents_reordered hperm state, ?_⟩
  · rw [← replayable_iff hH hsha hexperiment hhashed]
    constructor
    · rintro ⟨state, h⟩
      exact (fromEvents_eq_ok.1 h).1
    · intro h
      exact ⟨_, fromEvents_eq_ok.2 ⟨h, rfl⟩⟩
  · intro state hstate
    obtain ⟨h, rfl⟩ := fromEvents_eq_ok.1 hstate
    refine ⟨fun kind => isActive_replayed_iff (h.alternating kind), ?_, ?_, ?_⟩
    · intro other events' state' hstate' hhashed' hsource hsource' heq
      obtain ⟨-, rfl⟩ := fromEvents_eq_ok.1 hstate'
      exact perm_of_sourceHash hH hhashed hhashed' hsource hsource' heq
    · intro hroom kind reasonCode actor occurredAt correlationId idempotencyKey e hcreate he
      exact changesOnly_engagement hH h hroom hhashed hcreate he
    · intro hroom kind authenticated acknowledgement actor occurredAt correlationId idempotencyKey e
        hcreate he
      exact changesOnly_clear hH h hroom hhashed hcreate he

end Hashed

/-! ## Sample histories -/

/-- The digest of the sample experiment. -/
def sampleExperiment : String := String.ofList (List.replicate 64 'a')

/-- The `n`-th transition of the operator halt. -/
def haltFields (n : Nat) : RiskLatchEventFields where
  experimentHash := sampleExperiment
  latchType := .operatorHalt
  sequence := n + 1
  action := if n % 2 = 0 then .engaged else .cleared
  reasonCode := "operator_request"
  actor := "operator"
  occurredAt := 0
  correlationId := "correlation_" ++ sampleExperiment
  idempotencyKey := "key"

theorem haltFields_check (n : Nat) : (haltFields n).check = .ok () := by
  have hdigest : isSha256 sampleExperiment = true := by decide +kernel
  have hreason : isSafeCode "operator_request" = true := by decide +kernel
  have hactor : isSafeCode "operator" = true := by decide +kernel
  have hkey : isSafeCode "key" = true := by decide +kernel
  have hcorrelation : isPrefixedDigest "correlation" ("correlation_" ++ sampleExperiment) = true := by
    decide +kernel
  simp [RiskLatchEventFields.check, haltFields, hdigest, hreason, hactor, hkey, hcorrelation]

/-- `length` transitions of the operator halt. -/
def haltHistory (length : Nat) : List RiskLatchEvent :=
  (List.range length).map fun n => ⟨haltFields n, haltFields_check n⟩

theorem alternating_haltHistory (length : Nat) (kind : RiskLatchKind) :
    Alternating (haltHistory length) kind := by
  by_cases hkind : kind = .operatorHalt
  · subst hkind
    have hall : ofKind (haltHistory length) .operatorHalt = haltHistory length := by
      apply List.filter_eq_self.2
      intro e he
      obtain ⟨n, -, rfl⟩ := List.mem_map.1 he
      rfl
    constructor
    · rw [hall, haltHistory, List.map_map, List.length_map, List.length_range,
        List.range'_eq_map_range]
      apply List.Perm.of_eq
      apply List.map_congr_left
      intro n _
      exact Nat.add_comm n 1
    · rw [hall]
      intro e he
      obtain ⟨n, -, rfl⟩ := List.mem_map.1 he
      rcases Nat.mod_two_eq_zero_or_one n with heven | hodd
      · have hsequence : (n + 1) % 2 = 1 := by omega
        simp [haltFields, heven, hsequence]
      · have hsequence : (n + 1) % 2 = 0 := by omega
        simp [haltFields, hodd, hsequence]
  · apply alternating_of_absent
    apply List.filter_eq_nil_iff.2
    intro e he
    obtain ⟨n, -, rfl⟩ := List.mem_map.1 he
    simp [haltFields, Ne.symm hkind]

theorem experimentHash_haltHistory {length : Nat} {e : RiskLatchEvent}
    (he : e ∈ haltHistory length) : e.experimentHash = sampleExperiment := by
  obtain ⟨n, -, rfl⟩ := List.mem_map.1 he
  rfl

/-- A single engagement is accepted and leaves the latch engaged. -/
theorem latch_replay_single :
    let _ : ContentHasher := polynomialHasher
    ∃ state, RiskLatchState.fromEvents sampleExperiment (haltHistory 1) = .ok state ∧
      state.isActive .operatorHalt = true := by
  intro hasher
  have hdistinct : ∀ e ∈ haltHistory 1, sha256Hex e.payloadValue ≠ sha256Hex e.identityValue ∧
      sha256Hex e.payloadValue ≠ sha256Hex e.contentValue ∧
        sha256Hex e.identityValue ≠ sha256Hex e.contentValue := by decide +kernel
  have hsha : isSha256 sampleExperiment = true := by decide +kernel
  have hsingle : haltHistory 1 = [⟨haltFields 0, haltFields_check 0⟩] := rfl
  have hinj : Set.InjOn sha256Hex
      (⟨haltFields 0, haltFields_check 0⟩ : RiskLatchEvent).hashedValues := by
    obtain ⟨hpi, hpc, hic⟩ := hdistinct _ (hsingle ▸ List.mem_singleton_self _)
    rintro a (rfl | rfl | rfl) b (rfl | rfl | rfl) h
    · rfl
    · exact absurd h hpi
    · exact absurd h hpc
    · exact absurd h.symm hpi
    · rfl
    · exact absurd h hic
    · exact absurd h.symm hpc
    · exact absurd h.symm hic
    · rfl
  have hhashed : ∀ e ∈ haltHistory 1, e.hashedValues ⊆
      (⟨haltFields 0, haltFields_check 0⟩ : RiskLatchEvent).hashedValues := by
    intro e he
    rw [hsingle, List.mem_singleton] at he
    rw [he]
  obtain ⟨haccepted, -, hstate⟩ :=
    latch_replay hinj hsha (fun e he => experimentHash_haltHistory he) hhashed
  obtain ⟨state, hok⟩ := haccepted.2
    ⟨by simp [haltHistory, maxLatchHistory], alternating_haltHistory 1⟩
  refine ⟨state, hok, ((hstate state hok).1 .operatorHalt).2 ?_⟩
  refine ⟨_, hsingle ▸ List.mem_singleton_self _, rfl, rfl, ?_⟩
  intro f hf _
  rw [hsingle, List.mem_singleton] at hf
  rw [hf]

/-- 4,093 alternating transitions are refused, whatever the digest is. -/
theorem long_history_refused :
    (∀ e ∈ haltHistory 4093, e.experimentHash = sampleExperiment) ∧
      (∀ kind, Alternating (haltHistory 4093) kind) ∧
        ∀ (hasher : ContentHasher) (state : RiskLatchState),
          @RiskLatchState.fromEvents hasher sampleExperiment (haltHistory 4093) ≠ .ok state := by
  refine ⟨fun e he => experimentHash_haltHistory he, alternating_haltHistory 4093, ?_⟩
  intro hasher state h
  have hbounded := (fromEvents_eq_ok.1 h).1.bounded
  simp [haltHistory, maxLatchHistory] at hbounded

end AdaptiveTrader
