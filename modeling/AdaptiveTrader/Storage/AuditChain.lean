import AdaptiveTrader.Storage.AuditVerification

/-!
# Appending audit evidence

The lock of a stream serializes the appends to it, and appends to different streams touch disjoint
rows: a run is a list of requests in the order in which they commit. A request that is refused
leaves the table as it was.

Every append keeps the streams linked and their idempotency keys distinct (`AuditTable.append`), so
the independent verifier accepts the table after every run. A request whose key is already in its
stream returns the stored event when it asks for the same event, and is refused otherwise.
-/

set_option autoImplicit false

namespace AdaptiveTrader

open Foundation

section Rows

variable [ContentHasher]

/-- An event as it is stored. -/
def AuditEvent.row (e : AuditEvent) : AuditRow where
  auditEventId := e.auditEventId
  streamId := e.streamId
  sequence := e.sequence
  previousHash := e.previousHash
  eventType := e.eventType
  actor := e.actor
  occurredAt := e.occurredAt
  payloadHash := e.payloadHash
  eventHash := e.eventHash
  contentHash := e.eventHash
  payloadJson := canonicalJson (.mapping e.payload.entries)
  payload := e.payload
  encoded := rfl

/-- The whole table as the verifier reads it, ordered by stream and sequence number. -/
def storedRows (events : List AuditEvent) : List AuditRow :=
  sortedBy auditChaining.key (events.map AuditEvent.row)

/-! ## Requests -/

/-- The arguments of `AuditRepository.append`, with the writer of the repository. -/
structure AppendRequest where
  writer : Option AuditWriter
  streamId : String
  eventType : String
  occurredAt : Instant
  payload : AuditPayload

namespace AppendRequest

/-- The canonical text of the requested payload. -/
def payloadJson (r : AppendRequest) : String := canonicalJson (.mapping r.payload.entries)

/-- The result of a request and the table it leaves behind. -/
def perform (r : AppendRequest) (events : List AuditEvent) :
    Except PlatformError AuditEvent × List AuditEvent :=
  match appendAuditEvent r.writer r.streamId r.eventType r.occurredAt r.payload events with
  | .ok (event, events') => (.ok event, events')
  | .error error => (.error error, events)

/-- The event is the one the request asks for. -/
structure Matches (r : AppendRequest) (e : AuditEvent) : Prop where
  streamId : e.streamId = r.streamId
  eventType : e.eventType = r.eventType
  actor : r.writer = some e.actor
  occurredAt : e.occurredAt = r.occurredAt
  payloadHash : e.payloadHash = sha256Hex (.mapping r.payload.entries)
  idempotencyKey : e.idempotencyKey = r.payload.idempotencyKey

end AppendRequest

/-- The table after a list of requests. -/
def runAppends (requests : List AppendRequest) : List AuditEvent :=
  requests.foldl (fun events r => (r.perform events).2) []

/-! ## Events that were created -/

/-- The checks that creating an event makes, with the bound on the sequence number. -/
structure AuditEvent.Authored (e : AuditEvent) : Prop where
  authority : validateAuditAuthority e.streamId e.eventType e.actor = .ok ()
  sequence : 1 ≤ e.sequence ∧ e.sequence ≤ maxSigned64BitInteger
  previousHash : isSha256 e.previousHash = true

omit [ContentHasher] in
theorem AuditEvent.create_eq_ok_iff {streamId : String} {sequence : Nat}
    {previousHash eventType : String} {actor : AuditWriter} {occurredAt : Instant}
    {payload : AuditPayload} {e : AuditEvent} :
    AuditEvent.create streamId sequence previousHash eventType actor occurredAt payload = .ok e ↔
      validateAuditAuthority streamId eventType actor = .ok () ∧ 1 ≤ sequence ∧
        isSha256 previousHash = true ∧
        e = ⟨streamId, sequence, previousHash, eventType, actor, occurredAt, payload⟩ := by
  simp only [AuditEvent.create, unit_bind_eq_ok, rejectIf_eq_ok, pure_eq_ok, not_lt,
    Bool.not_eq_false]
  constructor
  · rintro ⟨hauthority, hsequence, hprevious, rfl⟩
    exact ⟨hauthority, hsequence, hprevious, rfl⟩
  · rintro ⟨hauthority, hsequence, hprevious, rfl⟩
    exact ⟨hauthority, hsequence, hprevious, rfl⟩

/-- The verifier has nothing to object to in an event that was created. -/
theorem AuditEvent.Authored.verifyEventContent {e : AuditEvent} (h : e.Authored) :
    verifyEventContent e.row = .ok () := by
  have hpayload : isSha256 e.payloadHash = true := isSha256_sha256Hex _
  have hsequence : ¬ (e.sequence < 1 ∨ maxSigned64BitInteger < e.sequence) := by
    have := h.sequence
    omega
  have hhash : auditEventHash e.streamId e.sequence e.previousHash e.eventType e.actor e.occurredAt
      e.payloadHash = .ok e.eventHash := by
    simp only [auditEventHash, unit_bind_eq_ok, rejectIf_eq_ok, pure_eq_ok, h.authority,
      h.previousHash, hpayload, hsequence]
    simp [AuditEvent.eventHash, auditTuple]
  unfold AdaptiveTrader.verifyEventContent
  simp only [AuditEvent.row, hhash]
  simp [rejectIf, AuditEvent.payloadHash, AuditEvent.auditEventId, deterministicId]

/-- The chain check of the repository is the verifier on created events. -/
theorem verifyAuditRowStep_row {cursor : AuditCursor} {e : AuditEvent} (h : e.Authored) :
    verifyAuditRowStep cursor e.row = verifyAuditStep cursor e := by
  unfold verifyAuditRowStep verifyAuditStep
  rw [h.verifyEventContent]
  rfl

theorem foldlM_verifyAuditRowStep_row {events : List AuditEvent} (h : ∀ e ∈ events, e.Authored)
    (cursor : AuditCursor) :
    (events.map AuditEvent.row).foldlM verifyAuditRowStep cursor =
      events.foldlM verifyAuditStep cursor := by
  induction events generalizing cursor with
  | nil => rfl
  | cons e rest ih =>
      rw [List.map_cons, List.foldlM_cons, List.foldlM_cons,
        verifyAuditRowStep_row (h e List.mem_cons_self)]
      have hrest := ih fun e he => h e (List.mem_cons_of_mem _ he)
      simp only [hrest]

theorem verifyAuditChain_eq_ok {events : List AuditEvent} (h : ∀ e ∈ events, e.Authored)
    (hs : SoundAuditLog (events.map AuditEvent.row)) : verifyAuditChain events = .ok () := by
  have hfold := (@AuditCursor.Reads.foldlM_eq_ok_iff _ {} _ [] (events.map AuditEvent.row)
    AuditCursor.reads_nil soundAuditLog_nil).2 ⟨hs, rfl⟩
  rw [foldlM_verifyAuditRowStep_row h] at hfold
  simp only [verifyAuditChain, bind_eq_ok]
  exact ⟨_, hfold, rfl⟩

/-! ## The invariant of the table -/

/-- The key under which an event may be requested again. -/
def AuditEvent.idempotencyIdentity (e : AuditEvent) : String × String :=
  (e.streamId, e.idempotencyKey)

/-- Every event was created, the streams are linked and no key occurs twice in a stream. -/
structure AuditTable (events : List AuditEvent) : Prop where
  authored : ∀ e ∈ events, e.Authored
  linked : auditChaining.StreamsLinked (events.map AuditEvent.row)
  identities : (events.map AuditEvent.idempotencyIdentity).Nodup

theorem auditTable_nil : AuditTable [] := by
  refine ⟨?_, Chaining.streamsLinked_nil, List.nodup_nil⟩
  intro e he
  cases he

namespace AuditTable

variable {events : List AuditEvent}

theorem map_idempotencyIdentity (events : List AuditEvent) :
    (events.map AuditEvent.row).map AuditRow.idempotencyIdentity =
      events.map AuditEvent.idempotencyIdentity := by
  rw [List.map_map]
  rfl

/-- The verifier accepts the stored events. -/
theorem soundAuditLog_storedRows (h : AuditTable events) : SoundAuditLog (storedRows events) where
  verified := h.linked.verified_sortedBy
  content := by
    intro r hr
    obtain ⟨e, he, rfl⟩ := List.mem_map.1 (mem_sortedBy.1 hr)
    exact (h.authored e he).verifyEventContent
  identities := by
    have hperm := (sortedBy_perm auditChaining.key (events.map AuditEvent.row)).map
      AuditRow.idempotencyIdentity
    rw [storedRows, hperm.nodup_iff, map_idempotencyIdentity]
    exact h.identities

theorem entriesOf_map_row (s : String) (events : List AuditEvent) :
    auditChaining.entriesOf s (events.map AuditEvent.row) =
      (events.filter fun e => e.streamId = s).map AuditEvent.row := by
  rw [Chaining.entriesOf, List.filter_map]
  rfl

/-- The events of one stream are stored in order. -/
theorem sortedBy_sequence (h : AuditTable events) (s : String) :
    sortedBy AuditEvent.sequence (events.filter fun e => e.streamId = s) =
      events.filter fun e => e.streamId = s := by
  apply sortedBy_eq_self
  have hnumbers := (h.linked s).pairwise
  rw [entriesOf_map_row, List.pairwise_map] at hnumbers
  exact hnumbers.imp le_of_lt

/-- The repository accepts each of its own streams. -/
theorem verifyAuditChain_filter (h : AuditTable events) (s : String) :
    verifyAuditChain (events.filter fun e => e.streamId = s) = .ok () := by
  apply verifyAuditChain_eq_ok
  · intro e he
    exact h.authored e (List.mem_filter.1 he).1
  · rw [← entriesOf_map_row]
    refine ⟨h.linked.verified_entriesOf s, ?_, ?_⟩
    · intro r hr
      obtain ⟨e, he, rfl⟩ := List.mem_map.1 (Chaining.mem_entriesOf.1 hr).1
      exact (h.authored e he).verifyEventContent
    · have hall : ((events.map AuditEvent.row).map AuditRow.idempotencyIdentity).Nodup := by
        rw [map_idempotencyIdentity]
        exact h.identities
      exact hall.sublist (List.filter_sublist.map _)

/-- An event that continues its stream under a new key can be added to the table. -/
theorem append (h : AuditTable events) {e : AuditEvent} (ha : e.Authored)
    (hlink : (e.sequence, e.previousHash) = nextLink ((events.filter fun prior =>
      prior.streamId = e.streamId).getLast?.map fun prior => (prior.sequence, prior.eventHash)))
    (hnew : ∀ prior ∈ events, prior.streamId = e.streamId →
      prior.idempotencyKey ≠ e.idempotencyKey) : AuditTable (events ++ [e]) where
  authored := by
    intro prior hprior
    rcases List.mem_append.1 hprior with hprior | hprior
    · exact h.authored prior hprior
    · exact List.mem_singleton.1 hprior ▸ ha
  linked := by
    have hhead := nextLink_eq_head (auditChaining.entriesOf e.streamId (events.map AuditEvent.row))
    rw [entriesOf_map_row, List.getLast?_map, Option.map_map] at hhead
    have hnext := hlink.trans hhead
    rw [← entriesOf_map_row] at hnext
    rw [List.map_append, List.map_singleton, Chaining.streamsLinked_concat_iff]
    exact ⟨h.linked, congrArg Prod.fst hnext, congrArg Prod.snd hnext⟩
  identities := by
    rw [List.map_append, List.map_singleton, List.nodup_append]
    refine ⟨h.identities, List.nodup_singleton _, ?_⟩
    intro k hk k' hk' heq
    cases List.mem_singleton.1 hk'
    obtain ⟨prior, hprior, rfl⟩ := List.mem_map.1 hk
    exact hnew prior hprior (congrArg Prod.fst heq) (congrArg Prod.snd heq)

/-- The stored event of a stream under a key. -/
theorem find?_eq_some (h : AuditTable events) {e : AuditEvent} (he : e ∈ events) :
    (events.filter fun prior => prior.streamId = e.streamId).find?
      (fun prior => prior.idempotencyKey == e.idempotencyKey) = some e := by
  cases hfind : (events.filter fun prior => prior.streamId = e.streamId).find?
      (fun prior => prior.idempotencyKey == e.idempotencyKey) with
  | none =>
      have hself := List.find?_eq_none.1 hfind e (List.mem_filter.2 ⟨he, by simp⟩)
      simp at hself
  | some prior =>
      have hkey : prior.idempotencyKey = e.idempotencyKey := by simpa using List.find?_some hfind
      have hmem := List.mem_filter.1 (List.mem_of_find?_eq_some hfind)
      have hstream : prior.streamId = e.streamId := by simpa using hmem.2
      exact congrArg some (List.inj_on_of_nodup_map h.identities hmem.1 he (Prod.ext hstream hkey))

/-! ## One append -/

/-- A request whose key is already in its stream. -/
theorem appendOnConnection_of_retry (h : AuditTable events) {e : AuditEvent} (candidate : AuditEvent)
    (he : e ∈ events) (hstream : e.streamId = candidate.streamId)
    (hkey : e.idempotencyKey = candidate.idempotencyKey) :
    appendOnConnection candidate events =
      if e.sameAppendRequest candidate = true then .ok (e, events)
      else .error (.auditValidation "audit idempotency key was reused with different content") := by
  have hmem : e ∈ events.filter fun prior => prior.streamId = candidate.streamId :=
    List.mem_filter.2 ⟨he, by simpa using hstream⟩
  have hfind := h.find?_eq_some he
  rw [hstream, hkey] at hfind
  unfold appendOnConnection
  rw [h.sortedBy_sequence]
  dsimp only
  split
  · next hnone =>
      rw [List.getLast?_eq_none_iff.1 hnone] at hmem
      cases hmem
  · rw [h.verifyAuditChain_filter, hfind]
    cases hsame : e.sameAppendRequest candidate <;>
      simp [hsame, rejectIf, bind, Except.bind, pure, Except.pure]

/-- A request that succeeds returns a stored event that asked for the same, or adds its own. -/
theorem appendOnConnection_cases (h : AuditTable events) {candidate e : AuditEvent}
    {events' : List AuditEvent} (hc : candidate.Authored) (hsequence : candidate.sequence = 1)
    (hprevious : candidate.previousHash = auditGenesisHash)
    (hok : appendOnConnection candidate events = .ok (e, events')) :
    (e ∈ events ∧ events' = events ∧ e.sameAppendRequest candidate = true ∧
        e.idempotencyKey = candidate.idempotencyKey) ∨
      (AuditTable events' ∧ events' = events ++ [e] ∧
        e = { candidate with sequence := e.sequence, previousHash := e.previousHash }) := by
  unfold appendOnConnection insertAudit at hok
  rw [h.sortedBy_sequence] at hok
  dsimp only at hok
  split at hok
  · next hnone =>
      -- The first event of the stream stands behind the genesis.
      simp only [bind_eq_ok, rejectIf_eq_ok, pure_eq_ok] at hok
      obtain ⟨_, ⟨_, -, rfl⟩, hpair⟩ := hok
      obtain ⟨rfl, rfl⟩ := Prod.mk.inj hpair
      refine Or.inr ⟨h.append hc ?_ ?_, rfl, rfl⟩
      · rw [hnone, hsequence, hprevious]
        rfl
      · intro prior hprior hstream
        have hmem : prior ∈ events.filter fun prior => prior.streamId = candidate.streamId :=
          List.mem_filter.2 ⟨hprior, by simpa using hstream⟩
        rw [List.getLast?_eq_none_iff.1 hnone] at hmem
        cases hmem
  · next latest hlatest =>
      rw [h.verifyAuditChain_filter, unit_bind_eq_ok] at hok
      replace hok := hok.2
      split at hok
      · next retry hretry =>
          simp only [unit_bind_eq_ok, rejectIf_eq_ok, pure_eq_ok] at hok
          obtain ⟨hsame, hpair⟩ := hok
          obtain ⟨rfl, rfl⟩ := Prod.mk.inj hpair
          have hmem := List.mem_filter.1 (List.mem_of_find?_eq_some hretry)
          exact Or.inl ⟨hmem.1, rfl, by simpa using hsame, by simpa using List.find?_some hretry⟩
      · next hfind =>
          simp only [bind_eq_ok, rejectIf_eq_ok, pure_eq_ok, AuditEvent.create_eq_ok_iff] at hok
          obtain ⟨_, hbound, event, ⟨hauthority, hpositive, hhash, rfl⟩, _, ⟨_, -, rfl⟩, hpair⟩ := hok
          obtain ⟨rfl, rfl⟩ := Prod.mk.inj hpair
          refine Or.inr ⟨h.append ⟨hauthority, ⟨hpositive, not_lt.1 hbound⟩, hhash⟩ ?_ ?_, rfl, rfl⟩
          · rw [hlatest]
            rfl
          · intro prior hprior hstream hkey
            have hmem : prior ∈ events.filter fun prior => prior.streamId = candidate.streamId :=
              List.mem_filter.2 ⟨hprior, by simpa using hstream⟩
            exact List.find?_eq_none.1 hfind prior hmem (beq_iff_eq.2 hkey)

end AuditTable

/-! ## Runs of requests -/

namespace AppendRequest

variable {events : List AuditEvent} {r : AppendRequest} {e : AuditEvent}

/-- The event of a request at the start of its stream. -/
def candidate (r : AppendRequest) (actor : AuditWriter) : AuditEvent :=
  ⟨r.streamId, 1, auditGenesisHash, r.eventType, actor, r.occurredAt, r.payload⟩

omit [ContentHasher] in
/-- A candidate needs the authority of its writer only. -/
theorem create_candidate_iff {actor : AuditWriter} {c : AuditEvent} :
    AuditEvent.create r.streamId 1 auditGenesisHash r.eventType actor r.occurredAt r.payload =
      .ok c ↔ validateAuditAuthority r.streamId r.eventType actor = .ok () ∧ c = r.candidate actor := by
  rw [AuditEvent.create_eq_ok_iff]
  constructor
  · rintro ⟨hauthority, -, -, rfl⟩
    exact ⟨hauthority, rfl⟩
  · rintro ⟨hauthority, rfl⟩
    exact ⟨hauthority, le_rfl, by decide +kernel, rfl⟩

/-- A request is answered by appending its candidate. -/
theorem appendAuditEvent_eq_ok_iff {result : AuditEvent × List AuditEvent} :
    appendAuditEvent r.writer r.streamId r.eventType r.occurredAt r.payload events = .ok result ↔
      ∃ actor, r.writer = some actor ∧
        validateAuditAuthority r.streamId r.eventType actor = .ok () ∧
        appendOnConnection (r.candidate actor) events = .ok result := by
  simp only [appendAuditEvent, bind_eq_ok, require_eq_ok, create_candidate_iff]
  constructor
  · rintro ⟨actor, hwriter, _, ⟨hauthority, rfl⟩, happend⟩
    exact ⟨actor, hwriter, hauthority, happend⟩
  · rintro ⟨actor, hwriter, hauthority, happend⟩
    exact ⟨actor, hwriter, _, ⟨hauthority, rfl⟩, happend⟩

theorem sameAppendRequest_iff {candidate : AuditEvent} : e.sameAppendRequest candidate = true ↔
    e.streamId = candidate.streamId ∧ e.eventType = candidate.eventType ∧
      e.actor = candidate.actor ∧ e.occurredAt = candidate.occurredAt ∧
      e.payloadHash = candidate.payloadHash := by
  simp [AuditEvent.sameAppendRequest]

/-- A request keeps the table consistent, only adds to it, and returns a stored event that is the
one it asks for. -/
theorem perform_spec (h : AuditTable events) (r : AppendRequest) :
    AuditTable (r.perform events).2 ∧ events ⊆ (r.perform events).2 ∧
      ∀ e, (r.perform events).1 = .ok e → e ∈ (r.perform events).2 ∧ r.Matches e := by
  unfold perform
  split
  · next event events' hok =>
      obtain ⟨actor, hwriter, hauthority, happend⟩ := appendAuditEvent_eq_ok_iff.1 hok
      have hc : (r.candidate actor).Authored :=
        ⟨hauthority, ⟨le_rfl, (by decide : 1 ≤ maxSigned64BitInteger)⟩,
          (by decide +kernel : isSha256 auditGenesisHash = true)⟩
      rcases h.appendOnConnection_cases hc rfl rfl happend with
        ⟨hmem, rfl, hsame, hkey⟩ | ⟨htable, rfl, hevent⟩
      · obtain ⟨hstream, htype, hactor, htime, hhash⟩ := sameAppendRequest_iff.1 hsame
        refine ⟨h, List.Subset.refl _, ?_⟩
        rintro e he
        cases he
        exact ⟨hmem, hstream, htype, hwriter.trans (congrArg some hactor.symm), htime, hhash, hkey⟩
      · refine ⟨htable, List.subset_append_left _ _, ?_⟩
        rintro e he
        cases he
        refine ⟨List.mem_append_right _ (List.mem_singleton_self _), ?_⟩
        have hactor : event.actor = actor := congrArg AuditEvent.actor hevent
        exact ⟨congrArg AuditEvent.streamId hevent, congrArg AuditEvent.eventType hevent,
          hwriter.trans (congrArg some hactor.symm), congrArg AuditEvent.occurredAt hevent,
          congrArg AuditEvent.payloadHash hevent, congrArg AuditEvent.idempotencyKey hevent⟩
  · next error _ =>
      refine ⟨h, List.Subset.refl _, ?_⟩
      rintro e he
      cases he

/-- A request for an event that is stored already returns it and changes nothing. -/
theorem perform_of_matches (h : AuditTable events) (he : e ∈ events) (hr : r.Matches e) :
    r.perform events = (.ok e, events) := by
  have hauthority := (h.authored e he).authority
  rw [hr.streamId, hr.eventType] at hauthority
  have hsame : e.sameAppendRequest (r.candidate e.actor) = true :=
    sameAppendRequest_iff.2 ⟨hr.streamId, hr.eventType, rfl, hr.occurredAt, hr.payloadHash⟩
  have hretry := h.appendOnConnection_of_retry (r.candidate e.actor) he hr.streamId
    hr.idempotencyKey
  rw [if_pos hsame] at hretry
  have happend := appendAuditEvent_eq_ok_iff.2 ⟨e.actor, hr.actor, hauthority, hretry⟩
  unfold perform
  rw [happend]

/-- A key that is used in its stream admits no other event, and the refusal changes nothing. -/
theorem perform_of_not_matches (h : AuditTable events) (he : e ∈ events)
    (hstream : e.streamId = r.streamId) (hkey : e.idempotencyKey = r.payload.idempotencyKey)
    (hr : ¬ r.Matches e) : ∃ error, r.perform events = (.error error, events) := by
  unfold perform
  split
  · next event events' hok =>
      exfalso
      obtain ⟨actor, hwriter, hauthority, happend⟩ := appendAuditEvent_eq_ok_iff.1 hok
      rw [h.appendOnConnection_of_retry (r.candidate actor) he hstream hkey] at happend
      split at happend
      · next hsame =>
          obtain ⟨-, htype, hactor, htime, hhash⟩ := sameAppendRequest_iff.1 hsame
          exact hr ⟨hstream, htype, hwriter.trans (congrArg some hactor.symm), htime, hhash, hkey⟩
      · cases happend
  · next error _ => exact ⟨error, rfl⟩

end AppendRequest

/-- Requests keep the table consistent and only add to it. -/
theorem auditTable_foldl (requests : List AppendRequest) {events : List AuditEvent}
    (h : AuditTable events) :
    AuditTable (requests.foldl (fun events r => (r.perform events).2) events) ∧
      events ⊆ requests.foldl (fun events r => (r.perform events).2) events := by
  induction requests generalizing events with
  | nil => exact ⟨h, List.Subset.refl _⟩
  | cons r rest ih =>
      obtain ⟨htable, hsubset, -⟩ := r.perform_spec h
      obtain ⟨htable', hsubset'⟩ := ih htable
      exact ⟨htable', List.Subset.trans hsubset hsubset'⟩

theorem auditTable_runAppends (requests : List AppendRequest) : AuditTable (runAppends requests) :=
  (auditTable_foldl requests auditTable_nil).1

/-- The event a request returned stays in the table. -/
theorem mem_runAppends {front rest : List AppendRequest} {r : AppendRequest} {e : AuditEvent}
    (h : (r.perform (runAppends front)).1 = .ok e) :
    e ∈ runAppends (front ++ r :: rest) ∧ r.Matches e := by
  obtain ⟨htable, -, hspec⟩ := r.perform_spec (auditTable_runAppends front)
  obtain ⟨hmem, hmatches⟩ := hspec e h
  have hrun : runAppends (front ++ r :: rest) =
      rest.foldl (fun events r => (r.perform events).2) (r.perform (runAppends front)).2 := by
    rw [runAppends, List.foldl_append, List.foldl_cons]
    rfl
  rw [hrun]
  exact ⟨(auditTable_foldl rest htable).2 hmem, hmatches⟩

end Rows

/-! ## Evidence -/

/-- Audit chains are tamper evident: accepted lists with the same stream heads are equal. They are
consistent: the verifier accepts the table after every run of requests, a repeated request returns
its event, and a key that is used in a stream admits no other event. -/
theorem auditChains [Sha256] :
    (∀ (events events' : List AuditRow) (report report' : AuditVerificationReport),
      Set.InjOn sha256 (hashedAuditTexts events ∪ hashedAuditTexts events') →
      verifyAuditRows events = .ok report → verifyAuditRows events' = .ok report' →
      report.streamHeads = report'.streamHeads →
      events.map AuditRow.toAuditEventFields = events'.map AuditRow.toAuditEventFields) ∧
    ∀ requests : List AppendRequest,
      (∃ report, verifyAuditRows (storedRows (runAppends requests)) = .ok report) ∧
      ∀ (front rest : List AppendRequest) (r : AppendRequest) (e : AuditEvent),
        requests = front ++ r :: rest → (r.perform (runAppends front)).1 = .ok e →
        r.perform (runAppends requests) = (.ok e, runAppends requests) ∧
        ∀ r' : AppendRequest, r'.streamId = r.streamId →
          r'.payload.idempotencyKey = r.payload.idempotencyKey →
          (r'.eventType ≠ r.eventType ∨ r'.writer ≠ r.writer ∨ r'.occurredAt ≠ r.occurredAt ∨
            r'.payloadJson ≠ r.payloadJson) →
          Set.InjOn sha256 {r.payloadJson, r'.payloadJson} →
          ∃ error, r'.perform (runAppends requests) = (.error error, runAppends requests) := by
  constructor
  · intro events events' report report' hsha h h' hheads
    exact fields_eq_of_streamHeads_eq hsha h h' hheads
  · intro requests
    have htable := auditTable_runAppends requests
    refine ⟨⟨_, verifyAuditRows_eq_ok_iff.2 ⟨htable.soundAuditLog_storedRows, rfl⟩⟩, ?_⟩
    rintro front rest r e rfl hreturned
    obtain ⟨hmem, hmatches⟩ := @mem_runAppends _ front rest r e hreturned
    refine ⟨AppendRequest.perform_of_matches htable hmem hmatches, ?_⟩
    intro r' hstream hkey hdiffers hsha
    apply AppendRequest.perform_of_not_matches htable hmem (hmatches.streamId.trans hstream.symm)
      (hmatches.idempotencyKey.trans hkey.symm)
    intro hmatches'
    have hjson : r'.payloadJson = r.payloadJson := by
      apply hsha (by simp) (by simp)
      exact hmatches'.payloadHash.symm.trans hmatches.payloadHash
    rcases hdiffers with htype | hwriter | htime | hpayload
    · exact htype (hmatches'.eventType.symm.trans hmatches.eventType)
    · exact hwriter (hmatches'.actor.trans hmatches.actor.symm)
    · exact htime (hmatches'.occurredAt.symm.trans hmatches.occurredAt)
    · exact hpayload hjson

/-- The request of a control event under a fixed key. -/
def sampleAppend (occurredAt : Instant) (count : Int) (h : validateAuditObject
    [("idempotency_key", .text "123e4567-e89b-12d3-a456-426614174000"), ("count", .int count)] =
      .ok ()) : AppendRequest :=
  ⟨some .control, "aqa_control:job:nightly", "job.created", occurredAt, ⟨_, h⟩⟩

/-- A key cannot be used again with another payload. -/
theorem auditChains_reused_key :
    let r := sampleAppend 5 1 (by decide +kernel)
    let r' := sampleAppend 5 2 (by decide +kernel)
    letI := polynomialSha256
    ∃ error, r'.perform (runAppends [r]) = (.error error, runAppends [r]) := by
  intro r r'
  let _ := polynomialSha256
  have hok : (r.perform (runAppends [])).1.isOk = true := by decide +kernel
  cases hperform : (r.perform (runAppends [])).1 with
  | error error =>
      rw [hperform] at hok
      cases hok
  | ok e =>
      have hjson : r'.payloadJson ≠ r.payloadJson := by decide +kernel
      have hsha : sha256 r.payloadJson ≠ sha256 r'.payloadJson := by decide +kernel
      have hinj : Set.InjOn sha256 {r.payloadJson, r'.payloadJson} := by
        rintro x (rfl | rfl) y (rfl | rfl) hxy
        · rfl
        · exact absurd hxy hsha
        · exact absurd hxy.symm hsha
        · rfl
      exact ((auditChains.2 [r]).2 [] [] r e rfl hperform).2 r' rfl rfl
        (Or.inr (Or.inr (Or.inr hjson))) hinj

end AdaptiveTrader
