import AdaptiveTrader.Foundation.HashChain
import AdaptiveTrader.Platform.Audit

/-!
# Verifying stored audit evidence

An event is stored with its hashes and its payload as text, and none of these is trusted:
`verifyAuditRows` computes each of them again, follows the links of every stream and reports the
head of each. The representation of a row is checked together with its contents; the payload text
is the canonical text of a payload of the closed contract.

The verifier accepts a list exactly when it is a verified log with sound contents and without a
repeated idempotency key (`verifyAuditRows_eq_ok_iff`). Equal heads then mean equal lists, unless
two of the hashed texts collide (`fields_eq_of_streamHeads_eq`).
-/

set_option autoImplicit false

namespace AdaptiveTrader

open Foundation

/-! ## Stored events -/

/-- The fields of `AuditEvent`. -/
@[ext] structure AuditEventFields where
  auditEventId : String
  streamId : String
  sequence : Nat
  previousHash : String
  eventType : String
  actor : AuditWriter
  occurredAt : Instant
  payloadHash : String
  eventHash : String
  contentHash : String
  payloadJson : String
  deriving DecidableEq

/-- A stored event; its payload is the decoded text. -/
structure AuditRow extends AuditEventFields where
  payload : AuditPayload
  encoded : payloadJson = canonicalJson (.mapping payload.entries)

/-- The canonical tuple that an event hash covers. -/
def auditTuple (streamId : String) (sequence : Nat) (previousHash eventType : String)
    (actor : AuditWriter) (occurredAt : Instant) (payloadHash : String) : Canonical :=
  .seq [.text streamId, .int sequence, .text previousHash, .text eventType, .text actor.value,
    .instant occurredAt, .text payloadHash]

/-- The tuple of a stored event. -/
def AuditEventFields.tuple (e : AuditEventFields) : Canonical :=
  auditTuple e.streamId e.sequence e.previousHash e.eventType e.actor e.occurredAt e.payloadHash

/-- The key under which a request may be repeated. -/
def AuditRow.idempotencyIdentity (r : AuditRow) : String × String :=
  (r.streamId, r.payload.idempotencyKey)

theorem AuditWriter.value_injective : Function.Injective AuditWriter.value := by
  intro a b h
  cases a <;> cases b <;> first | rfl | exact absurd h (by decide)

/-- The canonical text of a tuple determines its parts. -/
theorem normalize_auditTuple_inj {streamId streamId' : String} {sequence sequence' : Nat}
    {previousHash previousHash' eventType eventType' : String} {actor actor' : AuditWriter}
    {occurredAt occurredAt' : Instant} {payloadHash payloadHash' : String} :
    normalize (auditTuple streamId sequence previousHash eventType actor occurredAt payloadHash) =
        normalize (auditTuple streamId' sequence' previousHash' eventType' actor' occurredAt'
          payloadHash') ↔
      streamId = streamId' ∧ sequence = sequence' ∧ previousHash = previousHash' ∧
        eventType = eventType' ∧ actor = actor' ∧ occurredAt = occurredAt' ∧
        payloadHash = payloadHash' := by
  simp [auditTuple, normalize, normalizeSequence, datetimeText_injective.eq_iff,
    AuditWriter.value_injective.eq_iff]

/-! ## The verifier -/

/-- The head of one verified stream. -/
structure AuditStreamHead where
  streamId : String
  sequence : Nat
  eventHash : String
  deriving DecidableEq

structure AuditVerificationReport where
  eventCount : Nat
  streamHeads : List AuditStreamHead
  deriving DecidableEq

/-- `AuditVerificationReport.__post_init__`; the heads are those of verified events. -/
def AuditVerificationReport.create (eventCount : Nat) (streamHeads : List AuditStreamHead) :
    Except PlatformError AuditVerificationReport := do
  let streamIds := streamHeads.map (·.streamId)
  rejectIf (streamIds ≠ sortedBy id streamIds ∨ ¬ streamIds.Nodup)
    (.auditValidation "audit stream heads must be uniquely ordered")
  rejectIf (eventCount ≠ (streamHeads.map (·.sequence)).sum)
    (.auditValidation "audit report count does not match its stream heads")
  pure ⟨eventCount, streamHeads⟩

section Verifier

variable [ContentHasher]

/-- `audit_event_hash`. -/
def auditEventHash (streamId : String) (sequence : Nat) (previousHash eventType : String)
    (actor : AuditWriter) (occurredAt : Instant) (payloadHash : String) :
    Except PlatformError String := do
  validateAuditAuthority streamId eventType actor
  rejectIf (sequence < 1 ∨ maxSigned64BitInteger < sequence)
    (.auditValidation "audit sequence is invalid")
  rejectIf (isSha256 previousHash = false) (.auditValidation "audit previous hash is invalid")
  rejectIf (isSha256 payloadHash = false) (.auditValidation "audit payload hash is invalid")
  pure (sha256Hex (auditTuple streamId sequence previousHash eventType actor occurredAt payloadHash))

/-- `_verify_event_content`. -/
def verifyEventContent (event : AuditRow) : Except PlatformError Unit :=
  let payloadHash := sha256Hex (.mapping event.payload.entries)
  match auditEventHash event.streamId event.sequence event.previousHash event.eventType event.actor
      event.occurredAt event.payloadHash with
  | .error _ => .error (.auditIntegrity "audit chain verification failed")
  | .ok eventHash =>
      rejectIf (event.payloadHash ≠ payloadHash ∨ event.eventHash ≠ eventHash ∨
          event.contentHash ≠ eventHash ∨ event.auditEventId ≠ "audit_" ++ eventHash)
        (.auditIntegrity "audit chain verification failed")

/-- What the verifier remembers once an event is accepted. -/
def AuditCursor.advance (cursor : AuditCursor) (event : AuditRow) : AuditCursor where
  heads := cursor.heads.set event.streamId (event.sequence, event.eventHash)
  idempotencyKeys := event.idempotencyIdentity :: cursor.idempotencyKeys
  previousSortKey := some (event.streamId, event.sequence)

local instance lawfulBEq_identity : LawfulBEq (String × String) := inferInstance

/-- The loop body of `verify_audit_chain`. -/
def verifyAuditRowStep (cursor : AuditCursor) (event : AuditRow) :
    Except PlatformError AuditCursor := do
  rejectIf (∃ previous ∈ cursor.previousSortKey,
      ¬ AuditSortKeyLt previous (event.streamId, event.sequence))
    (.auditIntegrity "audit verification input is not deterministically ordered")
  let expected := nextLink (cursor.heads.get? event.streamId)
  verifyEventContent event
  rejectIf (event.sequence ≠ expected.1 ∨ event.previousHash ≠ expected.2)
    (.auditIntegrity "audit chain verification failed")
  rejectIf (event.idempotencyIdentity ∈ cursor.idempotencyKeys)
    (.auditIntegrity "audit chain contains a duplicate idempotency key")
  pure (cursor.advance event)

/-- The heads a cursor has seen, in the order in which their streams came up. -/
def AuditCursor.streamHeads (cursor : AuditCursor) : List AuditStreamHead :=
  cursor.heads.entries.map fun head => ⟨head.1, head.2.1, head.2.2⟩

/-- `verify_audit_chain`. -/
def verifyAuditRows (events : List AuditRow) : Except PlatformError AuditVerificationReport := do
  let cursor ← events.foldlM verifyAuditRowStep {}
  AuditVerificationReport.create events.length cursor.streamHeads

/-! ## What the verifier accepts -/

/-- How stored events refer to one another. -/
def auditChaining : Chaining AuditRow String String where
  stream r := r.streamId
  number r := r.sequence
  previous r := r.previousHash
  hash r := r.eventHash
  genesis := auditGenesisHash

/-- A verified log with sound contents and without a repeated idempotency key. -/
structure SoundAuditLog (events : List AuditRow) : Prop where
  verified : auditChaining.Verified events
  content : ∀ r ∈ events, verifyEventContent r = .ok ()
  identities : (events.map AuditRow.idempotencyIdentity).Nodup

/-- The cursor after a list of events. -/
structure AuditCursor.Reads (cursor : AuditCursor) (events : List AuditRow) : Prop where
  heads : ∀ s, cursor.heads.get? s =
    (auditChaining.entriesOf s events).getLast?.map fun r => (r.sequence, r.eventHash)
  identities : ∀ k, k ∈ cursor.idempotencyKeys ↔ k ∈ events.map AuditRow.idempotencyIdentity
  previous : cursor.previousSortKey = events.getLast?.map fun r => (r.streamId, r.sequence)
  ordered : cursor.heads.keys.Pairwise (· < ·)
  count : (cursor.streamHeads.map (·.sequence)).sum = events.length

omit [ContentHasher] in
/-- The link a cursor expects next is the head of the stream. -/
theorem nextLink_eq_head (events : List AuditRow) :
    nextLink (events.getLast?.map fun r => (r.sequence, r.eventHash)) =
      ((auditChaining.head events).1 + 1, (auditChaining.head events).2) := by
  unfold Chaining.head
  cases events.getLast? <;> rfl

omit [ContentHasher] in
theorem auditSortKeyLt_iff {a b : AuditRow} :
    AuditSortKeyLt (a.streamId, a.sequence) (b.streamId, b.sequence) ↔
      auditChaining.key a < auditChaining.key b := by
  rw [Prod.Lex.lt_iff]
  rfl

theorem soundAuditLog_nil : SoundAuditLog [] := by
  refine ⟨Chaining.verified_nil, ?_, List.nodup_nil⟩
  intro r hr
  cases hr

theorem soundAuditLog_concat_iff {events : List AuditRow} {r : AuditRow} :
    SoundAuditLog (events ++ [r]) ↔ SoundAuditLog events ∧
      (∀ b ∈ events, auditChaining.key b < auditChaining.key r) ∧
      verifyEventContent r = .ok () ∧
      (r.sequence, r.previousHash) =
        ((auditChaining.head (auditChaining.entriesOf r.streamId events)).1 + 1,
          (auditChaining.head (auditChaining.entriesOf r.streamId events)).2) ∧
      r.idempotencyIdentity ∉ events.map AuditRow.idempotencyIdentity := by
  constructor
  · rintro ⟨hverified, hcontent, hidentities⟩
    obtain ⟨hfront, hordered, hnumber, hprevious⟩ := Chaining.verified_concat_iff.1 hverified
    rw [List.map_append, List.map_singleton, List.nodup_append] at hidentities
    refine ⟨⟨hfront, fun b hb => hcontent b (List.mem_append_left _ hb), hidentities.1⟩, hordered,
      hcontent r (List.mem_append_right _ (List.mem_singleton_self r)),
      Prod.ext hnumber hprevious, ?_⟩
    intro hmem
    exact hidentities.2.2 _ hmem _ (List.mem_singleton_self _) rfl
  · rintro ⟨hsound, hordered, hcontent, hlink, hidentity⟩
    refine ⟨Chaining.verified_concat_iff.2 ⟨hsound.verified, hordered, congrArg Prod.fst hlink,
      congrArg Prod.snd hlink⟩, ?_, ?_⟩
    · intro b hb
      rcases List.mem_append.1 hb with hb | hb
      · exact hsound.content b hb
      · exact List.mem_singleton.1 hb ▸ hcontent
    · rw [List.map_append, List.map_singleton]
      refine List.nodup_append.2 ⟨hsound.identities, List.nodup_singleton _, ?_⟩
      intro k hk k' hk' heq
      cases List.mem_singleton.1 hk'
      exact hidentity (heq ▸ hk)

/-- The front of a sound log is sound. -/
theorem SoundAuditLog.of_append {events rest : List AuditRow} (h : SoundAuditLog (events ++ rest)) :
    SoundAuditLog events := by
  induction rest using List.reverseRecOn with
  | nil => rwa [List.append_nil] at h
  | append_singleton rest r ih =>
      rw [← List.append_assoc, soundAuditLog_concat_iff] at h
      exact ih h.1

namespace AuditCursor

variable {cursor cursor' : AuditCursor} {events rest : List AuditRow} {r : AuditRow}

omit [ContentHasher] in
theorem reads_nil : AuditCursor.Reads {} [] where
  heads _ := rfl
  identities _ := by simp
  previous := rfl
  ordered := List.Pairwise.nil
  count := rfl

omit [ContentHasher] in
theorem Reads.previous_lt_iff (h : cursor.Reads events) (hv : auditChaining.Verified events) :
    (∀ previous ∈ cursor.previousSortKey, AuditSortKeyLt previous (r.streamId, r.sequence)) ↔
      ∀ b ∈ events, auditChaining.key b < auditChaining.key r := by
  rw [h.previous]
  cases hlast : events.getLast? with
  | none => simp [List.getLast?_eq_none_iff.1 hlast]
  | some z =>
      obtain ⟨front, rfl⟩ := List.getLast?_eq_some_iff.1 hlast
      have hz : ∀ b ∈ front, auditChaining.key b < auditChaining.key z :=
        (Chaining.verified_concat_iff.1 hv).2.1
      simp only [Option.map_some, Option.mem_def, Option.some.injEq, forall_eq',
        auditSortKeyLt_iff]
      constructor
      · intro hlt b hb
        rcases List.mem_append.1 hb with hb | hb
        · exact (hz b hb).trans hlt
        · exact List.mem_singleton.1 hb ▸ hlt
      · intro hall
        exact hall z (List.mem_append_right _ (List.mem_singleton_self z))

/-- The checks on one event are those of a sound log. -/
theorem Reads.verifyAuditRowStep_eq_ok_iff (h : cursor.Reads events) (hs : SoundAuditLog events) :
    verifyAuditRowStep cursor r = .ok cursor' ↔
      SoundAuditLog (events ++ [r]) ∧ cursor' = cursor.advance r := by
  have hlink := nextLink_eq_head (auditChaining.entriesOf r.streamId events)
  rw [← h.heads] at hlink
  have horder := @Reads.previous_lt_iff _ _ r h hs.verified
  simp only [verifyAuditRowStep, unit_bind_eq_ok, rejectIf_eq_ok, pure_eq_ok, hlink,
    soundAuditLog_concat_iff, ← horder, h.identities, Prod.ext_iff, not_exists, not_and, not_not,
    not_or]
  constructor
  · rintro ⟨hprevious, hcontent, hnext, hidentity, hcursor⟩
    exact ⟨⟨hs, hprevious, hcontent, hnext, hidentity⟩, hcursor.symm⟩
  · rintro ⟨⟨-, hprevious, hcontent, hnext, hidentity⟩, hcursor⟩
    exact ⟨hprevious, hcontent, hnext, hidentity, hcursor.symm⟩

omit [ContentHasher] in
theorem getLast?_entriesOf_concat (s : String) :
    (auditChaining.entriesOf s (events ++ [r])).getLast? =
      if s = r.streamId then some r else (auditChaining.entriesOf s events).getLast? := by
  by_cases hs : s = r.streamId
  · subst hs
    have hconcat : auditChaining.entriesOf r.streamId (events ++ [r]) =
        auditChaining.entriesOf r.streamId events ++ [r] := Chaining.entriesOf_concat_self
    rw [if_pos rfl, hconcat, List.getLast?_concat]
  · have hconcat : auditChaining.entriesOf s (events ++ [r]) = auditChaining.entriesOf s events :=
      Chaining.entriesOf_concat_of_ne fun h => hs h.symm
    rw [if_neg hs, hconcat]

/-- A new stream comes behind every stream the cursor has seen. -/
theorem Reads.key_lt (h : cursor.Reads events) (hs : SoundAuditLog (events ++ [r]))
    (hnew : cursor.heads.get? r.streamId = none) : ∀ s ∈ cursor.heads.keys, s < r.streamId := by
  intro s hmem
  obtain ⟨link, hlink⟩ := Dict.mem_keys_iff.1 hmem
  have hne : s ≠ r.streamId := by
    rintro rfl
    rw [hnew] at hlink
    cases hlink
  rw [h.heads, Option.map_eq_some_iff] at hlink
  obtain ⟨b, hb, -⟩ := hlink
  obtain ⟨hbmem, rfl⟩ := Chaining.mem_entriesOf.1 (List.mem_of_getLast? hb)
  have hkey := (soundAuditLog_concat_iff.1 hs).2.1 b hbmem
  rcases Prod.Lex.lt_iff.1 hkey with hlt | ⟨heq, -⟩
  · exact hlt
  · exact absurd heq hne

/-- The head of a stream stands at the number of its events. -/
theorem Reads.count_advance (h : cursor.Reads events) (hs : SoundAuditLog (events ++ [r])) :
    ((cursor.advance r).streamHeads.map (·.sequence)).sum = events.length + 1 := by
  have hsum := Dict.sum_map_assign (fun head : String × Nat × String => head.2.1) r.streamId
    (r.sequence, r.eventHash) cursor.heads.entries
  have hcount : (cursor.heads.entries.map fun head => head.2.1).sum = events.length := by
    simpa [streamHeads, Function.comp_def] using h.count
  have hbefore : ((Dict.lookup r.streamId cursor.heads.entries).map fun w => w.1).getD 0 + 1 =
      r.sequence := by
    have hlink : r.sequence = (auditChaining.head (auditChaining.entriesOf r.streamId events)).1 + 1 :=
      congrArg Prod.fst (soundAuditLog_concat_iff.1 hs).2.2.2.1
    have hget : Dict.lookup r.streamId cursor.heads.entries = cursor.heads.get? r.streamId := rfl
    rw [hget, h.heads, hlink]
    unfold Chaining.head
    cases (auditChaining.entriesOf r.streamId events).getLast? <;> rfl
  have hgoal : (cursor.advance r).streamHeads.map (·.sequence) =
      (Dict.assign r.streamId (r.sequence, r.eventHash) cursor.heads.entries).map
        fun head => head.2.1 := by
    simp [streamHeads, AuditCursor.advance, Dict.set]
  rw [hgoal]
  simp only at hsum
  omega

theorem Reads.advance (h : cursor.Reads events) (hs : SoundAuditLog (events ++ [r])) :
    (cursor.advance r).Reads (events ++ [r]) where
  heads s := by
    show (cursor.heads.set r.streamId (r.sequence, r.eventHash)).get? s = _
    rw [Dict.get?_set, getLast?_entriesOf_concat, h.heads]
    split <;> rfl
  identities k := by
    simp [AuditCursor.advance, h.identities, or_comm]
  previous := by
    simp [AuditCursor.advance]
  ordered := by
    cases hget : cursor.heads.get? r.streamId with
    | some link =>
        have hmem : r.streamId ∈ cursor.heads.entries.map Prod.fst :=
          Dict.mem_keys_iff.2 ⟨link, hget⟩
        have hkeys : (cursor.advance r).heads.keys = cursor.heads.keys :=
          Dict.map_fst_assign_of_mem _ hmem
        rw [hkeys]
        exact h.ordered
    | none =>
        have hkeys : (cursor.advance r).heads.keys = cursor.heads.keys ++ [r.streamId] :=
          Dict.keys_set_of_get?_none hget _
        rw [hkeys]
        refine List.pairwise_append.2 ⟨h.ordered, List.pairwise_singleton _ _, ?_⟩
        intro s hmem s' hmem'
        cases List.mem_singleton.1 hmem'
        exact h.key_lt hs hget s hmem
  count := by
    rw [h.count_advance hs, List.length_append, List.length_singleton]

/-- The loop accepts a list exactly when it continues a sound log. -/
theorem Reads.foldlM_eq_ok_iff (h : cursor.Reads events) (hs : SoundAuditLog events) :
    rest.foldlM verifyAuditRowStep cursor = .ok cursor' ↔
      SoundAuditLog (events ++ rest) ∧ cursor' = rest.foldl AuditCursor.advance cursor := by
  induction rest generalizing cursor events with
  | nil =>
      rw [List.foldlM_nil, List.append_nil, pure_eq_ok]
      exact ⟨fun hcursor => ⟨hs, hcursor.symm⟩, fun hcursor => hcursor.2.symm⟩
  | cons r rest ih =>
      simp only [List.foldlM_cons, bind_eq_ok, h.verifyAuditRowStep_eq_ok_iff hs,
        List.foldl_cons]
      have hassoc : events ++ r :: rest = (events ++ [r]) ++ rest := by simp
      rw [hassoc]
      constructor
      · rintro ⟨_, ⟨hr, rfl⟩, hrest⟩
        exact (ih (h.advance hr) hr).1 hrest
      · rintro ⟨hall, hcursor⟩
        have hr : SoundAuditLog (events ++ [r]) := hall.of_append
        exact ⟨_, ⟨hr, rfl⟩, (ih (h.advance hr) hr).2 ⟨hall, hcursor⟩⟩

/-- The cursor after a sound log. -/
theorem Reads.foldl_advance (h : cursor.Reads events) (hs : SoundAuditLog (events ++ rest)) :
    (rest.foldl AuditCursor.advance cursor).Reads (events ++ rest) := by
  induction rest generalizing cursor events with
  | nil => simpa using h
  | cons r rest ih =>
      have hassoc : events ++ r :: rest = (events ++ [r]) ++ rest := by simp
      rw [hassoc] at hs ⊢
      exact ih (h.advance hs.of_append) hs

omit [ContentHasher] in
/-- A cursor that has read a log reports its heads. -/
theorem Reads.create_eq_ok (h : cursor.Reads events) :
    AuditVerificationReport.create events.length cursor.streamHeads =
      .ok ⟨events.length, cursor.streamHeads⟩ := by
  have hids : cursor.streamHeads.map (·.streamId) = cursor.heads.keys := by
    simp [streamHeads, Dict.keys]
  have hsorted : sortedBy id cursor.heads.keys = cursor.heads.keys :=
    sortedBy_eq_self (h.ordered.imp le_of_lt)
  simp only [AuditVerificationReport.create, unit_bind_eq_ok, rejectIf_eq_ok, pure_eq_ok, hids,
    h.count, hsorted]
  simp [cursor.heads.nodup_keys]

end AuditCursor

/-- The verifier accepts exactly the sound logs and reports their heads. -/
theorem verifyAuditRows_eq_ok_iff {events : List AuditRow} {report : AuditVerificationReport} :
    verifyAuditRows events = .ok report ↔ SoundAuditLog events ∧
      report = ⟨events.length, (events.foldl AuditCursor.advance {}).streamHeads⟩ := by
  have hfold := fun cursor' => @AuditCursor.Reads.foldlM_eq_ok_iff _ {} cursor' [] events
    AuditCursor.reads_nil soundAuditLog_nil
  simp only [List.nil_append] at hfold
  simp only [verifyAuditRows, bind_eq_ok, hfold]
  constructor
  · rintro ⟨_, ⟨hs, rfl⟩, hreport⟩
    have hreads := @AuditCursor.Reads.foldl_advance _ {} [] events AuditCursor.reads_nil hs
    rw [List.nil_append] at hreads
    rw [hreads.create_eq_ok] at hreport
    exact ⟨hs, (Except.ok.inj hreport).symm⟩
  · rintro ⟨hs, rfl⟩
    have hreads := @AuditCursor.Reads.foldl_advance _ {} [] events AuditCursor.reads_nil hs
    rw [List.nil_append] at hreads
    exact ⟨_, ⟨hs, rfl⟩, hreads.create_eq_ok⟩

end Verifier

/-! ## Tamper evidence -/

section Evidence

variable [Sha256]

/-- The texts whose hashes a list of events carries. -/
def hashedAuditTexts (events : List AuditRow) : Set String :=
  {text | ∃ r ∈ events, text = r.payloadJson ∨ text = canonicalJson r.tuple}

/-- What the content check establishes. -/
theorem eq_of_verifyEventContent {r : AuditRow} (h : verifyEventContent r = .ok ()) :
    r.payloadHash = sha256 r.payloadJson ∧ r.eventHash = sha256 (canonicalJson r.tuple) ∧
      r.contentHash = r.eventHash ∧ r.auditEventId = "audit_" ++ r.eventHash := by
  unfold verifyEventContent at h
  split at h
  · cases h
  · next eventHash hhash =>
      simp only [auditEventHash, unit_bind_eq_ok, rejectIf_eq_ok, pure_eq_ok] at hhash
      obtain ⟨-, -, -, -, rfl⟩ := hhash
      simp only [rejectIf_eq_ok, not_or, not_not] at h
      obtain ⟨hpayload, hevent, hcontent, hid⟩ := h
      refine ⟨?_, hevent, hcontent.trans hevent.symm, ?_⟩
      · rw [hpayload, r.encoded, sha256Hex_eq]
      · rw [hid, hevent]

/-- Equal event hashes belong to equal events. -/
theorem fields_eq_of_eventHash_eq {a b : AuditRow} {texts : Set String}
    (hsha : Set.InjOn sha256 texts) (ha : verifyEventContent a = .ok ())
    (hb : verifyEventContent b = .ok ())
    (hta : a.payloadJson ∈ texts ∧ canonicalJson a.tuple ∈ texts)
    (htb : b.payloadJson ∈ texts ∧ canonicalJson b.tuple ∈ texts)
    (h : a.eventHash = b.eventHash) :
    a.toAuditEventFields = b.toAuditEventFields := by
  obtain ⟨hpa, hea, hca, hia⟩ := eq_of_verifyEventContent ha
  obtain ⟨hpb, heb, hcb, hib⟩ := eq_of_verifyEventContent hb
  have htuple : canonicalJson a.tuple = canonicalJson b.tuple := by
    apply hsha hta.2 htb.2
    rw [← hea, ← heb, h]
  obtain ⟨hstream, hsequence, hprevious, htype, hactor, htime, hpayload⟩ :=
    normalize_auditTuple_inj.1 (canonicalJson_inj.1 htuple)
  have hjson : a.payloadJson = b.payloadJson := by
    apply hsha hta.1 htb.1
    rw [← hpa, ← hpb, hpayload]
  have hid : a.auditEventId = b.auditEventId := by rw [hia, hib, h]
  have hcontent : a.contentHash = b.contentHash := by rw [hca, hcb, h]
  exact AuditEventFields.ext hid hstream hsequence hprevious htype hactor htime hpayload h hcontent
    hjson

/-- Accepted lists with the same stream heads are equal. -/
theorem fields_eq_of_streamHeads_eq {events events' : List AuditRow}
    {report report' : AuditVerificationReport}
    (hsha : Set.InjOn sha256 (hashedAuditTexts events ∪ hashedAuditTexts events'))
    (h : verifyAuditRows events = .ok report) (h' : verifyAuditRows events' = .ok report')
    (hheads : report.streamHeads = report'.streamHeads) :
    events.map AuditRow.toAuditEventFields = events'.map AuditRow.toAuditEventFields := by
  obtain ⟨hs, rfl⟩ := verifyAuditRows_eq_ok_iff.1 h
  obtain ⟨hs', rfl⟩ := verifyAuditRows_eq_ok_iff.1 h'
  have hreads := @AuditCursor.Reads.foldl_advance _ {} [] events AuditCursor.reads_nil hs
  have hreads' := @AuditCursor.Reads.foldl_advance _ {} [] events' AuditCursor.reads_nil hs'
  rw [List.nil_append] at hreads hreads'
  have hentries := List.map_injective_iff.2 (fun x y hxy => by
    obtain ⟨hstream, hsequence, hhash⟩ := AuditStreamHead.mk.inj hxy
    exact Prod.ext hstream (Prod.ext hsequence hhash)) hheads
  have hlookup : (events.foldl AuditCursor.advance {}).heads =
      (events'.foldl AuditCursor.advance {}).heads := Dict.ext hentries
  apply hs.verified.map_eq (fun e => toLex (e.streamId, e.sequence)) (fun _ => rfl) hs'.verified
  · intro a ha b hb hhash
    have hfields := fields_eq_of_eventHash_eq hsha (hs.content a ha) (hs'.content b hb)
      ⟨Or.inl ⟨a, ha, Or.inl rfl⟩, Or.inl ⟨a, ha, Or.inr rfl⟩⟩
      ⟨Or.inr ⟨b, hb, Or.inl rfl⟩, Or.inr ⟨b, hb, Or.inr rfl⟩⟩ hhash
    exact ⟨hfields, congrArg AuditEventFields.previousHash hfields⟩
  · intro s
    have hstream := hreads.heads s
    rw [hlookup, hreads'.heads s] at hstream
    unfold Chaining.head
    cases hl : (auditChaining.entriesOf s events).getLast? <;>
      cases hm : (auditChaining.entriesOf s events').getLast? <;>
        simp_all [auditChaining]

end Evidence

end AdaptiveTrader
