import AdaptiveTrader.Foundation.Sorted
import AdaptiveTrader.Platform.CanonicalJson

/-!
# Audit evidence

Audit payloads are closed: a field name selects the syntax its value must have
(`validateAuditPayloadValue`). Events of one stream form a hash chain: each carries the sequence
number and the hash of its predecessor. `nextAudit` appends to a stream; `verifyAuditChain` checks
a complete set of streams and expects it ordered by stream and sequence number.

Hashes and IDs of an event are functions of its other fields, so the comparison of the stored with
the computed ones has nothing to reject. Text that looks like a secret is refused where a slug is
expected; the other patterns match no such text. Keys outside the contract are refused in one way.
-/

set_option autoImplicit false

namespace AdaptiveTrader

open Foundation

/-! ## Payloads -/

def auditSlugKeys : List String :=
  ["acknowledgement", "action", "adjustment", "decision_type", "error_code", "event_type", "feed",
    "from_state", "job_type", "latch_type", "mode", "outcome", "provider", "reason_code", "role",
    "service", "source", "state", "status", "timeframe", "to_state"]

def auditIntegerKeys : List String :=
  ["attempt", "attempt_count", "count", "fencing_token", "ordinal", "revision", "sequence",
    "version"]

def auditIdKeys : List String :=
  ["bar_id", "broker_order_id", "client_order_id", "correlation_id", "dataset_id",
    "execution_plan_id", "experiment_id", "fill_id", "gap_id", "idempotency_key", "incident_id",
    "job_id", "order_intent_id", "reconciliation_id", "risk_decision_id", "run_id", "signal_id",
    "slot_id", "strategy_id"]

def auditHashKeys : List String :=
  ["artifact_hash", "configuration_hash", "content_hash", "dataset_hash", "experiment_hash",
    "manifest_hash", "payload_hash", "source_hash", "submission_authority_hash"]

def auditSlugListKeys : List String := ["flags", "reason_codes"]

def auditIdListKeys : List String :=
  ["bar_ids", "event_ids", "fill_ids", "order_ids", "signal_ids"]

def auditHashListKeys : List String := ["artifact_hashes", "content_hashes", "source_hashes"]

def auditTimestampKeys : List String :=
  ["completed_at", "created_at", "detected_at", "effective_at", "filled_at", "occurred_at",
    "received_at", "session_close_at", "session_open_at", "started_at", "submitted_at",
    "updated_at"]

def auditBooleanKeys : List String :=
  ["has_gap", "is_correction", "is_replay", "submission_allowed", "submission_enabled",
    "was_recovered"]

def auditDecimalKeys : List String :=
  ["available_cash", "average_price", "close_price", "equity", "fee", "filled_quantity",
    "high_price", "limit_price", "low_price", "notional", "open_price", "quantity", "stop_price",
    "target_price", "target_weight", "volume"]

/-- The IDs the audit contract accepts: content-addressed ones and UUIDs. -/
def isAuditId (s : String) : Bool := isContentId s || isUuid s

/-- `_require_audit_text`. -/
def requireAuditText (pattern : String → Bool) : Canonical → Except PlatformError Unit
  | .text s =>
      rejectIf (pattern s = false) (.auditValidation "audit payload field is invalid")
  | _ => .error (.auditValidation "audit payload field is invalid")

/-- `_require_audit_id`. -/
def requireAuditId : Canonical → Except PlatformError Unit
  | .text s => rejectIf (isAuditId s = false) (.auditValidation "audit payload ID is invalid")
  | _ => .error (.auditValidation "audit payload ID is invalid")

/-- A nonnegative signed 64-bit integer. -/
def requireAuditInteger : Canonical → Except PlatformError Unit
  | .int n =>
      rejectIf (n < 0 ∨ 2 ^ 63 - 1 < n) (.auditValidation "audit payload integer is invalid")
  | _ => .error (.auditValidation "audit payload integer is invalid")

/-- `^-?(?:0|[1-9][0-9]*)(?:\.[0-9]+)?$`. -/
def isAuditDecimal (s : String) : Bool :=
  let unsigned := if s.toList.head? = some '-' then s.toList.tail else s.toList
  let whole := unsigned.takeWhile isDigit
  let rest := unsigned.dropWhile isDigit
  (whole == ['0'] || (whole != [] && whole.head? != some '0')) &&
    (rest == [] || (rest.head? == some '.' && rest.length != 1 && rest.tail.all isDigit))

/-- A decimal is rendered in fixed-point notation, which has the decimal syntax. -/
def requireAuditDecimal : Canonical → Except PlatformError Unit
  | .decimal _ => .ok ()
  | .text s =>
      rejectIf (isAuditDecimal s = false) (.auditValidation "audit payload field is invalid")
  | _ => .error (.auditValidation "audit payload field is invalid")

/-- The number at a place of a text. -/
def numberAt (start count : Nat) (cs : List Char) : Nat :=
  Nat.ofDigitChars 10 ((cs.drop start).take count) 0

/-- A text is a timestamp when reading it and rendering the result returns it. -/
def isAuditTimestamp (s : String) : Bool :=
  let cs := s.toList
  let date : CivilDate := ⟨numberAt 0 4 cs, numberAt 5 2 cs, numberAt 8 2 cs⟩
  let time := numberAt 11 2 cs * 3600000000 + numberAt 14 2 cs * 60000000 +
    numberAt 17 2 cs * 1000000 + numberAt 20 6 cs
  decide (1 ≤ date.year ∧
    datetimeText ((dateOrdinal date - 719163) * dayMicroseconds + time) = s)

/-- An instant is rendered in the timestamp syntax. -/
def requireAuditTimestamp : Canonical → Except PlatformError Unit
  | .instant _ => .ok ()
  | .text s =>
      rejectIf (isAuditTimestamp s = false) (.auditValidation "audit payload timestamp is invalid")
  | _ => .error (.auditValidation "audit payload field is invalid")

def requireAuditBoolean : Canonical → Except PlatformError Unit
  | .bool _ => .ok ()
  | _ => .error (.auditValidation "audit payload boolean is invalid")

/-- The words that an assignment of a secret starts with. -/
def sensitiveAssignmentWords : List String :=
  ["secret", "password", "token", "authorization", "credential", "cookie"] ++
    [("api", "key"), ("private", "key"), ("connection", "string"), ("database", "url")].flatMap
      fun w => ["", "-", "_", "."].map fun separator => w.1 ++ separator ++ w.2

/-- `[a-z0-9+.-]`, in either case. -/
def isSchemeChar (c : Char) : Bool :=
  isUpper c || isLower c || isDigit c || c == '+' || c == '.' || c == '-'

/-- Three dotted parts of at least eight characters each. -/
def isTokenTriple (cs : List Char) : Bool :=
  let parts := cs.splitOn '.'
  decide (parts.length = 3) && parts.all fun part =>
    decide (8 ≤ part.length) && part.all fun c =>
      isUpper c || isLower c || isDigit c || c == '_' || c == '-'

/-- `_reject_secret_like_audit_text` on the characters a slug can have: a URL, an assignment of a
secret, or a token of three parts. -/
def isSecretLike (s : String) : Bool :=
  let cs := s.toList.map Char.toLower
  cs.tails.any (fun rest => rest.head?.any isLower &&
      "://".toList.isPrefixOf (rest.dropWhile isSchemeChar)) ||
    cs.tails.any (fun rest => sensitiveAssignmentWords.any fun word =>
      word.toList.isPrefixOf rest &&
        ((rest.drop word.toList.length).head?.any fun c => c == ':' || c == '=')) ||
    isTokenTriple s.toList

/-- A slug that is neither a bare digest nor secret-like. -/
def requireAuditSlug : Canonical → Except PlatformError Unit
  | .text s => do
      rejectIf (isSecretLike s = true) (.auditValidation "audit payload contains secret-like data")
      rejectIf ((isSlug s && !isSha256 s) = false)
        (.auditValidation "audit payload field is invalid")
  | _ => .error (.auditValidation "audit payload field is invalid")

/-- Every item passes a check, in order. -/
def requireAuditItems (require : Canonical → Except PlatformError Unit) :
    List Canonical → Except PlatformError Unit
  | [] => .ok ()
  | item :: rest => do
      require item
      requireAuditItems require rest

/-- `_validate_audit_list` and `_validate_audit_id_list`, by the check of the items. -/
def requireAuditList (require : Canonical → Except PlatformError Unit) :
    Canonical → Except PlatformError Unit
  | .seq items => do
      rejectIf (256 < items.length)
        (.auditValidation "audit payload container exceeds the item limit")
      requireAuditItems require items
  | _ => .error (.auditValidation "audit payload list has an invalid value type")

/-- A key with an underscore in front of each inner word, in lower case. -/
def splitCamelCase : Option Char → List Char → List Char
  | _, [] => []
  | previous, c :: rest =>
      let startsWord := isUpper c && previous.any fun p =>
        isLower p || isDigit p || (isUpper p && rest.head?.any isLower)
      (if startsWord then ['_', c.toLower] else [c.toLower]) ++ splitCamelCase (some c) rest

/-- `re.sub(r"[-.]+", "_", text)`. -/
def joinSeparators : List Char → List Char
  | [] => []
  | c :: rest =>
      if c == '-' || c == '.' then
        (if rest.head?.any fun d => d == '-' || d == '.' then [] else ['_']) ++ joinSeparators rest
      else c :: joinSeparators rest

/-- `_normalize_audit_payload_key` behind its pattern. -/
def normalizeAuditPayloadKey (key : String) : String :=
  String.ofList (joinSeparators (splitCamelCase none key.toList))

def sensitiveKeyFragments : List String :=
  ["api_key", "authorization", "connection_string", "cookie", "credential", "database_url",
    "password", "private_key", "secret", "token"]

/-- `_reject_sensitive_audit_key`. -/
def isSensitiveAuditKey (key : String) : Bool :=
  let contains := fun (text : List Char) (fragment : String) =>
    text.tails.any fun rest => fragment.toList.isPrefixOf rest
  (sensitiveKeyFragments.any (contains key.toList) ||
    ["apikey", "connectionstring", "databaseurl", "privatekey"].any
      (contains (key.toList.filter (· ≠ '_')))) && key != "fencing_token"

/-- One entry of a table of counts. -/
def requireAuditCount (key : String) (count : Canonical) : Except PlatformError Unit := do
  rejectIf (matchesHeadTail (fun c => isUpper c || isLower c)
      (fun c => isUpper c || isLower c || isDigit c || c == '_' || c == '.' || c == '-') 63
      key.toList = false) (.auditValidation "audit payload key is invalid")
  rejectIf (isSensitiveAuditKey (normalizeAuditPayloadKey key) = true)
    (.auditValidation "audit payload contains a secret-like key")
  rejectIf (normalizeAuditPayloadKey key ≠ key ∨ isSlug key = false)
    (.auditValidation "audit count is invalid")
  match count with
  | .int n => rejectIf (n < 0 ∨ 2 ^ 63 - 1 < n) (.auditValidation "audit count is invalid")
  | _ => .error (.auditValidation "audit count is invalid")

/-- The entries of `_validate_audit_counts`. -/
def requireAuditCountEntries : List (String × Canonical) → Except PlatformError Unit
  | [] => .ok ()
  | (key, count) :: rest => do
      requireAuditCount key count
      requireAuditCountEntries rest

/-- `_validate_audit_counts`. -/
def requireAuditCounts : Canonical → Except PlatformError Unit
  | .mapping entries => do
      rejectIf (256 < entries.length)
        (.auditValidation "audit payload container exceeds the item limit")
      requireAuditCountEntries entries
  | _ => .error (.auditValidation "audit counts must be an object")

/-- `_validate_audit_payload_value`. -/
def validateAuditPayloadValue (semanticKey : String) (value : Canonical) :
    Except PlatformError Unit :=
  match value with
  | .null => .error (.auditValidation "audit payload null values are prohibited")
  | value =>
      if semanticKey = "counts" then requireAuditCounts value
      else if semanticKey = "symbols" then requireAuditList (requireAuditText isSymbol) value
      else if semanticKey ∈ auditSlugListKeys then requireAuditList requireAuditSlug value
      else if semanticKey ∈ auditIdListKeys then requireAuditList requireAuditId value
      else if semanticKey ∈ auditHashListKeys then
        requireAuditList (requireAuditText isSha256) value
      else if semanticKey = "symbol" then requireAuditText isSymbol value
      else if semanticKey ∈ auditHashKeys then requireAuditText isSha256 value
      else if semanticKey ∈ auditIdKeys then requireAuditId value
      else if semanticKey ∈ auditTimestampKeys then requireAuditTimestamp value
      else if semanticKey ∈ auditIntegerKeys then requireAuditInteger value
      else if semanticKey ∈ auditBooleanKeys then requireAuditBoolean value
      else if semanticKey ∈ auditSlugKeys then requireAuditSlug value
      else if semanticKey ∈ auditDecimalKeys then requireAuditDecimal value
      else .error (.auditValidation "audit payload field is not in the closed contract")

/-- Every entry passes the check of its key, in order. -/
def validateAuditEntries : List (String × Canonical) → Except PlatformError Unit
  | [] => .ok ()
  | (key, item) :: rest => do
      validateAuditPayloadValue key item
      validateAuditEntries rest

/-- `_validate_audit_object` on a payload. -/
def validateAuditObject (entries : List (String × Canonical)) : Except PlatformError Unit := do
  rejectIf (256 < entries.length)
    (.auditValidation "audit payload container exceeds the item limit")
  rejectIf ("idempotency_key" ∉ entries.map Prod.fst)
    (.auditValidation "audit payload requires an idempotency key")
  validateAuditEntries entries

/-- A payload of the closed contract. -/
structure AuditPayload where
  entries : List (String × Canonical)
  checked : validateAuditObject entries = .ok ()

/-- `AuditPayload.from_mapping`. -/
def AuditPayload.fromMapping (entries : List (String × Canonical)) :
    Except PlatformError AuditPayload :=
  validated validateAuditObject entries fun h => ⟨entries, h⟩

/-- The text an object holds for a key. -/
def textEntry (key : String) : List (String × Canonical) → String
  | [] => ""
  | (k, .text s) :: rest => if k = key then s else textEntry key rest
  | (_, _) :: rest => textEntry key rest

/-- The caller-stable key bound into the payload. -/
def AuditPayload.idempotencyKey (p : AuditPayload) : String := textEntry "idempotency_key" p.entries

theorem AuditPayload.fromMapping_eq_ok {entries : List (String × Canonical)} {p : AuditPayload} :
    AuditPayload.fromMapping entries = .ok p ↔ p.entries = entries := by
  constructor
  · intro h
    obtain ⟨_, rfl⟩ := validated_eq_ok.1 h
    rfl
  · rintro rfl
    exact validated_eq_ok.2 ⟨p.checked, rfl⟩

/-! ## Writers and streams -/

/-- Runtime identities that author audit evidence. -/
inductive AuditWriter
  | collector
  | control
  | execution
  | migration
  | scheduler
  | strategy
  deriving DecidableEq

namespace AuditWriter

def value : AuditWriter → String
  | collector => "aqa_collector"
  | control => "aqa_control"
  | execution => "aqa_execution"
  | migration => "aqa_migrate"
  | scheduler => "aqa_scheduler"
  | strategy => "aqa_strategy"

/-- The event families a writer may author. -/
def eventFamilies : AuditWriter → List String
  | migration => ["experiment.", "security."]
  | collector => ["bar.", "collector.", "data.", "dataset.", "gap.", "security."]
  | scheduler => ["scheduler.", "security.", "slot."]
  | strategy => ["security.", "signal.", "strategy."]
  | execution =>
      ["execution.", "fill.", "incident.", "intent.", "latch.", "order.", "reconciliation.",
        "risk.", "security."]
  | control => ["control.", "experiment.", "job.", "operator.", "security."]

def all : List AuditWriter := [collector, control, execution, migration, scheduler, strategy]

/-- `AuditWriter(text)`. -/
def ofValue? (text : List Char) : Option AuditWriter := all.find? fun w => w.value.toList == text

end AuditWriter

/-- The characters `[a-z0-9]`. -/
def isLowerAlphanumeric (c : Char) : Bool := isLower c || isDigit c

/-- The characters of audit identifiers behind the first: `a-z`, `0-9` and `_ . : - /`. -/
def isAuditIdentifierTail (c : Char) : Bool :=
  isLowerAlphanumeric c || c == '_' || c == '.' || c == ':' || c == '/' || c == '-'

/-- A resource reference starts and ends with `[a-z0-9]`. -/
def isAuditResourceRef (cs : List Char) : Bool :=
  match cs, cs.getLast? with
  | c :: rest, some z =>
      isLowerAlphanumeric c && isLowerAlphanumeric z && rest.all isAuditIdentifierTail
  | _, _ => false

/-- `_require_audit_identifier`. -/
def requireAuditIdentifier (value : List Char) (fieldName : String) (maximumLength : Nat) :
    Except PlatformError Unit :=
  rejectIf (matchesHeadTail isLowerAlphanumeric isAuditIdentifierTail (maximumLength - 1) value
    = false) (.auditValidation ("audit " ++ fieldName ++ " is invalid"))

/-- `_audit_writer_for_stream`. -/
def auditWriterForStream (streamId : String) : Except PlatformError AuditWriter := do
  requireAuditIdentifier streamId.toList "stream ID" 128
  let actorText := streamId.toList.takeWhile (· ≠ ':')
  let resourceRef := (streamId.toList.dropWhile (· ≠ ':')).tail
  rejectIf (resourceRef = []) (.auditValidation "audit stream ID is invalid")
  let writer ← require (AuditWriter.ofValue? actorText)
    (.auditValidation "audit stream ID has an invalid writer")
  rejectIf (isAuditResourceRef resourceRef = false)
    (.auditValidation "audit stream ID has an invalid resource reference")
  pure writer

/-- `^[a-z][a-z0-9_]*(?:\.[a-z][a-z0-9_]*)+$`. -/
def isAuditEventType (s : String) : Bool :=
  let parts := s.toList.splitOn '.'
  decide (2 ≤ parts.length) && parts.all fun p =>
    matchesHeadTail isLower (fun c => isLowerAlphanumeric c || c == '_') p.length p

/-- `_validate_audit_authority`. -/
def validateAuditAuthority (streamId eventType : String) (actor : AuditWriter) :
    Except PlatformError Unit := do
  let streamWriter ← auditWriterForStream streamId
  requireAuditIdentifier eventType.toList "event type" 64
  rejectIf (isAuditEventType eventType = false) (.auditValidation "audit event type is invalid")
  rejectIf (actor ≠ streamWriter) (.auditValidation "audit actor does not own the stream")
  rejectIf (¬ actor.eventFamilies.any (fun f => f.toList.isPrefixOf eventType.toList))
    (.auditValidation "audit event type is not permitted for the writer")

/-! ## Events -/

/-- One link of an audit stream. -/
structure AuditEvent where
  streamId : String
  sequence : Nat
  previousHash : String
  eventType : String
  actor : AuditWriter
  occurredAt : Instant
  payload : AuditPayload

def auditGenesisHash : String := "0000000000000000000000000000000000000000000000000000000000000000"

namespace AuditEvent

section Hashed

variable [ContentHasher]

def payloadHash (e : AuditEvent) : String := sha256Hex (.mapping e.payload.entries)

/-- The hash of the chain tuple; the payload enters by its own hash. -/
def eventHash (e : AuditEvent) : String :=
  sha256Hex (.seq [.text e.streamId, .int e.sequence, .text e.previousHash, .text e.eventType,
    .text e.actor.value, .instant e.occurredAt, .text e.payloadHash])

def auditEventId (e : AuditEvent) : String := deterministicId "audit" e.eventHash

end Hashed

def idempotencyKey (e : AuditEvent) : String := e.payload.idempotencyKey

/-- `AuditEvent.create`. The largest sequence number is checked where events are stored. -/
def create (streamId : String) (sequence : Nat) (previousHash eventType : String)
    (actor : AuditWriter) (occurredAt : Instant) (payload : AuditPayload) :
    Except PlatformError AuditEvent := do
  validateAuditAuthority streamId eventType actor
  rejectIf (sequence < 1) (.auditValidation "audit sequence is invalid")
  rejectIf (isSha256 previousHash = false) (.auditValidation "audit previous hash is invalid")
  pure ⟨streamId, sequence, previousHash, eventType, actor, occurredAt, payload⟩

end AuditEvent

/-- The stream of the execution writer for one experiment. -/
def executionStream (experimentHash : String) : String := "aqa_execution:" ++ experimentHash

/-- The sequence number and previous hash that continue a stream, given those of its head. -/
def nextLink : Option (Nat × String) → Nat × String
  | none => (1, auditGenesisHash)
  | some head => (head.1 + 1, head.2)

section Chain

variable [ContentHasher]

/-- The last event of a stream. -/
def streamHead? (events : List AuditEvent) (streamId : String) : Option AuditEvent :=
  (events.filter fun e => e.streamId = streamId).getLast?

/-- `_next_audit`. -/
def nextAudit (events : List AuditEvent) (digest eventType : String) (occurredAt : Instant)
    (payload : List (String × Canonical)) : Except PlatformError AuditEvent := do
  let streamId := executionStream digest
  let link := nextLink ((streamHead? events streamId).map fun e => (e.sequence, e.eventHash))
  let payload ← AuditPayload.fromMapping payload
  AuditEvent.create streamId link.1 link.2 eventType .execution occurredAt payload

/-- What the verifier remembers between two events. -/
structure AuditCursor where
  heads : Dict String (Nat × String) := Dict.empty
  idempotencyKeys : List (String × String) := []
  previousSortKey : Option (String × Nat) := none

/-- The order in which the verifier expects events: by stream, then by sequence number. -/
def AuditSortKeyLt (a b : String × Nat) : Prop := a.1 < b.1 ∨ (a.1 = b.1 ∧ a.2 < b.2)

instance (a b : String × Nat) : Decidable (AuditSortKeyLt a b) :=
  inferInstanceAs (Decidable (_ ∨ _))

/-- The checks `verify_audit_chain` makes on one event. -/
def verifyAuditStep (cursor : AuditCursor) (event : AuditEvent) :
    Except PlatformError AuditCursor := do
  let sortKey := (event.streamId, event.sequence)
  rejectIf (∃ previous ∈ cursor.previousSortKey, ¬ AuditSortKeyLt previous sortKey)
    (.auditIntegrity "audit verification input is not deterministically ordered")
  let expected := nextLink (cursor.heads.get? event.streamId)
  rejectIf (event.sequence ≠ expected.1 ∨ event.previousHash ≠ expected.2)
    (.auditIntegrity "audit chain verification failed")
  rejectIf ((event.streamId, event.idempotencyKey) ∈ cursor.idempotencyKeys)
    (.auditIntegrity "audit chain contains a duplicate idempotency key")
  pure {
    heads := cursor.heads.set event.streamId (event.sequence, event.eventHash)
    idempotencyKeys := (event.streamId, event.idempotencyKey) :: cursor.idempotencyKeys
    previousSortKey := some sortKey }

/-- `verify_audit_chain`: the report on the verified streams is not used by the ledger. -/
def verifyAuditChain (events : List AuditEvent) : Except PlatformError Unit := do
  let _ ← events.foldlM verifyAuditStep {}
  pure ()

/-! ## The audit repository -/

/-- `_same_append_request`. -/
def AuditEvent.sameAppendRequest (prior candidate : AuditEvent) : Bool :=
  decide (prior.streamId = candidate.streamId ∧ prior.eventType = candidate.eventType ∧
    prior.actor = candidate.actor ∧ prior.occurredAt = candidate.occurredAt ∧
    prior.payloadHash = candidate.payloadHash)

/-- Insert one event; its ID and its place in the stream are unique. -/
def insertAudit (events : List AuditEvent) (event : AuditEvent) :
    Except PlatformError (List AuditEvent) := do
  rejectIf (∃ e ∈ events, e.auditEventId = event.auditEventId ∨
      (e.streamId = event.streamId ∧ e.sequence = event.sequence))
    (.auditPersistence "audit event could not be persisted")
  pure (events ++ [event])

/-- `_append_on_connection`: the candidate is the first event of its stream, the retry of one of
them, or continues the stream. -/
def appendOnConnection (candidate : AuditEvent) (events : List AuditEvent) :
    Except PlatformError (AuditEvent × List AuditEvent) :=
  let existing := sortedBy AuditEvent.sequence
    (events.filter fun e => e.streamId = candidate.streamId)
  match existing.getLast? with
  | none => do
      let events ← insertAudit events candidate
      pure (candidate, events)
  | some latest => do
      verifyAuditChain existing
      match existing.find? fun prior => prior.idempotencyKey == candidate.idempotencyKey with
      | some retry => do
          rejectIf (retry.sameAppendRequest candidate = false)
            (.auditValidation "audit idempotency key was reused with different content")
          pure (retry, events)
      | none => do
          rejectIf (maxSigned64BitInteger < latest.sequence + 1)
            (.auditValidation "audit sequence is invalid")
          let event ← AuditEvent.create candidate.streamId (latest.sequence + 1) latest.eventHash
            candidate.eventType candidate.actor candidate.occurredAt candidate.payload
          let events ← insertAudit events event
          pure (event, events)

/-- `AuditRepository.append` in the transaction of the caller. -/
def appendAuditEvent (writer : Option AuditWriter) (streamId eventType : String)
    (occurredAt : Instant) (payload : AuditPayload) (events : List AuditEvent) :
    Except PlatformError (AuditEvent × List AuditEvent) := do
  let actor ← require writer (.auditPersistence "audit repository is verify-only")
  let candidate ←
    AuditEvent.create streamId 1 auditGenesisHash eventType actor occurredAt payload
  appendOnConnection candidate events

/-- The table of events after an append. -/
def appendAudit (writer : Option AuditWriter) (streamId eventType : String) (occurredAt : Instant)
    (payload : AuditPayload) (events : List AuditEvent) :
    Except PlatformError (List AuditEvent) := do
  let appended ← appendAuditEvent writer streamId eventType occurredAt payload events
  pure appended.2

end Chain

/-! ## Appending to an execution stream -/

/-- The event types the execution writer may author. -/
def isExecutionEventType (s : String) : Bool :=
  matchesHeadTail isLowerAlphanumeric isAuditIdentifierTail 63 s.toList &&
    (isAuditEventType s &&
      AuditWriter.execution.eventFamilies.any fun f => f.toList.isPrefixOf s.toList)

-- The equations of the definitions, stated once for all the proofs below.
attribute [local simp] isAuditResourceRef isAuditIdentifierTail isLowerAlphanumeric
  isExecutionEventType auditWriterForStream requireAuditIdentifier validateAuditAuthority
  AuditEvent.create rejectIf nextLink in
theorem isLowerAlphanumeric_of_isHexDigit {c : Char} (h : isHexDigit c = true) :
    isLowerAlphanumeric c = true := by
  simp only [isHexDigit, isLowerAlphanumeric, isLower, Bool.or_eq_true, Bool.and_eq_true,
    decide_eq_true_eq] at h ⊢
  rcases h with h | h
  · exact Or.inr h
  · exact Or.inl ⟨h.1, h.2.trans (by decide)⟩

theorem isAuditResourceRef_of_isSha256 {s : String} (h : isSha256 s = true) :
    isAuditResourceRef s.toList = true := by
  simp only [isSha256, matchesExactly, Bool.and_eq_true, decide_eq_true_eq, List.all_eq_true] at h
  obtain ⟨hlen, hall⟩ := h
  have halnum : ∀ c ∈ s.toList, isLowerAlphanumeric c = true :=
    fun c hc => isLowerAlphanumeric_of_isHexDigit (hall c hc)
  cases hcs : s.toList with
  | nil => simp [hcs] at hlen
  | cons c rest =>
      rw [hcs] at halnum
      have hlast : (c :: rest).getLast? = some ((c :: rest).getLast (by simp)) :=
        List.getLast?_eq_some_getLast (by simp)
      have hmem := List.getLast_mem (l := c :: rest) (by simp)
      simp only [isAuditResourceRef, hlast, Bool.and_eq_true, List.all_eq_true]
      refine ⟨⟨halnum c (by simp), halnum _ hmem⟩, fun x hx => ?_⟩
      simp [isAuditIdentifierTail, halnum x (by simp [hx])]

/-- The characters of the execution writer's name and the separator. -/
def executionStreamPrefix : List Char :=
  ['a', 'q', 'a', '_', 'e', 'x', 'e', 'c', 'u', 't', 'i', 'o', 'n', ':']

theorem executionStream_toList (digest : String) :
    (executionStream digest).toList = executionStreamPrefix ++ digest.toList := by
  have hpre : "aqa_execution:".toList = executionStreamPrefix := by decide
  rw [executionStream, String.toList_append, hpre]

theorem executionStream_injective : Function.Injective executionStream := by
  intro a b hab
  have hl := congrArg String.toList hab
  rw [executionStream_toList, executionStream_toList, List.append_cancel_left_eq] at hl
  exact String.toList_inj.1 hl

/-- An experiment's stream is written by the execution writer. -/
theorem auditWriterForStream_executionStream {digest : String} (h : isSha256 digest = true) :
    auditWriterForStream (executionStream digest) = .ok .execution := by
  have href := isAuditResourceRef_of_isSha256 h
  have hne : digest.toList ≠ [] := by
    intro h0
    simp [h0, isAuditResourceRef] at href
  have hlen := isSha256_length h
  have hall : digest.toList.all isAuditIdentifierTail = true := by
    simp only [isSha256, matchesExactly, Bool.and_eq_true, List.all_eq_true] at h
    refine List.all_eq_true.2 fun c hc => ?_
    simp [isAuditIdentifierTail, isLowerAlphanumeric_of_isHexDigit (h.2 c hc)]
  have hid : matchesHeadTail isLowerAlphanumeric isAuditIdentifierTail (128 - 1)
      (executionStreamPrefix ++ digest.toList) = true := by
    have hpre : isLowerAlphanumeric 'a' = true ∧
        executionStreamPrefix.tail.all isAuditIdentifierTail = true := by decide
    have hcount : (executionStreamPrefix.tail ++ digest.toList).length ≤ 128 - 1 := by
      simp [hlen, executionStreamPrefix]
    show (isLowerAlphanumeric 'a' && (decide _ &&
      (executionStreamPrefix.tail ++ digest.toList).all isAuditIdentifierTail)) = true
    rw [List.all_append, hpre.1, hpre.2, hall, Bool.and_self, Bool.and_true, Bool.true_and]
    exact decide_eq_true hcount
  have htake : (executionStreamPrefix ++ digest.toList).takeWhile (· ≠ ':') =
      executionStreamPrefix.dropLast := by
    simp [executionStreamPrefix]
  have hdrop : ((executionStreamPrefix ++ digest.toList).dropWhile (· ≠ ':')).tail =
      digest.toList := by
    simp [executionStreamPrefix]
  have hwriter : AuditWriter.ofValue? executionStreamPrefix.dropLast = some .execution := by decide
  unfold auditWriterForStream requireAuditIdentifier
  rw [executionStream_toList, htake, hdrop]
  simp only [hid, hwriter, hne, href, rejectIf, require]
  rfl

theorem validateAuditAuthority_executionStream {digest eventType : String}
    (hd : isSha256 digest = true) (ht : isExecutionEventType eventType = true) :
    validateAuditAuthority (executionStream digest) eventType .execution = .ok () := by
  simp only [isExecutionEventType, Bool.and_eq_true] at ht
  obtain ⟨hid, hpattern, hfamily⟩ := ht
  simp [validateAuditAuthority, auditWriterForStream_executionStream hd, requireAuditIdentifier,
    rejectIf, bind, Except.bind, hid, hpattern, hfamily]

theorem nextLink_sequence_pos (head : Option (Nat × String)) : 1 ≤ (nextLink head).1 := by
  cases head <;> simp [nextLink]

section Appending

variable [ContentHasher] {events : List AuditEvent} {digest eventType : String}
  {occurredAt : Instant} {payload : List (String × Canonical)}

theorem isSha256_nextLink (head : Option AuditEvent) :
    isSha256 (nextLink (head.map fun e => (e.sequence, e.eventHash))).2 = true := by
  cases head with
  | none => exact (by decide +kernel : isSha256 auditGenesisHash = true)
  | some e => exact isSha256_sha256Hex _

/-- An execution event can be appended exactly when its payload meets the closed contract. -/
theorem nextAudit_eq_ok_iff (hd : isSha256 digest = true)
    (ht : isExecutionEventType eventType = true) {e : AuditEvent} :
    nextAudit events digest eventType occurredAt payload = .ok e ↔
      ∃ p : AuditPayload, p.entries = payload ∧
        e = ⟨executionStream digest,
          (nextLink ((streamHead? events (executionStream digest)).map
            fun e => (e.sequence, e.eventHash))).1,
          (nextLink ((streamHead? events (executionStream digest)).map
            fun e => (e.sequence, e.eventHash))).2,
          eventType, .execution, occurredAt, p⟩ := by
  have hpos := nextLink_sequence_pos
    ((streamHead? events (executionStream digest)).map fun e => (e.sequence, e.eventHash))
  have hhash := isSha256_nextLink (streamHead? events (executionStream digest))
  simp only [nextAudit, AuditEvent.create, bind_eq_ok, AuditPayload.fromMapping_eq_ok,
    validateAuditAuthority_executionStream hd ht, rejectIf_eq_ok, pure_eq_ok]
  simp [hhash, Nat.one_le_iff_ne_zero.1 hpos, eq_comm]

/-- The contract on the payload is all that can refuse an execution event. -/
theorem nextAudit_isOk_iff (hd : isSha256 digest = true)
    (ht : isExecutionEventType eventType = true) :
    (∃ e, nextAudit events digest eventType occurredAt payload = .ok e) ↔
      validateAuditObject payload = .ok () := by
  constructor
  · rintro ⟨e, h⟩
    obtain ⟨p, rfl, -⟩ := (nextAudit_eq_ok_iff hd ht).1 h
    exact p.checked
  · intro h
    exact ⟨_, (nextAudit_eq_ok_iff hd ht).2 ⟨⟨payload, h⟩, rfl, rfl⟩⟩

end Appending

end AdaptiveTrader
