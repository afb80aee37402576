import AdaptiveTrader.Foundation.Json
import AdaptiveTrader.Foundation.Tables
import AdaptiveTrader.Storage.Bars

/-!
# The bar tables

Three tables hold the bars: their identities, the revisions of each, and a projection of the latest
revision. What is read from a row is parsed into a checked record; the rows themselves can hold
anything that their column types admit.

A bar is read in two ways. `readLatest` takes one identity, joins its revisions with it, verifies the
chain they form and compares the projection. `readEffectiveBars` takes a batch and makes the same
checks over three queries of its own.

Advisory locks are left out: each transaction sees the tables as the one before it left them.
-/

set_option autoImplicit false

namespace AdaptiveTrader.Storage

open Foundation

/-! ## Rows -/

/-- A row of `aqa_bar_identities` under its ID. -/
structure BarIdentityRow extends BarIdentityFields where
  contentHash : String
  createdAt : Instant

/-- A row of `aqa_bar_events` under its ID. -/
structure BarEventRow where
  barIdentityId : String
  revision : Int
  schemaVersion : Int
  providerTimestamp : Option Instant
  receivedAt : Instant
  openPrice : ℚ
  high : ℚ
  low : ℚ
  close : ℚ
  volume : ℚ
  tradeCount : Option Int
  vwap : Option ℚ
  qualityFlags : Json
  source : String
  sourceMode : String
  sourceEventId : Option String
  isCorrection : Bool
  correctionOfSourceEventId : Option String
  sourcePayloadHash : String
  lineageHash : Option String
  normalizedPayloadHash : String
  correctionOfEventId : Option String
  contentHash : String
  createdAt : Instant

/-- A row of `aqa_bar_latest` under the ID of its identity. -/
structure BarLatestRow where
  barEventId : String
  revision : Int
  contentHash : String
  version : Int
  projectedAt : Instant
  deriving DecidableEq

structure BarTables where
  identities : Dict String BarIdentityRow := Dict.empty
  events : Dict String BarEventRow := Dict.empty
  latest : Dict String BarLatestRow := Dict.empty

/-! ## Parsing -/

/-- A value that a row cannot have is a defect of the row; a defect that was found is kept. -/
def orMalformed {α : Type} (message : String) : Except PlatformError α → Except PlatformError α
  | .error (.marketDataValidation _) => .error (.marketDataIntegrity message)
  | outcome => outcome

@[simp] theorem orMalformed_eq_ok {α : Type} {message : String} {x : Except PlatformError α} {a : α} :
    orMalformed message x = .ok a ↔ x = .ok a := by
  unfold orMalformed
  split <;> simp

/-- A JSON list of texts. -/
def jsonTexts? : Json → Option (List String)
  | .array items => items.mapM fun item =>
      match item with
      | .text s => some s
      | _ => none
  | _ => none

theorem jsonTexts?_texts (flags : List String) :
    jsonTexts? (.array (flags.map Json.text)) = some flags := by
  induction flags with
  | nil => rfl
  | cons flag rest ih =>
      simp only [jsonTexts?] at ih
      simp [jsonTexts?, ih]

section Parsing

variable [ContentHasher]

/-- `_identity_from_row`. -/
def identityFromRow (barIdentityId : String) (row : BarIdentityRow) :
    Except PlatformError BarIdentity := do
  rejectIf (isPrefixedDigest "bar_identity" barIdentityId = false)
    (.marketDataIntegrity "persisted bar identity is malformed")
  let identity ← orMalformed "persisted bar identity is malformed"
    (validated BarIdentityFields.check row.toBarIdentityFields fun h => ⟨_, h⟩)
  rejectIf (barIdentityId ≠ identity.barIdentityId ∨ row.contentHash ≠ identity.identityHash)
    (.marketDataIntegrity "persisted bar identity hash is invalid")
  pure identity

/-- The payload of a row, not validated. -/
def BarEventRow.toBarWriteFields (row : BarEventRow) (identity : BarIdentity)
    (flags : List String) : BarWriteFields where
  identity := identity
  receivedAt := row.receivedAt
  openPrice := row.openPrice
  high := row.high
  low := row.low
  close := row.close
  volume := row.volume
  qualityFlags := flags
  source := row.source
  sourcePayloadHash := row.sourcePayloadHash
  sourceMode := row.sourceMode
  lineageHash := row.lineageHash
  tradeCount := row.tradeCount
  vwap := row.vwap
  providerTimestamp := row.providerTimestamp
  sourceEventId := row.sourceEventId
  isCorrection := row.isCorrection
  correctionOfSourceEventId := row.correctionOfSourceEventId
  schemaVersion := row.schemaVersion

/-- `_event_from_row`. -/
def eventFromRow (identity : BarIdentity) (barEventId : String) (row : BarEventRow) :
    Except PlatformError StoredBarEvent := do
  let flags ← require (jsonTexts? row.qualityFlags)
    (.marketDataIntegrity "persisted bar event is malformed")
  let bar : BarWrite ← orMalformed "persisted bar event is malformed"
    (validated BarWriteFields.check (row.toBarWriteFields identity flags) fun h => ⟨_, h⟩)
  rejectIf (row.revision < 1) (.marketDataIntegrity "persisted bar revision is invalid")
  let event : StoredBarEvent ← validated StoredBarEventFields.check
    ⟨barEventId, row.revision.toNat, row.correctionOfEventId, bar, row.contentHash⟩ fun h => ⟨_, h⟩
  rejectIf (row.barIdentityId ≠ identity.barIdentityId ∨ row.createdAt ≠ event.bar.receivedAt ∨
      row.normalizedPayloadHash ≠ event.normalizedPayloadHash)
    (.marketDataIntegrity "persisted bar event content is inconsistent")
  pure event

/-! ## Revision chains -/

/-- What a revision owes to the one before it. A selected projection and a rebuilt aggregate may
have been received earlier than what they replace. -/
def Succeeds (previous event : StoredBarEvent) : Prop :=
  event.correctionOfEventId = some previous.barEventId ∧
    event.normalizedPayloadHash ≠ previous.normalizedPayloadHash ∧
    ¬ (event.bar.receivedAt < previous.bar.receivedAt ∧
      event.bar.source ≠ "collection_projection" ∧
      BarWrite.lineageAggregate event.bar.toBarWriteFields = false)

instance (previous event : StoredBarEvent) : Decidable (Succeeds previous event) :=
  inferInstanceAs (Decidable (_ ∧ _))

/-- A revision against the one before it. -/
def verifySuccession (event : StoredBarEvent) : Option StoredBarEvent → Except PlatformError Unit
  | none => rejectIf (event.correctionOfEventId ≠ none)
      (.marketDataIntegrity "bar revision chain has an invalid origin")
  | some previous => rejectIf (¬ Succeeds previous event)
      (.marketDataIntegrity "bar revision chain is inconsistent")

/-- The loop of `_verify_revision_chain` with its two variables. -/
def verifyRevisionsFrom (expectedRevision : Nat) (previous : Option StoredBarEvent) :
    List StoredBarEvent → Except PlatformError Unit
  | [] => .ok ()
  | event :: rest => do
      rejectIf (event.revision ≠ expectedRevision)
        (.marketDataIntegrity "bar revision sequence is not contiguous")
      verifySuccession event previous
      verifyRevisionsFrom (expectedRevision + 1) (some event) rest

/-- `_verify_revision_chain`. -/
def verifyRevisionChain (events : List StoredBarEvent) : Except PlatformError Unit :=
  verifyRevisionsFrom 1 none events

end Parsing

/-! ## Reading one bar -/

namespace BarTables

/-- The revisions of an identity in order, under their IDs. -/
def eventRows (t : BarTables) (barIdentityId : String) : List (String × BarEventRow) :=
  sortedBy (fun e => e.2.revision)
    (t.events.entries.filter fun e => e.2.barIdentityId = barIdentityId)

variable [ContentHasher]

/-- `_load_events`: the join finds nothing when the identity has no row. -/
def loadEvents (t : BarTables) (identity : BarIdentity) :
    Except PlatformError (List StoredBarEvent) :=
  match t.identities.get? identity.barIdentityId with
  | none => .ok []
  | some origin => do
      let events ← collect (fun e => eventFromRow identity e.1 e.2)
        (t.eventRows identity.barIdentityId)
      verifyRevisionChain events
      rejectIf (∃ first ∈ events.head?, origin.createdAt ≠ first.bar.receivedAt)
        (.marketDataIntegrity "bar identity origin timestamp is inconsistent")
      pure events

/-- The projection names the revision. -/
def Projects (row : BarLatestRow) (latest : StoredBarEvent) : Prop :=
  row.version = latest.revision ∧ row.barEventId = latest.barEventId ∧
    row.revision = latest.revision ∧ row.contentHash = latest.contentHash ∧
    row.projectedAt = latest.bar.receivedAt

instance (row : BarLatestRow) (latest : StoredBarEvent) : Decidable (Projects row latest) :=
  inferInstanceAs (Decidable (_ ∧ _))

/-- `_verify_latest_projection`. -/
def verifyLatestProjection (t : BarTables) (identity : BarIdentity)
    (events : List StoredBarEvent) : Except PlatformError Int :=
  match events.getLast?, t.latest.get? identity.barIdentityId with
  | none, none => .ok 0
  | none, some _ => .error (.marketDataIntegrity "bar latest projection has no event history")
  | some _, none =>
      .error (.marketDataIntegrity "bar revision history has no latest projection")
  | some latest, some row => do
      rejectIf (¬ Projects row latest)
        (.marketDataIntegrity "bar latest projection is inconsistent")
      pure row.version

/-- `_select_identity`. -/
def selectIdentity (t : BarTables) (identity : BarIdentity) :
    Except PlatformError (Option BarIdentity) :=
  match t.identities.get? identity.barIdentityId with
  | none => .ok none
  | some row => do
      let stored ← identityFromRow identity.barIdentityId row
      rejectIf (stored ≠ identity)
        (.marketDataIntegrity "persisted bar identity is inconsistent")
      pure (some stored)

/-- `_read_events`. -/
def readEvents (t : BarTables) (identity : BarIdentity) :
    Except PlatformError (List StoredBarEvent) := do
  match ← t.selectIdentity identity with
  | none => pure []
  | some stored =>
      let events ← t.loadEvents stored
      rejectIf (events = []) (.marketDataIntegrity "bar identity has no revision history")
      let _ ← t.verifyLatestProjection stored events
      pure events

/-- `MarketDataRepository.latest`. -/
def readLatest (t : BarTables) (identity : BarIdentity) :
    Except PlatformError (Option StoredBarEvent) := do
  let events ← t.readEvents identity
  pure events.getLast?

/-! ## Reading a batch -/

/-- An entry that a verified dictionary always has. -/
def requireEntry {α : Type} (entry : Option α) : Except PlatformError α :=
  require entry (.external "KeyError")

/-- What the batch has parsed from its three queries. Rows and events stand under the ID of their
identity; the events of an identity are in revision order. -/
structure Batch where
  origins : List (String × BarIdentityRow)
  storedIdentities : List (String × BarIdentity)
  chains : List (String × StoredBarEvent)
  latest : List (String × BarLatestRow)

namespace Batch

/-- `chains[identity_id]`. -/
def chain (b : Batch) (barIdentityId : String) : List StoredBarEvent :=
  (b.chains.filter fun e => e.1 = barIdentityId).map Prod.snd

/-- One turn of the loop over the expected identities. -/
def effectiveBar (b : Batch) (expected : BarIdentity) :
    Except PlatformError (Option StoredBarEvent) :=
  match Dict.lookup expected.barIdentityId b.storedIdentities with
  | none => .ok none
  | some identity => do
      rejectIf (identity ≠ expected)
        (.marketDataIntegrity "canonical interval does not match expected identity")
      let chain := b.chain expected.barIdentityId
      verifyRevisionChain chain
      let first ← requireEntry chain.head?
      let current ← requireEntry chain.getLast?
      let projection ← requireEntry (Dict.lookup expected.barIdentityId b.latest)
      let origin ← requireEntry (Dict.lookup expected.barIdentityId b.origins)
      rejectIf (origin.createdAt ≠ first.bar.receivedAt ∨ ¬ Projects projection current)
        (.marketDataIntegrity "canonical latest projection is inconsistent")
      pure (some current)

end Batch

/-- The event rows of a batch, ordered by identity and revision. -/
def batchEventRows (t : BarTables) (expected : List String) : List (String × BarEventRow) :=
  sortedBy (fun e => toLex (e.2.barIdentityId, e.2.revision))
    (t.events.entries.filter fun e => e.2.barIdentityId ∈ expected)

/-- A row of the event query, parsed under its verified identity. -/
def batchEvent (storedIdentities : List (String × BarIdentity)) (e : String × BarEventRow) :
    Except PlatformError (String × StoredBarEvent) := do
  let identity ← require (Dict.lookup e.2.barIdentityId storedIdentities)
    (.marketDataIntegrity "canonical event has no verified identity")
  let event ← eventFromRow identity e.1 e.2
  pure (identity.barIdentityId, event)

/-- The three queries of `read_effective_bars`, parsed, and compared by the IDs they found. -/
def readBatch (t : BarTables) (expected : List String) (maxRevisions : Nat) :
    Except PlatformError Batch := do
  let identityRows := t.identities.entries.filter fun r => r.1 ∈ expected
  let eventRows := (t.batchEventRows expected).take (maxRevisions + 1)
  let latestRows := t.latest.entries.filter fun r => r.1 ∈ expected
  rejectIf (maxRevisions < eventRows.length)
    (.marketDataIntegrity "canonical revision batch exceeds bounded verification")
  let parsed ← collect (fun r => identityFromRow r.1 r.2) identityRows
  let storedIdentities := parsed.map fun identity => (identity.barIdentityId, identity)
  let chains ← collect (batchEvent storedIdentities) eventRows
  let ids := (storedIdentities.map Prod.fst).toFinset
  rejectIf (ids ≠ (chains.map Prod.fst).toFinset ∨ ids ≠ (latestRows.map Prod.fst).toFinset)
    (.marketDataIntegrity "canonical identity, history, and projection disagree")
  pure ⟨identityRows, storedIdentities, chains, latestRows⟩

/-- `read_effective_bars`. -/
def readEffectiveBars (t : BarTables) (identities : List BarIdentity) (maxRevisions : Nat) :
    Except PlatformError (List StoredBarEvent) := do
  rejectIf (1024 < identities.length)
    (.marketDataValidation "effective batch requires at most 1024 identities")
  rejectIf (maxRevisions < 1 ∨ 16384 < maxRevisions)
    (.marketDataValidation "effective batch revision bound is invalid")
  let expected := identities.map BarIdentity.barIdentityId
  rejectIf (¬ expected.Nodup)
    (.marketDataValidation "effective batch contains duplicate identities")
  if expected = [] then pure []
  else
    let batch ← t.readBatch expected maxRevisions
    let result ← collect batch.effectiveBar identities
    pure result.reduceOption

/-! ## Writing one bar -/

/-- Insert the identity of a bar; it was created with the receipt of the bar. -/
def insertIdentity (t : BarTables) (bar : BarWrite) : BarTables :=
  { t with
    identities := t.identities.set bar.identity.barIdentityId
      ⟨bar.identity.toBarIdentityFields, bar.identity.identityHash, bar.receivedAt⟩ }

/-- `_ensure_identity`: whether the identity is new, and the tables with it. -/
def ensureIdentity (t : BarTables) (bar : BarWrite) : Except PlatformError (Bool × BarTables) :=
  let identity := bar.identity
  let rows := t.identities.entries.filter fun r =>
    r.1 = identity.barIdentityId ∨
      BarIdentity.naturalKey r.2.toBarIdentityFields =
        BarIdentity.naturalKey identity.toBarIdentityFields
  match rows with
  | [] => .ok (true, t.insertIdentity bar)
  | [row] => do
      let stored ← identityFromRow row.1 row.2
      rejectIf (stored ≠ identity)
        (.marketDataIntegrity "persisted bar identity is inconsistent")
      pure (false, t)
  | _ => .error (.marketDataIntegrity "bar identity indexes disagree")

end BarTables

section Writing

variable [ContentHasher]

/-- The row that `_insert_revision` writes for an event. -/
def eventRow (event : StoredBarEvent) : BarEventRow where
  barIdentityId := event.identity.barIdentityId
  revision := event.revision
  schemaVersion := event.bar.schemaVersion
  providerTimestamp := event.bar.providerTimestamp
  receivedAt := event.bar.receivedAt
  openPrice := numeric38 18 event.bar.openPrice
  high := numeric38 18 event.bar.high
  low := numeric38 18 event.bar.low
  close := numeric38 18 event.bar.close
  volume := numeric38 0 event.bar.volume
  tradeCount := event.bar.tradeCount
  vwap := event.bar.vwap.map (numeric38 18)
  qualityFlags := .array (event.bar.qualityFlags.map Json.text)
  source := event.bar.source
  sourceMode := event.bar.sourceMode
  sourceEventId := event.bar.sourceEventId
  isCorrection := event.bar.isCorrection
  correctionOfSourceEventId := event.bar.correctionOfSourceEventId
  sourcePayloadHash := event.bar.sourcePayloadHash
  lineageHash := event.bar.lineageHash
  normalizedPayloadHash := event.normalizedPayloadHash
  correctionOfEventId := event.correctionOfEventId
  contentHash := event.contentHash
  createdAt := event.bar.receivedAt

/-- What a violated constraint of the tables is reported as. -/
def writeFailed : PlatformError :=
  .marketDataPersistence "market-data write could not be persisted"

/-- The revision that follows the events of a bar. -/
def nextRevision (bar : BarWrite) (previous : Option StoredBarEvent) :
    Except PlatformError StoredBarEvent := do
  let revision := (previous.map fun p => p.revision + 1).getD 1
  rejectIf (maxSigned64BitInteger < revision)
    (.marketDataIntegrity "bar revision capacity is exhausted")
  let id := barEventId bar.identity.barIdentityId revision
    (BarWrite.normalizedPayloadHash bar.toBarWriteFields)
  let correctionOfEventId := previous.map fun p => p.barEventId
  validated StoredBarEventFields.check
    ⟨id, revision, correctionOfEventId, bar, barEventContentHash id revision correctionOfEventId bar⟩
    fun h => ⟨_, h⟩

namespace BarTables

/-- Insert an event: its key and the constraint that separates its two digests. -/
def insertEvent (t : BarTables) (event : StoredBarEvent) : Except PlatformError BarTables := do
  rejectIf (t.events.contains event.barEventId = true ∨
      event.contentHash = event.normalizedPayloadHash) writeFailed
  pure { t with events := t.events.set event.barEventId (eventRow event) }

/-- `_insert_revision`. -/
def insertRevision (t : BarTables) (bar : BarWrite) (events : List StoredBarEvent)
    (selectedProjection : Bool) : Except PlatformError (StoredBarEvent × BarTables) := do
  let previous := events.getLast?
  rejectIf (∃ p ∈ previous, bar.receivedAt < p.bar.receivedAt ∧ selectedProjection = false ∧
      BarWrite.lineageAggregate bar.toBarWriteFields = false)
    (.marketDataValidation "bar correction receipt precedes current revision")
  let event ← nextRevision bar previous
  let t ← t.insertEvent event
  pure (event, t)

/-- The projection of a revision. -/
def latestRow (event : StoredBarEvent) : BarLatestRow :=
  ⟨event.barEventId, event.revision, event.contentHash, event.revision, event.bar.receivedAt⟩

/-- A first projection is inserted, a later one replaces the row of the prior version. -/
def putLatest (t : BarTables) (barIdentityId : String) (row : BarLatestRow) (priorVersion : Int) :
    Except PlatformError (Dict String BarLatestRow) :=
  if priorVersion = 0 then do
    rejectIf (t.latest.contains barIdentityId = true) writeFailed
    pure (t.latest.set barIdentityId row)
  else
    require (t.latest.compareAndSet barIdentityId (fun stored => stored.version = priorVersion) row)
      (.marketDataPersistence "bar projection lost its concurrency fence")

/-- `_write_latest_projection`; the event an identity projects belongs to no other. -/
def writeLatestProjection (t : BarTables) (event : StoredBarEvent) (priorVersion : Int) :
    Except PlatformError (Int × BarTables) := do
  rejectIf (priorVersion + 1 ≠ event.revision)
    (.marketDataIntegrity "bar projection revision is inconsistent")
  let id := event.identity.barIdentityId
  rejectIf (∃ e ∈ t.latest.entries, e.1 ≠ id ∧ e.2.barEventId = event.barEventId) writeFailed
  let latest ← t.putLatest id { latestRow event with version := priorVersion + 1 } priorVersion
  pure (priorVersion + 1, { t with latest := latest })

end BarTables

/-- Outcome of comparing a normalized payload with the current effective revision. -/
inductive BarWriteStatus
  | inserted
  | duplicate
  | corrected
  deriving DecidableEq

/-- The bar repeats the effective revision; of a selected projection only the economic values count. -/
def Repeats (bar : BarWrite) (selectedProjection : Bool) (current : StoredBarEvent) : Prop :=
  current.normalizedPayloadHash = BarWrite.normalizedPayloadHash bar.toBarWriteFields ∨
    (selectedProjection = true ∧
      BarWrite.economicPayload current.bar.toBarWriteFields =
        BarWrite.economicPayload bar.toBarWriteFields)

set_option synthInstance.maxSize 1000 in
instance (bar : BarWrite) (selectedProjection : Bool) (current : StoredBarEvent) :
    Decidable (Repeats bar selectedProjection current) :=
  inferInstanceAs (Decidable (_ ∨ _))

/-- What a bar write leaves in the bar tables. -/
structure RecordedBar where
  status : BarWriteStatus
  event : StoredBarEvent
  latestVersion : Int

namespace BarTables

/-- The part of `_append_on_connection` that writes the bar tables. -/
def recordBar (t : BarTables) (bar : BarWrite) (selectedProjection : Bool) :
    Except PlatformError (RecordedBar × BarTables) := do
  let ensured ← t.ensureIdentity bar
  let t := ensured.2
  let events ← t.loadEvents bar.identity
  rejectIf (ensured.1 = false ∧ events = [])
    (.marketDataIntegrity "bar identity has no revision history")
  let latestVersion ← t.verifyLatestProjection bar.identity events
  match events.getLast?.filter fun current => Repeats bar selectedProjection current with
  | some current => pure (⟨.duplicate, current, latestVersion⟩, t)
  | none => do
      let inserted ← t.insertRevision bar events selectedProjection
      let projected ← inserted.2.writeLatestProjection inserted.1 latestVersion
      let status := if events = [] then BarWriteStatus.inserted else .corrected
      pure (⟨status, inserted.1, projected.1⟩, projected.2)

end BarTables

end Writing

end AdaptiveTrader.Storage
