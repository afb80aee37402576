import AdaptiveTrader.Platform.Audit
import AdaptiveTrader.Storage.MarketData

/-!
# The market-data repository

An append writes one bar and, with an eligible request, the watermark of its series for one
experiment. A watermark says how far the bars of a series are contiguous and names the event it
rests on; whoever reads it verifies that the event is the latest revision of its bar. The append of a
correction is an exception: the revision it has just written may succeed the event named.

An append is one transaction: when it raises, the database is as before.
-/

set_option autoImplicit false

namespace AdaptiveTrader.Storage

open Foundation

/-! ## Requests and watermarks -/

structure EligibleWatermarkFields where
  experimentHash : String
  qualityHash : String
  updatedAt : Instant
  deriving DecidableEq

/-- `EligibleWatermark.__post_init__`. -/
def EligibleWatermarkFields.check (r : EligibleWatermarkFields) : Except PlatformError Unit := do
  requireHash r.experimentHash "experiment hash"
  requireHash r.qualityHash "quality hash"

/-- Caller assertion that a bar is quality-approved for contiguous readiness. -/
structure EligibleWatermark extends EligibleWatermarkFields where
  checked : toEligibleWatermarkFields.check = .ok ()
  deriving DecidableEq

/-- A series of bars as one experiment sees it: the unique columns of a watermark. -/
structure SeriesKey where
  experimentHash : String
  provider : String
  feed : String
  adjustment : String
  symbol : String
  timeframe : String
  deriving DecidableEq

/-- The series of an identity. -/
def seriesKey (experimentHash : String) (i : BarIdentity) : SeriesKey :=
  ⟨experimentHash, i.provider, i.feed, i.adjustment, i.symbol, i.timeframe⟩

/-- The other columns of `aqa_symbol_watermarks`. -/
structure SymbolWatermarkRow where
  symbolWatermarkId : String
  contiguousThrough : Instant
  qualityHash : String
  latestBarEventId : Option String
  contentHash : String
  version : Int
  updatedAt : Instant
  deriving DecidableEq

structure SymbolWatermarkFields extends SeriesKey, SymbolWatermarkRow
  deriving DecidableEq

section Watermarks

variable [ContentHasher]

/-- `_watermark_id`. -/
def watermarkId (k : SeriesKey) : String :=
  deterministicIdFromHashInput "symbol_watermark"
    (.texts [k.experimentHash, k.provider, k.feed, k.adjustment, k.symbol, k.timeframe])

/-- `_watermark_content_hash`. -/
def watermarkContentHash (w : SymbolWatermarkFields) : String :=
  sha256Hex (.seq [.text w.symbolWatermarkId, .text w.experimentHash, .text w.provider,
    .text w.feed, .text w.adjustment, .text w.symbol, .text w.timeframe,
    .instant w.contiguousThrough, .text w.qualityHash, .optional .text w.latestBarEventId,
    .int w.version, .instant w.updatedAt])

/-- `SymbolWatermark.__post_init__`. -/
def SymbolWatermarkFields.check (w : SymbolWatermarkFields) : Except PlatformError Unit := do
  rejectIf (isPrefixedDigest "symbol_watermark" w.symbolWatermarkId = false)
    (.marketDataIntegrity "persisted watermark identity is invalid")
  requireHash w.experimentHash "experiment hash"
  requireHash w.qualityHash "quality hash"
  requireHash w.contentHash "watermark content hash"
  rejectIf (w.latestBarEventId.any (fun id => !isPrefixedDigest "bar_event" id) = true)
    (.marketDataIntegrity "persisted watermark event reference is invalid")
  requireToken w.provider "provider" 32
  requireToken w.feed "feed" 16
  requireToken w.adjustment "adjustment" 16
  rejectIf (isSymbol w.symbol = false)
    (.marketDataIntegrity "persisted watermark symbol is invalid")
  rejectIf (timeframeDuration w.timeframe = none)
    (.marketDataIntegrity "persisted watermark timeframe is invalid")
  rejectIf (w.version < 1 ∨ (maxSigned64BitInteger : Int) < w.version)
    (.marketDataIntegrity "persisted watermark version is invalid")
  rejectIf (w.symbolWatermarkId ≠ watermarkId w.toSeriesKey)
    (.marketDataIntegrity "persisted watermark identity is inconsistent")
  rejectIf (w.contentHash ≠ watermarkContentHash w)
    (.marketDataIntegrity "persisted watermark content hash is invalid")

/-- Validated durable contiguous-readiness state for one experiment series. -/
structure SymbolWatermark extends SymbolWatermarkFields where
  checked : toSymbolWatermarkFields.check = .ok ()
  deriving DecidableEq

/-- `_watermark_from_row`. -/
def watermarkFromRow (k : SeriesKey) (row : SymbolWatermarkRow) :
    Except PlatformError SymbolWatermark :=
  orMalformed "persisted watermark is malformed"
    (validated SymbolWatermarkFields.check ⟨k, row⟩ fun h => ⟨_, h⟩)

/-- The columns that `_new_watermark` fills, and their content hash. -/
def newWatermarkFields (event : StoredBarEvent) (experimentHash qualityHash : String) (version : Int)
    (updatedAt : Instant) : SymbolWatermarkFields :=
  let k := seriesKey experimentHash event.identity
  let w : SymbolWatermarkFields :=
    ⟨k, watermarkId k, event.identity.endAt, qualityHash, some event.barEventId, "", version,
      updatedAt⟩
  { w with contentHash := watermarkContentHash w }

/-- `_new_watermark`. -/
def newWatermark (event : StoredBarEvent) (experimentHash qualityHash : String) (version : Int)
    (updatedAt : Instant) : Except PlatformError SymbolWatermark :=
  validated SymbolWatermarkFields.check
    (newWatermarkFields event experimentHash qualityHash version updatedAt) fun h => ⟨_, h⟩

end Watermarks

/-! ## The database -/

/-- The tables that the repository reads and writes, and the experiments that are registered. -/
structure MarketDatabase where
  bars : BarTables := {}
  watermarks : Dict SeriesKey SymbolWatermarkRow := Dict.empty
  experiments : List String := []
  auditEvents : List AuditEvent := []

section Verification

variable [ContentHasher]

/-- The row of the identity to which an event belongs. -/
def BarTables.identityOfEvent (t : BarTables) (barEventId : String) :
    Option (String × BarIdentityRow) :=
  (t.events.get? barEventId).bind fun event =>
    (t.identities.get? event.barIdentityId).map fun row => (event.barIdentityId, row)

/-- The history that `_verify_watermark_reference` reads for a watermark. -/
def BarTables.referencedHistory (t : BarTables) (w : SymbolWatermark) (barEventId : String) :
    Except PlatformError (BarIdentity × List StoredBarEvent) := do
  let row ← require (t.identityOfEvent barEventId)
    (.marketDataIntegrity "watermark event reference is missing")
  let identity ← identityFromRow row.1 row.2
  rejectIf (seriesKey w.experimentHash identity ≠ w.toSeriesKey ∨
      identity.endAt ≠ w.contiguousThrough)
    (.marketDataIntegrity "watermark event reference is inconsistent")
  let stored ← t.selectIdentity identity
  let stored ← require stored (.marketDataIntegrity "watermark event reference is missing")
  let events ← t.loadEvents stored
  let _ ← t.verifyLatestProjection stored events
  pure (identity, events)

/-- `_verify_watermark_reference`. -/
def BarTables.verifyWatermarkReference (t : BarTables) (w : SymbolWatermark)
    (allowedSuccessor : Option StoredBarEvent) : Except PlatformError Unit :=
  match w.latestBarEventId with
  | none => .ok ()
  | some barEventId => do
      let history ← t.referencedHistory w barEventId
      let latest ← require history.2.getLast?
        (.marketDataIntegrity "watermark event reference is missing")
      let referenced ← require (history.2.find? fun e => e.barEventId = barEventId)
        (.marketDataIntegrity "watermark event reference is missing")
      rejectIf (w.updatedAt < referenced.bar.receivedAt)
        (.marketDataIntegrity "watermark timestamp precedes referenced event")
      rejectIf (latest.barEventId ≠ barEventId ∧
          ¬ (allowedSuccessor = some latest ∧ latest.identity = history.1))
        (.marketDataIntegrity "watermark event reference is not the latest revision")

namespace MarketDatabase

/-- `_select_watermark`. -/
def selectWatermark (db : MarketDatabase) (k : SeriesKey)
    (allowedSuccessor : Option StoredBarEvent) : Except PlatformError (Option SymbolWatermark) :=
  match db.watermarks.get? k with
  | none => .ok none
  | some row => do
      let w ← watermarkFromRow k row
      db.bars.verifyWatermarkReference w allowedSuccessor
      pure (some w)

/-- `MarketDataRepository.watermark`. -/
def watermark (db : MarketDatabase) (experimentHash : String) (identity : BarIdentity) :
    Except PlatformError (Option SymbolWatermark) := do
  requireHash experimentHash "experiment hash"
  db.selectWatermark (seriesKey experimentHash identity) none

/-- `_watermark_reference_identity_id`: only its errors matter without locks. -/
def watermarkReferenceIdentityId (db : MarketDatabase) (k : SeriesKey) :
    Except PlatformError (Option String) :=
  match (db.watermarks.get? k).bind fun row => row.latestBarEventId with
  | none => .ok none
  | some barEventId => do
      rejectIf (isPrefixedDigest "bar_event" barEventId = false)
        (.marketDataIntegrity "watermark event reference is malformed")
      let row ← require (db.bars.events.get? barEventId)
        (.marketDataIntegrity "watermark event reference is missing")
      rejectIf (isPrefixedDigest "bar_identity" row.barIdentityId = false)
        (.marketDataIntegrity "watermark event reference is missing")
      pure (some row.barIdentityId)

/-- Insert a watermark: its experiment, its key and its event exist as the constraints ask. -/
def insertWatermark (db : MarketDatabase) (w : SymbolWatermark) :
    Except PlatformError MarketDatabase := do
  rejectIf (w.experimentHash ∉ db.experiments ∨
      ∃ e ∈ db.watermarks.entries, e.2.symbolWatermarkId = w.symbolWatermarkId) writeFailed
  pure { db with watermarks := db.watermarks.set w.toSeriesKey w.toSymbolWatermarkRow }

/-- Replace a watermark that still has the version that was read. -/
def updateWatermark (db : MarketDatabase) (current w : SymbolWatermark) :
    Except PlatformError MarketDatabase := do
  let watermarks ← require (db.watermarks.compareAndSet current.toSeriesKey
      (fun stored => decide (stored.symbolWatermarkId = current.symbolWatermarkId ∧
        stored.version = current.version))
      { w.toSymbolWatermarkRow with symbolWatermarkId := current.symbolWatermarkId })
    (.marketDataPersistence "watermark lost its concurrency fence")
  pure { db with watermarks := watermarks }

/-- The watermark rests on the event. -/
def References (w : SymbolWatermark) (event : StoredBarEvent) : Prop :=
  w.latestBarEventId = some event.barEventId

instance (w : SymbolWatermark) (event : StoredBarEvent) : Decidable (References w event) :=
  inferInstanceAs (Decidable (_ = _))

/-- The branches of `_apply_eligible_watermark` behind a stored watermark: whether it is replaced.
The event is to start where the watermark ends, or to end there. -/
def replacesWatermark (current : SymbolWatermark) (event : StoredBarEvent)
    (request : EligibleWatermark) : Except PlatformError Bool :=
  if event.identity.startAt ≠ current.contiguousThrough ∧
      event.identity.endAt ≠ current.contiguousThrough then .ok false
  else if event.identity.endAt = current.contiguousThrough ∧ References current event ∧
      current.qualityHash = request.qualityHash then .ok false
  else if request.updatedAt < current.updatedAt then do
    rejectIf (event.identity.endAt = current.contiguousThrough ∧ ¬ References current event)
      (.marketDataValidation "watermark correction timestamp precedes durable state")
    pure false
  else do
    rejectIf (request.updatedAt = current.updatedAt)
      (.marketDataValidation "watermark update conflicts with durable state at the same timestamp")
    rejectIf ((maxSigned64BitInteger : Int) ≤ current.version)
      (.marketDataIntegrity "watermark version capacity is exhausted")
    pure true

/-- `_apply_eligible_watermark`. -/
def applyEligibleWatermark (db : MarketDatabase) (event : StoredBarEvent)
    (request : EligibleWatermark) :
    Except PlatformError (SymbolWatermark × Bool × MarketDatabase) := do
  let current ← db.selectWatermark (seriesKey request.experimentHash event.identity) (some event)
  match current with
  | none => do
      let w ← newWatermark event request.experimentHash request.qualityHash 1 request.updatedAt
      let db ← db.insertWatermark w
      pure (w, true, db)
  | some current => do
      match ← replacesWatermark current event request with
      | false => pure (current, false, db)
      | true => do
          let w ← newWatermark event request.experimentHash request.qualityHash
            (current.version + 1) request.updatedAt
          let db ← db.updateWatermark current w
          pure (w, true, db)

/-! ## Appends -/

/-- The stream in which corrections of a bar are recorded. -/
def correctionStream (barIdentityId : String) : String := "aqa_collector:bar:" ++ barIdentityId

def correctionPayload (event : StoredBarEvent) : List (String × Canonical) :=
  [("idempotency_key", .text event.barEventId),
    ("bar_id", .text event.barEventId),
    ("content_hash", .text event.contentHash),
    ("revision", .int event.revision),
    ("symbol", .text event.identity.symbol)]

/-- The audit events behind the record of a correction. -/
def correctionAuditEvents (db : MarketDatabase) (event : StoredBarEvent) :
    Except PlatformError (List AuditEvent) := do
  let payload ← AuditPayload.fromMapping (correctionPayload event)
  appendAudit (some .collector) (correctionStream event.identity.barIdentityId) "bar.corrected"
    event.bar.receivedAt payload db.auditEvents

/-- `_append_correction_audit`. -/
def appendCorrectionAudit (db : MarketDatabase) (event : StoredBarEvent) :
    Except PlatformError MarketDatabase :=
  match db.correctionAuditEvents event with
  | .ok events => .ok { db with auditEvents := events }
  | .error _ =>
      .error (.marketDataPersistence "bar correction audit could not be persisted")

/-- The audit step of `_append_on_connection`. -/
def auditCorrection (db : MarketDatabase) (recorded : RecordedBar) :
    Except PlatformError MarketDatabase :=
  if recorded.status = .corrected then db.appendCorrectionAudit recorded.event else .ok db

/-- Complete durable outcome of one atomic bar-write attempt. -/
structure BarWriteResult where
  status : BarWriteStatus
  event : StoredBarEvent
  latestVersion : Int
  watermark : Option SymbolWatermark
  watermarkChanged : Bool

/-- The watermark step of `_append_on_connection`. -/
def applyRequest (db : MarketDatabase) (event : StoredBarEvent) :
    Option EligibleWatermark →
      Except PlatformError (Option SymbolWatermark × Bool × MarketDatabase)
  | none => .ok (none, false, db)
  | some request => do
      let applied ← db.applyEligibleWatermark event request
      pure (some applied.1, applied.2)

/-- The lock step of `_append_on_connection`, without the locks. -/
def checkReference (db : MarketDatabase) (bar : BarWrite) :
    Option EligibleWatermark → Except PlatformError Unit
  | none => .ok ()
  | some request => do
      let _ ← db.watermarkReferenceIdentityId (seriesKey request.experimentHash bar.identity)
      pure ()

/-- `_append_on_connection`. -/
def appendOnConnection (db : MarketDatabase) (bar : BarWrite)
    (eligibleWatermark : Option EligibleWatermark) (selectedProjection : Bool) :
    Except PlatformError (BarWriteResult × MarketDatabase) := do
  db.checkReference bar eligibleWatermark
  let recorded ← db.bars.recordBar bar selectedProjection
  let applied ← { db with bars := recorded.2 }.applyRequest recorded.1.event eligibleWatermark
  let audited ← applied.2.2.auditCorrection recorded.1
  rejectIf (recorded.1.latestVersion < 1)
    (.marketDataIntegrity "bar projection version is invalid")
  pure (⟨recorded.1.status, recorded.1.event, recorded.1.latestVersion, applied.1, applied.2.1⟩,
    audited)

/-- `MarketDataRepository.append`. -/
def append (db : MarketDatabase) (bar : BarWrite) (eligibleWatermark : Option EligibleWatermark) :
    Except PlatformError (BarWriteResult × MarketDatabase) := do
  rejectIf (∃ request ∈ eligibleWatermark, request.updatedAt < bar.receivedAt)
    (.marketDataValidation "watermark timestamp precedes bar receipt")
  db.appendOnConnection bar eligibleWatermark false

/-- The bars of a selected batch, one after another. -/
def appendSelected (db : MarketDatabase) :
    List BarWrite → Except PlatformError (List BarWriteResult × MarketDatabase)
  | [] => .ok ([], db)
  | bar :: rest => do
      let appended ← db.appendOnConnection bar none true
      let others ← appended.2.appendSelected rest
      pure (appended.1 :: others.1, others.2)

/-- The bar comes from the canonical collector. -/
def fromCollector (bar : BarWrite) : Bool :=
  decide (bar.source = "collection_projection" ∧ bar.sourceMode = "external_provider" ∧
    bar.identity.provider = "alpaca" ∧ bar.identity.feed = "iex" ∧
    bar.identity.adjustment = "raw" ∧ bar.identity.timeframe = "1Min")

/-- `MarketDataRepository.append_selected_batch`. -/
def appendSelectedBatch (db : MarketDatabase) (bars : List BarWrite) :
    Except PlatformError (List BarWriteResult × MarketDatabase) := do
  rejectIf (1000 < bars.length)
    (.marketDataValidation "selected bar batch must be a bounded sequence")
  rejectIf (bars.all fromCollector = false)
    (.marketDataValidation "selected bars require the canonical collector boundary")
  rejectIf (¬ (bars.map fun bar => bar.identity.barIdentityId).Nodup)
    (.marketDataValidation "selected batch contains duplicate bar identities")
  db.appendSelected bars

/-! ## Transactions -/

/-- The writes of the repository. -/
inductive Write
  | append (bar : BarWrite) (eligibleWatermark : Option EligibleWatermark)
  | appendSelectedBatch (bars : List BarWrite)

/-- The bars of a write. -/
def Write.bars : Write → List BarWrite
  | .append bar _ => [bar]
  | .appendSelectedBatch bars => bars

/-- The database behind a write that succeeded. -/
def attempt (db : MarketDatabase) : Write → Except PlatformError MarketDatabase
  | .append bar eligibleWatermark => (db.append bar eligibleWatermark).map Prod.snd
  | .appendSelectedBatch bars => (db.appendSelectedBatch bars).map Prod.snd

/-- One transaction: what raises is rolled back. -/
def perform (db : MarketDatabase) (write : Write) : MarketDatabase :=
  match db.attempt write with
  | .ok after => after
  | .error _ => db

/-- One transaction after another. -/
def run (db : MarketDatabase) (writes : List Write) : MarketDatabase :=
  writes.foldl perform db

end MarketDatabase

end Verification

end AdaptiveTrader.Storage
