import AdaptiveTrader.Foundation.Exec
import AdaptiveTrader.Readiness.Calendar
import AdaptiveTrader.Storage.SymbolWatermarks

/-!
# Data gaps

A gap is a run of expected intervals of one series that were missing when it was detected. It is
stored under a digest of its experiment, series and range, and goes through a lifecycle: open,
claimed for repair, resolved by exact coverage, or open again. Each operation of the repository is
one transaction that parses the stored row, checks the transition and writes a new version.

Advisory locks are left out: each transaction sees the table as the one before it left it.
-/

set_option autoImplicit false

namespace AdaptiveTrader.Readiness

open Foundation

/-! ## Series -/

structure DataSeriesFields where
  provider : String
  feed : String
  adjustment : String
  symbol : String
  timeframe : String
  deriving DecidableEq

/-- `_require_token`. -/
def requireSeriesToken (value fieldName : String) (maximumLength : Nat) :
    Except PlatformError Unit :=
  rejectIf (maximumLength < value.length ∨
      matchesHeadTail isLower isTokenTail value.length value.toList = false)
    (.readinessValidation ("data-series " ++ fieldName ++ " is invalid"))

/-- `DataSeries.__post_init__`. -/
def DataSeriesFields.check (s : DataSeriesFields) : Except PlatformError Unit := do
  requireSeriesToken s.provider "provider" 32
  requireSeriesToken s.feed "feed" 16
  requireSeriesToken s.adjustment "adjustment" 16
  rejectIf (s.provider ≠ "alpaca" ∧ s.provider ≠ "fixture")
    (.readinessValidation "data-series provider is unsupported")
  rejectIf (s.feed ≠ "iex")
    (.readinessValidation "data-series feed must be exact IEX without fallback")
  rejectIf (s.adjustment ≠ "raw") (.readinessValidation "data-series adjustment must be raw")
  rejectIf (isSymbol s.symbol = false) (.readinessValidation "data-series symbol is invalid")
  rejectIf (timeframeDuration s.timeframe = none)
    (.readinessValidation "data-series timeframe is unsupported")

/-- Exact provider identity used for gaps and contiguous readiness. -/
structure DataSeries extends DataSeriesFields where
  checked : toDataSeriesFields.check = .ok ()
  deriving DecidableEq

/-- `hash_input`. -/
def DataSeriesFields.hashInput (s : DataSeriesFields) : List String :=
  [s.provider, s.feed, s.adjustment, s.symbol, s.timeframe]

/-! ## Checks -/

/-- `_require_hash`. -/
def requireReadinessHash (value fieldName : String) : Except PlatformError Unit :=
  rejectIf (isSha256 value = false) (.readinessValidation (fieldName ++ " is invalid"))

/-- `_require_utc_range`. -/
def requireUtcRange (startAt endAt : Instant) : Except PlatformError Unit :=
  rejectIf (endAt ≤ startAt) (.readinessValidation "data interval must have positive duration")

/-- `^[a-z][a-z0-9_.-]{0,63}$`. -/
def isReasonCode (s : String) : Bool := matchesHeadTail isLower isTokenTail 63 s.toList

/-- The order of intervals. -/
def TradingInterval.key (i : TradingInterval) : Instant ×ₗ Instant := toLex (i.startAt, i.endAt)

/-- `_require_interval_sequence`. -/
def requireIntervalSequence (values : List TradingInterval) (timeframe : String) :
    Except PlatformError Unit := do
  let duration ← require (timeframeDuration timeframe)
    (.readinessValidation "data-series timeframe is unsupported")
  rejectIf (∃ i ∈ values, i.endAt - i.startAt ≠ duration)
    (.readinessValidation "trading intervals do not match their timeframe")
  rejectIf (values.map TradingInterval.key ≠ sortedSet (values.map TradingInterval.key))
    (.readinessValidation "trading intervals must be uniquely ordered")

/-! ## Detections -/

section Identity

variable [ContentHasher]

/-- `_gap_id`. -/
def gapId (experimentHash : String) (series : DataSeriesFields) (startAt endAt : Instant) : String :=
  deterministicIdFromHashInput "gap" (.seq
    (.text experimentHash :: series.hashInput.map Canonical.text ++ [.instant startAt, .instant endAt]))

end Identity

structure GapDetectionFields where
  experimentHash : String
  series : DataSeries
  startAt : Instant
  endAt : Instant
  reasonCode : String
  detectedAt : Instant
  deriving DecidableEq

/-- `GapDetection.__post_init__`. -/
def GapDetectionFields.check (d : GapDetectionFields) : Except PlatformError Unit := do
  requireReadinessHash d.experimentHash "experiment hash"
  requireUtcRange d.startAt d.endAt
  rejectIf (isReasonCode d.reasonCode = false) (.readinessValidation "gap reason code is invalid")
  rejectIf (d.detectedAt < d.endAt)
    (.readinessValidation "gap cannot be detected before its interval ends")

/-- A contiguous, same-session group of expected intervals missing from storage. -/
structure GapDetection extends GapDetectionFields where
  checked : toGapDetectionFields.check = .ok ()
  deriving DecidableEq

def GapDetection.gapId [ContentHasher] (d : GapDetection) : String :=
  Readiness.gapId d.experimentHash d.series.toDataSeriesFields d.startAt d.endAt

/-- One interval ends where the other starts. -/
def TradingInterval.Touches (a b : TradingInterval) : Prop := a.endAt = b.startAt

instance : DecidableRel TradingInterval.Touches := fun _ _ => inferInstanceAs (Decidable (_ = _))

/-- `_contiguous_groups`. -/
def contiguousGroups (intervals : List TradingInterval) : List (List TradingInterval) :=
  intervals.splitBy fun a b => decide (a.Touches b)

/-- The detection of a group of missing intervals. -/
def detectionOf (experimentHash : String) (series : DataSeries) (reasonCode : String)
    (detectedAt : Instant) (group : List TradingInterval) : Except PlatformError GapDetection := do
  let first ← require group.head? (.external "IndexError")
  let last ← require group.getLast? (.external "IndexError")
  validated GapDetectionFields.check
    ⟨experimentHash, series, first.startAt, last.endAt, reasonCode, detectedAt⟩ fun h => ⟨_, h⟩

/-- `detect_data_gaps`. -/
def detectDataGaps (schedule : ExchangeSchedule) (experimentHash : String) (series : DataSeries)
    (startAt endAt : Instant) (observed : List TradingInterval) (detectedAt : Instant)
    (reasonCode : String) : Except PlatformError (List GapDetection) := do
  requireReadinessHash experimentHash "experiment hash"
  requireUtcRange startAt endAt
  rejectIf (detectedAt < endAt)
    (.readinessValidation "gap detection cannot precede the inspected range")
  rejectIf (isReasonCode reasonCode = false) (.readinessValidation "gap reason code is invalid")
  let expected ← schedule.expectedIntervals startAt endAt series.timeframe
  requireIntervalSequence observed series.timeframe
  rejectIf (∃ i ∈ observed, i ∉ expected)
    (.readinessValidation "observed interval is not expected by the exchange calendar")
  let missing := expected.filter fun i => i ∉ observed
  collect (detectionOf experimentHash series reasonCode detectedAt) (contiguousGroups missing)

/-- The reason that the callers of `detect_data_gaps` leave to it. -/
def missingExpectedBar : String := "missing_expected_bar"

/-! ## Gaps -/

/-- `GapStatus`; `opened` is `OPEN`. -/
inductive GapStatus
  | opened
  | repairing
  | resolved
  | waived
  deriving DecidableEq

namespace GapStatus

def value : GapStatus → String
  | opened => "open"
  | repairing => "repairing"
  | resolved => "resolved"
  | waived => "waived"

/-- `unresolved`. -/
def Unresolved (status : GapStatus) : Prop := status = opened ∨ status = repairing

instance (status : GapStatus) : Decidable status.Unresolved :=
  inferInstanceAs (Decidable (_ ∨ _))

end GapStatus

structure DataGapFields where
  gapId : String
  experimentHash : String
  series : DataSeries
  startAt : Instant
  endAt : Instant
  status : GapStatus
  reasonCode : String
  attemptCount : Int
  detectedAt : Instant
  lastAttemptAt : Option Instant
  resolvedAt : Option Instant
  contentHash : String
  version : Int
  deriving DecidableEq

/-- `_MAX_SIGNED_32_BIT_INTEGER`. -/
def maxSigned32BitInteger : Int := 2 ^ 31 - 1

section Gaps

variable [ContentHasher]

/-- `_gap_content_hash`. -/
def gapContentHash (g : DataGapFields) : String :=
  sha256Hex (.seq [.text "data_gap_state_v1", .text g.gapId, .text g.experimentHash,
    .texts g.series.hashInput, .instant g.startAt, .instant g.endAt, .text g.status.value,
    .text g.reasonCode, .int g.attemptCount, .instant g.detectedAt,
    .optional .instant g.lastAttemptAt, .optional .instant g.resolvedAt, .int g.version])

/-- `DataGap.__post_init__`. -/
def DataGapFields.check (g : DataGapFields) : Except PlatformError Unit := do
  requireReadinessHash g.experimentHash "experiment hash"
  requireUtcRange g.startAt g.endAt
  rejectIf (isReasonCode g.reasonCode = false)
    (.readinessIntegrity "persisted gap reason is invalid")
  rejectIf (g.attemptCount < 0 ∨ maxSigned32BitInteger < g.attemptCount)
    (.readinessIntegrity "persisted gap attempt count is invalid")
  rejectIf (g.version < 1 ∨ (maxSigned64BitInteger : Int) < g.version)
    (.readinessIntegrity "persisted gap version is invalid")
  rejectIf (g.detectedAt < g.endAt)
    (.readinessIntegrity "persisted gap predates its missing interval")
  rejectIf (g.attemptCount = 0 ∧ g.lastAttemptAt ≠ none)
    (.readinessIntegrity "unattempted gap has a repair timestamp")
  rejectIf (0 < g.attemptCount ∧ g.lastAttemptAt = none)
    (.readinessIntegrity "attempted gap is missing its repair timestamp")
  rejectIf (∃ lastAttempt ∈ g.lastAttemptAt, lastAttempt < g.detectedAt)
    (.readinessIntegrity "gap repair timestamp precedes detection")
  if g.status = .resolved then
    rejectIf (¬ ∃ resolved ∈ g.resolvedAt, ∃ lastAttempt ∈ g.lastAttemptAt, lastAttempt ≤ resolved)
      (.readinessIntegrity "resolved gap timestamps are inconsistent")
  else
    rejectIf (g.resolvedAt ≠ none)
      (.readinessIntegrity "unresolved gap has a resolution timestamp")
  rejectIf (g.gapId ≠ Readiness.gapId g.experimentHash g.series.toDataSeriesFields g.startAt g.endAt)
    (.readinessIntegrity "persisted gap identity is invalid")
  rejectIf (isSha256 g.contentHash = false ∨ g.contentHash ≠ gapContentHash g)
    (.readinessIntegrity "persisted gap content hash is invalid")

/-- Validated durable state for a missing range and its repair attempts. -/
structure DataGap extends DataGapFields where
  checked : toDataGapFields.check = .ok ()
  deriving DecidableEq

/-- A gap with the content hash of its fields. -/
def hashedGap (g : DataGapFields) : Except PlatformError DataGap :=
  validated DataGapFields.check { g with contentHash := gapContentHash g } fun h => ⟨_, h⟩

/-- `_new_gap`. -/
def newGap (d : GapDetection) : Except PlatformError DataGap :=
  hashedGap ⟨d.gapId, d.experimentHash, d.series, d.startAt, d.endAt, .opened, d.reasonCode, 0,
    d.detectedAt, none, none, "", 1⟩

/-- `_replace_gap`. -/
def replaceGap (g : DataGap) (status : GapStatus) (attemptCount : Int)
    (lastAttemptAt resolvedAt : Option Instant) : Except PlatformError DataGap :=
  hashedGap { g with
    status := status
    attemptCount := attemptCount
    lastAttemptAt := lastAttemptAt
    resolvedAt := resolvedAt
    version := g.version + 1 }

end Gaps

/-! ## Repair coverage -/

structure GapRepairCoverageFields where
  series : DataSeries
  startAt : Instant
  endAt : Instant
  observedIntervals : List TradingInterval
  completedAt : Instant
  unambiguous : Bool
  deriving DecidableEq

/-- `GapRepairCoverage.__post_init__`. -/
def GapRepairCoverageFields.check (c : GapRepairCoverageFields) : Except PlatformError Unit := do
  requireUtcRange c.startAt c.endAt
  requireIntervalSequence c.observedIntervals c.series.timeframe

/-- Bounded repair result; exact identity prevents feed or adjustment drift. -/
structure GapRepairCoverage extends GapRepairCoverageFields where
  checked : toGapRepairCoverageFields.check = .ok ()

/-! ## The table -/

/-- The columns of `aqa_data_gaps` beside the ID; a constraint restricts the status. -/
structure GapRow where
  experimentHash : String
  series : DataSeriesFields
  gapStartAt : Instant
  gapEndAt : Instant
  status : GapStatus
  reasonCode : String
  attemptCount : Int
  detectedAt : Instant
  lastAttemptAt : Option Instant
  resolvedAt : Option Instant
  contentHash : String
  version : Int
  deriving DecidableEq

/-- The market-data tables and the gaps beside them. -/
structure PlatformDatabase extends Storage.MarketDatabase where
  gaps : Dict String GapRow := Dict.empty

/-- A value that a row cannot have is a defect of the row. -/
def orMalformedGap {α : Type} : Except PlatformError α → Except PlatformError α
  | .error (.readinessValidation _) => .error (.readinessIntegrity "persisted gap is malformed")
  | outcome => outcome

@[simp] theorem orMalformedGap_eq_ok {α : Type} {x : Except PlatformError α} {a : α} :
    orMalformedGap x = .ok a ↔ x = .ok a := by
  unfold orMalformedGap
  split <;> simp

/-- The columns of the row that identify the gap. -/
def GapRow.identity (row : GapRow) : String × DataSeriesFields × Instant × Instant :=
  (row.experimentHash, row.series, row.gapStartAt, row.gapEndAt)

section Repository

variable [ContentHasher]

/-- The columns that `_gap_values` fills. -/
def gapRow (g : DataGap) : GapRow where
  experimentHash := g.experimentHash
  series := g.series.toDataSeriesFields
  gapStartAt := g.startAt
  gapEndAt := g.endAt
  status := g.status
  reasonCode := g.reasonCode
  attemptCount := g.attemptCount
  detectedAt := g.detectedAt
  lastAttemptAt := g.lastAttemptAt
  resolvedAt := g.resolvedAt
  contentHash := g.contentHash
  version := g.version

/-- `_gap_from_row`. -/
def gapFromRow (id : String) (row : GapRow) : Except PlatformError DataGap :=
  orMalformedGap (do
    let series ← validated DataSeriesFields.check row.series fun h => (⟨_, h⟩ : DataSeries)
    validated DataGapFields.check
      ⟨id, row.experimentHash, series, row.gapStartAt, row.gapEndAt, row.status, row.reasonCode,
        row.attemptCount, row.detectedAt, row.lastAttemptAt, row.resolvedAt, row.contentHash,
        row.version⟩ fun h => ⟨_, h⟩)

namespace PlatformDatabase

/-- `_select`. -/
def selectGap (db : PlatformDatabase) (id : String) : Except PlatformError (Option DataGap) :=
  match db.gaps.get? id with
  | none => .ok none
  | some row => (gapFromRow id row).map some

/-- `_required`. -/
def requiredGap (db : PlatformDatabase) (id : String) : Except PlatformError DataGap := do
  let selected ← db.selectGap id
  require selected (.readinessValidation "gap does not exist")

/-- Insert a gap: its experiment exists, and no other row has its series and range. -/
def insertGap (db : PlatformDatabase) (g : DataGap) : Except PlatformError PlatformDatabase := do
  rejectIf (g.experimentHash ∉ db.experiments ∨
      ∃ e ∈ db.gaps.entries, e.2.identity = (gapRow g).identity)
    (.readinessPersistence "gap write lost its idempotency race")
  pure { db with gaps := db.gaps.set g.gapId (gapRow g) }

/-- `_update`: replace a gap that still has the version that was read. -/
def updateGap (db : PlatformDatabase) (current changed : DataGap) :
    Except PlatformError PlatformDatabase := do
  let gaps ← require (db.gaps.compareAndSet current.gapId
      (fun stored => decide (stored.version = current.version)) (gapRow changed))
    (.readinessPersistence "gap update lost its concurrency fence")
  pure { db with gaps := gaps }

/-- The stream in which the states of a gap are recorded. -/
def gapStream (id : String) : String := "aqa_collector:gap:" ++ id

def gapPayload (g : DataGap) : List (String × Canonical) :=
  [("adjustment", .text g.series.adjustment),
    ("content_hash", .text g.contentHash),
    ("feed", .text g.series.feed),
    ("gap_id", .text g.gapId),
    ("idempotency_key", .text ("gap_state_" ++ g.contentHash)),
    ("provider", .text g.series.provider),
    ("reason_code", .text g.reasonCode),
    ("status", .text g.status.value),
    ("symbol", .text g.series.symbol),
    ("version", .int g.version)]

/-- `_audit_gap`. -/
def auditGap (db : PlatformDatabase) (g : DataGap) (eventType : String)
    (occurredAt : Option Instant) : Except PlatformError PlatformDatabase := do
  let payload ← AuditPayload.fromMapping (gapPayload g)
  let at' := (occurredAt <|> g.resolvedAt <|> g.lastAttemptAt).getD g.detectedAt
  let events ← appendAudit (some .collector) (gapStream g.gapId) eventType at' payload db.auditEvents
  pure { db with auditEvents := events }

/-- Write a changed gap and its audit event. -/
def changeGap (db : PlatformDatabase) (current : DataGap) (changed : DataGap) (eventType : String)
    (occurredAt : Option Instant) : Except PlatformError (DataGap × PlatformDatabase) := do
  let db ← db.updateGap current changed
  let db ← db.auditGap changed eventType occurredAt
  pure (changed, db)

/-- `list_unresolved` of a series. -/
def listUnresolved (db : PlatformDatabase) (experimentHash : String) (series : DataSeries) :
    Except PlatformError (List DataGap) := do
  requireReadinessHash experimentHash "experiment hash"
  let rows := db.gaps.entries.filter fun e =>
    e.2.experimentHash = experimentHash ∧ e.2.status.Unresolved ∧
      e.2.series = series.toDataSeriesFields
  collect (fun e => gapFromRow e.1 e.2) (sortedBy (fun e => toLex (e.2.gapStartAt, e.1)) rows)

end PlatformDatabase

/-! ## Operations -/

/-- `_require_contiguous_calendar_range`. -/
def requireContiguousCalendarRange (schedule : ExchangeSchedule) (series : DataSeries)
    (startAt endAt : Instant) : Except PlatformError (List TradingInterval) := do
  let expected ← schedule.expectedIntervals startAt endAt series.timeframe
  rejectIf (expected.head?.map (·.startAt) ≠ some startAt ∨
      expected.getLast?.map (·.endAt) ≠ some endAt ∨
      ¬ expected.IsChain TradingInterval.Touches)
    (.readinessValidation
      "gap must contain only contiguous expected intervals from one market session")
  pure expected

/-- The stored gap is the detected one. -/
def SameDetection (current : DataGap) (d : GapDetection) : Prop :=
  current.experimentHash = d.experimentHash ∧ current.series = d.series ∧
    current.startAt = d.startAt ∧ current.endAt = d.endAt ∧ current.reasonCode = d.reasonCode

instance (current : DataGap) (d : GapDetection) : Decidable (SameDetection current d) :=
  inferInstanceAs (Decidable (_ ∧ _))

/-- `GapRepository.record`. -/
def recordGap (schedule : ExchangeSchedule) (d : GapDetection) (db : PlatformDatabase) :
    Except PlatformError (DataGap × PlatformDatabase) := do
  let _ ← requireContiguousCalendarRange schedule d.series d.startAt d.endAt
  let selected ← db.selectGap d.gapId
  match selected with
  | some current => do
      rejectIf (¬ SameDetection current d)
        (.readinessIntegrity "gap identity collides with different content")
      pure (current, db)
  | none => do
      let gap ← newGap d
      let db ← db.insertGap gap
      let db ← db.auditGap gap "gap.detected" none
      pure (gap, db)

/-- `_require_gap_id`. -/
def requireGapId (id : String) : Except PlatformError Unit :=
  rejectIf (isPrefixedDigest "gap" id = false) (.readinessValidation "gap ID is invalid")

/-- The claim of an open gap. -/
def claimOpen (current : DataGap) (attemptedAt : Instant) : Except PlatformError DataGap := do
  rejectIf (attemptedAt < current.detectedAt)
    (.readinessValidation "repair attempt precedes gap detection")
  rejectIf (maxSigned32BitInteger ≤ current.attemptCount)
    (.readinessIntegrity "gap repair attempt capacity is exhausted")
  rejectIf ((maxSigned64BitInteger : Int) ≤ current.version)
    (.readinessIntegrity "gap version capacity is exhausted")
  replaceGap current .repairing (current.attemptCount + 1) (some attemptedAt) none

/-- `GapRepository.begin_repair`. -/
def beginRepair (id : String) (attemptedAt : Instant) (db : PlatformDatabase) :
    Except PlatformError (DataGap × PlatformDatabase) := do
  requireGapId id
  let current ← db.requiredGap id
  match current.status with
  | .resolved => pure (current, db)
  | .waived => .error (.readinessValidation "waived gap cannot be repaired")
  | .repairing => do
      rejectIf (current.lastAttemptAt ≠ some attemptedAt)
        (.readinessValidation "gap already has an active repair attempt")
      pure (current, db)
  | .opened => do
      let changed ← claimOpen current attemptedAt
      db.changeGap current changed "gap.repair_started" none

/-- The outcome of the repair of a claimed gap. -/
def finishRepair (current : DataGap) (completedAt : Instant) (complete : Bool) :
    Except PlatformError DataGap := do
  rejectIf (¬ ∃ attempt ∈ current.lastAttemptAt, attempt ≤ completedAt)
    (.readinessValidation "repair completion precedes its attempt")
  rejectIf ((maxSigned64BitInteger : Int) ≤ current.version)
    (.readinessIntegrity "gap version capacity is exhausted")
  replaceGap current (if complete = true then .resolved else .opened) current.attemptCount
    current.lastAttemptAt (if complete = true then some completedAt else none)

/-- `GapRepository.complete_repair`. -/
def completeRepair (schedule : ExchangeSchedule) (id : String) (coverage : GapRepairCoverage)
    (db : PlatformDatabase) : Except PlatformError (DataGap × PlatformDatabase) := do
  requireGapId id
  let current ← db.requiredGap id
  rejectIf (coverage.series ≠ current.series ∨ coverage.startAt ≠ current.startAt ∨
      coverage.endAt ≠ current.endAt)
    (.readinessValidation
      "repair must preserve provider, feed, adjustment, symbol, timeframe, and interval")
  let expected ← schedule.expectedIntervals current.startAt current.endAt current.series.timeframe
  let complete := coverage.unambiguous && decide (coverage.observedIntervals = expected)
  match current.status with
  | .resolved => do
      rejectIf (complete = false)
        (.readinessValidation "resolved gap cannot accept incomplete coverage")
      pure (current, db)
  | .repairing => do
      let changed ← finishRepair current coverage.completedAt complete
      db.changeGap current changed (if complete = true then "gap.resolved" else "gap.reopened") none
  | _ => .error (.readinessValidation "gap repair must be claimed before completion")

/-- The release of an interrupted claim. -/
def releaseClaim (current : DataGap) (reopenedAt : Instant) : Except PlatformError DataGap := do
  rejectIf (¬ ∃ attempt ∈ current.lastAttemptAt, attempt ≤ reopenedAt)
    (.readinessValidation "gap reopen timestamp precedes its attempt")
  rejectIf ((maxSigned64BitInteger : Int) ≤ current.version)
    (.readinessIntegrity "gap version capacity is exhausted")
  replaceGap current .opened current.attemptCount current.lastAttemptAt none

/-- `GapRepository.reopen_interrupted`. -/
def reopenInterrupted (id : String) (reopenedAt : Instant) (db : PlatformDatabase) :
    Except PlatformError (DataGap × PlatformDatabase) := do
  requireGapId id
  let current ← db.requiredGap id
  match current.status with
  | .opened => pure (current, db)
  | .repairing => do
      let changed ← releaseClaim current reopenedAt
      db.changeGap current changed "gap.reopened" (some reopenedAt)
  | _ => .error (.readinessValidation "only an active repair claim can be reopened")

end Repository

/-! ## What the operations leave -/

section Effects

variable [ContentHasher]

theorem hashedGap_eq_ok {g : DataGapFields} {gap : DataGap} (h : hashedGap g = .ok gap) :
    gap.toDataGapFields = { g with contentHash := gapContentHash g } := by
  obtain ⟨_, rfl⟩ := validated_eq_ok.1 h
  rfl

/-- A row that parses is the row of its gap. -/
theorem gapFromRow_eq_ok {id : String} {row : GapRow} {gap : DataGap}
    (h : gapFromRow id row = .ok gap) : gap.gapId = id ∧ gapRow gap = row := by
  simp only [gapFromRow, orMalformedGap_eq_ok, bind_eq_ok, validated_eq_ok] at h
  obtain ⟨series, ⟨_, rfl⟩, _, rfl⟩ := h
  exact ⟨rfl, rfl⟩

theorem requiredGap_eq_ok {db : PlatformDatabase} {id : String} {gap : DataGap}
    (h : db.requiredGap id = .ok gap) : gap.gapId = id ∧ db.gaps.get? id = some (gapRow gap) := by
  simp only [PlatformDatabase.requiredGap, bind_eq_ok, require_eq_ok] at h
  obtain ⟨selected, hselected, rfl⟩ := h
  unfold PlatformDatabase.selectGap at hselected
  split at hselected
  · cases hselected
  · next row hrow =>
      obtain ⟨parsed, hparsed, hsome⟩ := map_eq_ok.1 hselected
      cases hsome
      obtain ⟨hid, hparsed⟩ := gapFromRow_eq_ok hparsed
      exact ⟨hid, hparsed.symm ▸ hrow⟩

theorem auditGap_gaps {db db' : PlatformDatabase} {gap : DataGap} {eventType : String}
    {occurredAt : Option Instant} (h : db.auditGap gap eventType occurredAt = .ok db') :
    db'.gaps = db.gaps := by
  simp only [PlatformDatabase.auditGap, bind_eq_ok, pure_eq_ok] at h
  obtain ⟨_, _, _, _, rfl⟩ := h
  rfl

/-- The row of one gap before and after an operation; the other rows stay. -/
structure Rewrites (id : String) (row row' : GapRow) (db db' : PlatformDatabase) : Prop where
  before : db.gaps.get? id = some row
  after : db'.gaps.get? id = some row'
  others : ∀ k, k ≠ id → db'.gaps.get? k = db.gaps.get? k
  identity : row'.identity = row.identity

omit [ContentHasher] in
/-- An operation that leaves the table as it is. -/
theorem Rewrites.same {id : String} {row : GapRow} {db : PlatformDatabase}
    (h : db.gaps.get? id = some row) : Rewrites id row row db db :=
  ⟨h, h, fun _ _ => rfl, rfl⟩

theorem changeGap_eq_ok {db : PlatformDatabase} {current changed : DataGap} {eventType : String}
    {occurredAt : Option Instant} {result : DataGap × PlatformDatabase}
    (hrow : db.gaps.get? current.gapId = some (gapRow current))
    (hidentity : (gapRow changed).identity = (gapRow current).identity)
    (h : db.changeGap current changed eventType occurredAt = .ok result) :
    Rewrites current.gapId (gapRow current) (gapRow changed) db result.2 := by
  simp only [PlatformDatabase.changeGap, PlatformDatabase.updateGap, bind_eq_ok, require_eq_ok,
    pure_eq_ok, Dict.compareAndSet_eq_some] at h
  obtain ⟨updated, ⟨gaps, ⟨_, _, _, rfl⟩, rfl⟩, audited, haudited, rfl⟩ := h
  have hgaps := auditGap_gaps haudited
  refine ⟨hrow, ?_, fun k hk => ?_, hidentity⟩
  · rw [hgaps]
    exact Dict.get?_set_self ..
  · rw [hgaps]
    exact Dict.get?_set_of_ne _ _ hk

theorem replaceGap_eq_ok {g changed : DataGap} {status : GapStatus} {attemptCount : Int}
    {lastAttemptAt resolvedAt : Option Instant}
    (h : replaceGap g status attemptCount lastAttemptAt resolvedAt = .ok changed) :
    (gapRow changed).identity = (gapRow g).identity ∧ (gapRow changed).status = status := by
  have hfields := hashedGap_eq_ok h
  simp only [GapRow.identity, gapRow, hfields, and_self]

/-- After `begin_repair` an unresolved gap is claimed. -/
theorem beginRepair_eq_ok {id : String} {attemptedAt : Instant} {db : PlatformDatabase}
    {result : DataGap × PlatformDatabase} (h : beginRepair id attemptedAt db = .ok result) :
    ∃ row row', Rewrites id row row' db result.2 ∧
      (row' = row ∨ (row.status = .opened ∧ row'.status = .repairing)) := by
  simp only [beginRepair, unit_bind_eq_ok] at h
  obtain ⟨-, h⟩ := h
  rw [bind_eq_ok] at h
  obtain ⟨current, hcurrent, h⟩ := h
  obtain ⟨rfl, hrow⟩ := requiredGap_eq_ok hcurrent
  split at h
  · cases h
    exact ⟨_, _, .same hrow, Or.inl rfl⟩
  · cases h
  · obtain ⟨-, h⟩ := rejectIf_bind_eq_ok.1 h
    cases h
    exact ⟨_, _, .same hrow, Or.inl rfl⟩
  · next hopen =>
      obtain ⟨changed, hchanged, h⟩ := bind_eq_ok.1 h
      simp only [claimOpen, rejectIf_bind_eq_ok] at hchanged
      obtain ⟨-, -, -, hchanged⟩ := hchanged
      obtain ⟨hidentity, hstatus⟩ := replaceGap_eq_ok hchanged
      exact ⟨_, _, changeGap_eq_ok hrow hidentity h, Or.inr ⟨hopen, hstatus⟩⟩

/-- `complete_repair` resolves a gap exactly when the coverage is the expected one. -/
theorem completeRepair_eq_ok {schedule : ExchangeSchedule} {id : String}
    {coverage : GapRepairCoverage} {db : PlatformDatabase} {result : DataGap × PlatformDatabase}
    (h : completeRepair schedule id coverage db = .ok result) :
    ∃ row row' expected, Rewrites id row row' db result.2 ∧
      coverage.startAt = row.gapStartAt ∧ coverage.endAt = row.gapEndAt ∧
      schedule.expectedIntervals row.gapStartAt row.gapEndAt coverage.series.timeframe
        = .ok expected ∧
      (row'.status = .resolved ↔
        coverage.unambiguous = true ∧ coverage.observedIntervals = expected) ∧
      (row'.status = .resolved ∨ row'.status = .opened) := by
  simp only [completeRepair, unit_bind_eq_ok] at h
  obtain ⟨-, h⟩ := h
  obtain ⟨current, hcurrent, h⟩ := bind_eq_ok.1 h
  obtain ⟨hmatch, h⟩ := rejectIf_bind_eq_ok.1 h
  obtain ⟨expected, hexpected, houtcome⟩ := bind_eq_ok.1 h
  obtain ⟨rfl, hrow⟩ := requiredGap_eq_ok hcurrent
  simp only [not_or, not_not] at hmatch
  obtain ⟨hseries, hstart, hend⟩ := hmatch
  rw [← hseries] at hexpected
  have hcomplete : (coverage.unambiguous && decide (coverage.observedIntervals = expected)) = true ↔
      coverage.unambiguous = true ∧ coverage.observedIntervals = expected := by
    rw [Bool.and_eq_true, decide_eq_true_iff]
  split at houtcome
  · next hresolved =>
      obtain ⟨hcovered, hsame⟩ := rejectIf_bind_eq_ok.1 houtcome
      cases hsame
      refine ⟨_, _, expected, .same hrow, hstart, hend, hexpected, ?_, Or.inl hresolved⟩
      exact ⟨fun _ => hcomplete.1 (Bool.not_eq_false _ ▸ hcovered), fun _ => hresolved⟩
  · obtain ⟨changed, hchanged, hwrite⟩ := bind_eq_ok.1 houtcome
    simp only [finishRepair, rejectIf_bind_eq_ok] at hchanged
    obtain ⟨-, -, hchanged⟩ := hchanged
    obtain ⟨hidentity, hstatus⟩ := replaceGap_eq_ok hchanged
    refine ⟨_, _, expected, changeGap_eq_ok hrow hidentity hwrite, hstart, hend, hexpected, ?_, ?_⟩
    · rw [hstatus, ← hcomplete]
      split <;> simp [*]
    · rw [hstatus]
      split
      · exact Or.inl rfl
      · exact Or.inr rfl
  · cases houtcome

/-- `record` finds the detected gap or inserts it as open. -/
theorem recordGap_eq_ok {schedule : ExchangeSchedule} {d : GapDetection} {db : PlatformDatabase}
    {result : DataGap × PlatformDatabase} (h : recordGap schedule d db = .ok result) :
    ∃ row, result.2.gaps.get? d.gapId = some row ∧
      row.identity = (d.experimentHash, d.series.toDataSeriesFields, d.startAt, d.endAt) ∧
      (result.2 = db ∨ (db.gaps.get? d.gapId = none ∧ row.status = .opened ∧
        ∀ k, k ≠ d.gapId → result.2.gaps.get? k = db.gaps.get? k)) := by
  simp only [recordGap, bind_eq_ok] at h
  obtain ⟨_, -, selected, hselected, h⟩ := h
  cases selected with
  | some current =>
      obtain ⟨hsame, h⟩ := rejectIf_bind_eq_ok.1 h
      cases h
      obtain ⟨hexperiment, hseries, hstart, hend, -⟩ := not_not.1 hsame
      have hrequired : db.requiredGap d.gapId = .ok current := by
        rw [PlatformDatabase.requiredGap, hselected]
        rfl
      obtain ⟨-, hrow⟩ := requiredGap_eq_ok hrequired
      refine ⟨_, hrow, ?_, Or.inl rfl⟩
      simp only [GapRow.identity, gapRow, hexperiment, hseries, hstart, hend]
  | none =>
      have hfresh : db.gaps.get? d.gapId = none := by
        unfold PlatformDatabase.selectGap at hselected
        split at hselected
        · assumption
        · obtain ⟨_, -, hsome⟩ := map_eq_ok.1 hselected
          cases hsome
      simp only [bind_eq_ok, PlatformDatabase.insertGap, pure_eq_ok] at h
      obtain ⟨gap, hgap, _, ⟨_, -, rfl⟩, audited, haudited, rfl⟩ := h
      have hgaps := auditGap_gaps haudited
      have hfields := hashedGap_eq_ok hgap
      have hid : gap.gapId = d.gapId := by rw [hfields]
      simp only [hid] at hgaps
      refine ⟨gapRow gap, ?_, ?_, Or.inr ⟨hfresh, ?_, fun k hk => ?_⟩⟩
      · rw [hgaps]
        exact Dict.get?_set_self ..
      · simp only [GapRow.identity, gapRow, hfields]
      · simp only [gapRow, hfields]
      · rw [hgaps]
        exact Dict.get?_set_of_ne _ _ hk

end Effects

end AdaptiveTrader.Readiness
