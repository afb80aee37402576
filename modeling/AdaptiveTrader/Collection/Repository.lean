import AdaptiveTrader.Collection.Contracts
import AdaptiveTrader.Foundation.Exec
import AdaptiveTrader.Foundation.Tables

/-!
# The market-data repository of the collector

`append_batch` is one transaction: it verifies the collector lease, inserts the observations it does
not know yet, merges them into the current-value projection (`upsertProjections`), mirrors the
selected values to the canonical tables and advances coverage checkpoints.

The canonical mirror and the JSON type of the database enter as parameters (`CollectionPlatform`).
Unique and foreign keys other than the primary keys hold by construction of the rows and are left
out, as are the columns that no statement reads.
-/

set_option autoImplicit false

namespace AdaptiveTrader

open Foundation

/-! ## Column types -/

/-- `NUMERIC(28, 12)`: twelve decimal places, a half rounded away from zero. -/
def numeric28Scale12 (q : ℚ) : ℚ :=
  (if 0 ≤ q then ⌊q * 10 ^ 12 + 1 / 2⌋ else -⌊-q * 10 ^ 12 + 1 / 2⌋ : ℤ) / 10 ^ 12

/-- At most sixteen digits remain before the point. -/
def fitsNumeric28Scale12 (q : ℚ) : Bool := decide (|numeric28Scale12 q| < 10 ^ 16)

/-- `VARCHAR(limit)`; the protocol carries no zero character. -/
def fitsText (limit : Nat) (s : String) : Bool :=
  decide (s.length ≤ limit) && !s.toList.contains (Char.ofNat 0)

/-- `BIGINT` for a nonnegative number. -/
def fitsBigint (n : Nat) : Bool := decide (n < 2 ^ 63)

/-! ## Rows -/

/-- The columns that name a bar. -/
structure BarIdentityColumns where
  identityHash : String
  provider : String
  feed : String
  adjustment : String
  symbol : String
  timeframe : String
  barTimestampUtc : Instant
  deriving DecidableEq

/-- The columns that a projection replaces together, without the observation ID. -/
structure BarValueColumns where
  contentHash : String
  schemaVersion : String
  providerEventTimestampUtc : Option Instant
  receiptTimestampUtc : Instant
  openPrice : ℚ
  high : ℚ
  low : ℚ
  close : ℚ
  volume : Nat
  tradeCount : Option Nat
  vwap : Option ℚ
  qualityFlags : List String
  source : String
  sourcePrecedence : Nat
  isCorrection : Bool
  deriving DecidableEq

/-- A row of `bar_observations`, and the mapping `_observation_row` builds for it. -/
structure ObservationRow where
  observationId : String
  identity : BarIdentityColumns
  values : BarValueColumns
  providerEventId : Option String
  rawPayloadSha256 : Option String
  rawPayload : Option String
  deriving DecidableEq

/-- A row of `current_bars`. -/
structure CurrentBar where
  identity : BarIdentityColumns
  currentObservationId : String
  values : BarValueColumns
  revision : Nat
  observationCount : Nat
  firstObservedAt : Instant
  lastObservedAt : Instant
  deriving DecidableEq

/-- The order in which the observations of one bar are ranked. -/
abbrev ObservationRank := ℕ ×ₗ Bool ×ₗ ℤ ×ₗ ℤ ×ₗ String

/-- Source precedence, correction, provider or receipt timestamp, receipt timestamp, observation
ID. -/
def BarValueColumns.rank (v : BarValueColumns) (observationId : String) : ObservationRank :=
  toLex (v.sourcePrecedence, toLex (v.isCorrection,
    toLex (v.providerEventTimestampUtc.getD v.receiptTimestampUtc,
      toLex (v.receiptTimestampUtc, observationId))))

/-- The values as the columns hold them. -/
def BarValueColumns.stored (v : BarValueColumns) : BarValueColumns :=
  { v with
    openPrice := numeric28Scale12 v.openPrice
    high := numeric28Scale12 v.high
    low := numeric28Scale12 v.low
    close := numeric28Scale12 v.close
    vwap := v.vwap.map numeric28Scale12 }

@[simp] theorem BarValueColumns.stored_receiptTimestampUtc (v : BarValueColumns) :
    v.stored.receiptTimestampUtc = v.receiptTimestampUtc := rfl

namespace ObservationRow

def rank (r : ObservationRow) : ObservationRank := r.values.rank r.observationId

def stored (r : ObservationRow) : ObservationRow := { r with values := r.values.stored }

@[simp] theorem stored_observationId (r : ObservationRow) :
    r.stored.observationId = r.observationId := rfl

@[simp] theorem stored_identity (r : ObservationRow) : r.stored.identity = r.identity := rfl

@[simp] theorem stored_values (r : ObservationRow) : r.stored.values = r.values.stored := rfl

@[simp] theorem stored_rank (r : ObservationRow) : r.stored.rank = r.rank := rfl

/-- The check constraints of `bar_observations` on the stored values. -/
def checkConstraints (v : BarValueColumns) : Bool :=
  decide (0 < v.openPrice ∧ 0 < v.high ∧ 0 < v.low ∧ 0 < v.close) &&
  decide (v.openPrice ≤ v.high ∧ v.close ≤ v.high ∧ v.low ≤ v.high) &&
  decide (v.low ≤ v.openPrice ∧ v.low ≤ v.close ∧ v.low ≤ v.high) &&
  v.vwap.all fun q => decide (0 < q)

/-- The row fits the types and passes the check constraints of its columns. -/
def accepted (jsonbAccepts : String → Bool) (r : ObservationRow) : Bool :=
  fitsText 32 r.identity.provider && fitsText 32 r.identity.feed &&
  fitsText 32 r.identity.adjustment && fitsText 32 r.identity.symbol &&
  fitsText 16 r.identity.timeframe && fitsText 64 r.values.source &&
  r.values.qualityFlags.all (fitsText 64) && r.providerEventId.all (fitsText 255) &&
  r.rawPayload.all jsonbAccepts &&
  fitsNumeric28Scale12 r.values.openPrice && fitsNumeric28Scale12 r.values.high &&
  fitsNumeric28Scale12 r.values.low && fitsNumeric28Scale12 r.values.close &&
  r.values.vwap.all fitsNumeric28Scale12 &&
  fitsBigint r.values.volume && r.values.tradeCount.all fitsBigint &&
  checkConstraints r.values.stored

end ObservationRow

namespace CurrentBar

def rank (b : CurrentBar) : ObservationRank := b.values.rank b.currentObservationId

def stored (b : CurrentBar) : CurrentBar := { b with values := b.values.stored }

end CurrentBar

/-- `_source_precedence`. -/
def sourcePrecedence (source : String) : Nat :=
  if source = "iex_bar" then 10
  else if source = "historical_backfill" then 20
  else if source = "iex_updated_bar" then 30
  else if source = "historical_reconciliation" then 40
  else 0

section Hashed

variable [ContentHasher]

namespace RawBarObservationV2

def identityColumns (o : RawBarObservationV2) : BarIdentityColumns where
  identityHash := o.identityHash
  provider := o.bar.provider
  feed := o.bar.feed
  adjustment := o.bar.adjustment
  symbol := o.bar.symbol
  timeframe := o.bar.timeframe
  barTimestampUtc := o.bar.barTimestampUtc

def valueColumns (o : RawBarObservationV2) : BarValueColumns where
  contentHash := o.contentHash
  schemaVersion := schemaVersion
  providerEventTimestampUtc := o.bar.providerEventTimestampUtc
  receiptTimestampUtc := o.bar.receiptTimestampUtc
  openPrice := o.bar.openPrice
  high := o.bar.high
  low := o.bar.low
  close := o.bar.close
  volume := o.bar.volume
  tradeCount := o.bar.tradeCount
  vwap := o.bar.vwap
  qualityFlags := o.bar.qualityFlags
  source := o.bar.source
  sourcePrecedence := sourcePrecedence o.bar.source
  isCorrection := o.isCorrection

/-- `_observation_row`. -/
def observationRow (o : RawBarObservationV2) : ObservationRow where
  observationId := o.observationId
  identity := o.identityColumns
  values := o.valueColumns
  providerEventId := o.providerEventId
  rawPayloadSha256 := o.rawPayloadSha256
  rawPayload := o.rawPayloadJson

/-- The rank of an observation among those of its bar. -/
def rank (o : RawBarObservationV2) : ObservationRank := o.valueColumns.rank o.observationId

end RawBarObservationV2

end Hashed

/-- `_projection_row`. -/
def projectionRow (row : ObservationRow) (observationCount : Nat)
    (firstObservedAt lastObservedAt : Option Instant) : CurrentBar where
  identity := row.identity
  currentObservationId := row.observationId
  values := row.values
  revision := 1
  observationCount := observationCount
  firstObservedAt := firstObservedAt.getD row.values.receiptTimestampUtc
  lastObservedAt := lastObservedAt.getD row.values.receiptTimestampUtc

/-! ## Coverage and leases -/

structure CheckpointKey where
  checkpointName : String
  provider : String
  feed : String
  adjustment : String
  symbol : String
  timeframe : String
  deriving DecidableEq

/-- The metadata of an advance; the window bounds are texts of instants. -/
structure CoverageMetadata where
  source : String
  windowStart : Option Instant
  windowEnd : Option Instant
  deriving DecidableEq

/-- A successfully queried half-open interval that ends at `committedThroughUtc`. The last bar and
the observation it came from are given together. -/
structure CoverageAdvance where
  key : CheckpointKey
  committedThroughUtc : Instant
  metadata : CoverageMetadata
  lastBarTimestampUtc : Option Instant
  lastObservationId : Option String
  lineage : lastBarTimestampUtc.isSome = lastObservationId.isSome

/-- A row of `collector_checkpoints` under its key. -/
structure CheckpointRow where
  committedThroughUtc : Option Instant
  lastBarTimestampUtc : Option Instant
  lastObservationId : Option String
  version : Nat
  holderId : String
  fencingToken : Nat
  metadata : CoverageMetadata
  deriving DecidableEq

structure LeaseToken where
  leaseName : String
  holderId : String
  fencingToken : Nat
  expiresAt : Instant
  deriving DecidableEq

/-- A row of `collector_leases` under its name. -/
structure CollectorLease where
  holderId : String
  fencingToken : Nat
  expiresAt : Instant
  deriving DecidableEq

structure BatchResult where
  received : Nat
  observationsInserted : Nat
  duplicates : Nat
  currentRowsInserted : Nat
  currentRowsRevised : Nat
  checkpointsAdvanced : Nat
  deriving DecidableEq

/-- The tables of the collector; `canonical` is the state of the canonical tables. -/
structure CollectionDb (κ : Type) where
  leases : Dict String CollectorLease
  barObservations : Dict String ObservationRow
  currentBars : Dict String CurrentBar
  checkpoints : Dict CheckpointKey CheckpointRow
  canonical : κ

/-- What the repository calls: the raw payloads that the JSON type accepts, and `mirror_current`. -/
structure CollectionPlatform (κ : Type) where
  jsonbAccepts : String → Bool
  mirrorCurrent : CollectionDb κ → List String → List CoverageAdvance → Except PlatformError κ

namespace PostgresMarketDataRepository

variable {κ : Type}

/-- `_verify_lease`. -/
def verifyLease (db : CollectionDb κ) (token : LeaseToken) (now : Instant) :
    Except PlatformError Unit :=
  rejectIf ((db.leases.get? token.leaseName).any (fun lease =>
      decide (lease.holderId = token.holderId ∧ lease.fencingToken = token.fencingToken ∧
        now < lease.expiresAt)) = false)
    (.leaseLost "The collector lease expired or was taken over")

/-! ## The projection -/

/-- The candidate of one group of observations: the last in rank order. -/
def projectionCandidate (rows : List ObservationRow) : Option CurrentBar :=
  (sortedBy ObservationRow.rank rows).getLast?.map fun winner =>
    projectionRow winner rows.length
      (rows.map fun row => row.values.receiptTimestampUtc).min?
      (rows.map fun row => row.values.receiptTimestampUtc).max?

/-- One candidate for each bar that has a new observation. -/
def projectionCandidates (rows : List ObservationRow) : List CurrentBar :=
  (rows.map fun row => row.identity.identityHash).dedup.filterMap fun identityHash =>
    projectionCandidate (rows.filter fun row => row.identity.identityHash = identityHash)

/-- `DO UPDATE` of a stored row with an excluded one. -/
def mergeProjection (current excluded : CurrentBar) : CurrentBar :=
  let candidateWins := current.rank < excluded.rank
  let contentChanged := current.values.contentHash ≠ excluded.values.contentHash
  { current with
    currentObservationId :=
      if candidateWins then excluded.currentObservationId else current.currentObservationId
    values := if candidateWins then excluded.values else current.values
    revision := current.revision + if candidateWins ∧ contentChanged then 1 else 0
    observationCount := current.observationCount + excluded.observationCount
    lastObservedAt := max current.lastObservedAt excluded.lastObservedAt }

/-- `INSERT ... ON CONFLICT (identity_hash) DO UPDATE`. -/
def upsertProjection (bars : Dict String CurrentBar) (excluded : CurrentBar) :
    Dict String CurrentBar :=
  bars.upsert mergeProjection excluded.identity.identityHash excluded

/-- `_upsert_projections`. -/
def upsertProjections (bars : Dict String CurrentBar) (rows : List ObservationRow) :
    Dict String CurrentBar :=
  (projectionCandidates rows).foldl (fun bars candidate => upsertProjection bars candidate.stored)
    bars

/-! ## Checkpoints -/

section Checkpoints

variable [ContentHasher]

/-- The last observation an advance names, or the latest of the batch before its boundary. -/
def advanceLineage (db : CollectionDb κ) (observations : List RawBarObservationV2)
    (advance : CoverageAdvance) : Except PlatformError (Option Instant × Option String) :=
  match advance.lastObservationId with
  | some id => do
      let stored ← require (db.barObservations.get? id)
        (.collectionPersistence "CoverageAdvance references an unknown last observation")
      let timestamp ← require advance.lastBarTimestampUtc
        (.collectionPersistence "CoverageAdvance last observation is missing its bar timestamp")
      rejectIf (¬ (stored.identity.provider = advance.key.provider ∧
          stored.identity.feed = advance.key.feed ∧
          stored.identity.adjustment = advance.key.adjustment ∧
          stored.identity.symbol = advance.key.symbol ∧
          stored.identity.timeframe = advance.key.timeframe ∧
          stored.identity.barTimestampUtc = timestamp))
        (.collectionPersistence
          "CoverageAdvance last observation does not match its series and timestamp")
      pure (some timestamp, some id)
  | none =>
      let eligible := observations.filter fun o =>
        decide (o.bar.provider = advance.key.provider ∧ o.bar.feed = advance.key.feed ∧
          o.bar.adjustment = advance.key.adjustment ∧ o.bar.symbol = advance.key.symbol ∧
          o.bar.timeframe = advance.key.timeframe ∧
          o.bar.barTimestampUtc < advance.committedThroughUtc)
      let latest := maxBy (fun o => toLex (o.bar.barTimestampUtc, o.rank)) eligible
      pure (latest.map fun o => o.bar.barTimestampUtc, latest.map fun o => o.observationId)

/-- The row an advance proposes. -/
def checkpointRow (db : CollectionDb κ) (observations : List RawBarObservationV2)
    (token : LeaseToken) (advance : CoverageAdvance) :
    Except PlatformError (CheckpointKey × CheckpointRow) := do
  let lineage ← advanceLineage db observations advance
  rejectIf (lineage.1.any fun timestamp => decide (advance.committedThroughUtc ≤ timestamp))
    (.valueError "CoverageAdvance last bar must precede its exclusive committed boundary")
  pure (advance.key, {
    committedThroughUtc := some advance.committedThroughUtc
    lastBarTimestampUtc := lineage.1
    lastObservationId := lineage.2
    version := 1
    holderId := token.holderId
    fencingToken := token.fencingToken
    metadata := advance.metadata })

/-- `DO UPDATE` of a stored checkpoint with an excluded one, under its `WHERE`. -/
def mergeCheckpoint (current excluded : CheckpointRow) : CheckpointRow :=
  let lastBarWins := match excluded.lastBarTimestampUtc, current.lastBarTimestampUtc with
    | none, _ => false
    | some _, none => true
    | some candidate, some stored => decide (stored ≤ candidate)
  let allowed := match current.committedThroughUtc, excluded.committedThroughUtc with
    | none, _ => true
    | some _, none => false
    | some stored, some candidate => decide (stored ≤ candidate)
  if allowed then
    { excluded with
      lastBarTimestampUtc :=
        if lastBarWins then excluded.lastBarTimestampUtc else current.lastBarTimestampUtc
      lastObservationId :=
        if lastBarWins then excluded.lastObservationId else current.lastObservationId
      version := current.version + 1 }
  else current

def upsertCheckpoint (checkpoints : Dict CheckpointKey CheckpointRow)
    (row : CheckpointKey × CheckpointRow) : Dict CheckpointKey CheckpointRow :=
  checkpoints.upsert mergeCheckpoint row.1 row.2

/-- The advance would move its checkpoint backward. -/
def regresses (db : CollectionDb κ) (advance : CoverageAdvance) : Bool :=
  (db.checkpoints.get? advance.key).any fun row =>
    row.committedThroughUtc.any fun boundary => decide (advance.committedThroughUtc < boundary)

/-- `_advance_checkpoints`. -/
def advanceCheckpoints (db : CollectionDb κ) (advances : List CoverageAdvance)
    (observations : List RawBarObservationV2) (token : LeaseToken) :
    Except PlatformError (Nat × Dict CheckpointKey CheckpointRow) := do
  rejectIf (¬ (advances.map (·.key)).Nodup)
    (.valueError "A batch cannot advance the same checkpoint more than once")
  rejectIf (advances.any (regresses db))
    (.checkpointRegression "A coverage checkpoint would move backward")
  let rows ← collect (checkpointRow db observations token) advances
  pure (advances.length, rows.foldl upsertCheckpoint db.checkpoints)

/-! ## One batch -/

/-- `{observation.observation_id: observation for observation in observations}.values()`. -/
def uniqueObservations (observations : List RawBarObservationV2) : List RawBarObservationV2 :=
  (Dict.ofValues RawBarObservationV2.observationId observations).values

/-- The rows that `ON CONFLICT DO NOTHING` inserts. -/
def insertedRows (db : CollectionDb κ) (rows : List ObservationRow) : List ObservationRow :=
  rows.filter fun row => !db.barObservations.contains row.observationId

/-- The tables after the raw observations and their projection are written. -/
def writeObservations (db : CollectionDb κ) (rows : List ObservationRow) : CollectionDb κ :=
  { db with
    barObservations := ((insertedRows db rows).map ObservationRow.stored).foldl
      (fun table row => table.set row.observationId row) db.barObservations
    currentBars := upsertProjections db.currentBars (insertedRows db rows) }

/-- `mirror_current` runs in the transaction of a canonical repository. -/
def mirrorSelected (platform : CollectionPlatform κ) (canonical : Bool) (db : CollectionDb κ)
    (identities : List String) (advances : List CoverageAdvance) : Except PlatformError κ :=
  if canonical then platform.mirrorCurrent db identities advances else .ok db.canonical

/-- The counters of a batch that inserted `inserted` into the tables `db`. -/
def batchResult (db : CollectionDb κ) (received : Nat) (inserted : List ObservationRow)
    (advanced : Nat) : BatchResult :=
  let identities := (inserted.map fun row => row.identity.identityHash).dedup
  { received := received
    observationsInserted := inserted.length
    duplicates := received - inserted.length
    currentRowsInserted := (identities.filter fun hash => !db.currentBars.contains hash).length
    currentRowsRevised := (identities.filter fun hash => db.currentBars.contains hash).length
    checkpointsAdvanced := advanced }

/-- `append_batch`; `now` is the statement time of the lease check. -/
def appendBatch (platform : CollectionPlatform κ) (canonical : Bool)
    (observations : List RawBarObservationV2) (lease : LeaseToken)
    (coverageAdvances : List CoverageAdvance) (now : Instant) :
    Exec (CollectionDb κ) PlatformError BatchResult :=
  Exec.transaction fun db => do
    let unique := uniqueObservations observations
    let rows := unique.map RawBarObservationV2.observationRow
    verifyLease db lease now
    rejectIf (rows.all (ObservationRow.accepted platform.jsonbAccepts) = false)
      (.sqlIntegrity "bar_observations")
    let inserted := insertedRows db rows
    let identities := (inserted.map fun row => row.identity.identityHash).dedup
    let written := writeObservations db rows
    let mirrored ← mirrorSelected platform canonical written identities coverageAdvances
    let advanced ← advanceCheckpoints written coverageAdvances unique lease
    pure (batchResult db observations.length inserted advanced.1,
      { written with checkpoints := advanced.2, canonical := mirrored })

end Checkpoints

end PostgresMarketDataRepository

end AdaptiveTrader
