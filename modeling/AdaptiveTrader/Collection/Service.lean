import AdaptiveTrader.Collection.Repository
import AdaptiveTrader.Foundation.Programs

/-!
# The collector loop

Reconciliation fetches the history between the earliest coverage checkpoint and the completed-bar
cutoff, session by session and symbol batch by symbol batch, stores what it fetched and advances the
checkpoints of the batch. Gap repair does the same for one recorded gap window.

Both are programs of atomic calls: reads of the clock and of the lease, requests to the provider and
database transactions. Between two calls everything outside may change: the clock, the shutdown flag,
the lease, what the provider answers and whether the next transaction fails. A finished request is
kept in a history (`fetches`) that no program reads.
-/

set_option autoImplicit false

namespace AdaptiveTrader

open Foundation

/-- `COLLECTION_UNIVERSE_V1.symbols`. -/
def collectionUniverseSymbols : List String :=
  ["TSLA", "UBER", "GOOGL", "NVDA", "AMZN", "AAPL", "META", "AMD", "CSCO", "NET", "OKTA", "ROKU",
    "BOX", "ZG", "RBLX", "SOUN", "PUBM", "HLIT", "PAYC", "WDAY", "SNDK", "RIVN", "LCID", "AAOI",
    "AXTI", "INSG", "SPY", "QQQ", "SOXX"]

/-- A number of minutes as a duration. -/
def minutes (n : Int) : Int := seconds (60 * n)

theorem minutes_nonneg (n : Nat) : 0 ≤ minutes n := by
  unfold minutes seconds
  positivity

/-- `values[offset : offset + size] for offset in range(0, len(values), size)`. -/
def slices {α : Type} (size : Nat) (values : List α) : List (List α) :=
  (List.range ((values.length + size - 1) / size)).map fun i => (values.drop (i * size)).take size

structure CollectorServiceConfigFields where
  checkpointName : String
  reconciliationOverlapMinutes : Nat
  completedBarLagMinutes : Nat
  apiSymbolBatchSize : Nat
  databaseBatchSize : Nat
  restMaxAttempts : Nat
  deriving DecidableEq

/-- `CollectorServiceConfig.__post_init__` on these fields. -/
def CollectorServiceConfigFields.check (c : CollectorServiceConfigFields) :
    Except PlatformError Unit := do
  rejectIf (c.completedBarLagMinutes = 0) (.valueError "completed_bar_lag_minutes must be positive")
  rejectIf (c.apiSymbolBatchSize = 0) (.valueError "api_symbol_batch_size must be positive")
  rejectIf (c.databaseBatchSize = 0) (.valueError "database_batch_size must be positive")
  rejectIf (c.restMaxAttempts = 0) (.valueError "rest_max_attempts must be positive")
  rejectIf (collectionUniverseSymbols.length < c.apiSymbolBatchSize)
    (.valueError "api_symbol_batch_size cannot exceed the collection universe")
  rejectIf (¬ (1 ≤ c.databaseBatchSize ∧ c.databaseBatchSize ≤ 1000))
    (.valueError "database_batch_size must be between 1 and 1000")

/-- Operational controls. -/
structure CollectorServiceConfig extends CollectorServiceConfigFields where
  checked : toCollectorServiceConfigFields.check = .ok ()

/-- `completed_bar_cutoff`: an exclusive, minute-aligned boundary. -/
def completedBarCutoff (now : Instant) (lagMinutes : Nat) : Instant :=
  now / minutes 1 * minutes 1 - minutes (lagMinutes - 1)

structure HistoricalRepairWindowFields where
  gapId : String
  start : Instant
  finish : Instant
  deriving DecidableEq

def HistoricalRepairWindowFields.check (w : HistoricalRepairWindowFields) :
    Except PlatformError Unit := do
  rejectIf (w.gapId = "" ∨ 128 < w.gapId.length) (.valueError "repair gap identity is invalid")
  rejectIf (¬ w.start < w.finish ∨ minutes (7 * 60) < w.finish - w.start)
    (.valueError "repair range must fit within one regular session")

/-- One recorded gap selected for a bounded retry. -/
structure HistoricalRepairWindow extends HistoricalRepairWindowFields where
  checked : toHistoricalRepairWindowFields.check = .ok ()
  deriving DecidableEq

/-- The exchange calendar: the regular sessions of the days of a range, in order. It lists every
session that overlaps the range. -/
structure SessionCalendar where
  sessionsInRange : Instant → Instant → List (Instant × Instant)
  ordered : ∀ start finish,
    (sessionsInRange start finish).Pairwise fun a b => a.2 ≤ b.1
  complete : ∀ start finish start' finish' session, session ∈ sessionsInRange start' finish' →
    session.1 < finish → start < session.2 → session ∈ sessionsInRange start finish

/-- The instant lies in a regular session. -/
def SessionCalendar.InSession (calendar : SessionCalendar) (t : Instant) : Prop :=
  ∃ start finish, ∃ session ∈ calendar.sessionsInRange start finish,
    session.1 ≤ t ∧ t < session.2

/-- `_session_windows`. -/
def sessionWindows (calendar : SessionCalendar) (start finish : Instant) :
    List (Instant × Instant) :=
  if finish ≤ start then []
  else ((calendar.sessionsInRange start finish).map fun session =>
    (max start session.1, min finish session.2)).filter fun window => window.1 < window.2

/-! ## The world of the collector -/

/-- What lies outside the programs. -/
structure CollectorOutside where
  clock : Instant
  stopRequested : Bool
  lease : Option LeaseToken
  activeRun : Bool
  fetchReply : Except PlatformError (List RawBarObservationV2)
  databaseError : Option PlatformError
  statementTime : Instant
  selectedGap : Option HistoricalRepairWindow

/-- One finished request to the provider. -/
structure HistoricalFetch where
  symbols : List String
  start : Instant
  finish : Instant
  observations : List RawBarObservationV2

structure CollectorWorld (κ : Type) where
  db : CollectionDb κ
  gaps : List HistoricalRepairWindow
  fetches : List HistoricalFetch
  outside : CollectorOutside

/-- A program of the collector. -/
abbrev CollectorProgram (κ α : Type) := Program (CollectorWorld κ) PlatformError α

/-- The collaborators of a service and the experiment it collects for; `isRetryable` reads the flag
of an exception. -/
structure CollectorService (κ : Type) where
  config : CollectorServiceConfig
  platform : CollectionPlatform κ
  canonical : Bool
  calendar : SessionCalendar
  isRetryable : PlatformError → Bool
  historyStart : Instant
  collectionAllowlist : List String

namespace CollectorService

variable {κ : Type} [ContentHasher] (service : CollectorService κ)

/-! ## Recorded gaps -/

section Gaps

omit [ContentHasher]

/-- `_contiguous_groups` of one-minute intervals given by their starts: their start and end. -/
def contiguousGroups : List Instant → List (Instant × Instant)
  | [] => []
  | t :: rest =>
      match contiguousGroups rest with
      | [] => [(t, t + minutes 1)]
      | group :: groups =>
          if group.1 = t + minutes 1 then (t, group.2) :: groups
          else (t, t + minutes 1) :: group :: groups

/-- `calendar.expected_intervals` of one session inside a range, by their starts. -/
def expectedMinutes (session : Instant × Instant) (start finish : Instant) : List Instant :=
  ((List.range ((session.2 - session.1) / minutes 1).toNat).map fun k => session.1 + minutes k).filter
    fun t => decide (start ≤ t ∧ t + minutes 1 ≤ finish)

/-- The bar belongs to the canonical minute series of a symbol. -/
def inMinuteSeries (symbol : String) (bar : CurrentBar) : Bool :=
  decide (bar.identity.provider = "alpaca" ∧ bar.identity.feed = "IEX" ∧
    bar.identity.adjustment = "raw" ∧ bar.identity.symbol = symbol ∧ bar.identity.timeframe = "1m")

/-- `_inspected_through`: the coverage checkpoint or the end of the latest bar, not after now. The
`through_at` of a work row is one of these bounds or an earlier one. -/
def inspectedThrough (w : CollectorWorld κ) (symbol : String) : Option Instant :=
  let checkpoint := (w.db.checkpoints.get? ⟨"rest_coverage", "alpaca", "IEX", "raw", symbol, "1m"⟩).bind
    (·.committedThroughUtc)
  let ends := (w.db.currentBars.values.filter (inMinuteSeries symbol)).map
    fun bar => bar.identity.barTimestampUtc + minutes 1
  (checkpoint.toList ++ ends).max?.map fun bound => min bound w.outside.clock

/-- `detect_data_gaps` over the inspected part of one session. -/
def detectDataGaps (w : CollectorWorld κ) (symbol : String) (session : Instant × Instant) :
    List (Instant × Instant) :=
  match inspectedThrough w symbol with
  | none => []
  | some through =>
      contiguousGroups ((expectedMinutes session (max session.1 service.historyStart)
        (min session.2 through)).filter fun t =>
          !w.db.currentBars.values.any fun bar =>
            inMinuteSeries symbol bar && decide (bar.identity.barTimestampUtc = t))

/-- The derived processor records this window for a symbol of the experiment. -/
def RecordsGap (w : CollectorWorld κ) (gap : HistoricalRepairWindow) : Prop :=
  ∃ symbol ∈ service.collectionAllowlist, ∃ start finish,
    ∃ session ∈ service.calendar.sessionsInRange start finish,
      (gap.start, gap.finish) ∈ service.detectDataGaps w symbol session

end Gaps

/-! ## Calls -/

section Calls

omit [ContentHasher]

/-- `if self.stop_requested: raise InterruptedError(...)`. -/
def requireRunning : CollectorProgram κ Unit :=
  Program.atomically (Exec.read fun w =>
    rejectIf (w.outside.stopRequested = true) (.interrupted "Collector shutdown requested"))

/-- `_lease_token`. -/
def leaseToken : CollectorProgram κ LeaseToken :=
  Program.atomically (Exec.read fun w =>
    require w.outside.lease (.leaseLost "The collector does not hold its singleton lease"))

/-- `require_active_lease`. -/
def requireActiveLease : CollectorProgram κ LeaseToken :=
  Program.atomically (Exec.read fun w => do
    rejectIf (w.outside.stopRequested = true)
      (.leaseLost "Collector shutdown prevents further derived mutations")
    require w.outside.lease (.leaseLost "The collector does not hold its singleton lease"))

def requireActiveRun : CollectorProgram κ Unit :=
  Program.atomically (Exec.read fun w =>
    rejectIf (w.outside.activeRun = false)
      (.leaseLost "gap repair requires the current collection run"))

def readClock : CollectorProgram κ Instant :=
  Program.atomically (Exec.read fun w => .ok w.outside.clock)

def readStopRequested : CollectorProgram κ Bool :=
  Program.atomically (Exec.read fun w => .ok w.outside.stopRequested)

/-- One database transaction, which the database may refuse. -/
def onDatabase {α : Type} (action : Instant → Exec (CollectionDb κ) PlatformError α) :
    Exec (CollectorWorld κ) PlatformError α := fun w =>
  match w.outside.databaseError with
  | some e => (.error e, w)
  | none => ((action w.outside.statementTime w.db).1,
      { w with db := (action w.outside.statementTime w.db).2 })

/-- `record_event`: an insert that changes nothing the programs read. -/
def recordEvent : CollectorProgram κ Unit := do
  let token ← leaseToken
  Program.atomically (onDatabase fun now =>
    Exec.read fun db => PostgresMarketDataRepository.verifyLease db token now)

/-- The checkpoint key of one symbol. -/
def coverageKey (checkpointName symbol : String) : CheckpointKey :=
  ⟨checkpointName, "alpaca", "IEX", "raw", symbol, "1m"⟩

/-- `repository.checkpoints`: the rows of one name, by symbol. -/
def checkpointsNamed (checkpointName : String) (db : CollectionDb κ) :
    List (String × CheckpointRow) :=
  db.checkpoints.entries.filterMap fun entry =>
    if entry.1 = coverageKey checkpointName entry.1.symbol then some (entry.1.symbol, entry.2)
    else none

def readCheckpoints : CollectorProgram κ (List (String × CheckpointRow)) :=
  Program.atomically (onDatabase fun _ =>
    Exec.read fun db => .ok (checkpointsNamed service.config.checkpointName db))

/-- `checkpoints[symbol].committed_through_utc`, when there is one. -/
def committedThrough (checkpoints : List (String × CheckpointRow)) (symbol : String) :
    Option Instant :=
  (Dict.lookup symbol checkpoints).bind (·.committedThroughUtc)

/-- `historical_source.fetch`. -/
def fetch (symbols : List String) (start finish : Instant) :
    Exec (CollectorWorld κ) PlatformError (List RawBarObservationV2) := fun w =>
  match w.outside.fetchReply with
  | .error e => (.error e, w)
  | .ok observations => (.ok observations,
      { w with fetches := ⟨symbols, start, finish, observations⟩ :: w.fetches })

/-- `next_gap_repair`: some recorded gap between the history start and the cutoff, or none. -/
def nextGapRepair : CollectorProgram κ (Option HistoricalRepairWindow) :=
  Program.atomically fun w =>
    match w.outside.databaseError with
    | some e => (.error e, w)
    | none => (.ok (w.outside.selectedGap.filter fun window =>
        decide (window ∈ w.gaps ∧ service.historyStart ≤ window.start ∧
          window.finish ≤ completedBarCutoff w.outside.clock 2)), w)

end Calls

def appendBatch (observations : List RawBarObservationV2) (advances : List CoverageAdvance) :
    CollectorProgram κ BatchResult := do
  let token ← leaseToken
  Program.atomically (onDatabase fun now =>
    PostgresMarketDataRepository.appendBatch service.platform service.canonical observations token
      advances now)

/-! ## Collection -/

/-- `isinstance(error, InterruptedError)`. -/
def isInterruption : PlatformError → Bool
  | .interrupted _ => true
  | _ => false

/-- `_fetch_with_retry` with the given number of attempts left. -/
def fetchWithRetry (symbols : List String) (start finish : Instant) :
    Nat → CollectorProgram κ (List RawBarObservationV2)
  | 0 => Program.pureExcept (.error (.external "unreachable"))
  | left + 1 => do
      requireRunning
      let outcome ← Program.attempt (do
        let observations ← Program.atomically (fetch symbols start finish)
        requireRunning
        pure observations)
      match outcome with
      | .ok observations => pure observations
      | .error e =>
          if isInterruption e ∨ service.isRetryable e = false ∨ left = 0 then
            Program.pureExcept (.error e)
          else do
            recordEvent
            requireRunning
            fetchWithRetry symbols start finish left

/-- `_store_observations`. -/
def storeObservations (observations : List RawBarObservationV2) : CollectorProgram κ Unit := do
  let _ ← Program.forEach (fun slice => do
      requireRunning
      let _ ← service.appendBatch slice []
      pure ()) (slices service.config.databaseBatchSize observations)
  pure ()

/-- The advance of one symbol past a window. -/
def coverageAdvance (checkpoints : List (String × CheckpointRow)) (committed : Instant)
    (source : String) (observations : List RawBarObservationV2) (windowStart : Option Instant)
    (symbol : String) : CoverageAdvance :=
  let latest := maxBy (fun o : RawBarObservationV2 => o.bar.barTimestampUtc)
    (observations.filter fun o => o.bar.symbol = symbol)
  { key := coverageKey service.config.checkpointName symbol
    committedThroughUtc := max committed ((committedThrough checkpoints symbol).getD committed)
    metadata := ⟨source, windowStart, some committed⟩
    lastBarTimestampUtc := latest.map fun o => o.bar.barTimestampUtc
    lastObservationId := latest.map fun o => o.observationId
    lineage := by rw [Option.isSome_map, Option.isSome_map] }

/-- `_coverage_advances`. -/
def coverageAdvances (symbols : List String) (committed : Instant) (source : String)
    (observations : List RawBarObservationV2) (windowStart : Option Instant) :
    CollectorProgram κ (List CoverageAdvance) := do
  let checkpoints ← service.readCheckpoints
  pure (symbols.map
    (service.coverageAdvance checkpoints committed source observations windowStart))

/-- Fetch one window for one symbol batch, store it and advance the batch past it. -/
def collectWindow (source : String) (window : Instant × Instant) (requested : List String) :
    CollectorProgram κ Unit := do
  requireRunning
  let observations ← service.fetchWithRetry requested window.1 window.2
    service.config.restMaxAttempts
  service.storeObservations observations
  requireRunning
  let advances ← service.coverageAdvances requested window.2 source observations (some window.1)
  let _ ← service.appendBatch [] advances
  requireRunning
  recordEvent

/-- The symbol batches of one window, in order. -/
def collectBatches (source : String) (window : Instant × Instant) : CollectorProgram κ Unit := do
  let _ ← Program.forEach (service.collectWindow source window)
    (slices service.config.apiSymbolBatchSize collectionUniverseSymbols)
  pure ()

/-- The advance over the time behind the last session. -/
def advanceNonTrading (finish : Instant) : CollectorProgram κ Unit := do
  requireRunning
  let advances ← service.coverageAdvances collectionUniverseSymbols finish
    "exchange_calendar_non_trading_interval" [] none
  let _ ← service.appendBatch [] advances
  pure ()

/-- `_backfill_range`. -/
def backfillRange (start finish : Instant) (source : String) : CollectorProgram κ Unit := do
  Program.pureExcept (rejectIf (finish ≤ start)
    (.valueError "historical collection start must precede end"))
  let windows := sessionWindows service.calendar start finish
  let _ ← Program.forEach (service.collectBatches source) windows
  if windows.getLast?.all (fun window => decide (window.2 < finish)) then
    service.advanceNonTrading finish
  else pure ()

/-- `_resume_start`. -/
def resumeStart (startIfEmpty : Option Instant) (checkpoints : List (String × CheckpointRow)) :
    Except PlatformError Instant := do
  rejectIf (startIfEmpty = none ∧
      collectionUniverseSymbols.any (fun symbol => (committedThrough checkpoints symbol).isNone))
    (.valueError
      "The database has no complete coverage checkpoint; provide a first-run history start")
  let overlap := minutes service.config.reconciliationOverlapMinutes
  let starts ← collect (fun symbol =>
      match committedThrough checkpoints symbol with
      | some committed => .ok (committed - overlap)
      | none => require startIfEmpty (.external "AssertionError")) collectionUniverseSymbols
  let resumed ← require starts.min? (.valueError "min() iterable argument is empty")
  pure (startIfEmpty.elim resumed (max resumed))

/-- `_reconcile_once`. -/
def reconcileOnce (startIfEmpty : Option Instant) : CollectorProgram κ Unit := do
  let now ← readClock
  let finish := completedBarCutoff now service.config.completedBarLagMinutes
  let checkpoints ← service.readCheckpoints
  Program.pureExcept (rejectIf (checkpoints.any (fun entry =>
      entry.2.committedThroughUtc.any fun committed => decide (finish < committed)))
    (.valueError "A coverage checkpoint is ahead of the completed-bar cutoff"))
  let start ← Program.pureExcept (service.resumeStart startIfEmpty checkpoints)
  Program.pureExcept (rejectIf (finish ≤ start ∧
      collectionUniverseSymbols.any (fun symbol => (committedThrough checkpoints symbol).isNone))
    (.valueError "The first-run history start must precede the completed-bar cutoff"))
  if start < finish then
    service.backfillRange start finish
      (if checkpoints = [] then "historical_backfill" else "historical_reconciliation")
  else pure ()

/-- `repair_gap_window`. -/
def repairGapWindow (window : HistoricalRepairWindow) : CollectorProgram κ Unit := do
  let _ ← requireActiveLease
  requireActiveRun
  Program.pureExcept (rejectIf (window.start % minutes 1 ≠ 0 ∨ window.finish % minutes 1 ≠ 0 ∨
      sessionWindows service.calendar window.start window.finish ≠ [(window.start, window.finish)])
    (.valueError "gap repair must contain complete minutes within one XNAS session"))
  let now ← readClock
  Program.pureExcept (rejectIf
    (completedBarCutoff now service.config.completedBarLagMinutes < window.finish)
    (.valueError "gap repair exceeds completed history"))
  recordEvent
  service.backfillRange window.start window.finish "historical_reconciliation"
  recordEvent

/-- `_repair_gap_once`. -/
def repairGapOnce : CollectorProgram κ Unit := do
  let stopped ← readStopRequested
  if stopped then pure ()
  else do
    let selected ← service.nextGapRepair
    match selected with
    | none => pure ()
    | some window => do
        requireActiveRun
        service.repairGapWindow window

/-! ## Runs -/

/-- One turn of the loop. -/
inductive CollectorTask
  | reconcile
  | repair
  deriving DecidableEq

def perform : CollectorTask → CollectorProgram κ Unit
  | .reconcile => service.reconcileOnce (some service.historyStart)
  | .repair => service.repairGapOnce

/-- Any sequence of turns; the loop survives the error of a turn. -/
def collectorLoop (tasks : List CollectorTask) : CollectorProgram κ (List (Except PlatformError Unit)) :=
  Program.forEach (fun task => (service.perform task).attempt) tasks

end CollectorService

end AdaptiveTrader
