import Mathlib.Data.List.SplitBy
import AdaptiveTrader.Foundation.Restarts
import AdaptiveTrader.Readiness.Gaps
import AdaptiveTrader.Storage.BarHistories

/-!
# The gap ledger of a session

Each time the derived processor revisits a session it detects the missing intervals of a series,
records a gap for each contiguous group of them, and resolves the recorded gaps that the observed
intervals cover. As minutes arrive out of order and the inspected end moves, one hole is recorded
under several overlapping ranges.

`gaps_sound` is about a processor that may stop between any two transactions: after each call that
comes to its end, the unresolved gaps are exactly what is missing, in the sense that each missing
interval lies in one of them and each of them contains a missing interval.
-/

set_option autoImplicit false

namespace AdaptiveTrader.Readiness

open Foundation

/-! ## The processor -/

/-- What the processor works on: the database, and what the clock, the lock guard and the database
connection answer. -/
structure DerivedWorld where
  db : PlatformDatabase
  clock : Instant
  guardError : Option PlatformError
  databaseError : Option PlatformError

/-- A program of the derived processor. -/
abbrev DerivedProgram (α : Type) := Program DerivedWorld PlatformError α

namespace DerivedProgram

/-- `_guard`. -/
def guard : DerivedProgram Unit :=
  Program.atomically (Exec.read fun w =>
    match w.guardError with
    | some e => .error e
    | none => .ok ())

/-- `_now`. -/
def now : DerivedProgram Instant := Program.atomically (Exec.read fun w => .ok w.clock)

/-- One database transaction, which the database may refuse. -/
def onGaps {α : Type} (action : PlatformDatabase → Except PlatformError (α × PlatformDatabase)) :
    DerivedProgram α :=
  Program.atomically fun w =>
    match w.databaseError with
    | some e => (.error e, w)
    | none =>
        match action w.db with
        | .ok (a, db) => (.ok a, { w with db := db })
        | .error e => (.error e, w)

section Synchronization

variable [ContentHasher] (schedule : ExchangeSchedule) (experimentHash : String)
  (series : DataSeries)

/-- `if gap.status is GapStatus.OPEN: ...`. -/
def claimGap (gap : DataGap) : DerivedProgram Unit :=
  if gap.status = .opened then do
    guard
    let attemptedAt ← now
    let _ ← onGaps (beginRepair gap.gapId attemptedAt)
    pure ()
  else pure ()

/-- The rest of the loop body for a gap that is covered. -/
def resolveGap (gap : DataGap) (actual : List TradingInterval) : DerivedProgram Unit := do
  claimGap gap
  guard
  let completedAt ← now
  let coverage ← Program.pureExcept (validated GapRepairCoverageFields.check
    ⟨series, gap.startAt, gap.endAt, actual, completedAt, true⟩ fun h => ⟨_, h⟩)
  let _ ← onGaps (completeRepair schedule gap.gapId coverage)
  pure ()

/-- The loop body over the unresolved gaps. -/
def reconcileGap (startAt endAt : Instant) (observed : List TradingInterval) (gap : DataGap) :
    DerivedProgram Unit :=
  if gap.startAt < startAt ∨ endAt < gap.endAt then pure ()
  else do
    let expected ← Program.pureExcept
      (schedule.expectedIntervals gap.startAt gap.endAt series.timeframe)
    let actual := observed.filter (TradingInterval.Within gap.startAt gap.endAt)
    if actual ≠ expected then pure () else resolveGap schedule series gap actual

/-- The loop body over the detections. -/
def recordDetection (detection : GapDetection) : DerivedProgram DataGap := do
  guard
  onGaps (recordGap schedule detection)

/-- `_synchronize_gaps`. -/
def synchronizeGaps (startAt endAt : Instant) (events : List StoredBarEvent) :
    DerivedProgram Unit := do
  let observed := events.map fun event => intervalOf event.identity
  let detectedAt ← now
  let detections ← Program.pureExcept
    (detectDataGaps schedule experimentHash series startAt endAt observed detectedAt
      missingExpectedBar)
  let _ ← Program.forEach (recordDetection schedule) detections
  let gaps ← onGaps fun db => do
    let gaps ← db.listUnresolved experimentHash series
    pure (gaps, db)
  let _ ← Program.forEach (reconcileGap schedule series startAt endAt observed) gaps
  pure ()

end Synchronization

end DerivedProgram

/-! ## Runs of intervals -/

/-- A contiguous run of intervals of a grid that fills a range. -/
def IsRun (grid : List TradingInterval) (startAt endAt : Instant) : Prop :=
  ∃ group : List TradingInterval, group ≠ [] ∧ (∀ i ∈ group, i ∈ grid) ∧
    group.IsChain TradingInterval.Touches ∧ group.head?.map (·.startAt) = some startAt ∧
    group.getLast?.map (·.endAt) = some endAt

/-- The intervals of a contiguous group lie between its ends. -/
theorem within_of_chain {group : List TradingInterval} {startAt endAt : Instant}
    (hchain : group.IsChain TradingInterval.Touches)
    (hfirst : group.head?.map (·.startAt) = some startAt)
    (hlast : group.getLast?.map (·.endAt) = some endAt) {i : TradingInterval} (hi : i ∈ group) :
    i.Within startAt endAt := by
  induction group generalizing startAt i with
  | nil => cases hi
  | cons a rest ih =>
      cases hfirst
      cases rest with
      | nil =>
          cases hlast
          cases List.mem_singleton.1 hi
          exact ⟨le_rfl, le_rfl⟩
      | cons b rest =>
          obtain ⟨htouch, hrest⟩ := List.isChain_cons_cons.1 hchain
          have hinner : ∀ j ∈ b :: rest, j.Within b.startAt endAt :=
            fun j hj => ih hrest rfl hlast hj
          have hb := hinner b List.mem_cons_self
          have hpositive := a.positive
          have hpositive' := b.positive
          rw [TradingInterval.Touches] at htouch
          rcases List.mem_cons.1 hi with rfl | hi
          · exact ⟨le_rfl, htouch.le.trans (hpositive'.le.trans hb.2)⟩
          · obtain ⟨hstart, hend⟩ := hinner i hi
            exact ⟨(hpositive.le.trans htouch.le).trans hstart, hend⟩

/-- A run contains one of its intervals. -/
theorem IsRun.lt {grid : List TradingInterval} {startAt endAt : Instant}
    (h : IsRun grid startAt endAt) : startAt < endAt := by
  obtain ⟨group, hne, -, hchain, hfirst, hlast⟩ := h
  obtain ⟨i, hi⟩ := List.exists_mem_of_ne_nil group hne
  obtain ⟨hstart, hend⟩ := within_of_chain hchain hfirst hlast hi
  exact hstart.trans_lt (i.positive.trans_le hend)

theorem touches_of_mem_contiguousGroups {intervals group : List TradingInterval}
    (h : group ∈ contiguousGroups intervals) : group.IsChain TradingInterval.Touches :=
  (List.isChain_of_mem_splitBy h).imp fun _ _ => of_decide_eq_true

/-- Each interval belongs to one of the groups, and the groups have no others. -/
theorem mem_contiguousGroups {intervals : List TradingInterval} {i : TradingInterval} :
    (∃ group ∈ contiguousGroups intervals, i ∈ group) ↔ i ∈ intervals := by
  rw [← List.mem_flatten, contiguousGroups, List.flatten_splitBy]

theorem TradingInterval.key_injective : Function.Injective TradingInterval.key := by
  intro a b h
  obtain ⟨hstart, hend⟩ := Prod.mk.inj (toLex.injective h)
  cases a
  cases b
  simp only at hstart hend
  subst hstart hend
  rfl

/-- Ordered sequences with the same intervals are equal. -/
theorem eq_of_ordered {l m : List TradingInterval}
    (hl : l.Pairwise fun a b => a.key < b.key) (hm : m.Pairwise fun a b => a.key < b.key)
    (h : ∀ i, i ∈ l ↔ i ∈ m) : l = m := by
  have hperm : l.Perm m :=
    (List.perm_ext_iff_of_nodup (hl.imp fun hab heq => hab.ne (congrArg _ heq))
      (hm.imp fun hab heq => hab.ne (congrArg _ heq))).2 h
  exact hperm.eq_of_pairwise
    (fun a b _ _ hab hba => absurd (hab.trans hba) (lt_irrefl _)) hl hm

/-! ## Detections -/

theorem requireIntervalSequence_eq_ok {values : List TradingInterval} {timeframe : String}
    (h : requireIntervalSequence values timeframe = .ok ()) :
    values.Pairwise fun a b => a.key < b.key := by
  simp only [requireIntervalSequence, bind_eq_ok, rejectIf_eq_ok, not_not] at h
  obtain ⟨_, -, _, -, hordered⟩ := h
  exact List.pairwise_map.1 (eq_sortedSet_iff.1 hordered)

theorem detectionOf_eq_ok {experimentHash reasonCode : String} {series : DataSeries}
    {detectedAt : Instant} {group : List TradingInterval} {d : GapDetection}
    (h : detectionOf experimentHash series reasonCode detectedAt group = .ok d) :
    d.experimentHash = experimentHash ∧ d.series = series ∧
      group.head?.map (·.startAt) = some d.startAt ∧
      group.getLast?.map (·.endAt) = some d.endAt := by
  simp only [detectionOf, bind_eq_ok, require_eq_ok, validated_eq_ok] at h
  obtain ⟨first, hfirst, last, hlast, _, rfl⟩ := h
  exact ⟨rfl, rfl, by rw [hfirst]; rfl, by rw [hlast]; rfl⟩

/-- The detection names a contiguous group of expected intervals that were not observed. -/
structure Detects (experimentHash : String) (series : DataSeries)
    (expected observed : List TradingInterval) (d : GapDetection) : Prop where
  experimentHash : d.experimentHash = experimentHash
  series : d.series = series
  run : IsRun (expected.filter fun i => i ∉ observed) d.startAt d.endAt

/-- What `detect_data_gaps` has found: groups of missing intervals that contain each of them. -/
theorem detectDataGaps_eq_ok {schedule : ExchangeSchedule} {experimentHash reasonCode : String}
    {series : DataSeries} {startAt endAt detectedAt : Instant} {observed : List TradingInterval}
    {detections : List GapDetection}
    (h : detectDataGaps schedule experimentHash series startAt endAt observed detectedAt reasonCode
      = .ok detections) :
    ∃ expected, schedule.expectedIntervals startAt endAt series.timeframe = .ok expected ∧
      (observed.Pairwise fun a b => a.key < b.key) ∧ (∀ i ∈ observed, i ∈ expected) ∧
      (∀ d ∈ detections, Detects experimentHash series expected observed d) ∧
      ∀ i ∈ expected, i ∉ observed → ∃ d ∈ detections, i.Within d.startAt d.endAt := by
  simp only [detectDataGaps, bind_eq_ok, rejectIf_eq_ok] at h
  obtain ⟨_, -, _, -, _, -, _, -, expected, hexpected, _, hordered, _, hobserved, hdetections⟩ := h
  simp only [not_exists, not_and, not_not] at hobserved
  refine ⟨expected, hexpected, requireIntervalSequence_eq_ok hordered, hobserved, ?_, ?_⟩
  · intro d hd
    obtain ⟨group, hgroup, hdetection⟩ := mem_of_collect hdetections hd
    obtain ⟨hexperiment, hseries, hfirst, hlast⟩ := detectionOf_eq_ok hdetection
    exact ⟨hexperiment, hseries, group, List.ne_nil_of_mem_splitBy hgroup,
      fun i hi => mem_contiguousGroups.1 ⟨group, hgroup, hi⟩,
      touches_of_mem_contiguousGroups hgroup, hfirst, hlast⟩
  · intro i hi hmissing
    have himissing : i ∈ expected.filter fun i => i ∉ observed :=
      List.mem_filter.2 ⟨hi, by simpa using hmissing⟩
    obtain ⟨group, hgroup, higroup⟩ := mem_contiguousGroups.2 himissing
    obtain ⟨d, hd, hdetection⟩ := exists_mem_of_collect hdetections hgroup
    obtain ⟨-, -, hfirst, hlast⟩ := detectionOf_eq_ok hdetection
    exact ⟨d, hd, within_of_chain (touches_of_mem_contiguousGroups hgroup) hfirst hlast higroup⟩

/-! ## The ledger of one session -/

/-- The length of the intervals of a series. -/
def DataSeries.span (s : DataSeries) : {d : Int // 0 < d} :=
  match h : timeframeDuration s.timeframe with
  | some duration => ⟨duration, timeframeDuration_pos h⟩
  | none => ⟨1, one_pos⟩

theorem DataSeries.span_eq {s : DataSeries} {duration : Int}
    (h : timeframeDuration s.timeframe = some duration) :
    s.span = ⟨duration, timeframeDuration_pos h⟩ := by
  unfold DataSeries.span
  split
  · next duration' h' =>
      cases h.symm.trans h'
      rfl
  · next h' => exact absurd (h.symm.trans h') (Option.some_ne_none _)

theorem timeframeSpan_timeframe (s : DataSeries) : timeframeSpan s.timeframe = .ok s.span := by
  have hchecked := s.checked
  simp only [DataSeriesFields.check, bind_eq_ok, rejectIf_eq_ok] at hchecked
  obtain ⟨_, -, _, -, _, -, _, -, _, -, _, -, _, -, htimeframe⟩ := hchecked
  unfold timeframeSpan
  split
  · next duration h => rw [DataSeries.span_eq h]
  · next h => exact absurd h htimeframe

/-- One series of one experiment over one listed session, inspected from a fixed instant. -/
structure SessionLedger (schedule : ExchangeSchedule) where
  experimentHash : String
  series : DataSeries
  date : Int
  session : TradingSession schedule
  listed : schedule.session date = .ok (some session)
  startAt : Instant
  opened : session.openAt ≤ startAt

namespace SessionLedger

variable {schedule : ExchangeSchedule} (ledger : SessionLedger schedule)

/-- The intervals of the session. -/
def grid : List TradingInterval :=
  sessionIntervals ledger.session.openAt ledger.session.closeAt ledger.series.span

/-- The row belongs to the ledger: a gap of the series inside the session. -/
def InLedger (row : GapRow) : Prop :=
  row.experimentHash = ledger.experimentHash ∧ row.series = ledger.series.toDataSeriesFields ∧
    ledger.session.openAt ≤ row.gapStartAt ∧ row.gapEndAt ≤ ledger.session.closeAt

/-- The rows of the ledger under their IDs. -/
def rows (db : PlatformDatabase) : Set (String × GapRow) :=
  {x | db.gaps.get? x.1 = some x.2 ∧ ledger.InLedger x.2}

/-- Belonging to the ledger is a matter of the identity of the gap. -/
theorem inLedger_congr {row row' : GapRow} (h : row'.identity = row.identity) :
    ledger.InLedger row' ↔ ledger.InLedger row := by
  simp only [GapRow.identity, Prod.mk.injEq] at h
  obtain ⟨hexperiment, hseries, hstart, hend⟩ := h
  simp only [InLedger, hexperiment, hseries, hstart, hend]

theorem bounds_of_identity {row row' : GapRow} (h : row'.identity = row.identity) :
    row'.gapStartAt = row.gapStartAt ∧ row'.gapEndAt = row.gapEndAt := by
  simp only [GapRow.identity, Prod.mk.injEq] at h
  exact h.2.2

/-! ### Rewritten rows -/

variable {ledger}

/-- The rows behind an operation, traced back. -/
theorem rows_of_rewrites {id : String} {row row' : GapRow} {db db' : PlatformDatabase}
    (h : Rewrites id row row' db db') {x : String × GapRow} (hx : x ∈ ledger.rows db') :
    (x.1 ≠ id ∧ x ∈ ledger.rows db) ∨ (x = (id, row') ∧ (id, row) ∈ ledger.rows db) := by
  obtain ⟨hget, hledger⟩ := hx
  by_cases hid : x.1 = id
  · refine Or.inr ⟨Prod.ext hid ?_, h.before, ?_⟩
    · rw [hid, h.after] at hget
      exact (Option.some.inj hget).symm
    · rw [hid, h.after] at hget
      rw [← Option.some.inj hget] at hledger
      exact (ledger.inLedger_congr h.identity).1 hledger
  · exact Or.inl ⟨hid, (h.others x.1 hid).symm.trans hget, hledger⟩

/-- The rows before an operation, traced forward. -/
theorem rows_rewrites {id : String} {row row' : GapRow} {db db' : PlatformDatabase}
    (h : Rewrites id row row' db db') {x : String × GapRow} (hx : x ∈ ledger.rows db) :
    (x.1 ≠ id ∧ x ∈ ledger.rows db') ∨ (x = (id, row) ∧ (id, row') ∈ ledger.rows db') := by
  obtain ⟨hget, hledger⟩ := hx
  by_cases hid : x.1 = id
  · rw [hid, h.before] at hget
    refine Or.inr ⟨Prod.ext hid (Option.some.inj hget).symm, h.after, ?_⟩
    rw [← Option.some.inj hget] at hledger
    exact (ledger.inLedger_congr h.identity).2 hledger
  · exact Or.inl ⟨hid, (h.others x.1 hid).trans hget, hledger⟩

end SessionLedger

/-! ## What holds of the ledger -/

section Soundness

variable [ContentHasher]

/-- The arguments that change from one call to the next: how far the session is inspected, and the
events found there. -/
structure Inspection where
  endAt : Instant
  events : List StoredBarEvent

/-- The observed intervals. -/
def Inspection.observed (k : Inspection) : List TradingInterval :=
  k.events.map fun event => intervalOf event.identity

namespace SessionLedger

variable {schedule : ExchangeSchedule} (ledger : SessionLedger schedule)

/-- The gap contains an interval that is missing. -/
def Needed (k : Inspection) (row : GapRow) : Prop :=
  ∃ i ∈ ledger.grid, i.Within row.gapStartAt row.gapEndAt ∧ i ∉ k.observed

/-- What holds of a row at any time: it is a run of intervals of the session inside the inspected
range, nobody waived it, and once it is resolved none of its intervals is missing. -/
structure RowSound (k : Inspection) (row : GapRow) : Prop where
  inspected : ledger.startAt ≤ row.gapStartAt ∧ row.gapEndAt ≤ k.endAt
  run : IsRun ledger.grid row.gapStartAt row.gapEndAt
  kept : row.status ≠ .waived
  resolved : row.status = .resolved → ¬ ledger.Needed k row

/-- The invariant of the ledger. -/
def RowsSound (k : Inspection) (rows : Set (String × GapRow)) : Prop :=
  k.endAt ≤ ledger.session.closeAt ∧ ∀ x ∈ rows, ledger.RowSound k x.2

/-- Each missing interval of the inspected range lies in an unresolved gap. -/
def Covered (k : Inspection) (rows : Set (String × GapRow)) : Prop :=
  ∀ i ∈ ledger.grid, i.Within ledger.startAt k.endAt → i ∉ k.observed →
    ∃ x ∈ rows, x.2.status.Unresolved ∧ i.Within x.2.gapStartAt x.2.gapEndAt

end SessionLedger

end Soundness

/-! ## One call -/

namespace SessionLedger

section Calls

variable [ContentHasher] {schedule : ExchangeSchedule} (ledger : SessionLedger schedule)
  (k : Inspection)

/-- Knowledge about the rows of the ledger, beside the invariant. -/
def Knows (P : Set (String × GapRow) → Prop) (w : DerivedWorld) : Prop :=
  ledger.RowsSound k (ledger.rows w.db) ∧ P (ledger.rows w.db)

/-- Everything outside may change but the rows of the ledger. -/
def Around (s t : DerivedWorld) : Prop := ledger.rows s.db = ledger.rows t.db

/-- Knowledge `P'` of a value, and the invariant after an error. -/
def After {α : Type} (P' : α → Set (String × GapRow) → Prop) :
    Except PlatformError α → DerivedWorld → Prop
  | .ok a => ledger.Knows k (P' a)
  | .error _ => ledger.Knows k fun _ => True

/-- A program that starts with knowledge `P` keeps the invariant, and ends with `P'` of its value
unless it raises. -/
def Keeps {α : Type} (P : Set (String × GapRow) → Prop) (p : DerivedProgram α)
    (P' : α → Set (String × GapRow) → Prop) : Prop :=
  p.Upholds (Lifecycle.Anywhere DerivedWorld) ledger.Around
    (fun _ t => ledger.RowsSound k (ledger.rows t.db)) (ledger.After k P') (ledger.Knows k P)

variable {ledger k} {α β : Type} {P Q : Set (String × GapRow) → Prop}
  {P' : α → Set (String × GapRow) → Prop} {Q' : β → Set (String × GapRow) → Prop}

theorem knows_stable (P : Set (String × GapRow) → Prop) :
    Program.Stable (Lifecycle.Anywhere DerivedWorld) ledger.Around (ledger.Knows k P) := by
  intro s t _ _ hst hs
  rw [Knows, ← hst]
  exact hs

theorem after_stable (r : Except PlatformError α) :
    Program.Stable (Lifecycle.Anywhere DerivedWorld) ledger.Around (ledger.After k P' r) := by
  cases r with
  | ok a => exact knows_stable (P' a)
  | error e => exact knows_stable fun _ => True

theorem Keeps.bind {p : DerivedProgram α} {f : α → DerivedProgram β} (hp : ledger.Keeps k P p P')
    (hf : ∀ a, ledger.Keeps k (P' a) (f a) Q') : ledger.Keeps k P (p >>= f) Q' :=
  Program.Upholds.bind hp hf fun _ _ h => h

theorem Keeps.pure {a : α} (h : ∀ rows, ledger.RowsSound k rows → P rows → P' a rows) :
    ledger.Keeps k P (pure a) P' :=
  fun _ _ hs => ⟨hs.1, h _ hs.1 hs.2⟩

/-- A computation without a call: its value is known behind it. -/
theorem Keeps.pureExcept {x : Except PlatformError α} :
    ledger.Keeps k P (Program.pureExcept x) fun a rows => P rows ∧ x = .ok a := by
  cases x with
  | ok a => exact fun s _ hs => ⟨hs.1, hs.2, rfl⟩
  | error e => exact fun s _ hs => ⟨hs.1, trivial⟩

theorem Keeps.of_fact {fact : Prop} {p : DerivedProgram α}
    (h : fact → ledger.Keeps k P p P') : ledger.Keeps k (fun rows => P rows ∧ fact) p P' := by
  refine Program.Upholds.strengthen (K := fun w => fact ∧ ledger.Knows k P w)
    (Program.Upholds.of_fact h) fun s _ hs => ⟨hs.2.2, hs.1, hs.2.1⟩

/-- A call that only reads. -/
theorem Keeps.read {f : DerivedWorld → Except PlatformError α} :
    ledger.Keeps k P (Program.atomically (Exec.read f)) fun _ => P := by
  refine Program.Upholds.atomically after_stable fun s _ hs _ => ⟨hs.1, ?_⟩
  show ledger.After k (fun _ => P) (f s) s
  cases f s with
  | ok a => exact hs
  | error e => exact ⟨hs.1, trivial⟩

/-- A transaction: what it does to the rows when it succeeds is all it does. -/
theorem Keeps.onGaps {action : PlatformDatabase → Except PlatformError (α × PlatformDatabase)}
    (h : ∀ db result, action db = .ok result → ledger.RowsSound k (ledger.rows db) →
      P (ledger.rows db) →
        ledger.RowsSound k (ledger.rows result.2) ∧ P' result.1 (ledger.rows result.2)) :
    ledger.Keeps k P (DerivedProgram.onGaps action) P' := by
  refine Program.Upholds.atomically after_stable fun s _ hs _ => ?_
  cases s.databaseError with
  | some e => exact ⟨hs.1, hs.1, trivial⟩
  | none =>
      cases haction : action s.db with
      | ok result =>
          have hafter := h _ _ haction hs.1 hs.2
          exact ⟨hafter.1, hafter⟩
      | error e => exact ⟨hs.1, hs.1, trivial⟩

theorem Keeps.forEach {γ : Type} {body : γ → DerivedProgram α}
    {inv : List γ → Set (String × GapRow) → Prop}
    (hbody : ∀ item rest, ledger.Keeps k (inv (item :: rest)) (body item) fun _ => inv rest)
    (items : List γ) : ledger.Keeps k (inv items) (Program.forEach body items) fun _ => inv [] := by
  induction items with
  | nil => exact fun s _ hs => hs
  | cons item rest ih => exact (hbody item rest).bind fun _ => ih.bind fun _ => Keeps.pure fun _ _ h => h

end Calls

/-! ### Recording -/

section Recording

variable [ContentHasher] {schedule : ExchangeSchedule} {ledger : SessionLedger schedule}
  {k : Inspection}

omit [ContentHasher] in
/-- The intervals the calendar expects in a part of the session. -/
theorem expected_eq (hregular : schedule.Regular) {startAt endAt : Instant}
    (hstart : ledger.session.openAt ≤ startAt) (hend : endAt ≤ ledger.session.closeAt)
    {expected : List TradingInterval}
    (h : schedule.expectedIntervals startAt endAt ledger.series.timeframe = .ok expected) :
    expected = ledger.grid.filter (TradingInterval.Within startAt endAt) := by
  obtain ⟨duration, hduration, heq⟩ :=
    ExchangeSchedule.expectedIntervals_session hregular ledger.listed hstart hend h
  rw [timeframeSpan_timeframe] at hduration
  cases hduration
  exact heq

/-- A run of missing intervals of the inspected range. -/
theorem run_of_missing {startAt endAt : Instant}
    (h : IsRun ((ledger.grid.filter (TradingInterval.Within ledger.startAt k.endAt)).filter
      fun i => i ∉ k.observed) startAt endAt) :
    ledger.startAt ≤ startAt ∧ endAt ≤ k.endAt ∧ IsRun ledger.grid startAt endAt ∧
      ∃ i ∈ ledger.grid, i.Within startAt endAt ∧ i ∉ k.observed := by
  obtain ⟨group, hne, hmissing, hchain, hfirst, hlast⟩ := h
  have hmem : ∀ i ∈ group, i ∈ ledger.grid ∧ i ∉ k.observed ∧ i.Within ledger.startAt k.endAt := by
    intro i hi
    simpa using hmissing i hi
  obtain ⟨first, hhead⟩ := Option.isSome_iff_exists.1 (List.isSome_head?.2 hne)
  obtain ⟨last, hfinal⟩ := Option.isSome_iff_exists.1 (List.getLast?_isSome.2 hne)
  rw [hhead] at hfirst
  rw [hfinal] at hlast
  cases hfirst
  cases hlast
  obtain ⟨hfirst, hfirstmissing, hfirstwithin⟩ := hmem first (List.mem_of_head? hhead)
  obtain ⟨-, -, hlastwithin⟩ := hmem last (List.mem_of_getLast? hfinal)
  have hends := within_of_chain hchain (by rw [hhead]; rfl) (by rw [hfinal]; rfl)
    (List.mem_of_head? hhead)
  exact ⟨hfirstwithin.1, hlastwithin.2,
    ⟨group, hne, fun i hi => (hmem i hi).1, hchain, by rw [hhead]; rfl, by rw [hfinal]; rfl⟩,
    first, hfirst, hends, hfirstmissing⟩

/-- The detection has an unresolved gap. -/
def Recorded (d : GapDetection) (rows : Set (String × GapRow)) : Prop :=
  ∃ x ∈ rows, x.2.status.Unresolved ∧ x.2.gapStartAt = d.startAt ∧ x.2.gapEndAt = d.endAt

/-- The detections whose turn has been have their gaps. -/
def RecordedBut (detections rest : List GapDetection) (rows : Set (String × GapRow)) : Prop :=
  ∀ d ∈ detections, d ∈ rest ∨ Recorded d rows

/-- A gap of the ledger that contains a missing interval is unresolved. -/
theorem unresolved_of_needed {row : GapRow} (h : ledger.RowSound k row)
    (hneeded : ledger.Needed k row) : row.status.Unresolved := by
  cases hstatus : row.status with
  | opened => exact Or.inl rfl
  | repairing => exact Or.inr rfl
  | resolved => exact absurd hneeded (h.resolved hstatus)
  | waived => exact absurd hstatus h.kept

/-- Recording a detection gives it a gap and leaves the others as they are. -/
theorem recordGap_keeps {d : GapDetection} {detections rest : List GapDetection}
    (hd : Detects ledger.experimentHash ledger.series
      (ledger.grid.filter (TradingInterval.Within ledger.startAt k.endAt)) k.observed d)
    {db : PlatformDatabase} {result : DataGap × PlatformDatabase}
    (h : recordGap schedule d db = .ok result) (hsound : ledger.RowsSound k (ledger.rows db))
    (hrecorded : RecordedBut detections (d :: rest) (ledger.rows db)) :
    ledger.RowsSound k (ledger.rows result.2) ∧
      RecordedBut detections rest (ledger.rows result.2) := by
  obtain ⟨row, hrow, hidentity, hcases⟩ := recordGap_eq_ok h
  obtain ⟨hstart, hend, hrun, i, hi, hwithin, hmissing⟩ := run_of_missing hd.run
  simp only [GapRow.identity, Prod.mk.injEq, hd.experimentHash, hd.series] at hidentity
  obtain ⟨hexperiment, hseries, hgapstart, hgapend⟩ := hidentity
  have hmember : (d.gapId, row) ∈ ledger.rows result.2 := by
    refine ⟨hrow, hexperiment, hseries, ?_, ?_⟩
    · rw [hgapstart]
      exact ledger.opened.trans hstart
    · rw [hgapend]
      exact hend.trans hsound.1
  have hneeded : ledger.Needed k row := ⟨i, hi, by rw [hgapstart, hgapend]; exact hwithin, hmissing⟩
  have hnew : row.status.Unresolved → Recorded d (ledger.rows result.2) := fun hunresolved =>
    ⟨_, hmember, hunresolved, hgapstart, hgapend⟩
  rcases hcases with hsame | ⟨hfresh, hopen, hothers⟩
  · rw [hsame] at hmember hnew ⊢
    refine ⟨hsound, fun e he => ?_⟩
    rcases hrecorded e he with hturn | hdone
    · rcases List.mem_cons.1 hturn with rfl | hrest
      · exact Or.inr (hnew (unresolved_of_needed (hsound.2 _ hmember) hneeded))
      · exact Or.inl hrest
    · exact Or.inr hdone
  · -- the rows of the ledger, and the new one
    have hback : ∀ x ∈ ledger.rows result.2, x ∈ ledger.rows db ∨ x.2 = row := by
      rintro ⟨id, r⟩ ⟨hget, hledger⟩
      by_cases hid : id = d.gapId
      · subst hid
        exact Or.inr (Option.some.inj (hget.symm.trans hrow))
      · exact Or.inl ⟨(hothers id hid).symm.trans hget, hledger⟩
    have hforth : ∀ x ∈ ledger.rows db, x ∈ ledger.rows result.2 := by
      rintro ⟨id, r⟩ ⟨hget, hledger⟩
      have hid : id ≠ d.gapId := by
        rintro rfl
        cases hfresh.symm.trans hget
      exact ⟨(hothers id hid).trans hget, hledger⟩
    refine ⟨⟨hsound.1, fun x hx => ?_⟩, fun e he => ?_⟩
    · rcases hback x hx with hold | hrow'
      · exact hsound.2 x hold
      · rw [hrow']
        refine ⟨?_, ?_, by rw [hopen]; decide, fun hresolved => ?_⟩
        · rw [hgapstart, hgapend]
          exact ⟨hstart, hend⟩
        · rw [hgapstart, hgapend]
          exact hrun
        · cases hopen.symm.trans hresolved
    · rcases hrecorded e he with hturn | ⟨x, hx, hdone⟩
      · rcases List.mem_cons.1 hturn with rfl | hrest
        · exact Or.inr (hnew (Or.inl hopen))
        · exact Or.inl hrest
      · exact Or.inr ⟨x, hforth x hx, hdone⟩

end Recording

/-! ### Resolving -/

section Resolving

variable [ContentHasher] {schedule : ExchangeSchedule} {ledger : SessionLedger schedule}
  {k : Inspection}

/-- The gap was read from the row. -/
def Reads (gap : DataGap) (x : String × GapRow) : Prop :=
  gap.gapId = x.1 ∧ gap.startAt = x.2.gapStartAt ∧ gap.endAt = x.2.gapEndAt

/-- The missing intervals are covered, and an unresolved gap whose turn has been contains one of
them. -/
def Remaining (ledger : SessionLedger schedule) (k : Inspection) (rest : List DataGap)
    (rows : Set (String × GapRow)) : Prop :=
  ledger.Covered k rows ∧
    ∀ x ∈ rows, x.2.status.Unresolved → ledger.Needed k x.2 ∨ ∃ gap ∈ rest, Reads gap x

/-- The recorded detections cover what is missing. -/
theorem covered_of_recorded {detections : List GapDetection}
    (hdetected : ∀ i ∈ ledger.grid.filter (TradingInterval.Within ledger.startAt k.endAt),
      i ∉ k.observed → ∃ d ∈ detections, i.Within d.startAt d.endAt)
    {rows : Set (String × GapRow)} (h : RecordedBut detections [] rows) : ledger.Covered k rows := by
  intro i hi hwithin hmissing
  obtain ⟨d, hd, hinside⟩ :=
    hdetected i (List.mem_filter.2 ⟨hi, decide_eq_true hwithin⟩) hmissing
  rcases h d hd with hrest | ⟨x, hx, hunresolved, hstart, hend⟩
  · cases hrest
  · exact ⟨x, hx, hunresolved, by rw [hstart, hend]; exact hinside⟩

/-- The listed gaps were read from the unresolved rows of the ledger. -/
theorem listUnresolved_reads {db : PlatformDatabase} {gaps : List DataGap}
    (h : db.listUnresolved ledger.experimentHash ledger.series = .ok gaps) :
    ∀ x ∈ ledger.rows db, x.2.status.Unresolved → ∃ gap ∈ gaps, Reads gap x := by
  rintro ⟨id, row⟩ ⟨hget, hledger⟩ hunresolved
  simp only [PlatformDatabase.listUnresolved, unit_bind_eq_ok] at h
  have hlisted : (id, row) ∈ sortedBy (fun e => toLex (e.2.gapStartAt, e.1))
      (db.gaps.entries.filter fun e => decide (e.2.experimentHash = ledger.experimentHash ∧
        e.2.status.Unresolved ∧ e.2.series = ledger.series.toDataSeriesFields)) := by
    refine mem_sortedBy.2 (List.mem_filter.2 ⟨Dict.mem_entries_iff.2 hget, ?_⟩)
    exact decide_eq_true ⟨hledger.1, hunresolved, hledger.2.1⟩
  obtain ⟨gap, hgap, hparsed⟩ := exists_mem_of_collect h.2 hlisted
  obtain ⟨hid, hrow⟩ := gapFromRow_eq_ok hparsed
  exact ⟨gap, hgap, hid, congrArg GapRow.gapStartAt hrow, congrArg GapRow.gapEndAt hrow⟩

/-- A write that leaves a gap unresolved exactly when it was, and keeps its range. -/
theorem remaining_of_rewrites {rest : List DataGap} {id : String} {row row' : GapRow}
    {db db' : PlatformDatabase} (h : Rewrites id row row' db db')
    (hstatus : row.status.Unresolved ↔ row'.status.Unresolved)
    (hremaining : Remaining ledger k rest (ledger.rows db)) :
    Remaining ledger k rest (ledger.rows db') := by
  obtain ⟨hstart, hend⟩ := bounds_of_identity h.identity
  refine ⟨fun i hi hwithin hmissing => ?_, fun x hx hunresolved => ?_⟩
  · obtain ⟨x, hx, hunresolved, hinside⟩ := hremaining.1 i hi hwithin hmissing
    rcases rows_rewrites h hx with ⟨-, hkept⟩ | ⟨rfl, hwritten⟩
    · exact ⟨x, hkept, hunresolved, hinside⟩
    · exact ⟨_, hwritten, hstatus.1 hunresolved, by rw [hstart, hend]; exact hinside⟩
  · rcases rows_of_rewrites h hx with ⟨-, hkept⟩ | ⟨rfl, hwritten⟩
    · exact hremaining.2 x hkept hunresolved
    · rcases hremaining.2 _ hwritten (hstatus.2 hunresolved) with hneeded | ⟨gap, hgap, hreads⟩
      · refine Or.inl ?_
        rw [Needed, hstart, hend]
        exact hneeded
      · exact Or.inr ⟨gap, hgap, hreads.1, hreads.2.1.trans hstart.symm, hreads.2.2.trans hend.symm⟩

/-- A write that keeps the range of a gap keeps the invariant, when it does not resolve a gap that
contains a missing interval. -/
theorem sound_of_rewrites {id : String} {row row' : GapRow} {db db' : PlatformDatabase}
    (h : Rewrites id row row' db db') (hkept : row.status ≠ .waived → row'.status ≠ .waived)
    (hresolved : row'.status = .resolved → (id, row) ∈ ledger.rows db →
      row'.status = row.status ∨ ¬ ledger.Needed k row)
    (hsound : ledger.RowsSound k (ledger.rows db)) : ledger.RowsSound k (ledger.rows db') := by
  obtain ⟨hstart, hend⟩ := bounds_of_identity h.identity
  refine ⟨hsound.1, fun x hx => ?_⟩
  rcases rows_of_rewrites h hx with ⟨-, hold⟩ | ⟨rfl, hwritten⟩
  · exact hsound.2 x hold
  · have hrow := hsound.2 _ hwritten
    refine ⟨?_, ?_, hkept hrow.kept, fun hstatus => ?_⟩
    · rw [hstart, hend]
      exact hrow.inspected
    · rw [hstart, hend]
      exact hrow.run
    · rw [Needed, hstart, hend]
      rcases hresolved hstatus hwritten with hsame | hcovered
      · exact hrow.resolved (hsame.symm.trans hstatus)
      · exact hcovered

theorem claimGap_keeps {gap : DataGap} {rest : List DataGap} :
    ledger.Keeps k (Remaining ledger k rest) (DerivedProgram.claimGap gap)
      fun _ => Remaining ledger k rest := by
  unfold DerivedProgram.claimGap
  split
  · have hbegin : ∀ attemptedAt, ledger.Keeps k (Remaining ledger k rest)
        (DerivedProgram.onGaps (beginRepair gap.gapId attemptedAt))
        fun _ => Remaining ledger k rest := by
      intro attemptedAt
      refine Keeps.onGaps fun db result h hsound hremaining => ?_
      obtain ⟨row, row', hrewrites, rfl | ⟨hopen, hclaimed⟩⟩ := beginRepair_eq_ok h
      · exact ⟨sound_of_rewrites hrewrites id (fun _ _ => Or.inl rfl) hsound,
          remaining_of_rewrites hrewrites Iff.rfl hremaining⟩
      · refine ⟨sound_of_rewrites hrewrites (fun _ => ?_) (fun hresolved _ => ?_) hsound,
          remaining_of_rewrites hrewrites ?_ hremaining⟩
        · rw [hclaimed]
          decide
        · rw [hclaimed] at hresolved
          cases hresolved
        · rw [hopen, hclaimed]
          decide
    exact Keeps.read.bind fun _ => Keeps.read.bind fun attemptedAt =>
      (hbegin attemptedAt).bind fun _ => Keeps.pure fun _ _ h => h
  · exact Keeps.pure fun _ _ h => h

/-- Exact coverage resolves a gap that contains nothing missing. -/
theorem completeRepair_keeps (hregular : schedule.Regular) {gap : DataGap} {rest : List DataGap}
    {actual expected : List TradingInterval}
    (hactual : actual = k.observed.filter (TradingInterval.Within gap.startAt gap.endAt))
    (hexpected : schedule.expectedIntervals gap.startAt gap.endAt ledger.series.timeframe
      = .ok expected) (hcovered : actual = expected)
    {completedAt : Instant} {coverage : GapRepairCoverage}
    (hcoverage : coverage.toGapRepairCoverageFields
      = ⟨ledger.series, gap.startAt, gap.endAt, actual, completedAt, true⟩)
    {db : PlatformDatabase} {result : DataGap × PlatformDatabase}
    (h : completeRepair schedule gap.gapId coverage db = .ok result)
    (hsound : ledger.RowsSound k (ledger.rows db))
    (hremaining : Remaining ledger k (gap :: rest) (ledger.rows db)) :
    ledger.RowsSound k (ledger.rows result.2) ∧
      Remaining ledger k rest (ledger.rows result.2) := by
  obtain ⟨row, row', expected', hrewrites, hstart, hend, hexpected', hresolved, -⟩ :=
    completeRepair_eq_ok h
  simp only [hcoverage] at hstart hend hexpected' hresolved
  rw [← hstart, ← hend] at hexpected'
  cases hexpected.symm.trans hexpected'
  have hstatus : row'.status = .resolved := hresolved.2 ⟨trivial, hcovered⟩
  -- in a row of the ledger nothing is missing between the ends of the gap
  have hnothing : (gap.gapId, row) ∈ ledger.rows db → ¬ ledger.Needed k row := by
    rintro hrow ⟨i, hi, hwithin, hmissing⟩
    have hinspected := (hsound.2 _ hrow).inspected
    have heq := expected_eq hregular (ledger.opened.trans (hstart ▸ hinspected.1))
      ((hend ▸ hinspected.2).trans hsound.1) hexpected
    rw [← hstart, ← hend] at hwithin
    have hmember : i ∈ actual := by
      rw [hcovered, heq]
      exact List.mem_filter.2 ⟨hi, decide_eq_true hwithin⟩
    rw [hactual] at hmember
    exact hmissing (List.mem_filter.1 hmember).1
  refine ⟨sound_of_rewrites hrewrites (fun _ => by rw [hstatus]; decide)
    (fun _ hrow => Or.inr (hnothing hrow)) hsound, fun i hi hwithin hmissing => ?_,
    fun x hx hunresolved => ?_⟩
  · obtain ⟨x, hx, hunresolved, hinside⟩ := hremaining.1 i hi hwithin hmissing
    rcases rows_rewrites hrewrites hx with ⟨-, hkept⟩ | ⟨rfl, -⟩
    · exact ⟨x, hkept, hunresolved, hinside⟩
    · exact absurd ⟨i, hi, hinside, hmissing⟩ (hnothing hx)
  · rcases rows_of_rewrites hrewrites hx with ⟨hother, hold⟩ | ⟨rfl, -⟩
    · rcases hremaining.2 x hold hunresolved with hneeded | ⟨other, hother', hreads⟩
      · exact Or.inl hneeded
      · rcases List.mem_cons.1 hother' with rfl | hrest
        · exact absurd hreads.1.symm hother
        · exact Or.inr ⟨other, hrest, hreads⟩
    · rw [hstatus] at hunresolved
      exact absurd hunresolved (by decide)

end Resolving

/-! ### Reconciling -/

section Reconciling

variable [ContentHasher] {schedule : ExchangeSchedule} {ledger : SessionLedger schedule}
  {k : Inspection}

omit [ContentHasher] in
theorem grid_ordered : ledger.grid.Pairwise fun a b => a.key < b.key := by
  refine sessionIntervals_pairwise.imp fun {a b} hab => ?_
  exact Prod.Lex.toLex_lt_toLex.2 (Or.inl (a.positive.trans_le hab))

/-- The observed intervals are the expected ones in order, or some of them. -/
structure ObservesExpected (ledger : SessionLedger schedule) (k : Inspection) : Prop where
  ordered : k.observed.Pairwise fun a b => a.key < b.key
  expected : ∀ i ∈ k.observed, i ∈ ledger.grid

/-- A gap whose observed intervals are not the expected ones contains a missing interval. -/
theorem needed_of_ne (hobserves : ObservesExpected ledger k) {row : GapRow}
    (hne : k.observed.filter (TradingInterval.Within row.gapStartAt row.gapEndAt)
      ≠ ledger.grid.filter (TradingInterval.Within row.gapStartAt row.gapEndAt)) :
    ledger.Needed k row := by
  by_contra hnothing
  refine hne (eq_of_ordered (hobserves.ordered.filter _) (grid_ordered.filter _) fun i => ?_)
  simp only [List.mem_filter, decide_eq_true_eq]
  constructor
  · rintro ⟨hi, hwithin⟩
    exact ⟨hobserves.expected i hi, hwithin⟩
  · rintro ⟨hi, hwithin⟩
    by_contra hmissing
    exact hnothing ⟨i, hi, hwithin, fun hobserved => hmissing ⟨hobserved, hwithin⟩⟩

/-- Where the gap in turn contains a missing interval, its turn is over. -/
theorem remaining_of_turn {gap : DataGap} {rest : List DataGap} {rows : Set (String × GapRow)}
    (hturn : ∀ x ∈ rows, Reads gap x → ledger.Needed k x.2)
    (h : Remaining ledger k (gap :: rest) rows) : Remaining ledger k rest rows := by
  refine ⟨h.1, fun x hx hunresolved => ?_⟩
  rcases h.2 x hx hunresolved with hneeded | ⟨other, hother, hreads⟩
  · exact Or.inl hneeded
  · rcases List.mem_cons.1 hother with rfl | hrest
    · exact Or.inl (hturn x hx hreads)
    · exact Or.inr ⟨other, hrest, hreads⟩

theorem reconcileGap_keeps (hregular : schedule.Regular) (hobserves : ObservesExpected ledger k)
    (gap : DataGap) (rest : List DataGap) :
    ledger.Keeps k (Remaining ledger k (gap :: rest))
      (DerivedProgram.reconcileGap schedule ledger.series ledger.startAt k.endAt k.observed gap)
      fun _ => Remaining ledger k rest := by
  unfold DerivedProgram.reconcileGap
  split
  · next houtside =>
      -- every row of the ledger lies in the inspected range
      refine Keeps.pure fun rows hsound => remaining_of_turn fun x hx hreads => ?_
      obtain ⟨hstart, hend⟩ := (hsound.2 x hx).inspected
      rw [← hreads.2.1] at hstart
      rw [← hreads.2.2] at hend
      rcases houtside with hbefore | hafter
      · exact absurd hbefore (not_lt.2 hstart)
      · exact absurd hafter (not_lt.2 hend)
  · refine Keeps.pureExcept.bind fun expected => Keeps.of_fact fun hexpected => ?_
    dsimp only
    split
    · next hne =>
        refine Keeps.pure fun rows hsound => remaining_of_turn fun x hx hreads => ?_
        obtain ⟨hstart, hend⟩ := (hsound.2 x hx).inspected
        rw [hreads.2.1, hreads.2.2] at hexpected hne
        rw [expected_eq hregular (ledger.opened.trans hstart) (hend.trans hsound.1) hexpected] at hne
        exact needed_of_ne hobserves hne
    · next hcovered =>
        unfold DerivedProgram.resolveGap
        refine claimGap_keeps.bind fun _ => Keeps.read.bind fun _ => Keeps.read.bind
          fun completedAt => Keeps.pureExcept.bind fun coverage => Keeps.of_fact fun hcoverage => ?_
        obtain ⟨_, hfields⟩ := validated_eq_ok.1 hcoverage
        refine Keeps.bind (Keeps.onGaps fun db result h hsound hremaining => ?_)
          fun _ => Keeps.pure fun _ _ h => h
        exact completeRepair_keeps hregular rfl hexpected (not_not.1 hcovered)
          (congrArg GapRepairCoverage.toGapRepairCoverageFields hfields).symm h hsound hremaining

/-- What a completed call leaves of the ledger: each missing interval of the inspected range lies in
an unresolved gap, each unresolved gap contains a missing interval, every gap is a nonempty run of
contiguous expected intervals, and no gap is resolved while one of its intervals is missing. -/
structure LedgerSound (k : Inspection) (expected : List TradingInterval)
    (rows : Set (String × GapRow)) : Prop where
  covered : ∀ i ∈ expected, i ∉ k.observed →
    ∃ x ∈ rows, x.2.status.Unresolved ∧ i.Within x.2.gapStartAt x.2.gapEndAt
  needed : ∀ x ∈ rows, x.2.status.Unresolved →
    ∃ i ∈ expected, i.Within x.2.gapStartAt x.2.gapEndAt ∧ i ∉ k.observed
  runs : ∀ x ∈ rows, IsRun expected x.2.gapStartAt x.2.gapEndAt
  resolved : ∀ x ∈ rows, x.2.status = .resolved →
    ∀ i ∈ expected, i.Within x.2.gapStartAt x.2.gapEndAt → i ∈ k.observed

/-- What lies in a gap of the ledger lies in the inspected range. -/
theorem inspected_of_within {row : GapRow} (h : ledger.RowSound k row) {i : TradingInterval}
    (hi : i.Within row.gapStartAt row.gapEndAt) : i.Within ledger.startAt k.endAt :=
  ⟨h.inspected.1.trans hi.1, hi.2.trans h.inspected.2⟩

/-- The ledger when nothing remains to be done. -/
theorem ledgerSound_of_remaining {rows : Set (String × GapRow)} (hsound : ledger.RowsSound k rows)
    (hremaining : Remaining ledger k [] rows) :
    LedgerSound k (ledger.grid.filter (TradingInterval.Within ledger.startAt k.endAt)) rows where
  covered i hi hmissing :=
    have hexpected := List.mem_filter.1 hi
    hremaining.1 i hexpected.1 (of_decide_eq_true hexpected.2) hmissing
  needed x hx hunresolved := by
    rcases hremaining.2 x hx hunresolved with ⟨i, hi, hwithin, hmissing⟩ | ⟨_, hnone, -⟩
    · have hinside := inspected_of_within (hsound.2 x hx) hwithin
      exact ⟨i, List.mem_filter.2 ⟨hi, decide_eq_true hinside⟩, hwithin, hmissing⟩
    · cases hnone
  runs x hx := by
    obtain ⟨group, hne, hgrid, hchain, hfirst, hlast⟩ := (hsound.2 x hx).run
    refine ⟨group, hne, fun i hi => List.mem_filter.2 ⟨hgrid i hi, ?_⟩, hchain, hfirst, hlast⟩
    exact decide_eq_true
      (inspected_of_within (hsound.2 x hx) (within_of_chain hchain hfirst hlast hi))
  resolved x hx hresolved i hi hwithin := by
    by_contra hmissing
    exact (hsound.2 x hx).resolved hresolved ⟨i, (List.mem_filter.1 hi).1, hwithin, hmissing⟩

/-- The ledger is sound for what the calendar expects of the inspected range. -/
def Synchronized (ledger : SessionLedger schedule) (k : Inspection)
    (rows : Set (String × GapRow)) : Prop :=
  ∃ expected, schedule.expectedIntervals ledger.startAt k.endAt ledger.series.timeframe
    = .ok expected ∧ LedgerSound k expected rows

theorem synchronizeGaps_keeps (hregular : schedule.Regular) (hend : k.endAt ≤ ledger.session.closeAt) :
    ledger.Keeps k (fun _ => True)
      (DerivedProgram.synchronizeGaps schedule ledger.experimentHash ledger.series ledger.startAt
        k.endAt k.events)
      fun _ => Synchronized ledger k := by
  unfold DerivedProgram.synchronizeGaps
  refine Keeps.read.bind fun detectedAt => Keeps.pureExcept.bind fun detections =>
    Keeps.of_fact fun hdetections => ?_
  obtain ⟨expected, hexpected, hordered, hobserved, hdetects, hdetected⟩ :=
    detectDataGaps_eq_ok hdetections
  have heq := expected_eq hregular ledger.opened hend hexpected
  rw [heq] at hobserved hdetects hdetected
  have hobserves : ObservesExpected ledger k :=
    ⟨hordered, fun i hi => (List.mem_filter.1 (hobserved i hi)).1⟩
  -- each detection is recorded in its turn
  have hrecord : ∀ d rest, ledger.Keeps k
      (fun rows => RecordedBut detections (d :: rest) rows ∧ ∀ e ∈ d :: rest, e ∈ detections)
      (DerivedProgram.recordDetection schedule d)
      fun _ rows => RecordedBut detections rest rows ∧ ∀ e ∈ rest, e ∈ detections := by
    intro d rest
    refine Keeps.of_fact fun hturns => Keeps.read.bind fun _ =>
      Keeps.onGaps fun db result h hsound hrecorded => ?_
    obtain ⟨hsound', hrecorded'⟩ :=
      recordGap_keeps (hdetects d (hturns d List.mem_cons_self)) h hsound hrecorded
    exact ⟨hsound', hrecorded', fun e he => hturns e (List.mem_cons_of_mem _ he)⟩
  have hlist : ∀ gaps : List DataGap, ledger.Keeps k (Remaining ledger k gaps)
      (Program.forEach (DerivedProgram.reconcileGap schedule ledger.series ledger.startAt k.endAt
        k.observed) gaps) fun _ => Remaining ledger k [] :=
    Keeps.forEach (reconcileGap_keeps hregular hobserves)
  have hrecorded : ledger.Keeps k (fun _ => True)
      (Program.forEach (DerivedProgram.recordDetection schedule) detections)
      fun _ => ledger.Covered k := by
    refine Program.Upholds.weaken ((Keeps.forEach hrecord detections).strengthen ?_) ?_
    · exact fun s _ hs => ⟨hs.1, fun d hd => Or.inl hd, fun d hd => hd⟩
    · rintro (e | a) s hs
      · exact hs
      · exact ⟨hs.1, covered_of_recorded hdetected hs.2.1⟩
  have hread : ledger.Keeps k (ledger.Covered k)
      (DerivedProgram.onGaps fun db => do
        let gaps ← db.listUnresolved ledger.experimentHash ledger.series
        pure (gaps, db))
      fun gaps => Remaining ledger k gaps := by
    refine Keeps.onGaps fun db result h hsound hcovered => ?_
    obtain ⟨gaps, hgaps, hresult⟩ := bind_eq_ok.1 h
    cases hresult
    exact ⟨hsound, hcovered, fun x hx hunresolved =>
      Or.inr (listUnresolved_reads hgaps x hx hunresolved)⟩
  refine hrecorded.bind fun _ => hread.bind fun gaps => (hlist gaps).bind fun _ =>
    Keeps.pure fun rows hsound hremaining => ?_
  exact ⟨expected, hexpected, heq ▸ ledgerSound_of_remaining hsound hremaining⟩

end Reconciling

/-! ## Runs -/

section Runs

variable [ContentHasher] {schedule : ExchangeSchedule}

/-- Calls over one session: later calls have inspected at least as far and observed at least as
much. The clock, the guard and the database connection are free, as are the rows of other ledgers.
A stop between two calls of the database loses nothing that is stored. -/
def lifecycle (ledger : SessionLedger schedule) :
    Lifecycle DerivedWorld PlatformError Unit Inspection where
  program k := DerivedProgram.synchronizeGaps schedule ledger.experimentHash ledger.series
    ledger.startAt k.endAt k.events
  follows k k' := k.endAt ≤ k'.endAt ∧ k'.endAt ≤ ledger.session.closeAt ∧
    ∀ i ∈ k.observed, i ∈ k'.observed
  environment := ledger.Around
  stops s t := s = t

/-- The runs of the processor that begin with an empty ledger. -/
def runs (ledger : SessionLedger schedule) :
    Transition (Process DerivedWorld PlatformError Unit Inspection) ProcessLabel :=
  ledger.lifecycle.runs fun w k => ledger.rows w.db = ∅ ∧ k.endAt ≤ ledger.session.closeAt

variable {ledger : SessionLedger schedule}

/-- What held of the ledger holds when more is inspected and observed. -/
theorem RowsSound.follows {k k' : Inspection} {rows : Set (String × GapRow)}
    (h : ledger.RowsSound k rows) (hk : ledger.lifecycle.follows k k') :
    ledger.RowsSound k' rows := by
  obtain ⟨hfurther, hclose, hmore⟩ := hk
  refine ⟨hclose, fun x hx => ?_⟩
  have hrow := h.2 x hx
  refine ⟨⟨hrow.inspected.1, hrow.inspected.2.trans hfurther⟩, hrow.run, hrow.kept, ?_⟩
  rintro hresolved ⟨i, hi, hwithin, hmissing⟩
  exact hrow.resolved hresolved ⟨i, hi, hwithin, fun hobserved => hmissing (hmore i hobserved)⟩

theorem maintains (hregular : schedule.Regular) :
    ledger.lifecycle.Maintains ledger.Around (fun k w => ledger.RowsSound k (ledger.rows w.db))
      (fun k => ledger.After k fun _ => Synchronized ledger k) where
  environment _ _ h := h
  stable k := by
    intro s t _ _ hst hs
    rw [← hst]
    exact hs
  proceeds k k' r s hs _ hk := hs.follows hk
  stops k k' s t hs hstop hk := by
    cases hstop
    exact hs.follows hk
  program k := by
    refine Program.Upholds.strengthen
      (K := fun w => k.endAt ≤ ledger.session.closeAt ∧ ledger.Knows k (fun _ => True) w) ?_
      fun w _ hw => ⟨hw.1, hw, trivial⟩
    exact Program.Upholds.of_fact fun hend => synchronizeGaps_keeps hregular hend

/-- In every run over one session, with stops between any two transactions, the ledger is sound after
each call that has come to its end. -/
theorem gaps_sound (hregular : schedule.Regular) (ledger : SessionLedger schedule)
    {c : Process DerivedWorld PlatformError Unit Inspection} (hc : ledger.runs.Reachable c)
    (hdone : c.remaining = .done (.ok ())) :
    ∃ expected,
      schedule.expectedIntervals ledger.startAt c.operation.endAt ledger.series.timeframe
        = .ok expected ∧ LedgerSound c.operation expected (ledger.rows c.state.db) := by
  have hstart : ∀ (w : DerivedWorld) (k : Inspection),
      ledger.rows w.db = ∅ ∧ k.endAt ≤ ledger.session.closeAt →
        ledger.RowsSound k (ledger.rows w.db) := by
    rintro w k ⟨hempty, hend⟩
    refine ⟨hend, fun x hx => ?_⟩
    rw [hempty] at hx
    cases hx
  exact (((maintains hregular).reachable hstart hc).ended hdone).2

end Runs

end SessionLedger

/-! ## A sample -/

namespace SessionLedger

section Sample

local instance ledgerHasher : ContentHasher := polynomialHasher

/-- A schedule with a session of three minutes at the start of every day. -/
def sampleSchedule : ExchangeSchedule where
  marketDate t := t / dayMicroseconds
  sessionBounds date := .ok (some (date * dayMicroseconds, date * dayMicroseconds + seconds 180))
  sessionsInRange first last := .ok ((List.range (last - first + 1).toNat).map fun (n : Nat) => first + n)

theorem sampleSchedule_regular : sampleSchedule.Regular where
  marketDate_mono _ _ h := Int.ediv_le_ediv (by decide) h
  closes date openAt closeAt h := by
    cases h
    show (date * dayMicroseconds + seconds 180) / dayMicroseconds = date
    unfold dayMicroseconds seconds
    omega
  nodup first last labels h := by
    cases h
    exact List.nodup_range.map fun m n hmn => by simpa using hmn
  complete first last labels h date hfirst hlast _ := by
    cases h
    refine List.mem_map.2 ⟨(date - first).toNat, List.mem_range.2 (by omega), by omega⟩

def sampleSeries : DataSeries := ⟨⟨"alpaca", "iex", "raw", "SPY", "1Min"⟩, by decide +kernel⟩

def sampleLedger : SessionLedger sampleSchedule where
  experimentHash := auditGenesisHash
  series := sampleSeries
  date := 0
  session := ⟨⟨0, 0, seconds 180⟩, by decide +kernel⟩
  listed := by rfl
  startAt := 0
  opened := le_rfl

def sampleWorld : DerivedWorld where
  db := { experiments := [auditGenesisHash] }
  clock := seconds 200
  guardError := none
  databaseError := none

/-- The second minute, observed once. -/
def secondMinuteEvents : List StoredBarEvent :=
  let identity : BarIdentity := ⟨Storage.sampleIdentityFields 1, by decide +kernel⟩
  let bar : BarWrite := ⟨Storage.sampleFields identity 100 (seconds 121), by decide +kernel⟩
  match Storage.nextRevision bar none with
  | .ok event => [event]
  | .error _ => []

/-- Two minutes are inspected, of which the first is missing. -/
def sampleInspection : Inspection := ⟨seconds 120, secondMinuteEvents⟩

/-- The call at its end: the clock was read, one gap recorded and the gaps listed. -/
def sampleEnd : Process DerivedWorld PlatformError Unit Inspection :=
  Process.advance^[4]
    ⟨sampleWorld, sampleInspection, sampleLedger.lifecycle.program sampleInspection⟩

/-- The ledger of the sample is sound. -/
theorem gaps_sound_sample :
    ∃ expected, sampleSchedule.expectedIntervals 0 (seconds 120) "1Min" = .ok expected ∧
      LedgerSound sampleInspection expected (sampleLedger.rows sampleEnd.state.db) := by
  have hempty : sampleLedger.rows sampleWorld.db = ∅ :=
    Set.eq_empty_of_forall_notMem fun x hx => by cases hx.1
  have hreachable : sampleLedger.runs.Reachable sampleEnd :=
    Process.reachable_advance (Transition.Reachable.of_init ⟨⟨hempty, by decide⟩, rfl⟩) 4
  obtain ⟨_, hdone⟩ := Process.exists_of_returned (c := sampleEnd)
    (by decide +kernel)
  have hoperation : sampleEnd.operation = sampleInspection := Process.operation_advance _ 4
  have hsound := gaps_sound sampleSchedule_regular sampleLedger hreachable hdone
  rw [hoperation] at hsound
  exact hsound

end Sample

end SessionLedger

end AdaptiveTrader.Readiness
