import AdaptiveTrader.Collection.Coverage

/-!
# Runs of the collector loop

A triple for each program of the collector, from one call up to the loop, and from them the invariant
of every run: as long as gap repairs start where the coverage of every symbol reaches
(`Anchored`), no checkpoint is past an uncovered session instant (`coverage_sound`). A repair that
starts further on leaves a hole behind the checkpoint (`coverage_not_sound`).
-/

set_option autoImplicit false

namespace AdaptiveTrader

open Foundation PostgresMarketDataRepository

namespace CollectorService

variable {κ : Type} [ContentHasher] {service : CollectorService κ} {Φ : CollectorWorld κ → Prop}

/-! ## Collection of one window -/

section Window

theorem requireRunning_keeps (hΦ : Persists Φ) :
    service.Establishes Φ requireRunning fun _ => Φ :=
  .of_growing (growing_read _) hΦ

theorem recordEvent_keeps (hΦ : Persists Φ) : service.Establishes Φ recordEvent fun _ => Φ :=
  .of_growing growing_recordEvent hΦ

/-- What is fetched is kept in the history. -/
theorem fetchWithRetry_fetches (symbols : List String) (start finish : Instant) (attempts : Nat) :
    service.Establishes (fun _ => True) (service.fetchWithRetry symbols start finish attempts)
      fun observations w => ⟨symbols, start, finish, observations⟩ ∈ w.fetches := by
  induction attempts with
  | zero => exact fun w _ hw => ⟨hw.1, fun a ha => by cases ha⟩
  | succ left ih =>
      refine Establishes.bind (requireRunning_keeps Persists.trivial) fun _ => ?_
      refine Establishes.bind (Establishes.attempt (Ψ := fun observations w =>
        ⟨symbols, start, finish, observations⟩ ∈ w.fetches) ?_) ?_
      · refine Establishes.bind (Establishes.atomically (fun _ => persists_fetched _) ?_)
          fun observations => Establishes.bind (requireRunning_keeps (persists_fetched _))
            fun _ => Establishes.pure _ fun _ hw => hw
        intro w _ hsound _
        unfold fetch
        cases hreply : w.outside.fetchReply with
        | error e => exact ⟨hsound, fun a ha => by cases ha⟩
        | ok observations =>
            refine ⟨hsound.grows ⟨⟨fun _ hf => List.mem_cons_of_mem _ hf, fun _ _ h => h⟩, rfl⟩, ?_⟩
            rintro a ⟨rfl⟩
            exact List.mem_cons_self
      · rintro (e | observations)
        · -- the attempt failed: give up, or try again with one attempt less
          refine Establishes.pre ?_ fun _ _ _ => True.intro
          show service.Establishes _ (ite _ _ _) _
          split
          · exact fun w _ hw => ⟨hw.1, fun a ha => by cases ha⟩
          · exact Establishes.bind (recordEvent_keeps Persists.trivial) fun _ =>
              Establishes.bind (requireRunning_keeps Persists.trivial) fun _ => ih
        · exact Establishes.pure _ fun w hw => hw observations rfl

/-- Every observation is in one of the slices that are stored. -/
theorem storeObservations_stores (hΦ : Persists Φ) (observations : List RawBarObservationV2) :
    service.Establishes Φ (service.storeObservations observations)
      fun _ w => Φ w ∧ ∀ o ∈ observations, Stored o w := by
  have hsize : 0 < service.config.databaseBatchSize := by
    have hchecked := service.config.checked
    simp only [CollectorServiceConfigFields.check, bind_eq_ok, rejectIf_eq_ok] at hchecked
    obtain ⟨_, -, _, -, _, hbatch, -⟩ := hchecked
    exact Nat.pos_of_ne_zero hbatch
  refine Establishes.bind (Establishes.forEach (D := fun slice w => ∀ o ∈ slice, Stored o w) ?_)
    fun _ => Establishes.pure _ fun w hw => ⟨hw.1, ?_⟩
  · intro done slice rest _
    have hkept : Persists fun w => Φ w ∧ ∀ i ∈ done, ∀ o ∈ i, Stored o w :=
      hΦ.and (.all fun i => .imp (.all fun o => .imp (persists_stored o)))
    refine Establishes.bind (requireRunning_keeps hkept) fun _ => ?_
    refine Establishes.bind (establishes_appendBatch hkept fun w _ advance hadvance => ?_)
      fun _ => Establishes.pure _ fun w hw => hw
    cases hadvance
  · intro o ho
    obtain ⟨slice, hslice, hmem⟩ := exists_mem_slices hsize ho
    exact hw.2 slice hslice o hmem

omit [ContentHasher] in
/-- A row read by symbol is the row of that symbol. -/
theorem get?_of_checkpointsNamed {name symbol : String} {db : CollectionDb κ} {row : CheckpointRow}
    (h : Dict.lookup symbol (checkpointsNamed name db) = some row) :
    db.checkpoints.get? (coverageKey name symbol) = some row := by
  obtain ⟨⟨key, stored⟩, hentry, hselected⟩ := List.mem_filterMap.1 (Dict.mem_of_lookup h)
  by_cases hkey : key = coverageKey name key.symbol
  · simp only [if_pos hkey, Option.some.injEq, Prod.mk.injEq] at hselected
    obtain ⟨rfl, rfl⟩ := hselected
    rw [hkey] at hentry
    exact Dict.mem_entries_iff.1 hentry
  · simp only [if_neg hkey] at hselected
    cases hselected

/-- The rows that were read bound what their symbols have reached. -/
def Witnessed (service : CollectorService κ) (checkpoints : List (String × CheckpointRow))
    (w : CollectorWorld κ) : Prop :=
  ∀ symbol committed, committedThrough checkpoints symbol = some committed →
    service.Reached symbol committed w

theorem persists_witnessed (checkpoints : List (String × CheckpointRow)) :
    Persists (service.Witnessed checkpoints) :=
  .all fun _ => .all fun _ => .imp (persists_reached _ _)

theorem readCheckpoints_witnesses (hΦ : Persists Φ) :
    service.Establishes Φ service.readCheckpoints
      fun checkpoints w => Φ w ∧ service.Witnessed checkpoints w := by
  refine Establishes.atomically (fun _ => hΦ.and (persists_witnessed _)) fun w _ hsound hw => ?_
  rcases onDatabase_cases (fun _ => Exec.read fun db : CollectionDb κ =>
    .ok (checkpointsNamed service.config.checkpointName db)) w with
    ⟨e, hrefused⟩ | ⟨r, db', hran, hdone⟩
  · rw [hrefused]
    exact ⟨hsound, fun a ha => by cases ha⟩
  · cases hran
    rw [hdone]
    refine ⟨hsound, ?_⟩
    rintro checkpoints ⟨rfl⟩
    refine ⟨hw, fun symbol committed hcommitted => hsound symbol committed ?_⟩
    obtain ⟨row, hrow, hthrough⟩ := Option.bind_eq_some_iff.1 hcommitted
    rw [coverage, get?_of_checkpointsNamed hrow]
    exact hthrough

theorem Reached.max {symbol : String} {a b : Instant} {w : CollectorWorld κ}
    (ha : service.Reached symbol a w) (hb : service.Reached symbol b w) :
    service.Reached symbol (max a b) w := by
  intro t ht hstart hlt
  rcases lt_max_iff.1 hlt with hlt | hlt
  · exact ha t ht hstart hlt
  · exact hb t ht hstart hlt

/-- The advances over a boundary that the symbols have reached are justified. -/
theorem coverageAdvances_justified {symbols : List String} {committed : Instant} (hΦ : Persists Φ)
    (hreached : ∀ w, Φ w → ∀ symbol ∈ symbols, service.Reached symbol committed w)
    (source : String) (observations : List RawBarObservationV2) (windowStart : Option Instant) :
    service.Establishes Φ
      (service.coverageAdvances symbols committed source observations windowStart)
      fun advances w => Φ w ∧ service.Justified advances w := by
  refine Establishes.bind (readCheckpoints_witnesses hΦ) fun checkpoints => ?_
  refine Establishes.pure _ fun w hw => ⟨hw.1, ?_⟩
  intro advance hadvance
  obtain ⟨symbol, hsymbol, rfl⟩ := List.mem_map.1 hadvance
  refine ⟨symbol, rfl, (hreached w hw.1 symbol hsymbol).max ?_⟩
  cases hread : committedThrough checkpoints symbol with
  | none => exact hreached w hw.1 symbol hsymbol
  | some stored => exact hw.2 symbol stored hread

theorem persists_justified (advances : List CoverageAdvance) :
    Persists (service.Justified advances) := by
  intro s t h hs advance hadvance
  obtain ⟨symbol, hkey, hreached⟩ := hs advance hadvance
  exact ⟨symbol, hkey, persists_reached symbol _ s t h hreached⟩

/-- A window that starts where the coverage of the batch reaches is covered, and the batch advances
past it. -/
theorem collectWindow_covers {window : Instant × Instant} {requested : List String}
    (hΦ : Persists Φ)
    (hreached : ∀ w, Φ w → ∀ symbol ∈ requested, service.Reached symbol window.1 w)
    (source : String) :
    service.Establishes Φ (service.collectWindow source window requested)
      fun _ w => Φ w ∧ CoversWindow requested window w := by
  have hcovered : Persists fun w => Φ w ∧ CoversWindow requested window w :=
    hΦ.and (persists_coversWindow requested window)
  refine Establishes.bind (requireRunning_keeps hΦ) fun _ => ?_
  refine Establishes.bind (((fetchWithRetry_fetches requested window.1 window.2 _).frame
    (growing_fetchWithRetry service _ _ _ _) hΦ).pre fun w _ hw => ⟨True.intro, hw⟩)
    fun observations => ?_
  refine Establishes.bind ((storeObservations_stores
    ((persists_fetched _).and hΦ) observations).post (Θ := fun _ w =>
      Φ w ∧ CoversWindow requested window w) ?_) fun _ => ?_
  · rintro _ w ⟨⟨hfetched, hw⟩, hstored⟩
    exact ⟨hw, fun symbol hsymbol t hstart hfinish =>
      ⟨_, hfetched, hsymbol, hstart, hfinish, hstored⟩⟩
  refine Establishes.bind (requireRunning_keeps hcovered) fun _ => ?_
  have hbound : ∀ w, Φ w ∧ CoversWindow requested window w → ∀ symbol ∈ requested,
      service.Reached symbol window.2 w := by
    rintro w ⟨hw, hcovers⟩ symbol hsymbol t ht hstart hlt
    rcases lt_or_ge t window.1 with hbefore | hinside
    · exact hreached w hw symbol hsymbol t ht hstart hbefore
    · exact hcovers symbol hsymbol t hinside hlt
  refine Establishes.bind (coverageAdvances_justified hcovered hbound source observations
    (some window.1)) fun advances => ?_
  refine Establishes.bind ((establishes_appendBatch (hcovered.and (persists_justified advances))
    fun w hw => hw.2).post fun _ w hw => hw.1.1) fun _ => ?_
  exact Establishes.bind (requireRunning_keeps hcovered) fun _ => recordEvent_keeps hcovered

/-- Every symbol of the universe is in one of the batches. -/
theorem collectBatches_covers {window : Instant × Instant} (hΦ : Persists Φ)
    (hreached : ∀ w, Φ w → ∀ symbol ∈ collectionUniverseSymbols,
      service.Reached symbol window.1 w) (source : String) :
    service.Establishes Φ (service.collectBatches source window)
      fun _ w => Φ w ∧ CoversWindow collectionUniverseSymbols window w := by
  have hsize : 0 < service.config.apiSymbolBatchSize := by
    have hchecked := service.config.checked
    simp only [CollectorServiceConfigFields.check, bind_eq_ok, rejectIf_eq_ok] at hchecked
    obtain ⟨_, -, _, hbatch, -⟩ := hchecked
    exact Nat.pos_of_ne_zero hbatch
  refine Establishes.bind (Establishes.forEach (D := fun batch w => CoversWindow batch window w) ?_)
    fun _ => Establishes.pure _ fun w hw => ⟨hw.1, ?_⟩
  · intro done batch rest hbatches
    refine collectWindow_covers (hΦ.and (.all fun i => .imp (persists_coversWindow i window))) ?_
      source
    intro w hw symbol hsymbol
    have hbatch : batch ∈ slices service.config.apiSymbolBatchSize collectionUniverseSymbols := by
      rw [hbatches]
      exact List.mem_append_right _ List.mem_cons_self
    exact hreached w hw.1 symbol (mem_of_mem_slices hbatch hsymbol)
  · intro symbol hsymbol
    obtain ⟨batch, hbatch, hmem⟩ := exists_mem_slices hsize hsymbol
    exact hw.2 batch hbatch symbol hmem

end Window

/-! ## Collection of a range -/

section Range

/-- Covered windows of a range carry the coverage from the start of the range to its end. -/
theorem reached_of_windows {symbol : String} {start finish : Instant} {w : CollectorWorld κ}
    (hsymbol : symbol ∈ collectionUniverseSymbols) (hstart : service.Reached symbol start w)
    (hwindows : ∀ window ∈ sessionWindows service.calendar start finish,
      CoversWindow collectionUniverseSymbols window w) : service.Reached symbol finish w := by
  intro t ht hhistory hlt
  rcases lt_or_ge t start with hbefore | hinside
  · exact hstart t ht hhistory hbefore
  · obtain ⟨window, hwindow, hfrom, hto⟩ := exists_window ht hinside hlt
    exact hwindows window hwindow symbol hsymbol t hfrom hto

/-- No session instant lies between the windows that are done and the next one. -/
theorem reached_next_window {symbol : String} {start finish : Instant} {w : CollectorWorld κ}
    {done rest : List (Instant × Instant)} {window : Instant × Instant}
    (hsplit : sessionWindows service.calendar start finish = done ++ window :: rest)
    (hsymbol : symbol ∈ collectionUniverseSymbols) (hstart : service.Reached symbol start w)
    (hdone : ∀ window ∈ done, CoversWindow collectionUniverseSymbols window w) :
    service.Reached symbol window.1 w := by
  intro t ht hhistory hlt
  rcases lt_or_ge t start with hbefore | hinside
  · exact hstart t ht hhistory hbefore
  have hwindow : window ∈ sessionWindows service.calendar start finish := by
    rw [hsplit]
    exact List.mem_append_right _ List.mem_cons_self
  obtain ⟨other, hother, hfrom, hto⟩ :=
    exists_window ht hinside (hlt.trans ((sessionWindows_proper hwindow).trans_le
      (sessionWindows_le hwindow)))
  rw [hsplit] at hother
  have hordered := sessionWindows_ordered service.calendar start finish
  rw [hsplit, List.pairwise_append] at hordered
  rcases List.mem_append.1 hother with hearlier | hlater
  · exact hdone other hearlier symbol hsymbol t hfrom hto
  · -- this window or a later one begins after `t`
    rcases List.mem_cons.1 hlater with rfl | hrest
    · exact absurd hfrom (not_le.2 hlt)
    · have hafter : window.2 ≤ other.1 := (List.pairwise_cons.1 hordered.2.1).1 other hrest
      exact absurd (((sessionWindows_proper hwindow).trans_le hafter).trans_le hfrom)
        (not_lt.2 hlt.le)

theorem advanceNonTrading_keeps {finish : Instant} (hΦ : Persists Φ)
    (hreached : ∀ w, Φ w → ∀ symbol ∈ collectionUniverseSymbols, service.Reached symbol finish w) :
    service.Establishes Φ (service.advanceNonTrading finish) fun _ => Φ := by
  refine Establishes.bind (requireRunning_keeps hΦ) fun _ => ?_
  refine Establishes.bind (coverageAdvances_justified hΦ hreached _ _ _) fun advances => ?_
  exact Establishes.bind (establishes_appendBatch (hΦ.and (persists_justified advances))
    fun w hw => hw.2) fun _ => Establishes.pure _ fun w hw => hw.1.1

/-- A range that starts where the coverage of every symbol reaches keeps the checkpoints sound. -/
theorem backfillRange_keeps {start finish : Instant} (hΦ : Persists Φ)
    (hreached : ∀ w, Φ w → ∀ symbol ∈ collectionUniverseSymbols, service.Reached symbol start w)
    (source : String) :
    service.Establishes Φ (service.backfillRange start finish source) fun _ => Φ := by
  have hwindows : Persists fun w => Φ w ∧
      ∀ window ∈ sessionWindows service.calendar start finish,
        CoversWindow collectionUniverseSymbols window w :=
    hΦ.and (.all fun window => .imp (persists_coversWindow collectionUniverseSymbols window))
  refine Establishes.pureExcept_bind fun _ _ => ?_
  refine Establishes.bind (Establishes.forEach (D := fun window w =>
    CoversWindow collectionUniverseSymbols window w) ?_) fun _ => ?_
  · intro done window rest hsplit
    refine collectBatches_covers (hΦ.and (.all fun window =>
      .imp (persists_coversWindow collectionUniverseSymbols window))) ?_ source
    intro w hw symbol hsymbol
    exact reached_next_window hsplit hsymbol (hreached w hw.1 symbol hsymbol) hw.2
  · split
    · refine (advanceNonTrading_keeps hwindows fun w hw symbol hsymbol => ?_).post fun _ w hw => hw.1
      exact reached_of_windows hsymbol (hreached w hw.1 symbol hsymbol) hw.2
    · exact Establishes.pure _ fun w hw => hw.1

end Range

/-! ## Turns of the loop -/

section Turns

/-- Reconciliation resumes where every symbol has reached. -/
theorem resumeStart_reached {historyStart start : Instant}
    {checkpoints : List (String × CheckpointRow)} {w : CollectorWorld κ} {symbol : String}
    (hresume : service.resumeStart (some historyStart) checkpoints = .ok start)
    (hhistory : historyStart ≤ service.historyStart) (hw : service.Witnessed checkpoints w)
    (hsymbol : symbol ∈ collectionUniverseSymbols) : service.Reached symbol start w := by
  simp only [resumeStart, bind_eq_ok, rejectIf_eq_ok, require_eq_ok, pure_eq_ok] at hresume
  obtain ⟨_, -, starts, hstarts, resumed, hresumed, rfl⟩ := hresume
  obtain ⟨bound, hbound, hsource⟩ := exists_mem_of_collect hstarts hsymbol
  have hle : resumed ≤ bound := (List.min?_eq_some_iff.1 hresumed).2 bound hbound
  intro t ht hstart hlt
  have hearly : t < resumed := by
    rcases lt_max_iff.1 hlt with hresumed | hbefore
    · exact hresumed
    · exact absurd (hbefore.trans_le hhistory) (not_lt.2 hstart)
  cases hread : committedThrough checkpoints symbol with
  | none =>
      rw [hread] at hsource
      cases hsource
      exact absurd ((hearly.trans_le hle).trans_le hhistory) (not_lt.2 hstart)
  | some committed =>
      rw [hread] at hsource
      cases hsource
      refine hw symbol committed hread t ht hstart ((hearly.trans_le hle).trans_le ?_)
      exact sub_le_self _ (minutes_nonneg _)

theorem reconcileOnce_keeps :
    service.Establishes (fun _ => True) (service.reconcileOnce (some service.historyStart))
      fun _ _ => True := by
  refine Establishes.bind (.of_growing (growing_read _) Persists.trivial) fun now => ?_
  refine Establishes.bind (readCheckpoints_witnesses Persists.trivial) fun checkpoints => ?_
  refine Establishes.pureExcept_bind fun _ _ => Establishes.pureExcept_bind fun start hresume => ?_
  refine Establishes.pureExcept_bind fun _ _ => ?_
  split
  · refine (backfillRange_keeps (Φ := service.Witnessed checkpoints) (persists_witnessed _) ?_ _).conseq
      (fun w _ hw => hw.2) fun _ _ _ => True.intro
    intro w hw symbol hsymbol
    exact resumeStart_reached hresume le_rfl hw hsymbol
  · exact Establishes.pure _ fun _ _ => True.intro

theorem persists_reachesGap (window : HistoricalRepairWindow) :
    Persists (service.ReachesGap window) :=
  .all fun _ => .imp (persists_reached _ _)

theorem repairGapWindow_keeps (window : HistoricalRepairWindow) :
    service.Establishes (service.ReachesGap window) (service.repairGapWindow window)
      fun _ _ => True := by
  have hgap : Persists (service.ReachesGap window) := persists_reachesGap window
  refine Establishes.bind (.of_growing (growing_read _) hgap) fun _ => ?_
  refine Establishes.bind (.of_growing (growing_read _) hgap) fun _ => ?_
  refine Establishes.pureExcept_bind fun _ _ => ?_
  refine Establishes.bind (.of_growing (growing_read _) hgap) fun now => ?_
  refine Establishes.pureExcept_bind fun _ _ => ?_
  refine Establishes.bind (recordEvent_keeps hgap) fun _ => ?_
  refine Establishes.bind (backfillRange_keeps hgap (fun w hw => hw) _) fun _ => ?_
  exact (recordEvent_keeps hgap).post fun _ _ _ => True.intro

/-- The gap that is selected is recorded, so every symbol reaches it. -/
theorem nextGapRepair_reaches :
    service.Establishes (fun _ => True) service.nextGapRepair
      fun selected w => ∀ window, selected = some window → service.ReachesGap window w := by
  refine Establishes.atomically
    (fun _ => .all fun window => .imp (persists_reachesGap window)) fun w hanchored hsound _ => ?_
  cases w.outside.databaseError with
  | some e =>
      dsimp only
      exact ⟨hsound, fun a ha => by cases ha⟩
  | none =>
      dsimp only
      refine ⟨hsound, ?_⟩
      rintro selected ⟨rfl⟩ window hwindow
      obtain ⟨hselected, hrecorded⟩ := Option.filter_eq_some_iff.1 hwindow
      exact hanchored window (of_decide_eq_true hrecorded).1 hselected

theorem repairGapOnce_keeps :
    service.Establishes (fun _ => True) service.repairGapOnce fun _ _ => True := by
  refine Establishes.bind (.of_growing (growing_read _) Persists.trivial) fun stopped => ?_
  split
  · exact Establishes.pure _ fun _ _ => True.intro
  · refine Establishes.bind nextGapRepair_reaches fun selected => ?_
    cases selected with
    | none => exact Establishes.pure _ fun _ _ => True.intro
    | some window =>
        refine Establishes.bind ((Establishes.of_growing (growing_read _)
          (persists_reachesGap window)).pre fun w _ hw => hw window rfl) fun _ => ?_
        exact repairGapWindow_keeps window

theorem collectorLoop_keeps (tasks : List CollectorTask) :
    service.Establishes (fun _ => True) (service.collectorLoop tasks) fun _ _ => True := by
  refine (Establishes.forEach (D := fun _ _ => True) fun done task rest _ => ?_).post
    fun _ _ _ => True.intro
  have hturn : service.Establishes (fun _ => True) (service.perform task) fun _ _ => True := by
    cases task with
    | reconcile => exact reconcileOnce_keeps
    | repair => exact repairGapOnce_keeps
  exact (Establishes.attempt hturn).conseq (fun _ _ _ => True.intro)
    fun _ _ _ => ⟨⟨True.intro, fun _ _ => True.intro⟩, True.intro⟩

end Turns

/-! ## Runs -/

section Runs

/-- What happens around the programs: time passes, the derived processor records gaps, and live
observations are stored. The lease, the shutdown flag, the canonical tables and the answers of the
provider and of the database are free. -/
structure Surroundings (service : CollectorService κ) (s t : CollectorWorld κ) : Prop where
  clock : s.outside.clock ≤ t.outside.clock
  gaps : ∀ gap ∈ t.gaps, gap ∈ s.gaps ∨ service.RecordsGap s gap
  fetches : t.fetches = s.fetches
  checkpoints : t.db.checkpoints = s.db.checkpoints
  observations : (t.db.barObservations = s.db.barObservations ∧
      t.db.currentBars = s.db.currentBars) ∨
    ∃ observations token now result db',
      PostgresMarketDataRepository.appendBatch service.platform service.canonical observations token
        [] now s.db = (.ok result, db') ∧
      t.db.barObservations = db'.barObservations ∧ t.db.currentBars = db'.currentBars

/-- Nothing is stored, recorded or fetched yet. -/
structure EmptyStore (w : CollectorWorld κ) : Prop where
  gaps : w.gaps = []
  fetches : w.fetches = []
  barObservations : w.db.barObservations = Dict.empty
  currentBars : w.db.currentBars = Dict.empty
  checkpoints : w.db.checkpoints = Dict.empty

/-- The loop taking turns with its surroundings, through allowed states. -/
def runs (service : CollectorService κ) (allowed : CollectorWorld κ → Prop)
    (tasks : List CollectorTask) :
    Transition (Interleaved (CollectorWorld κ) PlatformError (List (Except PlatformError Unit)) Unit)
      (Option Unit) :=
  interleaved allowed service.Surroundings EmptyStore fun _ => service.collectorLoop tasks

theorem Surroundings.grows {s t : CollectorWorld κ} (h : service.Surroundings s t) : Grows s t := by
  refine ⟨⟨fun f hf => h.fetches ▸ hf, fun id row hrow => ?_⟩, h.checkpoints⟩
  rcases h.observations with ⟨hsame, -⟩ | ⟨_, _, _, _, db', hlive, htable, -⟩
  · rw [hsame]
    exact hrow
  · rw [htable, (appendBatch_eq_ok hlive).2.1]
    exact writeObservations_get? hrow

theorem EmptyStore.sound {w : CollectorWorld κ} (h : EmptyStore w) : service.Sound w := by
  intro symbol committed hcoverage
  rw [coverage, h.checkpoints] at hcoverage
  cases hcoverage

/-- In every run in which each gap selected for repair starts where the coverage of every symbol
reaches, no checkpoint is ever past an uncovered session instant. -/
theorem coverage_sound (service : CollectorService κ) (tasks : List CollectorTask)
    {c : Interleaved (CollectorWorld κ) PlatformError (List (Except PlatformError Unit)) Unit}
    (hc : (service.runs service.Anchored tasks).Reachable c) : service.Sound c.state :=
  Guarded.solo_invariant (K := fun w => service.Sound w ∧ True) (R := Grows)
    (fun _ _ h => h.grows) Persists.trivial.stable (fun _ h => ⟨h.sound, True.intro⟩)
    (collectorLoop_keeps tasks) (fun _ h => h.sound) (fun _ _ _ h hs => hs.grows h.grows)
    (fun _ _ h _ => h) hc

end Runs

end CollectorService

/-! ## A hole behind the checkpoint -/

namespace CollectorService

section Sample

local instance holeHasher : ContentHasher := polynomialHasher

/-- The defaults, with two requests for the symbols of a window. -/
def holeConfig : CollectorServiceConfig where
  checkpointName := "rest_coverage"
  reconciliationOverlapMinutes := 5
  completedBarLagMinutes := 2
  apiSymbolBatchSize := 15
  databaseBatchSize := 750
  restMaxAttempts := 6
  checked := by decide

/-- One session of thirty minutes. -/
def holeCalendar : SessionCalendar where
  sessionsInRange start finish :=
    if 0 < finish ∧ start < minutes 30 then [(0, minutes 30)] else []
  ordered start finish := by
    split
    · exact List.pairwise_singleton _ _
    · exact List.Pairwise.nil
  complete start finish start' finish' session hsession hopen hclose := by
    have hsame : session = (0, minutes 30) := by
      by_cases hin : 0 < finish' ∧ start' < minutes 30
      · rw [if_pos hin] at hsession
        exact List.mem_singleton.1 hsession
      · rw [if_neg hin] at hsession
        cases hsession
    subst hsame
    rw [if_pos ⟨hopen, hclose⟩]
    exact List.mem_singleton_self _

/-- A service that never repeats a failed request. -/
def holeService : CollectorService Unit where
  config := holeConfig
  platform := ⟨fun _ => true, fun _ _ _ => .ok ()⟩
  canonical := false
  calendar := holeCalendar
  isRetryable _ := false
  historyStart := 0
  collectionAllowlist := ["AAPL"]

/-- The first minute of AAPL. -/
def holeBar : RawBarObservationV2 :=
  ⟨tieFields ⟨{ tieBarFields 1 with source := "historical_backfill" }, by decide +kernel⟩,
    by decide +kernel⟩

/-- The rest of the session, as the derived processor records it. -/
def holeGap : HistoricalRepairWindow := ⟨⟨"gap", minutes 1, minutes 30⟩, by decide⟩

def holeLease : LeaseToken := ⟨"market-data-collector.v1", "worker", 1, minutes 90⟩

def holeStart : CollectorWorld Unit where
  db := {
    leases := Dict.empty.set "market-data-collector.v1" ⟨"worker", 1, minutes 90⟩
    barObservations := Dict.empty
    currentBars := Dict.empty
    checkpoints := Dict.empty
    canonical := () }
  gaps := []
  fetches := []
  outside := {
    clock := minutes 40
    stopRequested := false
    lease := some holeLease
    activeRun := true
    fetchReply := .ok [holeBar]
    databaseError := none
    statementTime := minutes 40
    selectedGap := some holeGap }

/-- The provider answers the first request only. -/
def firstReply (w : CollectorWorld Unit) : CollectorWorld Unit :=
  { w with outside.fetchReply :=
      if w.fetches = [] then .ok [holeBar] else .error (.external "HTTP 400") }

/-- The derived processor records what it detects, and the provider has no bars. -/
def gapRecorded (w : CollectorWorld Unit) : CollectorWorld Unit :=
  { w with
    gaps := if (holeGap.start, holeGap.finish) ∈
        holeService.detectDataGaps w "AAPL" (0, minutes 30) then [holeGap] else w.gaps
    outside.fetchReply := .ok [] }

/-- Reconciliation that fails at its second request, then repair of the gap it left. -/
def holeLoop : CollectorProgram Unit (List (Except PlatformError Unit)) :=
  holeService.collectorLoop [.reconcile, .repair]

/-- The calls of the reconciliation. -/
def reconcileScript : List (CollectorWorld Unit → CollectorWorld Unit) :=
  List.replicate 19 firstReply

/-- The calls of the reconciliation and of the repair. -/
def holeScript : List (CollectorWorld Unit → CollectorWorld Unit) :=
  reconcileScript ++ List.replicate 32 gapRecorded

theorem surroundings_firstReply (w : CollectorWorld Unit) :
    holeService.Surroundings w (firstReply w) where
  clock := le_rfl
  gaps _ h := Or.inl h
  fetches := rfl
  checkpoints := rfl
  observations := Or.inl ⟨rfl, rfl⟩

theorem surroundings_gapRecorded (w : CollectorWorld Unit) :
    holeService.Surroundings w (gapRecorded w) where
  clock := le_rfl
  gaps gap h := by
    unfold gapRecorded at h
    split at h
    · next hdetected =>
        rw [List.mem_singleton.1 h]
        exact Or.inr ⟨"AAPL", List.mem_singleton_self _, 0, minutes 30, (0, minutes 30), by decide,
          hdetected⟩
    · exact Or.inl h
  fetches := rfl
  checkpoints := rfl
  observations := Or.inl ⟨rfl, rfl⟩

theorem surroundings_holeScript :
    ∀ change ∈ holeScript, ∀ w, holeService.Surroundings w (change w) := by
  intro change hchange w
  rcases List.mem_append.1 hchange with hfirst | hsecond
  · rw [(List.mem_replicate.1 hfirst).2]
    exact surroundings_firstReply w
  · rw [(List.mem_replicate.1 hsecond).2]
    exact surroundings_gapRecorded w

theorem emptyStore_holeStart : EmptyStore holeStart := ⟨rfl, rfl, rfl, rfl, rfl⟩

theorem reachable_holeScript {allowed : CollectorWorld Unit → Prop} {script}
    (hscript : ∀ change ∈ script, change ∈ holeScript) (hstart : allowed holeStart)
    (hvisited : ∀ w ∈ holeLoop.visited script holeStart, allowed w) :
    (holeService.runs allowed [.reconcile, .repair]).Reachable
      ⟨(holeLoop.played script holeStart).2, fun _ => (holeLoop.played script holeStart).1⟩ :=
  Program.reachable_played script (fun change h => surroundings_holeScript change (hscript change h))
    holeLoop holeStart hvisited (Transition.Reachable.of_init ⟨hstart, emptyStore_holeStart, rfl⟩)

theorem minutes_pos : 0 < minutes 30 := by
  rw [minutes, seconds]
  norm_num

theorem inSession_zero : holeService.calendar.InSession 0 :=
  ⟨0, minutes 30, (0, minutes 30), by decide, le_rfl, by decide⟩

/-- Where the run ends. -/
def holeWorld : CollectorWorld Unit := (holeLoop.played holeScript holeStart).2

/-- The checkpoint is at the end of the session, and no request for SOUN began at the first minute. -/
theorem holeWorld_facts : holeService.coverage "SOUN" holeWorld = some (minutes 30) ∧
    holeWorld.fetches.all (fun f => !f.symbols.contains "SOUN" || decide (0 < f.start)) = true := by
  decide +kernel

theorem not_covered_holeWorld : ¬ Covered "SOUN" 0 holeWorld := by
  rintro ⟨f, hf, hsymbol, hfrom, -, -⟩
  rcases Bool.or_eq_true_iff.1 (List.all_eq_true.1 holeWorld_facts.2 f hf) with hother | hafter
  · simp [hsymbol] at hother
  · exact absurd hfrom (not_le.2 (of_decide_eq_true hafter))

/-- The checkpoint of SOUN is at the end of the session, and its first minute was never fetched. -/
theorem coverage_not_sound : ∃ c, (holeService.runs (fun _ => True) [.reconcile, .repair]).Reachable c ∧
    ¬ holeService.Sound c.state := by
  refine ⟨⟨holeWorld, _⟩, @reachable_holeScript _ holeScript (fun _ h => h) True.intro
    fun _ _ => True.intro, fun hsound => ?_⟩
  dsimp only at hsound
  have hreached : holeService.Reached "SOUN" (minutes 30) holeWorld :=
    hsound "SOUN" (minutes 30) holeWorld_facts.1
  exact not_covered_holeWorld (hreached 0 inSession_zero (le_refl 0) minutes_pos)

/-- Before the repair the checkpoints of the first request are sound. -/
theorem coverage_sound_before_repair : ∃ c,
    (holeService.runs holeService.Anchored [.reconcile, .repair]).Reachable c ∧
      c.state.db.checkpoints.values.length = 15 ∧ holeService.Sound c.state := by
  have hanchored : ∀ w : CollectorWorld Unit, w.gaps = [] → holeService.Anchored w := by
    intro w hw window hwindow
    rw [hw] at hwindow
    cases hwindow
  have hgaps : ∀ w ∈ holeLoop.visited reconcileScript holeStart, w.gaps = [] := by decide +kernel
  have hreachable := @reachable_holeScript holeService.Anchored reconcileScript
    (fun _ h => List.mem_append_left _ h) (hanchored _ rfl)
    fun w hw => hanchored w (hgaps w hw)
  exact ⟨_, hreachable, by decide +kernel,
    coverage_sound holeService [.reconcile, .repair] hreachable⟩

end Sample

end CollectorService

end AdaptiveTrader
