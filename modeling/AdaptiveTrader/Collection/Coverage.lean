import AdaptiveTrader.Collection.Convergence
import AdaptiveTrader.Collection.Service

/-!
# Soundness of the coverage checkpoints

Every regular-session instant between the history start and the checkpoint of a symbol lies in a
window that was fetched for the symbol and whose observations are stored (`Sound`). Reconciliation
keeps this: it starts where every symbol is covered up to (`Reached`), and no session instant lies
between the windows it goes through. Gap repair starts at the gap instead, and advances every symbol
past it, so it keeps the invariant when the coverage of every symbol reaches the gap (`Anchored`).

The programs are judged by triples (`Establishes`): from sound checkpoints and a precondition, every
call leaves sound checkpoints, and a value comes with a postcondition. Pre- and postconditions are
facts about what was fetched and stored, which nothing undoes (`Persists`).
-/

set_option autoImplicit false

namespace AdaptiveTrader

open Foundation PostgresMarketDataRepository

/-! ## Slices and windows -/

/-- Every value is in one of the slices. -/
theorem exists_mem_slices {α : Type} {size : Nat} (hsize : 0 < size) {values : List α} {a : α}
    (h : a ∈ values) : ∃ slice ∈ slices size values, a ∈ slice := by
  obtain ⟨i, hi, rfl⟩ := List.mem_iff_getElem.1 h
  have hdiv : i / size * size ≤ i := Nat.div_mul_le_self i size
  have hlt : i < i / size * size + size := by
    have hmod := Nat.mod_lt i hsize
    have hsum := Nat.div_add_mod i size
    rw [Nat.mul_comm] at hsum
    omega
  refine ⟨(values.drop (i / size * size)).take size, ?_, ?_⟩
  · refine List.mem_map.2 ⟨i / size, List.mem_range.2 ?_, rfl⟩
    rw [Nat.lt_div_iff_mul_lt hsize]
    omega
  · refine List.mem_iff_getElem.2 ⟨i - i / size * size, ?_, ?_⟩
    · rw [List.length_take, List.length_drop]
      omega
    · rw [List.getElem_take, List.getElem_drop]
      congr 1
      omega

/-- The values of a slice are values of the list. -/
theorem mem_of_mem_slices {α : Type} {size : Nat} {values slice : List α} {a : α}
    (hslice : slice ∈ slices size values) (ha : a ∈ slice) : a ∈ values := by
  obtain ⟨i, -, rfl⟩ := List.mem_map.1 hslice
  exact List.mem_of_mem_drop (List.mem_of_mem_take ha)

/-- A session instant of the range lies in one of its windows. -/
theorem exists_window {calendar : SessionCalendar} {start finish t : Instant}
    (ht : calendar.InSession t) (hstart : start ≤ t) (hfinish : t < finish) :
    ∃ window ∈ sessionWindows calendar start finish, window.1 ≤ t ∧ t < window.2 := by
  obtain ⟨start', finish', session, hsession, hopen, hclose⟩ := ht
  have hmem : session ∈ calendar.sessionsInRange start finish :=
    calendar.complete start finish start' finish' session hsession (hopen.trans_lt hfinish)
      (hstart.trans_lt hclose)
  have hwindow : max start session.1 ≤ t ∧ t < min finish session.2 :=
    ⟨max_le hstart hopen, lt_min hfinish hclose⟩
  refine ⟨(max start session.1, min finish session.2), ?_, hwindow⟩
  rw [sessionWindows, if_neg (not_le.2 (hstart.trans_lt hfinish)), List.mem_filter]
  exact ⟨List.mem_map_of_mem hmem, decide_eq_true (hwindow.1.trans_lt hwindow.2)⟩

/-- The windows of a range follow one another. -/
theorem sessionWindows_ordered (calendar : SessionCalendar) (start finish : Instant) :
    (sessionWindows calendar start finish).Pairwise fun a b => a.2 ≤ b.1 := by
  unfold sessionWindows
  split
  · exact List.Pairwise.nil
  · refine List.Pairwise.filter _ (List.pairwise_map.2 ((calendar.ordered start finish).imp ?_))
    intro a b hab
    exact (min_le_right _ _).trans (hab.trans (le_max_right _ _))

/-- Every window begins before it ends. -/
theorem sessionWindows_proper {calendar : SessionCalendar} {start finish : Instant}
    {window : Instant × Instant} (h : window ∈ sessionWindows calendar start finish) :
    window.1 < window.2 := by
  unfold sessionWindows at h
  split at h
  · cases h
  · exact of_decide_eq_true (List.mem_filter.1 h).2

/-- No window ends after the range. -/
theorem sessionWindows_le {calendar : SessionCalendar} {start finish : Instant}
    {window : Instant × Instant} (h : window ∈ sessionWindows calendar start finish) :
    window.2 ≤ finish := by
  unfold sessionWindows at h
  split at h
  · cases h
  · obtain ⟨session, -, rfl⟩ := List.mem_map.1 (List.mem_filter.1 h).1
    exact min_le_left _ _

namespace CollectorService

variable {κ : Type} [ContentHasher]

/-! ## Coverage -/

/-- The observation has a row. -/
def Stored (o : RawBarObservationV2) (w : CollectorWorld κ) : Prop :=
  ∃ row, w.db.barObservations.get? o.observationId = some row

/-- The instant lies in a window that was fetched for the symbol and whose observations are
stored. -/
def Covered (symbol : String) (t : Instant) (w : CollectorWorld κ) : Prop :=
  ∃ f ∈ w.fetches, symbol ∈ f.symbols ∧ f.start ≤ t ∧ t < f.finish ∧
    ∀ o ∈ f.observations, Stored o w

/-- Every instant of the window is covered for each of the symbols. -/
def CoversWindow (symbols : List String) (window : Instant × Instant) (w : CollectorWorld κ) :
    Prop :=
  ∀ symbol ∈ symbols, ∀ t, window.1 ≤ t → t < window.2 → Covered symbol t w

/-- The history of the symbol is covered up to `bound`. -/
def Reached (service : CollectorService κ) (symbol : String) (bound : Instant)
    (w : CollectorWorld κ) : Prop :=
  ∀ t, service.calendar.InSession t → service.historyStart ≤ t → t < bound → Covered symbol t w

/-- The checkpoint of a symbol. -/
def coverage (service : CollectorService κ) (symbol : String) (w : CollectorWorld κ) :
    Option Instant :=
  (w.db.checkpoints.get? (coverageKey service.config.checkpointName symbol)).bind
    (·.committedThroughUtc)

/-- No checkpoint is past an uncovered session instant. -/
def Sound (service : CollectorService κ) (w : CollectorWorld κ) : Prop :=
  ∀ symbol committed, service.coverage symbol w = some committed →
    service.Reached symbol committed w

/-- The coverage of every symbol reaches the gap. -/
def ReachesGap (service : CollectorService κ) (window : HistoricalRepairWindow)
    (w : CollectorWorld κ) : Prop :=
  ∀ symbol ∈ collectionUniverseSymbols, service.Reached symbol window.start w

/-- Whenever a recorded gap is selected for repair, the coverage of every symbol reaches it. -/
def Anchored (service : CollectorService κ) (w : CollectorWorld κ) : Prop :=
  ∀ window ∈ w.gaps, w.outside.selectedGap = some window → service.ReachesGap window w

/-! ## What only grows -/

/-- Nothing fetched or stored is lost. -/
structure Extends (s t : CollectorWorld κ) : Prop where
  fetches : ∀ f ∈ s.fetches, f ∈ t.fetches
  rows : ∀ id row, s.db.barObservations.get? id = some row →
    t.db.barObservations.get? id = some row

/-- Nothing fetched or stored is lost, and no checkpoint moves. -/
structure Grows (s t : CollectorWorld κ) : Prop extends Extends s t where
  checkpoints : t.db.checkpoints = s.db.checkpoints

omit [ContentHasher] in
theorem grows_composable : Exec.Composable (Grows (κ := κ)) where
  refl _ := ⟨⟨fun _ h => h, fun _ _ h => h⟩, rfl⟩
  trans h₁ h₂ := ⟨⟨fun f h => h₂.fetches f (h₁.fetches f h),
    fun id row h => h₂.rows id row (h₁.rows id row h)⟩, h₂.checkpoints.trans h₁.checkpoints⟩

/-- What nothing fetched or stored later undoes. -/
def Persists (Φ : CollectorWorld κ → Prop) : Prop := ∀ s t, Extends s t → Φ s → Φ t

section Persistence

variable {service : CollectorService κ}

omit [ContentHasher] in
theorem Persists.trivial : Persists fun _ : CollectorWorld κ => True := fun _ _ _ _ => True.intro

omit [ContentHasher] in
theorem Persists.and {Φ Ψ : CollectorWorld κ → Prop} (hΦ : Persists Φ) (hΨ : Persists Ψ) :
    Persists fun w => Φ w ∧ Ψ w :=
  fun s t h hs => ⟨hΦ s t h hs.1, hΨ s t h hs.2⟩

omit [ContentHasher] in
theorem Persists.all {ι : Type*} {Φ : ι → CollectorWorld κ → Prop} (hΦ : ∀ i, Persists (Φ i)) :
    Persists fun w => ∀ i, Φ i w :=
  fun s t h hs i => hΦ i s t h (hs i)

omit [ContentHasher] in
theorem Persists.imp {fact : Prop} {Φ : CollectorWorld κ → Prop} (hΦ : Persists Φ) :
    Persists fun w => fact → Φ w :=
  fun s t h hs hfact => hΦ s t h (hs hfact)

omit [ContentHasher] in
theorem persists_fetched (f : HistoricalFetch) :
    Persists fun w : CollectorWorld κ => f ∈ w.fetches :=
  fun _ _ h hs => h.fetches f hs

theorem persists_stored (o : RawBarObservationV2) :
    Persists (κ := κ) (Stored o) := by
  rintro s t h ⟨row, hrow⟩
  exact ⟨row, h.rows _ _ hrow⟩

theorem persists_covered (symbol : String) (i : Instant) :
    Persists (κ := κ) (Covered symbol i) := by
  rintro s t h ⟨f, hf, hsymbol, hstart, hfinish, hstored⟩
  exact ⟨f, h.fetches f hf, hsymbol, hstart, hfinish,
    fun o ho => persists_stored o s t h (hstored o ho)⟩

theorem persists_reached (symbol : String) (bound : Instant) :
    Persists (service.Reached symbol bound) :=
  fun _ _ h hs i hi hstart hbound => persists_covered symbol i _ _ h (hs i hi hstart hbound)

theorem persists_coversWindow (symbols : List String) (window : Instant × Instant) :
    Persists (κ := κ) (CoversWindow symbols window) :=
  fun s t h hs symbol hsymbol i hstart hfinish =>
    persists_covered symbol i s t h (hs symbol hsymbol i hstart hfinish)

theorem Sound.grows {s t : CollectorWorld κ} (h : Grows s t) (hs : service.Sound s) :
    service.Sound t := by
  intro symbol committed hcoverage
  rw [coverage, h.checkpoints] at hcoverage
  exact persists_reached symbol committed _ _ h.toExtends (hs symbol committed hcoverage)

end Persistence

/-! ## Triples -/

section Triples

variable (service : CollectorService κ)

/-- From sound checkpoints and `Φ`, every call of the program leaves sound checkpoints, also when
the outside changes between two calls; a value comes with `Ψ`. -/
def Establishes {α : Type} (Φ : CollectorWorld κ → Prop) (p : CollectorProgram κ α)
    (Ψ : α → CollectorWorld κ → Prop) : Prop :=
  p.Upholds service.Anchored Grows (fun _ t => service.Sound t)
    (fun r w => service.Sound w ∧ ∀ a, r = .ok a → Ψ a w) fun w => service.Sound w ∧ Φ w

/-- Every call of the program lets the world grow and moves no checkpoint. -/
abbrev Growing {α : Type} (p : CollectorProgram κ α) : Prop :=
  p.Calls fun action => Exec.Respects Grows action

variable {service} {α β γ : Type} {Φ Φ' X : CollectorWorld κ → Prop}
  {Ψ Θ : α → CollectorWorld κ → Prop} {Ω : β → CollectorWorld κ → Prop}

theorem Persists.stable (h : Persists Φ) :
    Program.Stable service.Anchored Grows fun w => service.Sound w ∧ Φ w :=
  fun s t _ _ hgrows hs => ⟨hs.1.grows hgrows, h s t hgrows.toExtends hs.2⟩

theorem Establishes.of_growing {p : CollectorProgram κ α} (hp : Growing p) (hΦ : Persists Φ) :
    service.Establishes Φ p fun _ => Φ := by
  have hup : p.Upholds service.Anchored Grows (fun _ t => service.Sound t)
      (fun _ w => service.Sound w ∧ Φ w) fun w => service.Sound w ∧ Φ w := by
    refine Program.Calls.upholds hΦ.stable (fun s t _ _ hs hgrows => ?_) hp
    exact ⟨hs.1.grows hgrows, hs.1.grows hgrows, hΦ s t hgrows.toExtends hs.2⟩
  exact hup.weaken fun r w hw => ⟨hw.1, fun _ _ => hw.2⟩

theorem Establishes.conseq {p : CollectorProgram κ α} (hp : service.Establishes Φ p Ψ)
    (hΦ : ∀ w, service.Sound w → Φ' w → Φ w) (hΨ : ∀ a w, Ψ a w → Θ a w) :
    service.Establishes Φ' p Θ :=
  (hp.strengthen fun w _ hw => ⟨hw.1, hΦ w hw.1 hw.2⟩).weaken fun _ w hw =>
    ⟨hw.1, fun a ha => hΨ a w (hw.2 a ha)⟩

theorem Establishes.post {p : CollectorProgram κ α} (hp : service.Establishes Φ p Ψ)
    (hΨ : ∀ a w, Ψ a w → Θ a w) : service.Establishes Φ p Θ :=
  hp.conseq (fun _ _ hw => hw) hΨ

theorem Establishes.pre {p : CollectorProgram κ α} (hp : service.Establishes Φ p Ψ)
    (hΦ : ∀ w, service.Sound w → Φ' w → Φ w) : service.Establishes Φ' p Ψ :=
  hp.conseq hΦ fun _ _ hw => hw

theorem Establishes.bind {p : CollectorProgram κ α} {f : α → CollectorProgram κ β}
    (hp : service.Establishes Φ p Ψ) (hf : ∀ a, service.Establishes (Ψ a) (f a) Ω) :
    service.Establishes Φ (p >>= f) Ω := by
  refine Program.Upholds.bind hp (fun a => ?_) fun e w hw => ⟨hw.1, fun b hb => by cases hb⟩
  exact (hf a).strengthen fun w _ hw => ⟨hw.1, hw.2 a rfl⟩

theorem Establishes.pure (a : α) (h : ∀ w, Φ w → Ψ a w) :
    service.Establishes Φ (pure a) Ψ := by
  intro w _ hw
  refine ⟨hw.1, ?_⟩
  rintro b ⟨rfl⟩
  exact h w hw.2

theorem Establishes.pureExcept_bind {x : Except PlatformError α} {f : α → CollectorProgram κ β}
    (hf : ∀ a, x = .ok a → service.Establishes Φ (f a) Ω) :
    service.Establishes Φ (Program.pureExcept x >>= f) Ω := by
  cases x with
  | ok a => exact hf a rfl
  | error e => exact fun w _ hw => ⟨hw.1, fun b hb => by cases hb⟩

theorem Establishes.attempt {p : CollectorProgram κ α} (hp : service.Establishes Φ p Ψ) :
    service.Establishes Φ p.attempt fun r w => ∀ a, r = .ok a → Ψ a w := by
  refine (Program.Upholds.attempt hp).weaken ?_
  rintro r w ⟨x, rfl, hw⟩
  refine ⟨hw.1, ?_⟩
  rintro y ⟨rfl⟩
  exact hw.2

/-- A growing program keeps what persists beside what it establishes. -/
theorem Establishes.frame {p : CollectorProgram κ α} (hp : service.Establishes Φ p Ψ)
    (hg : Growing p) (hX : Persists X) :
    service.Establishes (fun w => Φ w ∧ X w) p fun a w => Ψ a w ∧ X w := by
  have hframe := Program.Upholds.frame hp (F := X)
    (fun s t _ _ hgrows => hX s t hgrows.toExtends) (fun s t hgrows => hX s t hgrows.toExtends) hg
  refine (hframe.weaken fun r w hw => ?_).strengthen fun w _ hw => ⟨⟨hw.1, hw.2.1⟩, hw.2.2⟩
  exact ⟨hw.1.1, fun a ha => ⟨hw.1.2 a ha, hw.2⟩⟩

/-- A loop that has `Done i` for each item `i` it is past. -/
theorem Establishes.forEach {body : γ → CollectorProgram κ α} {items : List γ}
    {D : γ → CollectorWorld κ → Prop}
    (hbody : ∀ done item rest, items = done ++ item :: rest →
      service.Establishes (fun w => Φ w ∧ ∀ i ∈ done, D i w) (body item)
        fun _ w => (Φ w ∧ ∀ i ∈ done, D i w) ∧ D item w) :
    service.Establishes Φ (Program.forEach body items) fun _ w => Φ w ∧ ∀ i ∈ items, D i w := by
  -- the items already past are the part of the list before the ones still to come
  let inv : List γ → CollectorWorld κ → Prop := fun rest w =>
    ∃ done, items = done ++ rest ∧ service.Sound w ∧ Φ w ∧ ∀ i ∈ done, D i w
  have hloop : (Program.forEach body items).Upholds service.Anchored Grows
      (fun _ t => service.Sound t) (Program.Ends (inv []) service.Sound) (inv items) := by
    refine Program.Upholds.forEach (fun item rest => ?_) items
    refine Program.Upholds.exists fun done => Program.Upholds.of_fact fun hitems => ?_
    refine (hbody done item rest hitems).weaken ?_
    rintro (e | a) w ⟨hsound, hvalue⟩
    · exact hsound
    · obtain ⟨⟨hΦ, hdone⟩, hitem⟩ := hvalue a rfl
      refine ⟨done ++ [item], by rw [hitems, List.append_assoc]; rfl, hsound, hΦ, ?_⟩
      intro i hi
      rcases List.mem_append.1 hi with hold | hnew
      · exact hdone i hold
      · rw [List.mem_singleton.1 hnew]
        exact hitem
  refine (hloop.weaken ?_).strengthen fun w _ hw => ⟨[], rfl, hw.1, hw.2, fun i hi => by cases hi⟩
  rintro (e | as) w hw
  · exact ⟨hw, fun _ h => by cases h⟩
  · obtain ⟨done, hitems, hsound, hΦ, hdone⟩ := hw
    refine ⟨hsound, fun _ _ => ⟨hΦ, ?_⟩⟩
    rw [hitems, List.append_nil]
    exact hdone

end Triples

/-! ## Calls that move no checkpoint -/

section Calls

variable (service : CollectorService κ)

omit [ContentHasher] in
theorem growing_read {α : Type} (f : CollectorWorld κ → Except PlatformError α) :
    Growing (Program.atomically (Exec.read f)) :=
  Program.Calls.atomically (Exec.Respects.read grows_composable f)

omit [ContentHasher] in
/-- A transaction is refused or runs on the tables. -/
theorem onDatabase_cases {α : Type} (action : Instant → Exec (CollectionDb κ) PlatformError α)
    (w : CollectorWorld κ) :
    (∃ e, onDatabase action w = (.error e, w)) ∨
      ∃ r db', action w.outside.statementTime w.db = (r, db') ∧
        onDatabase action w = (r, { w with db := db' }) := by
  unfold onDatabase
  cases w.outside.databaseError with
  | some e => exact Or.inl ⟨e, rfl⟩
  | none => exact Or.inr ⟨_, _, rfl, rfl⟩

omit [ContentHasher] in
theorem growing_onDatabase {α : Type} {action : Instant → Exec (CollectionDb κ) PlatformError α}
    (h : ∀ now db, (action now db).2 = db) : Growing (Program.atomically (onDatabase action)) := by
  refine Program.Calls.atomically fun w => ?_
  rcases onDatabase_cases action w with ⟨e, hrefused⟩ | ⟨r, db', hran, hdone⟩
  · rw [hrefused]
    exact grows_composable.refl w
  · have hsame : db' = w.db := (congrArg Prod.snd hran).symm.trans (h _ _)
    rw [hdone, hsame]
    exact grows_composable.refl w

omit [ContentHasher] in
theorem growing_leaseToken : Growing (leaseToken : CollectorProgram κ LeaseToken) :=
  growing_read _

omit [ContentHasher] in
theorem growing_recordEvent : Growing (recordEvent : CollectorProgram κ Unit) :=
  Program.Calls.andThen growing_leaseToken fun _ => growing_onDatabase fun _ _ => rfl

omit [ContentHasher] in
theorem growing_fetch (symbols : List String) (start finish : Instant) :
    Growing (Program.atomically (fetch symbols start finish) :
      CollectorProgram κ (List RawBarObservationV2)) := by
  refine Program.Calls.atomically ?_
  intro w
  unfold fetch
  cases w.outside.fetchReply with
  | error e => exact grows_composable.refl w
  | ok observations => exact ⟨⟨fun _ hf => List.mem_cons_of_mem _ hf, fun _ _ h => h⟩, rfl⟩

omit [ContentHasher] in
theorem growing_fetchWithRetry (symbols : List String) (start finish : Instant) (attempts : Nat) :
    Growing (service.fetchWithRetry symbols start finish attempts) := by
  induction attempts with
  | zero => trivial
  | succ left ih =>
      have hattempt : Growing (Program.attempt (do
          let observations ← Program.atomically (fetch symbols start finish)
          requireRunning
          pure observations) :
          CollectorProgram κ (Except PlatformError (List RawBarObservationV2))) :=
        Program.Calls.attempt (Program.Calls.andThen (growing_fetch symbols start finish) fun _ =>
          Program.Calls.andThen (growing_read _) fun _ => trivial)
      refine (growing_read _).andThen fun _ => hattempt.andThen ?_
      rintro (e | observations)
      · show Growing (ite _ _ _)
        split
        · trivial
        · exact growing_recordEvent.andThen fun _ => (growing_read _).andThen fun _ => ih
      · trivial

end Calls

/-! ## Batches -/

section Batches

omit [ContentHasher] in
theorem mergeCheckpoint_committed (current excluded : CheckpointRow) :
    (mergeCheckpoint current excluded).committedThroughUtc = current.committedThroughUtc ∨
      (mergeCheckpoint current excluded).committedThroughUtc = excluded.committedThroughUtc := by
  have hrow : mergeCheckpoint current excluded = current ∨ ∃ last id version,
      mergeCheckpoint current excluded = { excluded with
        lastBarTimestampUtc := last, lastObservationId := id, version := version } :=
    (ite_eq_or_eq _ _ _).symm.imp (fun h => h) fun h => ⟨_, _, _, h⟩
  rcases hrow with hcurrent | ⟨_, _, _, hexcluded⟩
  · exact Or.inl (by rw [hcurrent])
  · exact Or.inr (by rw [hexcluded])

omit [ContentHasher] in
/-- After a batch of upserts a checkpoint is where it was or where one of the rows puts it. -/
theorem committed_of_upserts {key : CheckpointKey} {committed : Instant}
    (rows : List (CheckpointKey × CheckpointRow)) (checkpoints : Dict CheckpointKey CheckpointRow)
    (h : ((rows.foldl upsertCheckpoint checkpoints).get? key).bind (·.committedThroughUtc) =
      some committed) :
    (checkpoints.get? key).bind (·.committedThroughUtc) = some committed ∨
      ∃ row ∈ rows, row.1 = key ∧ row.2.committedThroughUtc = some committed := by
  induction rows generalizing checkpoints with
  | nil => exact Or.inl h
  | cons row rest ih =>
      rcases ih _ h with hfirst | ⟨row', hrow', hboth⟩
      · by_cases hkey : row.1 = key
        · subst hkey
          rw [upsertCheckpoint, Dict.get?_upsert_self] at hfirst
          cases hget : checkpoints.get? row.1 with
          | none =>
              rw [hget] at hfirst
              exact Or.inr ⟨row, List.mem_cons_self, rfl, hfirst⟩
          | some current =>
              rw [hget] at hfirst
              rcases mergeCheckpoint_committed current row.2 with hcurrent | hexcluded
              · exact Or.inl (hcurrent.symm.trans hfirst)
              · exact Or.inr ⟨row, List.mem_cons_self, rfl, hexcluded.symm.trans hfirst⟩
        · rw [upsertCheckpoint, Dict.get?_upsert_of_ne _ _ _ (Ne.symm hkey)] at hfirst
          exact Or.inl hfirst
      · exact Or.inr ⟨row', List.mem_cons_of_mem _ hrow', hboth⟩

/-- After a committed batch a checkpoint is where it was or where one of the advances puts it. -/
theorem committed_of_batch {platform : CollectionPlatform κ} {canonical : Bool}
    {observations : List RawBarObservationV2} {token : LeaseToken}
    {advances : List CoverageAdvance} {now : Instant} {db db' : CollectionDb κ}
    {result : BatchResult} {key : CheckpointKey} {committed : Instant}
    (h : PostgresMarketDataRepository.appendBatch platform canonical observations token advances now
      db = (.ok result, db'))
    (hcommitted : (db'.checkpoints.get? key).bind (·.committedThroughUtc) = some committed) :
    (db.checkpoints.get? key).bind (·.committedThroughUtc) = some committed ∨
      ∃ advance ∈ advances, advance.key = key ∧ advance.committedThroughUtc = committed := by
  obtain ⟨written, advanced, hsame, hadvanced, hdb⟩ := appendBatch_checkpoints h
  simp only [advanceCheckpoints, bind_eq_ok, rejectIf_eq_ok, pure_eq_ok] at hadvanced
  obtain ⟨_, -, _, -, rows, hrows, rfl⟩ := hadvanced
  rw [hdb] at hcommitted
  rcases committed_of_upserts rows written.checkpoints hcommitted with hold | ⟨row, hrow, hkey, hto⟩
  · exact Or.inl (hsame ▸ hold)
  · obtain ⟨advance, hadvance, hbuilt⟩ := mem_of_collect hrows hrow
    simp only [checkpointRow, bind_eq_ok, rejectIf_eq_ok, pure_eq_ok] at hbuilt
    obtain ⟨_, -, _, -, rfl⟩ := hbuilt
    exact Or.inr ⟨advance, hadvance, hkey, Option.some.inj hto⟩

variable (service : CollectorService κ)

/-- Each advance moves the checkpoint of a symbol to where its coverage reaches. -/
def Justified (advances : List CoverageAdvance) (w : CollectorWorld κ) : Prop :=
  ∀ advance ∈ advances, ∃ symbol,
    advance.key = coverageKey service.config.checkpointName symbol ∧
      service.Reached symbol advance.committedThroughUtc w

variable {service} {Φ : CollectorWorld κ → Prop}

/-- One call whose postcondition persists. -/
theorem Establishes.atomically {α : Type} {action : Exec (CollectorWorld κ) PlatformError α}
    {Ψ : α → CollectorWorld κ → Prop} (hΨ : ∀ a, Persists (Ψ a))
    (h : ∀ w, service.Anchored w → service.Sound w → Φ w →
      service.Sound (action w).2 ∧ ∀ a, (action w).1 = .ok a → Ψ a (action w).2) :
    service.Establishes Φ (Program.atomically action) Ψ := by
  refine Program.Upholds.atomically (fun r s t _ _ hgrows hs => ?_) fun w hanchored hw _ => ?_
  · exact ⟨hs.1.grows hgrows, fun a ha => hΨ a s t hgrows.toExtends (hs.2 a ha)⟩
  · exact ⟨(h w hanchored hw.1 hw.2).1, h w hanchored hw.1 hw.2⟩

/-- A committed batch with justified advances. -/
theorem sound_of_batch {observations : List RawBarObservationV2} {token : LeaseToken}
    {advances : List CoverageAdvance} {now : Instant} {w : CollectorWorld κ}
    {db' : CollectionDb κ} {result : BatchResult}
    (h : PostgresMarketDataRepository.appendBatch service.platform service.canonical observations
      token advances now w.db = (.ok result, db'))
    (hsound : service.Sound w) (hadvances : service.Justified advances w) :
    Extends w { w with db := db' } ∧ service.Sound { w with db := db' } := by
  have hextends : Extends w { w with db := db' } := by
    obtain ⟨-, hrows, -⟩ := appendBatch_eq_ok h
    refine ⟨fun _ hf => hf, fun id row hrow => ?_⟩
    show db'.barObservations.get? id = some row
    rw [hrows]
    exact writeObservations_get? hrow
  refine ⟨hextends, ?_⟩
  intro symbol committed hcoverage
  rcases committed_of_batch h hcoverage with hold | ⟨advance, hadvance, hkey, rfl⟩
  · exact persists_reached symbol committed _ _ hextends (hsound symbol committed hold)
  · obtain ⟨symbol', hkey', hreached⟩ := hadvances advance hadvance
    have hsymbol : symbol' = symbol := congrArg CheckpointKey.symbol (hkey'.symm.trans hkey)
    exact persists_reached symbol _ _ _ hextends (hsymbol ▸ hreached)

theorem establishes_appendBatch {observations : List RawBarObservationV2}
    {advances : List CoverageAdvance} (hΦ : Persists Φ)
    (hadvances : ∀ w, Φ w → service.Justified advances w) :
    service.Establishes Φ (service.appendBatch observations advances)
      fun _ w => Φ w ∧ ∀ o ∈ observations, Stored o w := by
  refine Establishes.bind (Establishes.of_growing growing_leaseToken hΦ) fun token => ?_
  refine Establishes.atomically (fun _ => hΦ.and (.all fun o => .imp (persists_stored o))) ?_
  intro w _ hsound hw
  rcases onDatabase_cases (fun now => PostgresMarketDataRepository.appendBatch service.platform
    service.canonical observations token advances now) w with ⟨e, hrefused⟩ | ⟨outcome, db', hran, hdone⟩
  · rw [hrefused]
    exact ⟨hsound, fun a ha => by cases ha⟩
  · rw [hdone]
    cases outcome with
    | error e =>
        have hsame : db' = w.db := Exec.transaction_error hran
        subst hsame
        exact ⟨hsound, fun a ha => by cases ha⟩
    | ok result =>
        obtain ⟨hextends, hsound'⟩ := sound_of_batch hran hsound (hadvances w hw)
        exact ⟨hsound', fun _ _ => ⟨hΦ _ _ hextends hw, fun o ho => appendBatch_stores hran ho⟩⟩

end Batches

end CollectorService

end AdaptiveTrader
