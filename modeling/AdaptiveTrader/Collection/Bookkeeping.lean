import AdaptiveTrader.Collection.Convergence

/-!
# The books of a projected bar

A row of `current_bars` counts the stored observations of its bar and names their first and their
last receipt. The candidate of a batch computes all three over the batch. The merge in the database
adds the counts and takes the later of the last receipts, and it keeps the first receipt of the
stored row. So the books stay right exactly as long as no batch brings a new observation that was
received before the first receipt of its row (`observation_bookkeeping`).
-/

set_option autoImplicit false

namespace AdaptiveTrader

open Foundation PostgresMarketDataRepository

/-! ## Books -/

/-- The receipts of some observations. -/
def receiptsOf (rows : List ObservationRow) : Set Instant :=
  {t | ∃ r ∈ rows, r.values.receiptTimestampUtc = t}

/-- What a row has to record of the stored observations of its bar. -/
structure Books (rows : List ObservationRow) (bar : CurrentBar) : Prop where
  count : bar.observationCount = rows.length
  first : IsLeast (receiptsOf rows) bar.firstObservedAt
  last : IsGreatest (receiptsOf rows) bar.lastObservedAt

/-- Every stored observation has the row of its bar, and the books of every row are right. -/
structure Booked {κ : Type} (db : CollectionDb κ) : Prop where
  listed : ∀ r ∈ db.barObservations.values, ∃ bar,
    db.currentBars.get? r.identity.identityHash = some bar
  books : ∀ identityHash bar, db.currentBars.get? identityHash = some bar →
    Books (rowsOf db.barObservations.values identityHash) bar

/-- A summary has right books once its first receipt is right. -/
theorem books_of_projects {rows : List ObservationRow} {bar : CurrentBar} (h : Projects rows bar)
    (hfirst : IsLeast (receiptsOf rows) bar.firstObservedAt) : Books rows bar where
  count := h.count
  first := hfirst
  last := by
    refine ⟨h.attained, ?_⟩
    rintro t ⟨r, hr, rfl⟩
    exact h.bound r hr

/-- The first receipt of a candidate is the first of its group. -/
theorem projectionCandidate_first {rows : List ObservationRow} {c : CurrentBar}
    (h : projectionCandidate rows = some c) :
    IsLeast (receiptsOf (rows.map ObservationRow.stored)) c.stored.firstObservedAt := by
  obtain ⟨w, hlast, rfl⟩ := Option.map_eq_some_iff.1 h
  have hw : IsLatest ObservationRow.rank rows w := IsLatest.of_getLast?_sortedBy hlast
  obtain ⟨least, hmin⟩ : ∃ least,
      (rows.map fun row => row.values.receiptTimestampUtc).min? = some least := by
    refine Option.isSome_iff_exists.1 (List.isSome_min?_of_mem (a := w.values.receiptTimestampUtc) ?_)
    exact List.mem_map_of_mem hw.1
  obtain ⟨hattained, hbound⟩ := List.min?_eq_some_iff.1 hmin
  have hfirst : (CurrentBar.stored (projectionRow w rows.length
      (rows.map fun row => row.values.receiptTimestampUtc).min?
      (rows.map fun row => row.values.receiptTimestampUtc).max?)).firstObservedAt = least := by
    rw [hmin]
    rfl
  rw [hfirst]
  constructor
  · obtain ⟨r, hr, hreceipt⟩ := List.mem_map.1 hattained
    exact ⟨r.stored, List.mem_map_of_mem hr, hreceipt⟩
  · rintro t ⟨b, hb, rfl⟩
    obtain ⟨a, ha, rfl⟩ := List.mem_map.1 hb
    exact hbound a.values.receiptTimestampUtc (List.mem_map.2 ⟨a, ha, rfl⟩)

/-- The merge keeps the first receipt, which is right when no new receipt precedes it. -/
theorem isLeast_receiptsOf_append {l m : List ObservationRow} {t : Instant}
    (h : IsLeast (receiptsOf l) t) :
    IsLeast (receiptsOf (l ++ m)) t ↔ ∀ r ∈ m, t ≤ r.values.receiptTimestampUtc := by
  constructor
  · intro hall r hr
    exact hall.2 ⟨r, List.mem_append_right _ hr, rfl⟩
  · intro hnew
    obtain ⟨r, hr, hreceipt⟩ := h.1
    refine ⟨⟨r, List.mem_append_left _ hr, hreceipt⟩, ?_⟩
    rintro t' ⟨r', hr', rfl⟩
    rcases List.mem_append.1 hr' with hl | hm
    · exact h.2 ⟨r', hl, rfl⟩
    · exact hnew r' hm

section Hashed

variable [ContentHasher] {κ : Type} {db db' : CollectionDb κ}
  {observations : List RawBarObservationV2}

/-! ## One batch -/

/-- No new observation of a bar that has a row was received before the first receipt of the row. -/
def InOrder (db : CollectionDb κ) (observations : List RawBarObservationV2) : Prop :=
  ∀ o ∈ uniqueObservations observations, db.barObservations.get? o.observationId = none →
    ∀ bar, db.currentBars.get? o.identityHash = some bar →
      bar.firstObservedAt ≤ o.bar.receiptTimestampUtc

/-- The rows that a batch adds to one bar. -/
theorem mem_rowsOf_insertedRows {identityHash : String} {row : ObservationRow} :
    row ∈ (rowsOf (insertedRows db ((uniqueObservations observations).map
        RawBarObservationV2.observationRow)) identityHash).map ObservationRow.stored ↔
      ∃ o ∈ uniqueObservations observations, db.barObservations.get? o.observationId = none ∧
        o.identityHash = identityHash ∧ row = o.observationRow.stored := by
  constructor
  · intro h
    obtain ⟨raw, hraw, rfl⟩ := List.mem_map.1 h
    obtain ⟨hinserted, hhash⟩ := mem_rowsOf.1 hraw
    obtain ⟨o, ho, rfl⟩ := List.mem_map.1 (List.mem_filter.1 hinserted).1
    exact ⟨o, ho, insertedRows_new hinserted, hhash, rfl⟩
  · rintro ⟨o, ho, hnew, hhash, rfl⟩
    refine List.mem_map_of_mem (mem_rowsOf.2 ⟨List.mem_filter.2 ⟨List.mem_map_of_mem ho, ?_⟩, hhash⟩)
    have hget : db.barObservations.get? o.observationRow.observationId = none := hnew
    simp [Dict.contains, hget]

omit [ContentHasher] in
/-- Every stored observation has a row. -/
theorem exists_row_of_projected (h : ProjectionInvariant db.barObservations.values db.currentBars)
    {r : ObservationRow} (hr : r ∈ db.barObservations.values) :
    ∃ bar, db.currentBars.get? r.identity.identityHash = some bar := by
  have hhash := h r.identity.identityHash
  cases hbar : db.currentBars.get? r.identity.identityHash with
  | some bar => exact ⟨bar, rfl⟩
  | none =>
      rw [hbar] at hhash
      have hmem : r ∈ rowsOf db.barObservations.values r.identity.identityHash :=
        mem_rowsOf.2 ⟨hr, rfl⟩
      rw [show rowsOf _ _ = [] from hhash] at hmem
      cases hmem

omit [ContentHasher] in
theorem projects_of_get? (h : ProjectionInvariant db.barObservations.values db.currentBars)
    {identityHash : String} {bar : CurrentBar}
    (hbar : db.currentBars.get? identityHash = some bar) :
    Projects (rowsOf db.barObservations.values identityHash) bar := by
  have hhash := h identityHash
  rw [hbar] at hhash
  exact hhash

/-- A batch keeps the books right exactly when it is in order. -/
theorem Booked.batch_iff {platform : CollectionPlatform κ} {canonical : Bool}
    {before : List RawBarObservationV2} {lease : LeaseToken} {advances : List CoverageAdvance}
    {now : Instant} {result : BatchResult} (hholds : Holds before db) (hbooked : Booked db)
    (h : appendBatch platform canonical observations lease advances now db = (.ok result, db')) :
    Booked db' ↔ InOrder db observations := by
  have hafter := (hholds.batch h).projected
  obtain ⟨-, -, hbars⟩ := appendBatch_eq_ok h
  set inserted := insertedRows db ((uniqueObservations observations).map
    RawBarObservationV2.observationRow) with hinserted
  have hrows : ∀ identityHash, rowsOf db'.barObservations.values identityHash =
      rowsOf db.barObservations.values identityHash ++
        (rowsOf inserted identityHash).map ObservationRow.stored := by
    intro identityHash
    rw [appendBatch_values h, rowsOf_append, rowsOf_map_stored]
  have hget : ∀ identityHash, db'.currentBars.get? identityHash =
      (upsertProjections db.currentBars inserted).get? identityHash := fun identityHash =>
    congrArg (Dict.get? · identityHash) hbars
  constructor
  · intro hbooked' o ho hnew bar hbar
    -- the row of the bar keeps its first receipt, and the new observation is among its rows
    have hmem := mem_rowsOf_insertedRows.2 ⟨o, ho, hnew, rfl, rfl⟩
    have hne : rowsOf inserted o.identityHash ≠ [] := by
      intro hnil
      rw [← hinserted, hnil] at hmem
      cases hmem
    obtain ⟨c, hc, -⟩ := projectionCandidate_spec hne
    have hbar' : db'.currentBars.get? o.identityHash = some (mergeProjection bar c.stored) := by
      rw [hget, upsertProjections_get?, hc, hbar]
      rfl
    have hfirst := (hbooked'.books _ _ hbar').first
    rw [hrows] at hfirst
    exact hfirst.2 ⟨_, List.mem_append_right _ hmem, rfl⟩
  · intro horder
    refine ⟨fun r hr => exists_row_of_projected hafter hr, fun identityHash bar' hbar' => ?_⟩
    refine books_of_projects (projects_of_get? hafter hbar') ?_
    rw [hget, upsertProjections_get?] at hbar'
    rw [hrows]
    by_cases hne : rowsOf inserted identityHash = []
    · rw [hne] at hbar' ⊢
      rw [List.map_nil, List.append_nil]
      exact (hbooked.books _ _ hbar').first
    · obtain ⟨c, hc, -⟩ := projectionCandidate_spec hne
      rw [hc] at hbar'
      cases hbar : db.currentBars.get? identityHash with
      | none =>
          -- the bar is new, and its row is the candidate of the batch
          rw [hbar] at hbar'
          obtain rfl : c.stored = bar' := Option.some.inj hbar'
          have hnil : rowsOf db.barObservations.values identityHash = [] := by
            have hhash := hholds.projected identityHash
            rw [hbar] at hhash
            exact hhash
          rw [hnil, List.nil_append]
          exact projectionCandidate_first hc
      | some bar =>
          rw [hbar] at hbar'
          obtain rfl : mergeProjection bar c.stored = bar' := Option.some.inj hbar'
          refine (isLeast_receiptsOf_append (hbooked.books _ _ hbar).first).2 fun r hr => ?_
          obtain ⟨o, ho, hnew, rfl, rfl⟩ := mem_rowsOf_insertedRows.1 hr
          exact horder o ho hnew bar hbar

/-! ## Runs -/

/-- The steps of a collector whose batches are all in order. -/
def inOrderSystem (platform : CollectionPlatform κ) (canonical : Bool) :
    Transition (CollectionDb κ) DeliveryStep :=
  (deliverySystem platform canonical).restrict fun db label => InOrder db label.observations

theorem booked_of_init {platform : CollectionPlatform κ} {canonical : Bool}
    (h : (deliverySystem platform canonical).init db) : Booked db := by
  obtain ⟨htable, hbars⟩ := h
  constructor
  · intro r hr
    rw [htable] at hr
    cases hr
  · intro identityHash bar hbar
    rw [hbars] at hbar
    simp at hbar

/-- In a run whose batches are all in order the books are right in every state reached, and the next
batch leaves them right exactly when it is in order too. -/
theorem observation_bookkeeping (platform : CollectionPlatform κ) (canonical : Bool)
    (h : (inOrderSystem platform canonical).Reachable db) :
    Booked db ∧ ∀ observations db',
      (deliverySystem platform canonical).step db (.batch observations) db' →
        (Booked db' ↔ InOrder db observations) := by
  obtain ⟨db₀, labels, hinit, hrun⟩ := h
  have hholds := Holds.run hinit hrun.of_restrict
  have hempty : (deliverySystem platform canonical).init db₀ := hinit
  have hbooked : Booked db := by
    clear hholds
    induction hrun with
    | refl => exact booked_of_init hempty
    | @snoc labels t u label hrun hstep ih =>
        obtain ⟨horder, hstep⟩ := hstep
        cases label with
        | batch observations =>
            obtain ⟨lease, advances, now, result, happend⟩ := hstep
            exact (ih.batch_iff (Holds.run hinit hrun.of_restrict) happend).2 horder
        | other =>
            obtain ⟨htable, hbars⟩ := hstep
            exact ⟨htable ▸ hbars ▸ ih.listed, htable ▸ hbars ▸ ih.books⟩
  refine ⟨hbooked, fun observations db' hstep => ?_⟩
  obtain ⟨lease, advances, now, result, happend⟩ := hstep
  exact hbooked.batch_iff hholds happend

end Hashed

/-! ## An earlier receipt that arrives later -/

/-- An observation of one bar that was received at the given time. -/
def receivedFields (receipt : Instant) : MarketBarV1Fields :=
  { tieBarFields 1 with receiptTimestampUtc := receipt }

def firstDelivered : RawBarObservationV2 :=
  ⟨tieFields ⟨receivedFields (seconds 120), by decide +kernel⟩, by decide +kernel⟩

def firstReceived : RawBarObservationV2 :=
  ⟨tieFields ⟨receivedFields (seconds 60), by decide +kernel⟩, by decide +kernel⟩

section Late

local instance lateHasher : ContentHasher := polynomialHasher

/-- The tables after a batch with one observation. -/
def storeOne (db : CollectionDb Unit) (o : RawBarObservationV2) : CollectionDb Unit :=
  writeObservations db [o.observationRow]

/-- The tables after the first batch. -/
def onceStored : CollectionDb Unit := storeOne (emptyStore ()) firstDelivered

/-- The tables after both batches. -/
def twiceStored : CollectionDb Unit := storeOne onceStored firstReceived

/-- A batch with one accepted observation is a step while the lease lives. -/
theorem step_storeOne {db : CollectionDb Unit} {o : RawBarObservationV2}
    (hlease : verifyLease db emptyStoreLease 0 = .ok ())
    (haccepted : o.observationRow.accepted tiePlatform.jsonbAccepts = true) :
    (deliverySystem tiePlatform false).step db (.batch [o]) (storeOne db o) := by
  have hunique : uniqueObservations [o] = [o] := rfl
  obtain ⟨result, happend⟩ := @appendBatch_plain _ _ tiePlatform [o] _ _ _ hlease (by
    intro o' ho'
    rw [hunique, List.mem_singleton] at ho'
    exact ho' ▸ haccepted)
  exact ⟨emptyStoreLease, [], 0, result, happend⟩

/-- Both observations are accepted, and the second is new to the tables that hold the first, whose row
names the receipt that was delivered first. -/
theorem late_facts :
    firstDelivered.observationRow.accepted tiePlatform.jsonbAccepts = true ∧
      firstReceived.observationRow.accepted tiePlatform.jsonbAccepts = true ∧
      onceStored.barObservations.get? firstReceived.observationId = none ∧
      (onceStored.currentBars.get? firstReceived.identityHash).map CurrentBar.firstObservedAt =
        some (seconds 120) := by
  decide +kernel

theorem step_onceStored :
    (deliverySystem tiePlatform false).step (emptyStore ()) (.batch [firstDelivered]) onceStored :=
  step_storeOne (verifyLease_emptyStore ()) late_facts.1

theorem step_twiceStored :
    (deliverySystem tiePlatform false).step onceStored (.batch [firstReceived]) twiceStored :=
  step_storeOne (verifyLease_emptyStore ()) late_facts.2.1

theorem not_inOrder_onceStored : ¬ InOrder onceStored [firstReceived] := by
  intro horder
  obtain ⟨-, -, hnew, hshown⟩ := late_facts
  obtain ⟨bar, hbar, hfirst⟩ := Option.map_eq_some_iff.1 hshown
  have hle := horder firstReceived (List.mem_singleton_self _) hnew bar hbar
  rw [hfirst] at hle
  exact absurd hle (by decide)

theorem reachable_onceStored : (inOrderSystem tiePlatform false).Reachable onceStored := by
  refine ⟨emptyStore (), _, ⟨rfl, rfl⟩, Transition.Run.single ⟨?_, step_onceStored⟩⟩
  intro o _ _ bar hbar
  simp [emptyStore] at hbar

/-- After both batches the row of the bar still names the later of the two receipts as its first. -/
theorem late_delivery_breaks_books :
    ¬ ∀ db, (deliverySystem tiePlatform false).Reachable db → Booked db := by
  intro hall
  have hreachable := reachable_onceStored.of_restrict
  have hbooked := hall twiceStored (hreachable.tail step_twiceStored)
  obtain ⟨db₀, labels, hinit, hrun⟩ := hreachable
  obtain ⟨lease, advances, now, result, happend⟩ := step_twiceStored
  exact not_inOrder_onceStored
    (((hall onceStored ⟨db₀, labels, hinit, hrun⟩).batch_iff (Holds.run hinit hrun) happend).1 hbooked)

/-- The books are right after the first batch and wrong after the second. -/
theorem books_onceStored : Booked onceStored ∧ ¬ Booked twiceStored := by
  have h := observation_bookkeeping tiePlatform false reachable_onceStored
  refine ⟨h.1, fun hbooked => ?_⟩
  exact not_inOrder_onceStored ((h.2 _ _ step_twiceStored).1 hbooked)

end Late

end AdaptiveTrader
