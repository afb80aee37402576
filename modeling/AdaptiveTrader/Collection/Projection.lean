import AdaptiveTrader.Collection.Repository
import AdaptiveTrader.Foundation.Transition

/-!
# The current-value projection

A projected row sums up the stored observations of its bar: the values of the last one in rank order,
their number and their latest receipt (`Projects`). A candidate built in Python sums up one group of
new observations, and the merge in the database puts two summaries together, so a transaction keeps
the row a summary of everything stored (`ProjectionInvariant`).
-/

set_option autoImplicit false

namespace AdaptiveTrader

open Foundation

namespace PostgresMarketDataRepository

/-! ## Summaries -/

/-- `bar` sums up the stored observations `rows`. -/
structure Projects (rows : List ObservationRow) (bar : CurrentBar) : Prop where
  winner : ∃ w, IsLatest ObservationRow.rank rows w ∧
    bar.currentObservationId = w.observationId ∧ bar.values = w.values
  count : bar.observationCount = rows.length
  attained : ∃ r ∈ rows, r.values.receiptTimestampUtc = bar.lastObservedAt
  bound : ∀ r ∈ rows, r.values.receiptTimestampUtc ≤ bar.lastObservedAt

theorem rank_of_winner {bar : CurrentBar} {w : ObservationRow}
    (hid : bar.currentObservationId = w.observationId) (hvalues : bar.values = w.values) :
    bar.rank = w.rank := by
  simp only [CurrentBar.rank, ObservationRow.rank, hid, hvalues]

/-- The merge of two summaries sums up both. -/
theorem Projects.merge {l m : List ObservationRow} {current excluded : CurrentBar}
    (hl : Projects l current) (hm : Projects m excluded) :
    Projects (l ++ m) (mergeProjection current excluded) := by
  obtain ⟨v, hv, hvid, hvvalues⟩ := hl.winner
  obtain ⟨w, hw, hwid, hwvalues⟩ := hm.winner
  have hcurrent : current.rank = v.rank := rank_of_winner hvid hvvalues
  have hexcluded : excluded.rank = w.rank := rank_of_winner hwid hwvalues
  refine ⟨?_, ?_, ?_, ?_⟩
  · by_cases hwins : current.rank < excluded.rank
    · refine ⟨w, hv.append_right hw (by rwa [← hcurrent, ← hexcluded]), ?_, ?_⟩
      · simpa only [mergeProjection, if_pos hwins] using hwid
      · simpa only [mergeProjection, if_pos hwins] using hwvalues
    · refine ⟨v, hv.append_left hw (by rwa [← hcurrent, ← hexcluded]), ?_, ?_⟩
      · simpa only [mergeProjection, if_neg hwins] using hvid
      · simpa only [mergeProjection, if_neg hwins] using hvvalues
  · simp only [mergeProjection, hl.count, hm.count, List.length_append]
  · -- the later of the two receipts is attained on its own side
    rcases le_total current.lastObservedAt excluded.lastObservedAt with hle | hle
    · obtain ⟨r, hr, hreceipt⟩ := hm.attained
      exact ⟨r, List.mem_append_right _ hr, by simp only [mergeProjection, max_eq_right hle, hreceipt]⟩
    · obtain ⟨r, hr, hreceipt⟩ := hl.attained
      exact ⟨r, List.mem_append_left _ hr, by simp only [mergeProjection, max_eq_left hle, hreceipt]⟩
  · intro r hr
    rcases List.mem_append.1 hr with hrl | hrm
    · exact (hl.bound r hrl).trans (le_max_left _ _)
    · exact (hm.bound r hrm).trans (le_max_right _ _)

/-- A candidate exists for every nonempty group. As the columns store it, it sums up the group, and
it names the bar of the group. -/
theorem projectionCandidate_spec {rows : List ObservationRow} (hne : rows ≠ []) :
    ∃ c, projectionCandidate rows = some c ∧ Projects (rows.map ObservationRow.stored) c.stored ∧
      ∃ r ∈ rows, c.identity = r.identity := by
  have hsorted : sortedBy ObservationRow.rank rows ≠ [] := by
    intro hnil
    have hlength := (sortedBy_perm ObservationRow.rank rows).length_eq
    rw [hnil, List.length_nil, eq_comm, List.length_eq_zero_iff] at hlength
    exact hne hlength
  obtain ⟨w, hlast⟩ := List.getLast?_isSome.2 hsorted |> Option.isSome_iff_exists.1
  have hw : IsLatest ObservationRow.rank rows w := IsLatest.of_getLast?_sortedBy hlast
  obtain ⟨top, hmax⟩ : ∃ top,
      (rows.map fun row => row.values.receiptTimestampUtc).max? = some top := by
    refine Option.isSome_iff_exists.1 (List.isSome_max?_of_mem (a := w.values.receiptTimestampUtc) ?_)
    exact List.mem_map_of_mem hw.1
  obtain ⟨hattained, hbound⟩ := List.max?_eq_some_iff.1 hmax
  obtain ⟨r, hr, hreceipt⟩ := List.mem_map.1 hattained
  refine ⟨_, by rw [projectionCandidate, hlast, Option.map_some], ?_, w, hw.1, rfl⟩
  refine ⟨⟨w.stored, ⟨List.mem_map_of_mem hw.1, ?_⟩, rfl, rfl⟩, ?_, ?_, ?_⟩
  · intro b hb
    obtain ⟨a, ha, rfl⟩ := List.mem_map.1 hb
    exact hw.2 a ha
  · simp only [CurrentBar.stored, projectionRow, List.length_map]
  · exact ⟨r.stored, List.mem_map_of_mem hr, by
      simpa [CurrentBar.stored, projectionRow, hmax] using hreceipt⟩
  · intro b hb
    obtain ⟨a, ha, rfl⟩ := List.mem_map.1 hb
    have hle := hbound _ (List.mem_map_of_mem (f := fun row : ObservationRow =>
      row.values.receiptTimestampUtc) ha)
    simpa [CurrentBar.stored, projectionRow, hmax] using hle

/-! ## One batch -/

/-- The rows of one bar. -/
def rowsOf (rows : List ObservationRow) (identityHash : String) : List ObservationRow :=
  rows.filter fun row => row.identity.identityHash = identityHash

@[simp] theorem mem_rowsOf {rows : List ObservationRow} {identityHash : String}
    {row : ObservationRow} :
    row ∈ rowsOf rows identityHash ↔ row ∈ rows ∧ row.identity.identityHash = identityHash := by
  simp [rowsOf]

theorem rowsOf_append (l m : List ObservationRow) (identityHash : String) :
    rowsOf (l ++ m) identityHash = rowsOf l identityHash ++ rowsOf m identityHash :=
  List.filter_append l m

theorem rowsOf_map_stored (rows : List ObservationRow) (identityHash : String) :
    rowsOf (rows.map ObservationRow.stored) identityHash =
      (rowsOf rows identityHash).map ObservationRow.stored := by
  simp only [rowsOf, List.filter_map]
  rfl

/-- The candidate of a bar carries the identity hash of the bar. -/
theorem identityHash_of_projectionCandidate {rows : List ObservationRow} {identityHash : String}
    {c : CurrentBar} (h : projectionCandidate (rowsOf rows identityHash) = some c) :
    c.identity.identityHash = identityHash := by
  have hne : rowsOf rows identityHash ≠ [] := by
    intro hnil
    rw [hnil] at h
    simp [projectionCandidate] at h
  obtain ⟨c', hc', -, r, hr, hidentity⟩ := projectionCandidate_spec hne
  cases h.symm.trans hc'
  rw [hidentity]
  exact (mem_rowsOf.1 hr).2

theorem mem_projectionCandidates {rows : List ObservationRow} {c : CurrentBar} :
    c ∈ projectionCandidates rows ↔
      projectionCandidate (rowsOf rows c.identity.identityHash) = some c := by
  simp only [projectionCandidates, List.mem_filterMap, List.mem_dedup, List.mem_map]
  constructor
  · rintro ⟨hash, -, hc⟩
    have hhash : c.identity.identityHash = hash := identityHash_of_projectionCandidate hc
    rw [hhash]
    exact hc
  · intro hc
    refine ⟨c.identity.identityHash, ?_, hc⟩
    by_contra hnone
    have hnil : rowsOf rows c.identity.identityHash = [] := by
      rw [List.eq_nil_iff_forall_not_mem]
      intro row hrow
      exact hnone ⟨row, (mem_rowsOf.1 hrow).1, (mem_rowsOf.1 hrow).2⟩
    rw [hnil] at hc
    simp [projectionCandidate] at hc

/-- No bar has two candidates. -/
theorem nodup_projectionCandidates (rows : List ObservationRow) :
    ((projectionCandidates rows).map fun c => c.identity.identityHash).Nodup := by
  have hsub : ∀ hashes : List String,
      ((hashes.filterMap fun hash => projectionCandidate (rowsOf rows hash)).map
        fun c => c.identity.identityHash).Sublist hashes := by
    intro hashes
    induction hashes with
    | nil => exact List.Sublist.slnil
    | cons hash rest ih =>
        cases hc : projectionCandidate (rowsOf rows hash) with
        | none =>
            rw [List.filterMap_cons_none (f := fun hash => projectionCandidate (rowsOf rows hash)) hc]
            exact ih.cons hash
        | some c =>
            rw [List.filterMap_cons_some (f := fun hash => projectionCandidate (rowsOf rows hash)) hc,
              List.map_cons, identityHash_of_projectionCandidate hc]
            exact ih.cons_cons hash
  exact (hsub _).nodup (List.nodup_dedup _)

/-- The rows a batch inserts are new. -/
theorem insertedRows_new {κ : Type} {db : CollectionDb κ} {rows : List ObservationRow}
    {row : ObservationRow} (h : row ∈ insertedRows db rows) :
    db.barObservations.get? row.observationId = none := by
  have hnot := (List.mem_filter.1 h).2
  simpa [Dict.contains] using hnot

/-- Rows once stored stay. -/
theorem writeObservations_get? {κ : Type} {db : CollectionDb κ} {rows : List ObservationRow}
    {id : String} {row : ObservationRow} (h : db.barObservations.get? id = some row) :
    (writeObservations db rows).barObservations.get? id = some row := by
  refine (Dict.foldl_set_get?_of_not_mem ObservationRow.observationId _ db.barObservations ?_).trans
    h
  rintro stored hstored rfl
  obtain ⟨raw, hraw, rfl⟩ := List.mem_map.1 hstored
  rw [ObservationRow.stored_observationId, insertedRows_new hraw] at h
  cases h

/-- The projection sums up the stored observations of every bar. -/
def ProjectionInvariant (table : List ObservationRow) (bars : Dict String CurrentBar) : Prop :=
  ∀ identityHash, match bars.get? identityHash with
    | none => rowsOf table identityHash = []
    | some bar => Projects (rowsOf table identityHash) bar

/-- What upserting the candidates of new rows does to the row of one bar. -/
theorem upsertProjections_get? (bars : Dict String CurrentBar) (rows : List ObservationRow)
    (identityHash : String) :
    (upsertProjections bars rows).get? identityHash =
      match projectionCandidate (rowsOf rows identityHash) with
      | none => bars.get? identityHash
      | some c => some ((bars.get? identityHash).elim c.stored fun bar =>
          mergeProjection bar c.stored) := by
  cases hc : projectionCandidate (rowsOf rows identityHash) with
  | none =>
      have hnone : ∀ c ∈ projectionCandidates rows,
          c.stored.identity.identityHash ≠ identityHash := by
        rintro c hmem rfl
        have hcandidate := mem_projectionCandidates.1 hmem
        rw [show projectionCandidate (rowsOf rows c.identity.identityHash) = none from hc]
          at hcandidate
        cases hcandidate
      exact Dict.get?_foldl_upsert_of_not_mem mergeProjection _ CurrentBar.stored _ bars hnone
  | some c =>
      have hkey : c.identity.identityHash = identityHash := identityHash_of_projectionCandidate hc
      have hmem : c ∈ projectionCandidates rows := mem_projectionCandidates.2 (by rw [hkey, hc])
      have hget := Dict.get?_foldl_upsert mergeProjection
        (fun c : CurrentBar => c.stored.identity.identityHash) CurrentBar.stored bars
        (nodup_projectionCandidates rows) hmem
      change (upsertProjections bars rows).get? c.identity.identityHash =
        some ((bars.get? c.identity.identityHash).elim _ _) at hget
      rw [hkey] at hget
      exact hget

/-- Upserting the candidates of new rows accounts for exactly these rows. -/
theorem projectionInvariant_upsert {table rows : List ObservationRow} {bars : Dict String CurrentBar}
    (h : ProjectionInvariant table bars) :
    ProjectionInvariant (table ++ rows.map ObservationRow.stored) (upsertProjections bars rows) := by
  intro identityHash
  have hhash := h identityHash
  rw [rowsOf_append, rowsOf_map_stored, upsertProjections_get?]
  by_cases hne : rowsOf rows identityHash = []
  · rw [hne, List.map_nil, List.append_nil]
    exact hhash
  · obtain ⟨c, hc, hprojects, -⟩ := projectionCandidate_spec hne
    rw [hc]
    cases hbar : bars.get? identityHash with
    | none =>
        rw [hbar] at hhash
        rw [show rowsOf table identityHash = [] from hhash, List.nil_append]
        exact hprojects
    | some bar =>
        rw [hbar] at hhash
        exact Projects.merge hhash hprojects

end PostgresMarketDataRepository

end AdaptiveTrader
