import AdaptiveTrader.Storage.BatchReads
import AdaptiveTrader.Storage.SymbolWatermarks

/-!
# Histories of bars

A bar identity has a history: its effective revisions in order. `Holds` says that the tables hold a
history exactly as it was written, and `Consistent` that they hold one for each ID they have anything
for. A bar write keeps the tables consistent (`Consistent.recordBar`): it repeats the last revision of
the history and changes nothing, or adds one revision to it.
-/

set_option autoImplicit false

namespace AdaptiveTrader.Storage

open Foundation

section Histories

variable [ContentHasher]

/-! ## Chains -/

theorem verifyRevisionsFrom_append {events : List StoredBarEvent} {event : StoredBarEvent}
    {expected : Nat} {previous : Option StoredBarEvent} :
    verifyRevisionsFrom expected previous (events ++ [event]) = .ok () ↔
      verifyRevisionsFrom expected previous events = .ok () ∧
        event.revision = expected + events.length ∧
        verifySuccession event (events.getLast?.or previous) = .ok () := by
  induction events generalizing expected previous with
  | nil =>
      simp only [List.nil_append, verifyRevisionsFrom, unit_bind_eq_ok, rejectIf_eq_ok, not_not,
        List.length_nil, Nat.add_zero, List.getLast?_nil, Option.none_or, true_and, and_true]
  | cons first rest ih =>
      simp only [List.cons_append, verifyRevisionsFrom, unit_bind_eq_ok, rejectIf_eq_ok, ih,
        List.length_cons]
      have hlast : ((first :: rest).getLast?.or previous) = (rest.getLast?.or (some first)) := by
        cases rest with
        | nil => rfl
        | cons second rest => simp [List.getLast?_cons]
      rw [hlast, Nat.add_assoc, Nat.add_comm 1]
      tauto

/-- A chain continues with the next revision. -/
theorem verifyRevisionChain_append {chain : List StoredBarEvent} {event : StoredBarEvent} :
    verifyRevisionChain (chain ++ [event]) = .ok () ↔
      verifyRevisionChain chain = .ok () ∧ event.revision = chain.length + 1 ∧
        verifySuccession event chain.getLast? = .ok () := by
  rw [verifyRevisionChain, verifyRevisionsFrom_append, Option.or_none, Nat.add_comm 1]
  rfl

/-- The last revision counts the chain. -/
theorem revision_of_getLast? {chain : List StoredBarEvent} {event : StoredBarEvent}
    (h : verifyRevisionChain chain = .ok ()) (hlast : chain.getLast? = some event) :
    event.revision = chain.length := by
  obtain ⟨init, rfl⟩ := List.getLast?_eq_some_iff.1 hlast
  rw [(verifyRevisionChain_append.1 h).2.1, List.length_append, List.length_singleton]

theorem revision_le_length {chain : List StoredBarEvent} {event : StoredBarEvent}
    (h : verifyRevisionChain chain = .ok ()) (hmem : event ∈ chain) :
    event.revision ≤ chain.length := by
  induction chain using List.reverseRecOn with
  | nil => cases hmem
  | append_singleton init last ih =>
      obtain ⟨hinit, hlast, -⟩ := verifyRevisionChain_append.1 h
      rw [List.length_append, List.length_singleton]
      rcases List.mem_append.1 hmem with hold | hnew
      · exact (ih hinit hold).trans (Nat.le_succ _)
      · rw [List.mem_singleton.1 hnew, hlast]

theorem of_nextRevision {bar : BarWrite} {previous : Option StoredBarEvent} {event : StoredBarEvent}
    (h : nextRevision bar previous = .ok event) :
    event.bar = bar ∧ event.revision = (previous.map fun p => p.revision + 1).getD 1 ∧
      event.correctionOfEventId = previous.map fun p => p.barEventId := by
  simp only [nextRevision, bind_eq_ok, validated_eq_ok] at h
  obtain ⟨_, -, _, rfl⟩ := h
  exact ⟨rfl, rfl, rfl⟩

namespace BarTables

variable {t t' : BarTables} {i : BarIdentity} {chain : List StoredBarEvent} {S : Set BarIdentity}

/-! ## Tables that hold a history -/

/-- The tables hold the history of an identity as it was written. -/
structure Holds (t : BarTables) (i : BarIdentity) (chain : List StoredBarEvent) : Prop where
  identity : ∃ first, chain.head? = some first ∧ t.identities.get? i.barIdentityId =
    some ⟨i.toBarIdentityFields, i.identityHash, first.bar.receivedAt⟩
  events : t.eventRows i.barIdentityId = chain.map fun e => (e.barEventId, eventRow e)
  latest : t.latest.get? i.barIdentityId = chain.getLast?.map latestRow
  chained : verifyRevisionChain chain = .ok ()
  identified : ∀ e ∈ chain, e.identity = i

/-- Under each ID the tables hold the history of one of the identities, or nothing. -/
def Consistent (t : BarTables) (S : Set BarIdentity) : Prop :=
  ∀ id, t.Absent id ∨ ∃ i ∈ S, i.barIdentityId = id ∧ ∃ chain, t.Holds i chain

theorem consistent_empty (S : Set BarIdentity) : Consistent {} S := by
  intro id
  exact Or.inl ⟨Dict.get?_empty id, rfl, Dict.get?_empty id⟩

theorem projects_latestRow (event : StoredBarEvent) : Projects (latestRow event) event :=
  ⟨rfl, rfl, rfl, rfl, rfl⟩

/-- The rows of a history are read as the history. -/
theorem collect_eventFromRow (hidentified : ∀ e ∈ chain, e.identity = i) :
    collect (fun e => eventFromRow i e.1 e.2) (chain.map fun e => (e.barEventId, eventRow e)) =
      .ok chain := by
  rw [collect_eq_ok_iff, List.forall₂_map_left_iff, List.forall₂_same]
  intro e he
  have hparsed := eventFromRow_eventRow e
  rw [hidentified e he] at hparsed
  exact hparsed

/-- A history that the tables hold is verified by every read. -/
theorem Holds.verified (h : t.Holds i chain) : t.Verified i chain := by
  obtain ⟨first, hfirst, hrow⟩ := h.identity
  refine ⟨⟨_, hrow, identityFromRow_eq_ok.2 ⟨rfl, rfl, rfl⟩, first, hfirst, rfl⟩, ?_, h.chained, ?_⟩
  · rw [h.events]
    exact collect_eventFromRow h.identified
  · have hne : chain ≠ [] := by
      rintro rfl
      cases hfirst
    obtain ⟨current, hcurrent⟩ := Option.isSome_iff_exists.1 (List.getLast?_isSome.2 hne)
    exact ⟨latestRow current, by rw [h.latest, hcurrent]; rfl, current, hcurrent,
      projects_latestRow current⟩

/-- The rows of one ID are the same in both tables. -/
structure SameAt (t t' : BarTables) (id : String) : Prop where
  identity : t'.identities.get? id = t.identities.get? id
  events : t'.eventRows id = t.eventRows id
  latest : t'.latest.get? id = t.latest.get? id

omit [ContentHasher] in
theorem SameAt.symm {id : String} (h : SameAt t t' id) : SameAt t' t id :=
  ⟨h.identity.symm, h.events.symm, h.latest.symm⟩

omit [ContentHasher] in
theorem SameAt.absent {id : String} (h : SameAt t t' id) (ha : t.Absent id) : t'.Absent id :=
  ⟨h.identity.trans ha.identity, h.events.trans ha.events, h.latest.trans ha.latest⟩

theorem SameAt.holds (h : SameAt t t' i.barIdentityId) (hh : t.Holds i chain) : t'.Holds i chain := by
  obtain ⟨first, hfirst, hrow⟩ := hh.identity
  exact ⟨⟨first, hfirst, h.identity.trans hrow⟩, h.events.trans hh.events,
    h.latest.trans hh.latest, hh.chained, hh.identified⟩

/-- Writing the history of one identity leaves the tables consistent. -/
theorem Consistent.of_write (h : t.Consistent S) (hi : i ∈ S) (hholds : t'.Holds i chain)
    (hsame : ∀ id, id ≠ i.barIdentityId → SameAt t t' id) : t'.Consistent S := by
  intro id
  by_cases hid : id = i.barIdentityId
  · exact Or.inr ⟨i, hi, hid.symm, chain, hholds⟩
  · rcases h id with habsent | ⟨j, hj, rfl, chain', hholds'⟩
    · exact Or.inl ((hsame _ hid).absent habsent)
    · exact Or.inr ⟨j, hj, rfl, chain', (hsame _ hid).holds hholds'⟩

/-- Where IDs name identities, each identity is absent or has its history. -/
theorem Consistent.absent_or_holds (h : t.Consistent S) (hS : Set.InjOn BarIdentity.barIdentityId S)
    (hi : i ∈ S) : t.Absent i.barIdentityId ∨ ∃ chain, t.Holds i chain := by
  rcases h i.barIdentityId with habsent | ⟨j, hj, hid, hholds⟩
  · exact Or.inl habsent
  · exact Or.inr (hS hj hi hid ▸ hholds)

/-! ## Tables open for a revision -/

/-- The tables behind `_ensure_identity`: the identity has its row, and the history may be empty. -/
structure Opened (t : BarTables) (bar : BarWrite) (chain : List StoredBarEvent) : Prop where
  identity : t.identities.get? bar.identity.barIdentityId =
    some ⟨bar.identity.toBarIdentityFields, bar.identity.identityHash,
      (chain.head?.map fun e => e.bar.receivedAt).getD bar.receivedAt⟩
  events : t.eventRows bar.identity.barIdentityId = chain.map fun e => (e.barEventId, eventRow e)
  latest : t.latest.get? bar.identity.barIdentityId = chain.getLast?.map latestRow
  chained : verifyRevisionChain chain = .ok ()
  identified : ∀ e ∈ chain, e.identity = bar.identity

theorem Holds.opened {bar : BarWrite} (h : t.Holds bar.identity chain) : t.Opened bar chain := by
  obtain ⟨first, hfirst, hrow⟩ := h.identity
  exact ⟨by rw [hrow, hfirst]; rfl, h.events, h.latest, h.chained, h.identified⟩

/-- The tables in which an absent identity has just been inserted. -/
theorem Absent.opened {bar : BarWrite} (h : t.Absent bar.identity.barIdentityId) :
    (t.insertIdentity bar).Opened bar [] where
  identity := Dict.get?_set_self ..
  events := h.events
  latest := h.latest
  chained := rfl
  identified := by simp

namespace Opened

variable {bar : BarWrite}

theorem loadEvents (h : t.Opened bar chain) : t.loadEvents bar.identity = .ok chain := by
  simp only [BarTables.loadEvents, h.identity, h.events, bind_eq_ok, rejectIf_eq_ok, pure_eq_ok]
  refine ⟨chain, collect_eventFromRow h.identified, (), h.chained, (), ?_, rfl⟩
  rintro ⟨first, hfirst, hne⟩
  rw [Option.mem_def] at hfirst
  simp [hfirst] at hne

theorem verifyLatestProjection (h : t.Opened bar chain) :
    t.verifyLatestProjection bar.identity chain = .ok chain.length := by
  cases hlast : chain.getLast? with
  | none =>
      rw [List.getLast?_eq_none_iff] at hlast
      subst hlast
      simp [BarTables.verifyLatestProjection, h.latest]
  | some current =>
      simp only [BarTables.verifyLatestProjection, h.latest, hlast, Option.map_some, bind_eq_ok,
        rejectIf_eq_ok, not_not, pure_eq_ok]
      refine ⟨(), projects_latestRow current, ?_⟩
      simp only [latestRow, revision_of_getLast? h.chained hlast]

/-- One revision more, and the projection moved to it. -/
theorem add (h : t.Opened bar chain) {event : StoredBarEvent} (hbar : event.bar = bar)
    (hrevision : event.revision = chain.length + 1)
    (hsuccession : verifySuccession event chain.getLast? = .ok ())
    (hfresh : t.events.get? event.barEventId = none) :
    Holds { t with
      events := t.events.set event.barEventId (eventRow event)
      latest := t.latest.set event.identity.barIdentityId (latestRow event) }
      bar.identity (chain ++ [event]) := by
  have hidentity : event.identity = bar.identity := by rw [StoredBarEvent.identity, hbar]
  refine ⟨?_, ?_, ?_, verifyRevisionChain_append.2 ⟨h.chained, hrevision, hsuccession⟩, ?_⟩
  · cases chain with
    | nil => exact ⟨event, rfl, by rw [hbar]; exact h.identity⟩
    | cons first rest => exact ⟨first, rfl, h.identity⟩
  · -- the new row has the largest revision of its identity, so it is sorted to the end
    have hid : (eventRow event).barIdentityId = bar.identity.barIdentityId := by
      rw [← hidentity]
      rfl
    have hlarger : ∀ e ∈ t.events.entries.filter
        (fun e => e.2.barIdentityId = bar.identity.barIdentityId),
        e.2.revision ≤ (eventRow event).revision := by
      intro e he
      have hmem : e ∈ t.eventRows bar.identity.barIdentityId := mem_sortedBy.2 he
      rw [h.events] at hmem
      obtain ⟨stored, hstored, rfl⟩ := List.mem_map.1 hmem
      obtain ⟨k, hk, hget⟩ := List.mem_iff_getElem.1 hstored
      have hbound := revision_le_length h.chained hstored
      simp only [eventRow]
      omega
    have hrows := h.events
    unfold eventRows at hrows ⊢
    rw [Dict.entries_set_of_get?_none hfresh, List.filter_append,
      List.filter_cons_of_pos (by simpa using hid), List.filter_nil,
      sortedBy_concat hlarger, hrows, List.map_append]
    rfl
  · rw [hidentity, Dict.get?_set_self, List.getLast?_concat]
    rfl
  · intro e he
    rcases List.mem_append.1 he with hold | hnew
    · exact h.identified e hold
    · rw [List.mem_singleton.1 hnew]
      exact hidentity

end Opened

/-! ## Writing one bar -/

/-- The identity of a bar is new, or has the history that the tables hold under its ID. -/
theorem Consistent.of_ensureIdentity (h : t.Consistent S) {bar : BarWrite} {created : Bool}
    (he : t.ensureIdentity bar = .ok (created, t')) :
    (created = true ∧ t.Absent bar.identity.barIdentityId ∧ t' = t.insertIdentity bar) ∨
      (created = false ∧ t' = t ∧ ∃ chain, t.Holds bar.identity chain) := by
  simp only [ensureIdentity] at he
  split at he
  · next hrows =>
      cases he
      refine Or.inl ⟨rfl, ?_, rfl⟩
      rcases h bar.identity.barIdentityId with habsent | ⟨i, -, hi, chain, hholds⟩
      · exact habsent
      · -- a history under the ID would have a row of its identity
        obtain ⟨first, -, hrow⟩ := hholds.identity
        rw [hi] at hrow
        have hmem := List.filter_eq_nil_iff.1 hrows _ (Dict.mem_entries_iff.2 hrow)
        simp at hmem
  · next row hrows =>
      simp only [bind_eq_ok, rejectIf_eq_ok, not_not, pure_eq_ok, Prod.mk.injEq] at he
      obtain ⟨stored, hstored, _, rfl, rfl, rfl⟩ := he
      obtain ⟨hid, hfields, -⟩ := identityFromRow_eq_ok.1 hstored
      have hmem : row ∈ t.identities.entries := by
        have hrow : row ∈ [row] := List.mem_singleton_self row
        rw [← hrows] at hrow
        exact List.mem_of_mem_filter hrow
      have hget : t.identities.get? bar.identity.barIdentityId = some row.2 := by
        rw [← hid]
        exact Dict.mem_entries_iff.1 hmem
      refine Or.inr ⟨rfl, rfl, ?_⟩
      rcases h bar.identity.barIdentityId with habsent | ⟨i, -, hi, chain, hholds⟩
      · rw [habsent.identity] at hget
        cases hget
      · obtain ⟨first, -, hrow⟩ := hholds.identity
        rw [hi, hget, Option.some.injEq] at hrow
        rw [hrow] at hfields
        have hsame : i = bar.identity :=
          BarIdentity.eq_of_naturalKey (congrArg BarIdentity.naturalKey hfields)
        exact ⟨chain, hsame ▸ hholds⟩
  · cases he

/-- What a bar write does to the tables when it adds a revision. -/
theorem of_insertRevision {bar : BarWrite} {events : List StoredBarEvent} {selected : Bool}
    {event : StoredBarEvent} (h : t.insertRevision bar events selected = .ok (event, t')) :
    nextRevision bar events.getLast? = .ok event ∧
      (∀ p, events.getLast? = some p → ¬ (bar.receivedAt < p.bar.receivedAt ∧ selected = false ∧
        BarWrite.lineageAggregate bar.toBarWriteFields = false)) ∧
      t.events.get? event.barEventId = none ∧
      t' = { t with events := t.events.set event.barEventId (eventRow event) } := by
  simp only [insertRevision, insertEvent, bind_eq_ok, rejectIf_eq_ok, pure_eq_ok, not_or,
    Prod.mk.injEq] at h
  obtain ⟨_, hreceipt, event', hevent, t₁, ⟨_, ⟨hfresh, -⟩, rfl⟩, rfl, rfl⟩ := h
  rw [Bool.not_eq_true, Dict.contains_eq_false] at hfresh
  exact ⟨hevent, fun p hp hearlier => hreceipt ⟨p, hp, hearlier⟩, hfresh, rfl⟩

omit [ContentHasher] in
theorem of_putLatest {id : String} {row : BarLatestRow} {priorVersion : Int}
    {latest : Dict String BarLatestRow} (h : t.putLatest id row priorVersion = .ok latest) :
    latest = t.latest.set id row := by
  unfold putLatest at h
  split at h
  · simp only [bind_eq_ok, rejectIf_eq_ok, pure_eq_ok] at h
    obtain ⟨_, -, rfl⟩ := h
    rfl
  · simp only [require_eq_ok, Dict.compareAndSet_eq_some] at h
    obtain ⟨_, -, -, rfl⟩ := h
    rfl

theorem of_writeLatestProjection {event : StoredBarEvent} {priorVersion version : Int}
    (h : t.writeLatestProjection event priorVersion = .ok (version, t')) :
    version = event.revision ∧
      t' = { t with latest := t.latest.set event.identity.barIdentityId (latestRow event) } := by
  simp only [writeLatestProjection, bind_eq_ok, rejectIf_eq_ok, pure_eq_ok, not_not,
    Prod.mk.injEq] at h
  obtain ⟨_, hversion, _, -, latest, hlatest, rfl, rfl⟩ := h
  have hrow : ({ latestRow event with version := priorVersion + 1 } : BarLatestRow) =
      latestRow event := by
    rw [hversion]
    rfl
  rw [of_putLatest hlatest, hrow]
  exact ⟨hversion, rfl⟩

/-- What a bar write did. -/
inductive Recorded (t : BarTables) (bar : BarWrite) (selected : Bool) :
    RecordedBar → BarTables → Prop
  /-- The bar repeats the last revision of the history. -/
  | repeated {chain : List StoredBarEvent} {current : StoredBarEvent}
      (holds : t.Holds bar.identity chain) (last : chain.getLast? = some current)
      (repeats : Repeats bar selected current) :
      Recorded t bar selected ⟨.duplicate, current, current.revision⟩ t
  /-- The bar adds a revision to the history, which may have been empty. -/
  | added {t' : BarTables} {chain : List StoredBarEvent} {event : StoredBarEvent}
      (before : (t.Absent bar.identity.barIdentityId ∧ chain = []) ∨ t.Holds bar.identity chain)
      (novel : ∀ current, chain.getLast? = some current → ¬ Repeats bar selected current)
      (bar_eq : event.bar = bar) (holds : t'.Holds bar.identity (chain ++ [event]))
      (elsewhere : ∀ id, id ≠ bar.identity.barIdentityId → SameAt t t' id)
      (fresh : t.events.get? event.barEventId = none)
      (events : t'.events = t.events.set event.barEventId (eventRow event)) :
      Recorded t bar selected
        ⟨if chain = [] then .inserted else .corrected, event, event.revision⟩ t'

/-- The recorded event is the last revision of its bar. -/
theorem Recorded.history {bar : BarWrite} {selected : Bool} {r : RecordedBar}
    (h : Recorded t bar selected r t') :
    ∃ chain, t'.Holds bar.identity chain ∧ chain.getLast? = some r.event := by
  cases h with
  | repeated holds last repeats => exact ⟨_, holds, last⟩
  | added before novel bar_eq holds elsewhere fresh events =>
      exact ⟨_, holds, List.getLast?_concat⟩

theorem Recorded.identity_eq {bar : BarWrite} {selected : Bool} {r : RecordedBar}
    (h : Recorded t bar selected r t') : r.event.identity = bar.identity := by
  obtain ⟨chain, hholds, hlast⟩ := h.history
  exact hholds.identified _ (List.mem_of_getLast? hlast)

theorem Recorded.latestVersion_eq {bar : BarWrite} {selected : Bool} {r : RecordedBar}
    (h : Recorded t bar selected r t') : r.latestVersion = r.event.revision := by
  cases h <;> rfl

/-- A selected bar is a projection of the collector. -/
def SelectedBoundary (bar : BarWrite) (selected : Bool) : Prop :=
  selected = true → bar.source = "collection_projection"

/-- The revision that a bar adds succeeds the last one. -/
theorem verifySuccession_of_inserted {bar : BarWrite} {selected : Bool} {event : StoredBarEvent}
    (hsource : SelectedBoundary bar selected) (hrepeats : ∀ current, chain.getLast? = some current →
      ¬ Repeats bar selected current)
    (hinsert : t.insertRevision bar chain selected = .ok (event, t')) :
    verifySuccession event chain.getLast? = .ok () := by
  obtain ⟨hnext, hreceipt, -, -⟩ := of_insertRevision hinsert
  obtain ⟨hbar, -, hcorrection⟩ := of_nextRevision hnext
  cases hlast : chain.getLast? with
  | none =>
      rw [hlast] at hcorrection
      simp [verifySuccession, hcorrection]
  | some current =>
      rw [hlast] at hcorrection
      simp only [verifySuccession, rejectIf_eq_ok, not_not]
      refine ⟨hcorrection, ?_, ?_⟩
      · intro hhash
        refine hrepeats current hlast (Or.inl ?_)
        rw [← hhash, StoredBarEvent.normalizedPayloadHash, hbar]
      · rw [hbar]
        rintro ⟨hearlier, hnotSelected, hlineage⟩
        -- an earlier receipt passes only for a selected projection, which has the excepted source
        refine hreceipt current hlast ⟨hearlier, ?_, hlineage⟩
        cases selected with
        | false => rfl
        | true => exact absurd (hsource rfl) hnotSelected

/-- The revision number that follows a chain. -/
theorem revision_of_inserted {bar : BarWrite} {selected : Bool} {event : StoredBarEvent}
    (hchained : verifyRevisionChain chain = .ok ())
    (hinsert : t.insertRevision bar chain selected = .ok (event, t')) :
    event.revision = chain.length + 1 := by
  obtain ⟨-, hrevision, -⟩ := of_nextRevision (of_insertRevision hinsert).1
  cases hlast : chain.getLast? with
  | none =>
      rw [List.getLast?_eq_none_iff] at hlast
      subst hlast
      exact hrevision
  | some current =>
      rw [hlast] at hrevision
      rw [hrevision, Option.map_some, Option.getD_some, revision_of_getLast? hchained hlast]

/-- A write under one ID leaves the rows of the others. -/
theorem sameAt_of_add {bar : BarWrite} {event : StoredBarEvent} {t₁ : BarTables}
    (hopen : t₁ = t ∨ t₁ = t.insertIdentity bar) (hbar : event.bar = bar)
    (hfresh : t₁.events.get? event.barEventId = none) {id : String}
    (hid : id ≠ bar.identity.barIdentityId) :
    SameAt t { t₁ with
      events := t₁.events.set event.barEventId (eventRow event)
      latest := t₁.latest.set event.identity.barIdentityId (latestRow event) } id := by
  have hidentity : event.identity = bar.identity := by rw [StoredBarEvent.identity, hbar]
  have hrow : (eventRow event).barIdentityId ≠ id := by
    intro heq
    exact hid (by rw [← heq, ← hidentity]; rfl)
  have hbefore : SameAt t t₁ id := by
    rcases hopen with rfl | rfl
    · exact ⟨rfl, rfl, rfl⟩
    · exact ⟨Dict.get?_set_of_ne _ _ hid, rfl, rfl⟩
  refine ⟨hbefore.identity, ?_, ?_⟩
  · rw [← hbefore.events]
    unfold eventRows
    rw [Dict.entries_set_of_get?_none hfresh, List.filter_append,
      List.filter_cons_of_neg (by simpa using hrow), List.filter_nil, List.append_nil]
  · rw [← hbefore.latest]
    exact Dict.get?_set_of_ne _ _ (by rw [hidentity]; exact hid)

/-- Behind `_ensure_identity` the tables are open for a revision of the history they hold, which is
empty for a new identity only. -/
theorem Consistent.opened (h : t.Consistent S) {bar : BarWrite} {created : Bool} {t₁ : BarTables}
    (he : t.ensureIdentity bar = .ok (created, t₁)) :
    ∃ chain, t₁.Opened bar chain ∧ (created = false → chain ≠ []) ∧
      ((t.Absent bar.identity.barIdentityId ∧ chain = [] ∧ t₁ = t.insertIdentity bar) ∨
        (t.Holds bar.identity chain ∧ t₁ = t)) := by
  rcases h.of_ensureIdentity he with ⟨rfl, habsent, rfl⟩ | ⟨-, rfl, chain, hholds⟩
  · exact ⟨[], habsent.opened, nofun, Or.inl ⟨habsent, rfl, rfl⟩⟩
  · exact ⟨chain, hholds.opened, fun _ => hholds.verified.ne_nil, Or.inr ⟨hholds, rfl⟩⟩

/-- Recording a bar in consistent tables. -/
theorem Consistent.recordBar (h : t.Consistent S) {bar : BarWrite} {selected : Bool}
    (hsource : SelectedBoundary bar selected) {r : RecordedBar}
    (hr : t.recordBar bar selected = .ok (r, t')) : Recorded t bar selected r t' := by
  simp only [BarTables.recordBar, bind_eq_ok, rejectIf_eq_ok] at hr
  obtain ⟨⟨created, t₁⟩, hensure, events, hload, _, hhistory, version, hversion, hrest⟩ := hr
  obtain ⟨chain, hopened, -, hstate⟩ := h.opened hensure
  rw [hopened.loadEvents] at hload
  obtain rfl : chain = events := Except.ok.inj hload
  rw [hopened.verifyLatestProjection] at hversion
  cases hversion
  split at hrest
  · next current hcurrent =>
      obtain ⟨hlast, hrepeats⟩ := Option.filter_eq_some_iff.1 hcurrent
      simp only [pure_eq_ok, Prod.mk.injEq] at hrest
      obtain ⟨rfl, rfl⟩ := hrest
      rcases hstate with ⟨-, rfl, -⟩ | ⟨hholds, rfl⟩
      · cases hlast
      · rw [← revision_of_getLast? hholds.chained hlast]
        exact Recorded.repeated hholds hlast (of_decide_eq_true hrepeats)
  · next hnone =>
      simp only [bind_eq_ok, pure_eq_ok, Prod.mk.injEq] at hrest
      obtain ⟨⟨event, t₂⟩, hinsert, ⟨version, t₃⟩, hwrite, rfl, rfl⟩ := hrest
      have hrepeats : ∀ current, chain.getLast? = some current → ¬ Repeats bar selected current := by
        intro current hlast hcurrent
        rw [hlast] at hnone
        simp [hcurrent] at hnone
      have hsuccession := verifySuccession_of_inserted hsource hrepeats hinsert
      have hrevision := revision_of_inserted hopened.chained hinsert
      obtain ⟨hnext, -, hfresh, rfl⟩ := of_insertRevision hinsert
      obtain ⟨hbar, -, -⟩ := of_nextRevision hnext
      obtain ⟨rfl, rfl⟩ := of_writeLatestProjection hwrite
      have hstart : t₁ = t ∨ t₁ = t.insertIdentity bar := hstate.elim (fun h => Or.inr h.2.2)
        fun h => Or.inl h.2
      have hsame : t₁.events = t.events := by
        rcases hstart with rfl | rfl <;> rfl
      refine Recorded.added ?_ hrepeats hbar (hopened.add hbar hrevision hsuccession hfresh)
        (fun id hid => sameAt_of_add hstart hbar hfresh hid) (hsame ▸ hfresh) ?_
      · exact hstate.imp (fun h => ⟨h.1, h.2.1⟩) fun h => h.1
      · rw [← hsame]

/-- A bar write keeps the tables consistent. -/
theorem Consistent.recorded (h : t.Consistent S) {bar : BarWrite} {selected : Bool} {r : RecordedBar}
    (hbar : bar.identity ∈ S) (hr : Recorded t bar selected r t') : t'.Consistent S := by
  cases hr with
  | repeated holds last repeats => exact h
  | added before novel bar_eq holds elsewhere fresh events => exact h.of_write hbar holds elsewhere

end BarTables

/-! ## Runs of the repository -/

namespace MarketDatabase

variable {db db' : MarketDatabase} {S : Set BarIdentity}

theorem bars_of_applyEligibleWatermark {event : StoredBarEvent} {request : EligibleWatermark}
    {applied : SymbolWatermark × Bool × MarketDatabase}
    (h : db.applyEligibleWatermark event request = .ok applied) : applied.2.2.bars = db.bars := by
  simp only [applyEligibleWatermark, bind_eq_ok] at h
  obtain ⟨current, -, h⟩ := h
  cases current with
  | none =>
      simp only [insertWatermark, bind_eq_ok, rejectIf_eq_ok, pure_eq_ok] at h
      obtain ⟨_, -, _, ⟨_, -, rfl⟩, rfl⟩ := h
      rfl
  | some current =>
      simp only [bind_eq_ok] at h
      obtain ⟨replaces, -, h⟩ := h
      cases replaces with
      | false =>
          simp only [pure_eq_ok] at h
          subst h
          rfl
      | true =>
          simp only [updateWatermark, bind_eq_ok, pure_eq_ok] at h
          obtain ⟨_, -, _, ⟨_, -, rfl⟩, rfl⟩ := h
          rfl

theorem bars_of_applyRequest {event : StoredBarEvent} {request : Option EligibleWatermark}
    {applied : Option SymbolWatermark × Bool × MarketDatabase}
    (h : db.applyRequest event request = .ok applied) : applied.2.2.bars = db.bars := by
  cases request with
  | none =>
      cases h
      rfl
  | some request =>
      simp only [applyRequest, bind_eq_ok, pure_eq_ok] at h
      obtain ⟨applied, happlied, rfl⟩ := h
      exact bars_of_applyEligibleWatermark happlied

/-- Auditing a correction touches the audit events only. -/
theorem of_auditCorrection {recorded : RecordedBar} (h : db.auditCorrection recorded = .ok db') :
    ∃ events, db' = { db with auditEvents := events } := by
  unfold auditCorrection at h
  split at h
  · unfold appendCorrectionAudit at h
    split at h
    · next events _ =>
        cases h
        exact ⟨events, rfl⟩
    · cases h
  · cases h
    exact ⟨db.auditEvents, rfl⟩

/-- An append writes the bar tables in its bar write and nowhere else. -/
theorem bars_of_appendOnConnection {bar : BarWrite} {request : Option EligibleWatermark}
    {selected : Bool} {result : BarWriteResult}
    (h : db.appendOnConnection bar request selected = .ok (result, db')) :
    ∃ r, db.bars.recordBar bar selected = .ok (r, db'.bars) := by
  simp only [appendOnConnection, bind_eq_ok, pure_eq_ok, Prod.mk.injEq] at h
  obtain ⟨_, -, ⟨r, t⟩, hrecorded, applied, happlied, audited, haudited, _, -, -, rfl⟩ := h
  obtain ⟨events, rfl⟩ := of_auditCorrection haudited
  have hbars : applied.2.2.bars = t := bars_of_applyRequest happlied
  exact ⟨r, by rw [hrecorded, hbars]⟩

theorem consistent_of_appendOnConnection (hc : db.bars.Consistent S) {bar : BarWrite}
    (hbar : bar.identity ∈ S) {request : Option EligibleWatermark} {selected : Bool}
    {result : BarWriteResult} (hsource : BarTables.SelectedBoundary bar selected)
    (h : db.appendOnConnection bar request selected = .ok (result, db')) :
    db'.bars.Consistent S := by
  obtain ⟨r, hr⟩ := bars_of_appendOnConnection h
  exact hc.recorded hbar (hc.recordBar hsource hr)

theorem consistent_of_appendSelected {bars : List BarWrite} {results : List BarWriteResult}
    (hbars : ∀ bar ∈ bars, bar.identity ∈ S)
    (hsource : ∀ bar ∈ bars, bar.source = "collection_projection") (hc : db.bars.Consistent S)
    (h : db.appendSelected bars = .ok (results, db')) : db'.bars.Consistent S := by
  induction bars generalizing db results with
  | nil =>
      cases h
      exact hc
  | cons bar rest ih =>
      simp only [appendSelected, bind_eq_ok, pure_eq_ok, Prod.mk.injEq] at h
      obtain ⟨⟨_, db₁⟩, hfirst, ⟨_, db₂⟩, hrest, -, rfl⟩ := h
      have hc₁ := consistent_of_appendOnConnection hc (hbars bar List.mem_cons_self)
        (fun _ => hsource bar List.mem_cons_self) hfirst
      exact ih (fun b hb => hbars b (List.mem_cons_of_mem _ hb))
        (fun b hb => hsource b (List.mem_cons_of_mem _ hb)) hc₁ hrest

/-- Every write of the repository keeps the tables consistent. -/
theorem consistent_perform (hc : db.bars.Consistent S) {write : Write}
    (hbars : ∀ bar ∈ write.bars, bar.identity ∈ S) : (db.perform write).bars.Consistent S := by
  cases hwrite : db.attempt write with
  | error e => simpa only [perform, hwrite] using hc
  | ok after =>
      simp only [perform, hwrite]
      cases write with
      | append bar request =>
          simp only [attempt, append, map_eq_ok, bind_eq_ok] at hwrite
          obtain ⟨⟨_, _⟩, ⟨_, -, happend⟩, rfl⟩ := hwrite
          have hsource : BarTables.SelectedBoundary bar false := by
            intro hselected
            cases hselected
          exact consistent_of_appendOnConnection hc (hbars bar (List.mem_singleton_self bar))
            hsource happend
      | appendSelectedBatch bars =>
          simp only [attempt, appendSelectedBatch, map_eq_ok, bind_eq_ok, rejectIf_eq_ok,
            Bool.not_eq_false, List.all_eq_true] at hwrite
          obtain ⟨⟨_, _⟩, ⟨_, -, _, hall, _, -, happend⟩, rfl⟩ := hwrite
          refine consistent_of_appendSelected hbars (fun bar hbar => ?_) hc happend
          exact (of_decide_eq_true (hall bar hbar)).1

theorem consistent_run {writes : List Write} (hc : db.bars.Consistent S)
    (hbars : ∀ write ∈ writes, ∀ bar ∈ write.bars, bar.identity ∈ S) :
    (db.run writes).bars.Consistent S := by
  induction writes generalizing db with
  | nil => exact hc
  | cons write rest ih =>
      exact ih (consistent_perform hc (hbars write List.mem_cons_self))
        fun w hw => hbars w (List.mem_cons_of_mem _ hw)

end MarketDatabase

/-- Digests without a collision name the identities behind them. -/
theorem injOn_barIdentityId {H : Set Canonical} (hH : Set.InjOn sha256Hex H) :
    Set.InjOn BarIdentity.barIdentityId
      { i | BarIdentity.hashInput i.toBarIdentityFields ∈ H } :=
  fun _ hi _ hj heq => BarIdentity.eq_of_barIdentityId hH hi hj heq

/-- A batch read that returns agrees with the single reads of its identities, on any tables. The
tables that the repository writes are read whenever the bound on revisions admits them. -/
theorem readEffectiveBars_agrees_and_returns :
    (∀ (t : BarTables) (identities : List BarIdentity) (maxRevisions : Nat)
        (result : List StoredBarEvent),
      t.readEffectiveBars identities maxRevisions = .ok result →
        (∀ i ∈ identities, t.readLatest i = .ok (result.find? fun e => e.identity = i)) ∧
          (result.map StoredBarEvent.identity).Sublist identities) ∧
    (∀ (H : Set Canonical) (db : MarketDatabase) (writes : List MarketDatabase.Write)
        (identities : List BarIdentity) (maxRevisions : Nat),
      Set.InjOn sha256Hex H → db.bars = {} →
      (∀ write ∈ writes, ∀ bar ∈ write.bars,
        BarIdentity.hashInput bar.identity.toBarIdentityFields ∈ H) →
      (∀ i ∈ identities, BarIdentity.hashInput i.toBarIdentityFields ∈ H) →
      identities.Nodup → identities.length ≤ 1024 → 1 ≤ maxRevisions → maxRevisions ≤ 16384 →
      ((db.run writes).bars.events.entries.countP fun e =>
        e.2.barIdentityId ∈ identities.map BarIdentity.barIdentityId) ≤ maxRevisions →
      ∃ result, (db.run writes).bars.readEffectiveBars identities maxRevisions = .ok result) := by
  constructor
  · intro t identities maxRevisions result h
    obtain ⟨hnodup, f, hf, results, hresults, rfl⟩ := BarTables.of_readEffectiveBars h
    have hkey : ∀ i ∈ identities, ∀ event, f i = .ok (some event) → event.identity = i := by
      intro i hi event hevent
      rcases hf i hi _ hevent with ⟨-, hnone⟩ | ⟨chain, hverified, hlast⟩
      · cases hnone
      · exact hverified.identity_of_getLast? hlast.symm
    refine ⟨fun i hi => ?_, map_reduceOption_sublist hkey hresults⟩
    rcases hf i hi _ (find?_reduceOption hkey hnodup hresults hi) with
      ⟨habsent, hnone⟩ | ⟨chain, hverified, hlast⟩
    · rw [hnone]
      exact BarTables.readLatest_of_absent habsent.identity
    · rw [hlast]
      exact hverified.readLatest
  · intro H db writes identities maxRevisions hH hempty hwrites hidentities hnodup hlength hmin hmax
      hbound
    have hS := injOn_barIdentityId hH
    have hstart : db.bars.Consistent
        { i | BarIdentity.hashInput i.toBarIdentityFields ∈ H } := by
      rw [hempty]
      exact BarTables.consistent_empty _
    have hconsistent := MarketDatabase.consistent_run hstart hwrites
    refine BarTables.exists_readEffectiveBars hlength ⟨hmin, hmax⟩
      (hnodup.map_on fun i hi j hj => hS (hidentities i hi) (hidentities j hj)) ?_ ?_
    · rw [BarTables.batchEventRows, (sortedBy_perm _ _).length_eq, ← List.countP_eq_length_filter]
      exact hbound
    · intro i hi
      exact (hconsistent.absent_or_holds hS (hidentities i hi)).imp_right
        fun h => h.imp fun chain hholds => hholds.verified

end Histories

/-! ## A sample -/

section Sample

def sampleIdentityFields (minute : Nat) : BarIdentityFields where
  provider := "alpaca"
  feed := "iex"
  adjustment := "raw"
  symbol := "SPY"
  timeframe := "1Min"
  startAt := minute * seconds 60
  endAt := (minute + 1) * seconds 60

def firstMinute : BarIdentity := ⟨sampleIdentityFields 0, by decide +kernel⟩

/-- A bar with one price. -/
def sampleFields (identity : BarIdentity) (price : ℚ) (receivedAt : Instant) : BarWriteFields where
  identity := identity
  receivedAt := receivedAt
  openPrice := price
  high := price
  low := price
  close := price
  volume := 10
  qualityFlags := []
  source := "alpaca"
  sourcePayloadHash := auditGenesisHash
  sourceMode := "external_provider"
  lineageHash := none
  tradeCount := none
  vwap := none
  providerTimestamp := none
  sourceEventId := none
  isCorrection := false
  correctionOfSourceEventId := none
  schemaVersion := 1

/-- The first minute at 100, received a second after it ended. -/
def firstBar : BarWrite := ⟨sampleFields firstMinute 100 (seconds 61), by decide +kernel⟩

attribute [local instance] polynomialHasher

/-- A bar that was appended is read in a batch of one. -/
theorem readEffectiveBars_sample :
    ∃ result, (({} : MarketDatabase).run [.append firstBar none]).bars.readEffectiveBars
      [firstMinute] 1 = .ok result := by
  refine readEffectiveBars_agrees_and_returns.2
    {BarIdentity.hashInput firstMinute.toBarIdentityFields} {} _ _ _
    (Set.injOn_singleton _ _) rfl ?_ ?_ (List.nodup_singleton _) (by decide) le_rfl (by decide) ?_
  · intro write hwrite bar hbar
    cases List.mem_singleton.1 hwrite
    cases List.mem_singleton.1 hbar
    rfl
  · intro i hi
    cases List.mem_singleton.1 hi
    rfl
  · decide +kernel

end Sample

end AdaptiveTrader.Storage
