import AdaptiveTrader.Foundation.StableSort
import AdaptiveTrader.Storage.MarketData

/-!
# Batch reads of effective bars

A batch read makes the checks of a single read over bulk queries. What both verify of one identity is
`Verified`: its row parses to the identity, its revisions parse and form a chain, and the projection
names the last of them. A batch returns exactly when each identity is verified or absent from all
three tables, and a single read does not ask the latter.
-/

set_option autoImplicit false

namespace AdaptiveTrader.Storage

open Foundation

variable [ContentHasher]

/-! ## Parsed rows -/

theorem isPrefixedDigest_barIdentityId (i : BarIdentity) :
    isPrefixedDigest "bar_identity" i.barIdentityId = true :=
  isPrefixedDigest_deterministicId _ (isSha256_sha256Hex _)

/-- A row parses to the identity whose columns and digests it has. -/
theorem identityFromRow_eq_ok {barIdentityId : String} {row : BarIdentityRow} {i : BarIdentity} :
    identityFromRow barIdentityId row = .ok i ↔
      barIdentityId = i.barIdentityId ∧ row.toBarIdentityFields = i.toBarIdentityFields ∧
        row.contentHash = i.identityHash := by
  simp only [identityFromRow, bind_eq_ok, rejectIf_eq_ok, orMalformed_eq_ok, validated_eq_ok,
    pure_eq_ok, not_or, not_not]
  constructor
  · rintro ⟨-, -, _, ⟨_, rfl⟩, -, ⟨hid, hhash⟩, rfl⟩
    exact ⟨hid, rfl, hhash⟩
  · rintro ⟨rfl, hfields, hhash⟩
    refine ⟨(), by simp [isPrefixedDigest_barIdentityId], i, ⟨hfields ▸ i.checked, ?_⟩, (),
      ⟨rfl, hhash⟩, rfl⟩
    exact BarIdentity.eq_of_naturalKey (congrArg BarIdentity.naturalKey hfields)

/-- The payload of a stored row is the payload of the event: its numbers fit their columns. -/
theorem toBarWriteFields_eventRow (event : StoredBarEvent) :
    (eventRow event).toBarWriteFields event.identity event.bar.qualityFlags =
      event.bar.toBarWriteFields := by
  have hfits := event.bar.fitsColumns
  have hvwap : event.bar.vwap.map (numeric38 18) = event.bar.vwap := by
    cases h : event.bar.vwap with
    | none => rfl
    | some q => rw [Option.map_some, numeric38_eq_self (hfits.vwap q h)]
  simp only [BarEventRow.toBarWriteFields, eventRow, StoredBarEvent.identity, hvwap,
    numeric38_eq_self hfits.openPrice, numeric38_eq_self hfits.high, numeric38_eq_self hfits.low,
    numeric38_eq_self hfits.close, numeric38_eq_self hfits.volume]

/-- What is written for an event is read as the event. -/
theorem eventFromRow_eventRow (event : StoredBarEvent) :
    eventFromRow event.identity event.barEventId (eventRow event) = .ok event := by
  have hfields := toBarWriteFields_eventRow event
  have hrevision := event.one_le_revision
  have hflags : jsonTexts? (eventRow event).qualityFlags = some event.bar.qualityFlags :=
    jsonTexts?_texts _
  have hevent : (⟨event.barEventId, (eventRow event).revision.toNat,
      (eventRow event).correctionOfEventId, event.bar, (eventRow event).contentHash⟩ :
      StoredBarEventFields) = event.toStoredBarEventFields := rfl
  simp only [eventFromRow, bind_eq_ok, require_eq_ok, rejectIf_eq_ok, orMalformed_eq_ok,
    validated_eq_ok, pure_eq_ok]
  refine ⟨event.bar.qualityFlags, hflags, event.bar, ⟨hfields ▸ event.bar.checked,
    BarWrite.ext hfields⟩, (), ?_, event, ⟨event.checked, rfl⟩, (), ?_, rfl⟩
  · simp only [eventRow]
    omega
  · simp [eventRow]

theorem identity_of_eventFromRow {i : BarIdentity} {barEventId : String} {row : BarEventRow}
    {event : StoredBarEvent} (h : eventFromRow i barEventId row = .ok event) :
    event.identity = i ∧ event.barEventId = barEventId ∧ row.barIdentityId = i.barIdentityId := by
  simp only [eventFromRow, bind_eq_ok, require_eq_ok, rejectIf_eq_ok, orMalformed_eq_ok,
    validated_eq_ok, pure_eq_ok] at h
  obtain ⟨_, -, _, ⟨_, rfl⟩, _, -, _, ⟨_, rfl⟩, _, hconsistent, rfl⟩ := h
  simp only [not_or, not_not] at hconsistent
  exact ⟨rfl, rfl, hconsistent.1⟩

namespace BarTables

variable {t : BarTables} {i : BarIdentity} {chain : List StoredBarEvent}

/-! ## Single reads -/

/-- No table has a row of the identity. -/
structure Absent (t : BarTables) (barIdentityId : String) : Prop where
  identity : t.identities.get? barIdentityId = none
  events : t.eventRows barIdentityId = []
  latest : t.latest.get? barIdentityId = none

/-- What a read verifies of one identity whose revisions are the chain. -/
structure Verified (t : BarTables) (i : BarIdentity) (chain : List StoredBarEvent) : Prop where
  identity : ∃ row, t.identities.get? i.barIdentityId = some row ∧
    identityFromRow i.barIdentityId row = .ok i ∧
    ∃ first, chain.head? = some first ∧ row.createdAt = first.bar.receivedAt
  events : collect (fun e => eventFromRow i e.1 e.2) (t.eventRows i.barIdentityId) = .ok chain
  chained : verifyRevisionChain chain = .ok ()
  latest : ∃ row, t.latest.get? i.barIdentityId = some row ∧
    ∃ current, chain.getLast? = some current ∧ Projects row current

theorem readLatest_of_absent (h : t.identities.get? i.barIdentityId = none) :
    t.readLatest i = .ok none := by
  simp [readLatest, readEvents, selectIdentity, h, bind, Except.bind, pure, Except.pure]

namespace Verified

theorem loadEvents (h : t.Verified i chain) : t.loadEvents i = .ok chain := by
  obtain ⟨row, hrow, -, first, hfirst, horigin⟩ := h.identity
  simp only [BarTables.loadEvents, hrow, bind_eq_ok, rejectIf_eq_ok, pure_eq_ok]
  refine ⟨chain, h.events, (), h.chained, (), ?_, rfl⟩
  rintro ⟨first', hfirst', hne⟩
  rw [hfirst] at hfirst'
  cases hfirst'
  exact hne horigin

theorem verifyLatestProjection (h : t.Verified i chain) :
    ∃ row current, t.latest.get? i.barIdentityId = some row ∧ chain.getLast? = some current ∧
      t.verifyLatestProjection i chain = .ok current.revision := by
  obtain ⟨row, hrow, current, hcurrent, hprojects⟩ := h.latest
  refine ⟨row, current, hrow, hcurrent, ?_⟩
  simp only [BarTables.verifyLatestProjection, hrow, hcurrent, bind_eq_ok, rejectIf_eq_ok,
    pure_eq_ok, not_not]
  exact ⟨(), hprojects, hprojects.1⟩

theorem ne_nil (h : t.Verified i chain) : chain ≠ [] := by
  obtain ⟨row, -, -, first, hfirst, -⟩ := h.identity
  rintro rfl
  cases hfirst

theorem readEvents (h : t.Verified i chain) : t.readEvents i = .ok chain := by
  obtain ⟨row, hrow, hparsed, -⟩ := h.identity
  obtain ⟨_, current, -, -, hprojection⟩ := h.verifyLatestProjection
  have hselect : t.selectIdentity i = .ok (some i) := by
    simp only [selectIdentity, hrow, bind_eq_ok, rejectIf_eq_ok, pure_eq_ok]
    exact ⟨i, hparsed, (), not_not.2 rfl, rfl⟩
  simp only [BarTables.readEvents, hselect, bind_eq_ok, Except.ok.injEq, exists_eq_left',
    rejectIf_eq_ok, pure_eq_ok]
  exact ⟨chain, h.loadEvents, (), h.ne_nil, _, hprojection, rfl⟩

theorem readLatest (h : t.Verified i chain) : t.readLatest i = .ok chain.getLast? := by
  simp only [BarTables.readLatest, bind_eq_ok, pure_eq_ok]
  exact ⟨chain, h.readEvents, rfl⟩

end Verified

/-! ## What a batch has read -/

omit [ContentHasher] in
theorem batchEventRows_filter {expected : List String} {id : String} (hid : id ∈ expected) :
    (t.batchEventRows expected).filter (fun e => e.2.barIdentityId = id) = t.eventRows id := by
  have hrows : (t.events.entries.filter fun e => e.2.barIdentityId ∈ expected).filter
      (fun e => e.2.barIdentityId = id) = t.events.entries.filter fun e => e.2.barIdentityId = id := by
    rw [List.filter_filter]
    refine List.filter_congr fun e _ => ?_
    by_cases he : e.2.barIdentityId = id
    · simp [he, hid]
    · simp [he]
  rw [batchEventRows, ← sortedBy_filter, hrows, eventRows]
  refine sortedBy_congr fun a ha b hb => ?_
  have hsame : a.2.barIdentityId = b.2.barIdentityId := by
    rw [of_decide_eq_true (List.mem_filter.1 ha).2, of_decide_eq_true (List.mem_filter.1 hb).2]
  rw [Prod.Lex.toLex_le_toLex]
  simp [hsame]

/-- What the parsed batch says about one of the expected IDs. -/
structure BatchFacts (t : BarTables) (b : Batch) (id : String) : Prop where
  origins : Dict.lookup id b.origins = t.identities.get? id
  latest : Dict.lookup id b.latest = t.latest.get? id
  absent : Dict.lookup id b.storedIdentities = none → t.Absent id
  stored : ∀ i, Dict.lookup id b.storedIdentities = some i → i.barIdentityId = id ∧
    (∃ row, t.identities.get? id = some row ∧ identityFromRow id row = .ok i) ∧
    collect (fun e => eventFromRow i e.1 e.2) (t.eventRows id) = .ok (b.chain id) ∧
    b.chain id ≠ [] ∧ t.latest.get? id ≠ none

omit [ContentHasher] in
/-- The rows of a query by key, looked up under one of the keys. -/
theorem lookup_queried {ρ : Type} (d : Dict String ρ) {expected : List String} {id : String}
    (hid : id ∈ expected) :
    Dict.lookup id (d.entries.filter fun r => r.1 ∈ expected) = d.get? id := by
  have h := Dict.lookup_filter (fun k => decide (k ∈ expected)) id d.entries
  simpa [hid, Dict.get?] using h

omit [ContentHasher] in
theorem mem_keys_queried {ρ : Type} (d : Dict String ρ) {expected : List String} {id : String}
    (hid : id ∈ expected) :
    id ∈ (d.entries.filter fun r => r.1 ∈ expected).map Prod.fst ↔ d.get? id ≠ none := by
  rw [← lookup_queried d hid, ne_eq, Dict.lookup_eq_none_iff, not_not]

section Parsed

variable {rows : List (String × BarIdentityRow)} {parsed : List BarIdentity}

/-- Parsed identities stand under the IDs of their rows. -/
theorem keys_parsed (h : collect (fun r => identityFromRow r.1 r.2) rows = .ok parsed) :
    (parsed.map fun identity => (identity.barIdentityId, identity)).map Prod.fst =
      rows.map Prod.fst := by
  rw [List.map_map]
  refine map_of_collect h fun r _ i hi => ?_
  exact (identityFromRow_eq_ok.1 hi).1.symm

theorem of_lookup_parsed (h : collect (fun r => identityFromRow r.1 r.2) rows = .ok parsed)
    {id : String} {i : BarIdentity}
    (hi : Dict.lookup id (parsed.map fun identity => (identity.barIdentityId, identity)) = some i) :
    i.barIdentityId = id ∧ ∃ row, (id, row) ∈ rows ∧ identityFromRow id row = .ok i := by
  obtain ⟨i', hi', heq⟩ := List.mem_map.1 (Dict.mem_of_lookup hi)
  cases heq
  obtain ⟨r, hr, hparsed⟩ := mem_of_collect h hi'
  have hid := (identityFromRow_eq_ok.1 hparsed).1
  refine ⟨rfl, r.2, ?_, ?_⟩
  · rw [← hid]
    exact hr
  · rw [← hid]
    exact hparsed

end Parsed

/-- An event of the batch stands under the ID of its row. -/
theorem of_batchEvent {stored : List (String × BarIdentity)}
    (hstored : ∀ id i, Dict.lookup id stored = some i → i.barIdentityId = id)
    {e : String × BarEventRow} {b : String × StoredBarEvent} (h : batchEvent stored e = .ok b) :
    b.1 = e.2.barIdentityId ∧ ∃ i, Dict.lookup e.2.barIdentityId stored = some i ∧
      eventFromRow i e.1 e.2 = .ok b.2 := by
  simp only [batchEvent, bind_eq_ok, require_eq_ok, pure_eq_ok] at h
  obtain ⟨i, hi, event, hevent, rfl⟩ := h
  exact ⟨hstored _ i hi, i, hi, hevent⟩

/-- A batch that could be read, by the ID. -/
theorem batchFacts {expected : List String} {maxRevisions : Nat} {b : Batch}
    (h : t.readBatch expected maxRevisions = .ok b) {id : String} (hid : id ∈ expected) :
    BatchFacts t b id := by
  simp only [readBatch, bind_eq_ok, rejectIf_eq_ok, pure_eq_ok, not_lt, not_or, not_not] at h
  obtain ⟨_, hbound, parsed, hparsed, chains, hchains, _, ⟨hids, hlatest⟩, rfl⟩ := h
  -- the bound is not exceeded, so the query has found every row
  have hall : (t.batchEventRows expected).take (maxRevisions + 1) = t.batchEventRows expected := by
    refine List.take_of_length_le ?_
    rw [List.length_take] at hbound
    omega
  rw [hall] at hchains
  set stored := parsed.map fun identity => (identity.barIdentityId, identity) with hstored
  have hkeys : stored.map Prod.fst = _ := keys_parsed hparsed
  have hunder : ∀ k i, Dict.lookup k stored = some i → i.barIdentityId = k :=
    fun k i hi => (of_lookup_parsed hparsed hi).1
  have hchain := collect_filter (p := fun e => decide (e.2.barIdentityId = id))
    (q := fun e => decide (e.1 = id)) hchains
    fun e _ b hb => by rw [(of_batchEvent hunder hb).1]
  rw [batchEventRows_filter hid] at hchain
  have hstoredMem : id ∈ stored.map Prod.fst ↔ t.identities.get? id ≠ none := by
    rw [hkeys, mem_keys_queried _ hid]
  have hchainMem : id ∈ stored.map Prod.fst ↔ id ∈ chains.map Prod.fst := by
    rw [← List.mem_toFinset, hids, List.mem_toFinset]
  have hlatestMem : id ∈ stored.map Prod.fst ↔ t.latest.get? id ≠ none := by
    rw [← List.mem_toFinset, hlatest, List.mem_toFinset, mem_keys_queried _ hid]
  refine ⟨lookup_queried _ hid, lookup_queried _ hid, ?_, ?_⟩
  · intro hnone
    have hmissing := Dict.lookup_eq_none_iff.1 hnone
    refine ⟨not_not.1 fun hne => hmissing (hstoredMem.2 hne), ?_,
      not_not.1 fun hne => hmissing (hlatestMem.2 hne)⟩
    cases hrows : t.eventRows id with
    | nil => rfl
    | cons e rest =>
        rw [hrows] at hchain
        obtain ⟨b, hb, -⟩ := exists_mem_of_collect hchain List.mem_cons_self
        obtain ⟨hmem, hkey⟩ := List.mem_filter.1 hb
        exact absurd (hchainMem.2 (List.mem_map.2 ⟨b, hmem, of_decide_eq_true hkey⟩)) hmissing
  · intro i hi
    obtain ⟨hiid, row, hrow, hfrom⟩ := of_lookup_parsed hparsed hi
    have hmem : id ∈ stored.map Prod.fst :=
      List.mem_map.2 ⟨(id, i), Dict.mem_of_lookup hi, rfl⟩
    refine ⟨hiid, ⟨row, Dict.mem_entries_iff.1 (List.mem_filter.1 hrow).1, hfrom⟩, ?_, ?_,
      hlatestMem.1 hmem⟩
    · refine collect_of_collect hchain fun e he b hb => ?_
      obtain ⟨-, i', hi', hevent⟩ := of_batchEvent hunder hb
      have heid : e.2.barIdentityId = id :=
        of_decide_eq_true (List.mem_filter.1 (mem_sortedBy.1 he)).2
      rw [heid, hi] at hi'
      cases hi'
      exact hevent
    · obtain ⟨b, hb, hbid⟩ := List.mem_map.1 (hchainMem.1 hmem)
      intro hnil
      have hmem' : b.2 ∈ (chains.filter fun e => e.1 = id).map Prod.snd :=
        List.mem_map_of_mem (List.mem_filter.2 ⟨hb, by simpa using hbid⟩)
      have hnil' : (chains.filter fun e => e.1 = id).map Prod.snd = [] := hnil
      rw [hnil'] at hmem'
      cases hmem'

/-! ## Agreement -/

theorem Verified.identity_of_getLast? (h : t.Verified i chain) {event : StoredBarEvent}
    (hevent : chain.getLast? = some event) : event.identity = i := by
  obtain ⟨e, -, hparsed⟩ := mem_of_collect h.events (List.mem_of_getLast? hevent)
  exact (identity_of_eventFromRow hparsed).1

/-- A turn of the loop returns what a single read of the same identity verifies. -/
theorem BatchFacts.of_effectiveBar {b : Batch} (hb : BatchFacts t b i.barIdentityId)
    {found : Option StoredBarEvent} (h : b.effectiveBar i = .ok found) :
    (t.Absent i.barIdentityId ∧ found = none) ∨
      ∃ chain, t.Verified i chain ∧ found = chain.getLast? := by
  cases hstored : Dict.lookup i.barIdentityId b.storedIdentities with
  | none =>
      simp only [Batch.effectiveBar, hstored, Except.ok.injEq] at h
      exact Or.inl ⟨hb.absent hstored, h.symm⟩
  | some identity =>
      simp only [Batch.effectiveBar, hstored, requireEntry, bind_eq_ok, rejectIf_eq_ok, not_not,
        require_eq_ok, pure_eq_ok, not_or] at h
      obtain ⟨_, rfl, _, hchain, first, hfirst, current, hcurrent, projection, hprojection, origin,
        horigin, _, ⟨hcreated, hprojects⟩, rfl⟩ := h
      obtain ⟨-, ⟨row, hrow, hparsed⟩, hevents, -, -⟩ := hb.stored _ hstored
      rw [hb.origins, hrow] at horigin
      cases horigin
      refine Or.inr ⟨b.chain identity.barIdentityId, ⟨?_, hevents, hchain, ?_⟩, hcurrent.symm⟩
      · exact ⟨origin, hrow, hparsed, first, hfirst, hcreated⟩
      · exact ⟨projection, hb.latest ▸ hprojection, current, hcurrent, hprojects⟩

/-- An identity that is verified, or absent, passes its turn. -/
theorem BatchFacts.exists_effectiveBar {b : Batch} (hb : BatchFacts t b i.barIdentityId)
    (h : t.Absent i.barIdentityId ∨ ∃ chain, t.Verified i chain) :
    ∃ found, b.effectiveBar i = .ok found := by
  cases hstored : Dict.lookup i.barIdentityId b.storedIdentities with
  | none => exact ⟨none, by simp only [Batch.effectiveBar, hstored]⟩
  | some identity =>
      obtain ⟨-, ⟨row, hrow, hparsed⟩, hevents, -, -⟩ := hb.stored _ hstored
      rcases h with habsent | ⟨chain, hverified⟩
      · rw [habsent.identity] at hrow
        cases hrow
      · obtain ⟨row', hrow', hparsed', first, hfirst, hcreated⟩ := hverified.identity
        obtain ⟨projection, hprojection, current, hcurrent, hprojects⟩ := hverified.latest
        rw [hrow] at hrow'
        cases hrow'
        rw [hparsed] at hparsed'
        cases hparsed'
        have hchain : b.chain i.barIdentityId = chain := by
          have h := hverified.events
          rw [hevents] at h
          exact Except.ok.inj h
        refine ⟨some current, ?_⟩
        simp only [Batch.effectiveBar, hstored, requireEntry, bind_eq_ok, rejectIf_eq_ok, not_not,
          require_eq_ok, pure_eq_ok, not_or, hchain, hb.latest, hb.origins]
        exact ⟨(), trivial, (), hverified.chained, first, hfirst, current, hcurrent, projection,
          hprojection, row, hrow, (), ⟨hcreated, hprojects⟩, rfl⟩

/-- The turns of a batch that returned. -/
theorem of_readEffectiveBars {identities : List BarIdentity} {maxRevisions : Nat}
    {result : List StoredBarEvent}
    (h : t.readEffectiveBars identities maxRevisions = .ok result) :
    identities.Nodup ∧ ∃ f : BarIdentity → Except PlatformError (Option StoredBarEvent),
      (∀ i ∈ identities, ∀ found, f i = .ok found →
        (t.Absent i.barIdentityId ∧ found = none) ∨
          ∃ chain, t.Verified i chain ∧ found = chain.getLast?) ∧
      ∃ results, collect f identities = .ok results ∧ result = results.reduceOption := by
  simp only [readEffectiveBars, bind_eq_ok, rejectIf_eq_ok, not_not] at h
  obtain ⟨_, -, _, -, _, hnodup, h⟩ := h
  refine ⟨hnodup.of_map _, ?_⟩
  split at h
  · next hempty =>
      rw [List.map_eq_nil_iff] at hempty
      simp only [pure_eq_ok] at h
      subst hempty h
      exact ⟨fun _ => .ok none, by simp, [], rfl, rfl⟩
  · simp only [bind_eq_ok, pure_eq_ok] at h
    obtain ⟨b, hb, results, hresults, rfl⟩ := h
    refine ⟨b.effectiveBar, ?_, results, hresults, rfl⟩
    intro i hi found hfound
    exact (batchFacts hb (List.mem_map_of_mem hi)).of_effectiveBar hfound

/-! ## Batches that return -/

omit [ContentHasher] in
theorem mem_keys_queried_iff {ρ : Type} (d : Dict String ρ) {expected : List String} {id : String} :
    id ∈ (d.entries.filter fun r => r.1 ∈ expected).map Prod.fst ↔
      id ∈ expected ∧ d.get? id ≠ none := by
  by_cases hid : id ∈ expected
  · rw [mem_keys_queried d hid, and_iff_right hid]
  · have hnot : id ∉ (d.entries.filter fun r => r.1 ∈ expected).map Prod.fst := by
      intro hmem
      obtain ⟨r, hr, rfl⟩ := List.mem_map.1 hmem
      exact hid (of_decide_eq_true (List.mem_filter.1 hr).2)
    exact iff_of_false hnot fun h => hid h.1

omit [ContentHasher] in
theorem mem_ids_batchEventRows_iff {expected : List String} {id : String} :
    id ∈ (t.batchEventRows expected).map (fun e => e.2.barIdentityId) ↔
      id ∈ expected ∧ t.eventRows id ≠ [] := by
  have hrows : ∀ {e : String × BarEventRow}, e ∈ t.batchEventRows expected ↔
      e.2.barIdentityId ∈ expected ∧ e ∈ t.eventRows e.2.barIdentityId := by
    intro e
    simp [batchEventRows, eventRows, and_comm]
  constructor
  · intro hmem
    obtain ⟨e, he, rfl⟩ := List.mem_map.1 hmem
    obtain ⟨hexpected, hrow⟩ := hrows.1 he
    exact ⟨hexpected, List.ne_nil_of_mem hrow⟩
  · rintro ⟨hexpected, hne⟩
    obtain ⟨e, he⟩ := List.exists_mem_of_ne_nil _ hne
    have hid : e.2.barIdentityId = id :=
      of_decide_eq_true (List.mem_filter.1 (mem_sortedBy.1 he)).2
    exact List.mem_map.2 ⟨e, hrows.2 ⟨hid ▸ hexpected, hid ▸ he⟩, hid⟩

/-- Each of the IDs is absent from the tables, or that of a verified identity. -/
def Readable (t : BarTables) (expected : List String) : Prop :=
  ∀ id ∈ expected, t.Absent id ∨ ∃ i chain, i.barIdentityId = id ∧ t.Verified i chain

namespace Readable

variable {expected : List String} {parsed : List BarIdentity}

/-- The three tables agree on which of the IDs they have. -/
theorem present_iff (h : t.Readable expected) {id : String} (hid : id ∈ expected) :
    (t.identities.get? id ≠ none ↔ t.eventRows id ≠ []) ∧
      (t.identities.get? id ≠ none ↔ t.latest.get? id ≠ none) := by
  rcases h id hid with habsent | ⟨i, chain, rfl, hverified⟩
  · simp [habsent.identity, habsent.events, habsent.latest]
  · -- the identity and the projection are there, and a chain is never empty
    obtain ⟨row, hrow, -⟩ := hverified.identity
    obtain ⟨projection, hprojection, -⟩ := hverified.latest
    have hevents : t.eventRows i.barIdentityId ≠ [] := by
      intro hnil
      have hcollected := hverified.events
      rw [hnil] at hcollected
      exact hverified.ne_nil (Except.ok.inj hcollected).symm
    simp [hrow, hprojection, hevents]

theorem exists_parsed (h : t.Readable expected) :
    ∃ parsed, collect (fun r => identityFromRow r.1 r.2)
      (t.identities.entries.filter fun r => r.1 ∈ expected) = .ok parsed := by
  refine exists_collect fun r hr => ?_
  obtain ⟨hmem, hexpected⟩ := List.mem_filter.1 hr
  have hget := Dict.mem_entries_iff.1 hmem
  rcases h r.1 (of_decide_eq_true hexpected) with habsent | ⟨i, chain, hi, hverified⟩
  · rw [habsent.identity] at hget
    cases hget
  · obtain ⟨row, hrow, hparsed, -⟩ := hverified.identity
    rw [hi, hget] at hrow
    cases hrow
    exact ⟨i, hi ▸ hparsed⟩

/-- A verified identity is found under its ID. -/
theorem lookup_parsed (hparsed : collect (fun r => identityFromRow r.1 r.2)
      (t.identities.entries.filter fun r => r.1 ∈ expected) = .ok parsed)
    (hi : i.barIdentityId ∈ expected) (h : t.Verified i chain) :
    Dict.lookup i.barIdentityId
      (parsed.map fun identity => (identity.barIdentityId, identity)) = some i := by
  obtain ⟨row, hrow, hok, -⟩ := h.identity
  have hmem : (i.barIdentityId, row) ∈ t.identities.entries.filter fun r => r.1 ∈ expected :=
    List.mem_filter.2 ⟨Dict.mem_entries_iff.2 hrow, by simpa using hi⟩
  obtain ⟨j, hj, hjok⟩ := exists_mem_of_collect hparsed hmem
  rw [hok] at hjok
  cases hjok
  refine Dict.lookup_of_mem ?_ (List.mem_map.2 ⟨i, hj, rfl⟩)
  rw [keys_parsed hparsed]
  exact t.identities.nodupKeys.sublist (List.filter_sublist.map _)

theorem exists_chains (h : t.Readable expected)
    (hparsed : collect (fun r => identityFromRow r.1 r.2)
      (t.identities.entries.filter fun r => r.1 ∈ expected) = .ok parsed) :
    ∃ chains, collect (batchEvent (parsed.map fun identity => (identity.barIdentityId, identity)))
      (t.batchEventRows expected) = .ok chains := by
  refine exists_collect fun e he => ?_
  obtain ⟨hmem, hexpected⟩ := List.mem_filter.1 (mem_sortedBy.1 he)
  have hrow : e ∈ t.eventRows e.2.barIdentityId :=
    mem_sortedBy.2 (List.mem_filter.2 ⟨hmem, by simp⟩)
  rcases h _ (of_decide_eq_true hexpected) with habsent | ⟨i, chain, hi, hverified⟩
  · rw [habsent.events] at hrow
    cases hrow
  · rw [← hi] at hrow
    obtain ⟨event, -, hevent⟩ := exists_mem_of_collect hverified.events hrow
    have hlookup := lookup_parsed hparsed (hi ▸ of_decide_eq_true hexpected) hverified
    refine ⟨(i.barIdentityId, event), ?_⟩
    simp only [batchEvent, bind_eq_ok, require_eq_ok, pure_eq_ok]
    exact ⟨i, hi ▸ hlookup, event, hevent, rfl⟩

/-- The three queries are parsed and agree on the IDs they have found. -/
theorem exists_readBatch (h : t.Readable expected) {maxRevisions : Nat}
    (hbound : (t.batchEventRows expected).length ≤ maxRevisions) :
    ∃ b, t.readBatch expected maxRevisions = .ok b := by
  obtain ⟨parsed, hparsed⟩ := h.exists_parsed
  obtain ⟨chains, hchains⟩ := h.exists_chains hparsed
  have hall : (t.batchEventRows expected).take (maxRevisions + 1) = t.batchEventRows expected :=
    List.take_of_length_le (by omega)
  have hchainKeys : chains.map Prod.fst =
      (t.batchEventRows expected).map fun e => e.2.barIdentityId :=
    map_of_collect hchains fun e _ b hb =>
      (of_batchEvent (fun k j hj => (of_lookup_parsed hparsed hj).1) hb).1
  have hevents : ((t.identities.entries.filter fun r => r.1 ∈ expected).map Prod.fst).toFinset =
      (chains.map Prod.fst).toFinset := by
    ext id
    rw [List.mem_toFinset, List.mem_toFinset, hchainKeys, mem_keys_queried_iff,
      mem_ids_batchEventRows_iff]
    exact and_congr_right fun hid => (h.present_iff hid).1
  have hlatest : ((t.identities.entries.filter fun r => r.1 ∈ expected).map Prod.fst).toFinset =
      ((t.latest.entries.filter fun r => r.1 ∈ expected).map Prod.fst).toFinset := by
    ext id
    rw [List.mem_toFinset, List.mem_toFinset, mem_keys_queried_iff, mem_keys_queried_iff]
    exact and_congr_right fun hid => (h.present_iff hid).2
  refine ⟨⟨t.identities.entries.filter fun r => r.1 ∈ expected,
    parsed.map fun identity => (identity.barIdentityId, identity), chains,
    t.latest.entries.filter fun r => r.1 ∈ expected⟩, ?_⟩
  simp only [readBatch, bind_eq_ok, rejectIf_eq_ok, pure_eq_ok, not_lt, not_or, not_not, hall]
  refine ⟨(), hbound, parsed, hparsed, chains, hchains, (), ?_, rfl⟩
  rw [keys_parsed hparsed]
  exact ⟨hevents, hlatest⟩

end Readable

/-- A batch of distinct identities within the limits returns when each is verified or absent. -/
theorem exists_readEffectiveBars {identities : List BarIdentity} {maxRevisions : Nat}
    (hlength : identities.length ≤ 1024) (hmax : 1 ≤ maxRevisions ∧ maxRevisions ≤ 16384)
    (hnodup : (identities.map BarIdentity.barIdentityId).Nodup)
    (hbound : (t.batchEventRows (identities.map BarIdentity.barIdentityId)).length ≤ maxRevisions)
    (h : ∀ i ∈ identities, t.Absent i.barIdentityId ∨ ∃ chain, t.Verified i chain) :
    ∃ result, t.readEffectiveBars identities maxRevisions = .ok result := by
  have hreadable : t.Readable (identities.map BarIdentity.barIdentityId) := by
    intro id hid
    obtain ⟨i, hi, rfl⟩ := List.mem_map.1 hid
    exact (h i hi).imp_right fun ⟨chain, hverified⟩ => ⟨i, chain, rfl, hverified⟩
  obtain ⟨b, hb⟩ := hreadable.exists_readBatch hbound
  obtain ⟨results, hresults⟩ := exists_collect fun i hi =>
    (batchFacts hb (List.mem_map_of_mem hi)).exists_effectiveBar (h i hi)
  simp only [readEffectiveBars, bind_eq_ok, rejectIf_eq_ok, not_not]
  by_cases hempty : identities.map BarIdentity.barIdentityId = []
  · exact ⟨[], (), by omega, (), by omega, (), hnodup, by rw [if_pos hempty]; rfl⟩
  · refine ⟨results.reduceOption, (), by omega, (), by omega, (), hnodup, ?_⟩
    simp only [if_neg hempty, bind_eq_ok, pure_eq_ok]
    exact ⟨b, hb, results, hresults, rfl⟩

end BarTables

end AdaptiveTrader.Storage
