import AdaptiveTrader.Foundation.Transition
import AdaptiveTrader.Storage.BarHistories

/-!
# Watermarks that stay readable

A reader of a watermark insists that the event it rests on is the latest revision of its bar, and
that the watermark is not older than the receipt of that event. Appends keep both as long as a
correction of the bar carries a request of the experiment, and no request that repeats a bar is dated
before the receipt of the stored revision (`Approved`). A correction without a request is refused by
every reader until the bar is approved again.

`Supported` is what a stored watermark rests on. `Readable` is the invariant of the database: a
supported watermark in every row, and room for further revisions and versions.
-/

set_option autoImplicit false

namespace AdaptiveTrader.Storage

open Foundation

/-! ## Outcomes without an integrity error -/

/-- The outcome is not a market-data integrity error. -/
def NoIntegrityError {α : Type} (x : Except PlatformError α) : Prop :=
  ∀ message, x ≠ .error (.marketDataIntegrity message)

/-- The text of a market-data integrity error. -/
def integrityMessage? : PlatformError → Option String
  | .marketDataIntegrity message => some message
  | _ => none

theorem integrityMessage?_eq_none {e : PlatformError} :
    integrityMessage? e = none ↔ ∀ message, e ≠ .marketDataIntegrity message := by
  cases e <;> simp [integrityMessage?]

instance {α : Type} (x : Except PlatformError α) : Decidable (NoIntegrityError x) :=
  match x with
  | .ok _ => isTrue nofun
  | .error e => decidable_of_iff (integrityMessage? e = none) (by
      rw [integrityMessage?_eq_none]
      exact forall_congr' fun message => not_congr ⟨congrArg _, Except.error.inj⟩)

namespace NoIntegrityError

variable {α β : Type}

theorem ok (a : α) : NoIntegrityError (.ok a) := nofun

theorem bind {x : Except PlatformError α} {f : α → Except PlatformError β}
    (hx : NoIntegrityError x) (hf : ∀ a, x = .ok a → NoIntegrityError (f a)) :
    NoIntegrityError (x >>= f) := by
  cases x with
  | error e => exact fun message h => hx message (congrArg Except.error (Except.error.inj h))
  | ok a => exact hf a rfl

theorem map {x : Except PlatformError α} (hx : NoIntegrityError x) (f : α → β) :
    NoIntegrityError (x.map f) := by
  cases x with
  | error e => exact fun message h => hx message (congrArg Except.error (Except.error.inj h))
  | ok a => exact ok _

/-- A rejection of another kind. -/
theorem rejectIf {c : Prop} [Decidable c] {e : PlatformError}
    (he : ∀ message, e ≠ .marketDataIntegrity message) : NoIntegrityError (rejectIf c e) := by
  unfold Foundation.rejectIf
  split
  · exact fun message h => he message (Except.error.inj h)
  · exact ok ()

/-- A rejection that does not apply. -/
theorem rejectIf_of_not {c : Prop} [Decidable c] {e : PlatformError} (hc : ¬ c) :
    NoIntegrityError (Foundation.rejectIf c e) := by
  rw [Foundation.rejectIf, if_neg hc]
  exact ok ()

theorem require {o : Option α} {e : PlatformError}
    (he : ∀ message, e ≠ .marketDataIntegrity message) : NoIntegrityError (require o e) := by
  cases o with
  | none => exact fun message h => he message (Except.error.inj h)
  | some a => exact ok a

theorem of_eq_ok {x : Except PlatformError α} {a : α} (h : x = .ok a) : NoIntegrityError x := by
  rw [h]
  exact ok a

end NoIntegrityError

section Readable

variable [ContentHasher]

namespace BarTables

variable {t t' : BarTables} {i j : BarIdentity} {chain chain' : List StoredBarEvent}
  {S : Set BarIdentity}

/-! ## Histories as rows -/

theorem Holds.row_identity (h : t.Holds i chain) {row : BarIdentityRow}
    (hrow : t.identities.get? i.barIdentityId = some row) :
    row.toBarIdentityFields = i.toBarIdentityFields := by
  obtain ⟨first, -, hfirst⟩ := h.identity
  rw [hfirst] at hrow
  cases hrow
  rfl

/-- The tables hold one history under an ID. -/
theorem Holds.unique (h : t.Holds i chain) (h' : t.Holds j chain')
    (hid : i.barIdentityId = j.barIdentityId) : i = j ∧ chain = chain' := by
  obtain ⟨first, -, hrow⟩ := h.identity
  rw [hid] at hrow
  have hij : i = j := BarIdentity.eq_of_naturalKey
    (congrArg BarIdentity.naturalKey (h'.row_identity hrow))
  subst hij
  have hread := h.verified.readEvents
  rw [h'.verified.readEvents] at hread
  exact ⟨rfl, (Except.ok.inj hread).symm⟩

/-- The revisions of a history are rows of the event table. -/
theorem Holds.get?_event (h : t.Holds i chain) {event : StoredBarEvent} (hmem : event ∈ chain) :
    t.events.get? event.barEventId = some (eventRow event) := by
  have hrow : (event.barEventId, eventRow event) ∈ t.eventRows i.barIdentityId := by
    rw [h.events]
    exact List.mem_map_of_mem hmem
  exact Dict.mem_entries_iff.1 (List.mem_of_mem_filter (mem_sortedBy.1 hrow))

/-- No two revisions of a history share an ID. -/
theorem Holds.nodup_ids (h : t.Holds i chain) : (chain.map fun e => e.barEventId).Nodup := by
  have hids : (t.eventRows i.barIdentityId).map Prod.fst = chain.map fun e => e.barEventId := by
    rw [h.events, List.map_map]
    rfl
  rw [← hids, eventRows, ((sortedBy_perm _ _).map Prod.fst).nodup_iff]
  exact t.events.nodupKeys.sublist (List.filter_sublist.map _)

theorem Holds.find?_event (h : t.Holds i chain) {event : StoredBarEvent} (hmem : event ∈ chain) :
    chain.find? (fun e => e.barEventId = event.barEventId) = some event := by
  cases hfind : chain.find? (fun e => e.barEventId = event.barEventId) with
  | none => exact absurd (List.find?_eq_none.1 hfind event hmem) (by simp)
  | some found =>
      have hid : found.barEventId = event.barEventId := by
        simpa using List.find?_some hfind
      rw [List.inj_on_of_nodup_map h.nodup_ids (List.mem_of_find?_eq_some hfind) hmem hid]

/-! ## Bar writes without an integrity error -/

/-- A bar whose identity the tables have or lack finds it. -/
theorem Consistent.exists_ensureIdentity (h : t.Consistent S)
    (hS : Set.InjOn BarIdentity.barIdentityId S) {bar : BarWrite} (hbar : bar.identity ∈ S) :
    ∃ ensured, t.ensureIdentity bar = .ok ensured := by
  -- a row under the natural key of the bar stands under its ID
  have hkey : ∀ r ∈ t.identities.entries, BarIdentity.naturalKey r.2.toBarIdentityFields =
      BarIdentity.naturalKey bar.identity.toBarIdentityFields → r.1 = bar.identity.barIdentityId := by
    intro r hr hnatural
    have hget := Dict.mem_entries_iff.1 hr
    rcases h r.1 with habsent | ⟨j, -, hj, chain, hholds⟩
    · rw [habsent.identity] at hget
      cases hget
    · rw [← hj] at hget
      rw [hholds.row_identity hget] at hnatural
      rw [← hj, BarIdentity.eq_of_naturalKey hnatural]
  have hrows : (t.identities.entries.filter fun r => r.1 = bar.identity.barIdentityId ∨
      BarIdentity.naturalKey r.2.toBarIdentityFields =
        BarIdentity.naturalKey bar.identity.toBarIdentityFields) =
      t.identities.entries.filter fun r => r.1 = bar.identity.barIdentityId := by
    refine List.filter_congr fun r hr => ?_
    by_cases hid : r.1 = bar.identity.barIdentityId
    · simp [hid]
    · have hnot : ¬ BarIdentity.naturalKey r.2.toBarIdentityFields =
          BarIdentity.naturalKey bar.identity.toBarIdentityFields :=
        fun hnatural => hid (hkey r hr hnatural)
      simp only [hid, hnot, or_self]
  rcases h.absent_or_holds hS hbar with habsent | ⟨chain, hholds⟩
  · have hnil : (t.identities.entries.filter fun r => r.1 = bar.identity.barIdentityId) = [] := by
      rw [List.filter_eq_nil_iff]
      intro r hr hid
      have hget := Dict.mem_entries_iff.1 hr
      rw [of_decide_eq_true hid, habsent.identity] at hget
      cases hget
    exact ⟨(true, t.insertIdentity bar), by simp only [ensureIdentity, hrows, hnil]⟩
  · obtain ⟨first, -, hrow⟩ := hholds.identity
    have hsingle := Dict.filter_key_of_get?_some hrow
    refine ⟨(false, t), ?_⟩
    simp only [ensureIdentity, hrows, hsingle, bind_eq_ok, rejectIf_eq_ok, not_not, pure_eq_ok]
    exact ⟨bar.identity, identityFromRow_eq_ok.2 ⟨rfl, rfl, rfl⟩, (), rfl, trivial⟩

end BarTables

theorem isPrefixedDigest_barEventId (event : StoredBarEvent) :
    isPrefixedDigest "bar_event" event.barEventId = true := by
  have hchecked := event.checked
  simp only [StoredBarEventFields.check, bind_eq_ok, rejectIf_eq_ok, not_not] at hchecked
  obtain ⟨_, -, _, -, _, hid, -⟩ := hchecked
  rw [hid]
  exact isPrefixedDigest_deterministicId _ (isSha256_sha256Hex _)

/-- A revision that the counter admits can be built. -/
theorem exists_nextRevision {bar : BarWrite} {previous : Option StoredBarEvent}
    (hcapacity : (previous.map fun p => p.revision + 1).getD 1 ≤ maxSigned64BitInteger) :
    ∃ event, nextRevision bar previous = .ok event := by
  have hreference : correctionReference ((previous.map fun p => p.revision + 1).getD 1)
      (previous.map fun p => p.barEventId) = .ok () := by
    cases previous with
    | none => simp [correctionReference]
    | some p =>
        have hrevision := p.one_le_revision
        have hne : p.revision ≠ 0 := by omega
        simp [correctionReference, hne, isPrefixedDigest_barEventId, rejectIf]
  have hpositive : 1 ≤ (previous.map fun p => p.revision + 1).getD 1 := by
    cases previous <;> simp
  simp only [nextRevision, bind_eq_ok, rejectIf_eq_ok, not_lt, validated_eq_ok]
  refine ⟨_, (), hcapacity, ?_, rfl⟩
  simp only [StoredBarEventFields.check, bind_eq_ok, rejectIf_eq_ok, not_or, not_lt, not_not]
  refine ⟨(), ⟨hpositive, hcapacity⟩, (), hreference, (), trivial, (), ?_, trivial⟩
  simp [barEventContentHash, isSha256_sha256Hex]

namespace BarTables

variable {t t' : BarTables} {i j : BarIdentity} {chain chain' : List StoredBarEvent}
  {S : Set BarIdentity}

/-- Recording a bar fails, if it fails, on a late receipt or on a constraint. -/
theorem Consistent.noIntegrityError_recordBar (h : t.Consistent S)
    (hS : Set.InjOn BarIdentity.barIdentityId S) {bar : BarWrite} (hbar : bar.identity ∈ S)
    (hcapacity : ∀ chain, t.Holds bar.identity chain → chain.length < maxSigned64BitInteger) :
    NoIntegrityError (t.recordBar bar false) := by
  obtain ⟨⟨created, t₁⟩, hensure⟩ := h.exists_ensureIdentity hS hbar
  obtain ⟨chain, hopened, hcreated, hstate⟩ := h.opened hensure
  have hroom : chain.length < maxSigned64BitInteger := by
    rcases hstate with ⟨-, rfl, -⟩ | ⟨hholds, -⟩
    · simp [maxSigned64BitInteger]
    · exact hcapacity chain hholds
  unfold BarTables.recordBar
  refine (NoIntegrityError.of_eq_ok hensure).bind fun ensured he => ?_
  rw [hensure] at he
  cases he
  refine (NoIntegrityError.of_eq_ok hopened.loadEvents).bind fun events he => ?_
  rw [hopened.loadEvents] at he
  cases he
  refine (NoIntegrityError.rejectIf_of_not ?_).bind fun _ _ => ?_
  · rintro ⟨rfl, hempty⟩
    exact hcreated rfl hempty
  refine (NoIntegrityError.of_eq_ok hopened.verifyLatestProjection).bind fun version he => ?_
  rw [hopened.verifyLatestProjection] at he
  cases he
  split
  · exact NoIntegrityError.ok _
  · refine NoIntegrityError.bind ?_ fun inserted hinserted => ?_
    · unfold insertRevision
      refine (NoIntegrityError.rejectIf (by rintro _ ⟨⟩)).bind fun _ _ => ?_
      have hnext : (chain.getLast?.map fun p => p.revision + 1).getD 1 ≤ maxSigned64BitInteger := by
        cases hlast : chain.getLast? with
        | none => simp [maxSigned64BitInteger]
        | some p =>
            rw [Option.map_some, Option.getD_some, revision_of_getLast? hopened.chained hlast]
            omega
      obtain ⟨event, hevent⟩ : ∃ event, nextRevision bar chain.getLast? = .ok event :=
        exists_nextRevision hnext
      refine (NoIntegrityError.of_eq_ok hevent).bind fun _ _ => ?_
      refine NoIntegrityError.bind ?_ fun _ _ => NoIntegrityError.ok _
      exact (NoIntegrityError.rejectIf (by rintro _ ⟨⟩)).bind fun _ _ => NoIntegrityError.ok _
    · refine NoIntegrityError.bind ?_ fun _ _ => NoIntegrityError.ok _
      have hrevision := revision_of_inserted hopened.chained hinserted
      refine (NoIntegrityError.rejectIf_of_not ?_).bind fun _ _ => ?_
      · rw [hrevision]
        push_cast
        exact not_not.2 rfl
      refine (NoIntegrityError.rejectIf (by rintro _ ⟨⟩)).bind fun _ _ => ?_
      refine NoIntegrityError.bind ?_ fun _ _ => NoIntegrityError.ok _
      unfold putLatest
      split
      · exact (NoIntegrityError.rejectIf (by rintro _ ⟨⟩)).bind fun _ _ => NoIntegrityError.ok _
      · exact NoIntegrityError.require (by rintro _ ⟨⟩)

/-! ## Supported watermarks -/

/-- What a watermark rests on: the latest revision of a bar that ends where the watermark does,
received no later than the watermark is dated. -/
structure Supported (t : BarTables) (S : Set BarIdentity) (w : SymbolWatermark)
    (event : StoredBarEvent) : Prop where
  references : MarketDatabase.References w event
  history : ∃ chain, t.Holds event.identity chain ∧ chain.getLast? = some event
  identity : event.identity ∈ S
  series : seriesKey w.experimentHash event.identity = w.toSeriesKey
  endAt : event.identity.endAt = w.contiguousThrough
  received : event.bar.receivedAt ≤ w.updatedAt

/-- A reader finds the history of the event that a watermark names. -/
theorem Holds.referencedHistory {w : SymbolWatermark} {event : StoredBarEvent}
    (h : t.Holds event.identity chain) (hmem : event ∈ chain)
    (hseries : seriesKey w.experimentHash event.identity = w.toSeriesKey)
    (hend : event.identity.endAt = w.contiguousThrough) :
    t.referencedHistory w event.barEventId = .ok (event.identity, chain) := by
  obtain ⟨row, hrow, hparsed, -⟩ := h.verified.identity
  obtain ⟨_, current, -, -, hprojection⟩ := h.verified.verifyLatestProjection
  have hid : (eventRow event).barIdentityId = event.identity.barIdentityId := rfl
  have hjoin : t.identityOfEvent event.barEventId = some (event.identity.barIdentityId, row) := by
    rw [identityOfEvent, h.get?_event hmem, Option.bind_some, hid, hrow]
    rfl
  have hselect : t.selectIdentity event.identity = .ok (some event.identity) := by
    simp only [selectIdentity, hrow, bind_eq_ok, rejectIf_eq_ok, pure_eq_ok]
    exact ⟨event.identity, hparsed, (), not_not.2 rfl, rfl⟩
  simp only [BarTables.referencedHistory, hjoin, bind_eq_ok, require_eq_ok, rejectIf_eq_ok,
    pure_eq_ok, not_or, not_not]
  exact ⟨_, rfl, event.identity, hparsed, (), ⟨hseries, hend⟩, _, hselect, event.identity, rfl,
    chain, h.verified.loadEvents, _, hprojection, rfl⟩

/-- A watermark is accepted when the history ends in its event, or in the allowed successor. -/
theorem Holds.verifyWatermarkReference {w : SymbolWatermark} {event latest : StoredBarEvent}
    {allowed : Option StoredBarEvent} (h : t.Holds event.identity chain) (hmem : event ∈ chain)
    (hreferences : MarketDatabase.References w event)
    (hseries : seriesKey w.experimentHash event.identity = w.toSeriesKey)
    (hend : event.identity.endAt = w.contiguousThrough)
    (hreceived : event.bar.receivedAt ≤ w.updatedAt) (hlast : chain.getLast? = some latest)
    (hallowed : latest = event ∨ allowed = some latest) :
    t.verifyWatermarkReference w allowed = .ok () := by
  have hreferences' : w.latestBarEventId = some event.barEventId := hreferences
  have hlatest : latest.identity = event.identity :=
    h.identified latest (List.mem_of_getLast? hlast)
  simp only [BarTables.verifyWatermarkReference, hreferences', bind_eq_ok, require_eq_ok,
    rejectIf_eq_ok, not_lt]
  refine ⟨_, h.referencedHistory hmem hseries hend, latest, hlast, event, h.find?_event hmem, (),
    hreceived, ?_⟩
  rintro ⟨hne, hnot⟩
  rcases hallowed with rfl | hallowed
  · exact hne rfl
  · exact hnot ⟨hallowed, hlatest⟩

/-- A supported watermark passes every reader. -/
theorem Supported.verifyWatermarkReference {w : SymbolWatermark} {event : StoredBarEvent}
    (h : t.Supported S w event) (allowed : Option StoredBarEvent) :
    t.verifyWatermarkReference w allowed = .ok () := by
  obtain ⟨chain, hholds, hlast⟩ := h.history
  exact hholds.verifyWatermarkReference (List.mem_of_getLast? hlast) h.references h.series h.endAt
    h.received hlast (Or.inl rfl)

/-- Behind a bar write the watermark passes the reader that allows the revision written. -/
theorem Supported.verify_of_recorded {w : SymbolWatermark} {event : StoredBarEvent}
    (h : t.Supported S w event) {bar : BarWrite} {selected : Bool} {r : RecordedBar}
    (hr : Recorded t bar selected r t') :
    t'.verifyWatermarkReference w (some r.event) = .ok () := by
  obtain ⟨chain, hholds, hlast⟩ := h.history
  cases hr with
  | repeated holds last repeats => exact h.verifyWatermarkReference _
  | @added _ chain' added before novel bar_eq holds elsewhere fresh events =>
      by_cases hid : event.identity.barIdentityId = bar.identity.barIdentityId
      · -- the bar of the watermark has been corrected: the new revision ends its history
        rcases before with ⟨habsent, -⟩ | hbefore
        · obtain ⟨first, -, hrow⟩ := hholds.identity
          rw [hid, habsent.identity] at hrow
          cases hrow
        · obtain ⟨hidentity, rfl⟩ := hholds.unique hbefore hid
          rw [← hidentity] at holds
          exact holds.verifyWatermarkReference
            (List.mem_append_left _ (List.mem_of_getLast? hlast)) h.references h.series h.endAt
            h.received List.getLast?_concat (Or.inr rfl)
      · exact ((elsewhere _ hid).holds hholds).verifyWatermarkReference
          (List.mem_of_getLast? hlast) h.references h.series h.endAt h.received hlast (Or.inl rfl)

/-- A bar write that leaves the bar of a watermark leaves the watermark supported. -/
theorem Supported.of_recorded {w : SymbolWatermark} {event : StoredBarEvent}
    (h : t.Supported S w event) {bar : BarWrite} {selected : Bool} {r : RecordedBar}
    (hr : Recorded t bar selected r t')
    (helsewhere : event.identity = bar.identity → Repeats bar selected event) :
    t'.Supported S w event := by
  cases hr with
  | repeated holds last repeats => exact h
  | @added _ chain' added before novel bar_eq holds elsewhere fresh events =>
      obtain ⟨chain, hholds, hlast⟩ := h.history
      have hid : event.identity.barIdentityId ≠ bar.identity.barIdentityId := by
        intro hid
        rcases before with ⟨habsent, -⟩ | hbefore
        · obtain ⟨first, -, hrow⟩ := hholds.identity
          rw [hid, habsent.identity] at hrow
          cases hrow
        · obtain ⟨hidentity, rfl⟩ := hholds.unique hbefore hid
          exact novel event hlast (helsewhere hidentity)
      exact ⟨h.references, ⟨chain, (elsewhere _ hid).holds hholds, hlast⟩, h.identity, h.series,
        h.endAt, h.received⟩

end BarTables

namespace MarketDatabase

variable {db db' : MarketDatabase} {S : Set BarIdentity} {n : Nat}

/-! ## New watermarks -/

theorem of_newWatermark {event : StoredBarEvent} {experimentHash qualityHash : String}
    {version : Int} {updatedAt : Instant} {w : SymbolWatermark}
    (h : newWatermark event experimentHash qualityHash version updatedAt = .ok w) :
    w.toSymbolWatermarkFields =
      newWatermarkFields event experimentHash qualityHash version updatedAt := by
  obtain ⟨_, rfl⟩ := validated_eq_ok.1 h
  rfl

/-- A watermark of a stored event can be built while its version counts. -/
theorem exists_newWatermark (event : StoredBarEvent) (request : EligibleWatermark) {version : Int}
    (hmin : 1 ≤ version) (hmax : version ≤ maxSigned64BitInteger) :
    ∃ w, newWatermark event request.experimentHash request.qualityHash version request.updatedAt =
      .ok w := by
  have hrequest := request.checked
  simp only [EligibleWatermarkFields.check, unit_bind_eq_ok] at hrequest
  have hidentity := event.identity.checked
  simp only [BarIdentityFields.check, bind_eq_ok, rejectIf_eq_ok, require_eq_ok] at hidentity
  obtain ⟨_, hprovider, _, hfeed, _, hadjustment, _, hsymbol, duration, hduration, -⟩ := hidentity
  generalize hw : newWatermarkFields event request.experimentHash request.qualityHash version
    request.updatedAt = w
  have hkey : w.toSeriesKey = seriesKey request.experimentHash event.identity := by rw [← hw]; rfl
  have hid : w.symbolWatermarkId = watermarkId w.toSeriesKey := by rw [← hw]; rfl
  have hhash : w.contentHash = watermarkContentHash w := by rw [← hw]; rfl
  have hevent : w.latestBarEventId = some event.barEventId := by rw [← hw]; rfl
  have hquality : w.qualityHash = request.qualityHash := by rw [← hw]; rfl
  have hversion : w.version = version := by rw [← hw]; rfl
  have hseries : w.experimentHash = request.experimentHash ∧ w.provider = event.identity.provider ∧
      w.feed = event.identity.feed ∧ w.adjustment = event.identity.adjustment ∧
      w.symbol = event.identity.symbol ∧ w.timeframe = event.identity.timeframe := by
    simp only [hkey, seriesKey, and_self]
  obtain ⟨hexperiment, hp, hf, ha, hs, ht⟩ := hseries
  rw [newWatermark, hw]
  refine ⟨_, validated_of_ok ?_⟩
  simp only [SymbolWatermarkFields.check, unit_bind_eq_ok, rejectIf_eq_ok, not_or, not_lt, not_not,
    hexperiment, hquality, hp, hf, ha, hs, ht, hevent, hversion, hduration]
  refine ⟨?_, hrequest.1, hrequest.2, ?_, ?_, hprovider, hfeed, hadjustment, hsymbol,
    Option.some_ne_none _, ⟨hmin, hmax⟩, hid, hhash⟩
  · rw [hid, watermarkId, deterministicIdFromHashInput,
      isPrefixedDigest_deterministicId _ (isSha256_sha256Hex _)]
    exact Bool.noConfusion
  · rw [hhash, watermarkContentHash, requireHash, rejectIf_eq_ok, isSha256_sha256Hex]
    exact Bool.noConfusion
  · simp [isPrefixedDigest_barEventId]

/-- A new watermark rests on its event. -/
theorem supported_of_newWatermark {event : StoredBarEvent} {request : EligibleWatermark}
    {version : Int} {w : SymbolWatermark} {t : BarTables} {chain : List StoredBarEvent}
    (h : newWatermark event request.experimentHash request.qualityHash version request.updatedAt =
      .ok w)
    (hholds : t.Holds event.identity chain) (hlast : chain.getLast? = some event)
    (hidentity : event.identity ∈ S) (hreceived : event.bar.receivedAt ≤ request.updatedAt) :
    t.Supported S w event := by
  have hfields := of_newWatermark h
  refine ⟨?_, ⟨chain, hholds, hlast⟩, hidentity, ?_, ?_, ?_⟩
  · rw [References, hfields]
    rfl
  · rw [hfields]
    rfl
  · rw [hfields]
    rfl
  · rw [hfields]
    exact hreceived

/-! ## Applying a request -/

theorem watermarkFromRow_self (w : SymbolWatermark) :
    watermarkFromRow w.toSeriesKey w.toSymbolWatermarkRow = .ok w := by
  rw [watermarkFromRow, orMalformed_eq_ok]
  exact validated_eq_ok.2 ⟨w.checked, rfl⟩

theorem of_watermarkFromRow {k : SeriesKey} {row : SymbolWatermarkRow} {w : SymbolWatermark}
    (h : watermarkFromRow k row = .ok w) : w.toSeriesKey = k ∧ w.toSymbolWatermarkRow = row := by
  rw [watermarkFromRow, orMalformed_eq_ok] at h
  obtain ⟨_, rfl⟩ := validated_eq_ok.1 h
  exact ⟨rfl, rfl⟩

theorem one_le_version (w : SymbolWatermark) : 1 ≤ w.version := by
  have hchecked := w.checked
  simp only [SymbolWatermarkFields.check, unit_bind_eq_ok, rejectIf_eq_ok, not_or, not_lt]
    at hchecked
  exact hchecked.2.2.2.2.2.2.2.2.2.2.1.1

theorem symbolWatermarkId_eq (w : SymbolWatermark) :
    w.symbolWatermarkId = watermarkId w.toSeriesKey := by
  have hchecked := w.checked
  simp only [SymbolWatermarkFields.check, unit_bind_eq_ok, rejectIf_eq_ok, not_not] at hchecked
  exact hchecked.2.2.2.2.2.2.2.2.2.2.2.1

/-- A request leaves the stored watermark, or writes a new one for the event. -/
theorem of_applyEligibleWatermark {event : StoredBarEvent} {request : EligibleWatermark}
    {w : SymbolWatermark} {changed : Bool}
    (h : db.applyEligibleWatermark event request = .ok (w, changed, db')) :
    (db' = db ∧ watermarkFromRow (seriesKey request.experimentHash event.identity)
        w.toSymbolWatermarkRow = .ok w ∧
      db.watermarks.get? (seriesKey request.experimentHash event.identity) =
        some w.toSymbolWatermarkRow ∧ replacesWatermark w event request = .ok false) ∨
    ∃ version, newWatermark event request.experimentHash request.qualityHash version
        request.updatedAt = .ok w ∧
      db' = { db with
        watermarks := db.watermarks.set (seriesKey request.experimentHash event.identity)
          w.toSymbolWatermarkRow } ∧
      (version = 1 ∨ ∃ row, db.watermarks.get? (seriesKey request.experimentHash event.identity) =
        some row ∧ version = row.version + 1) := by
  simp only [applyEligibleWatermark, bind_eq_ok] at h
  obtain ⟨current, hcurrent, h⟩ := h
  cases current with
  | none =>
      simp only [insertWatermark, bind_eq_ok, rejectIf_eq_ok, pure_eq_ok, Prod.mk.injEq] at h
      obtain ⟨w', hnew, _, ⟨_, -, rfl⟩, rfl, -, rfl⟩ := h
      refine Or.inr ⟨1, hnew, ?_, Or.inl rfl⟩
      rw [of_newWatermark hnew]
      rfl
  | some current =>
      obtain ⟨row, hrow, hparsed⟩ : ∃ row, db.watermarks.get?
          (seriesKey request.experimentHash event.identity) = some row ∧
          watermarkFromRow (seriesKey request.experimentHash event.identity) row = .ok current := by
        unfold selectWatermark at hcurrent
        split at hcurrent
        · cases hcurrent
        · next row hrow =>
            simp only [bind_eq_ok, pure_eq_ok, Option.some.injEq] at hcurrent
            obtain ⟨_, hparsed, _, -, rfl⟩ := hcurrent
            exact ⟨row, hrow, hparsed⟩
      obtain ⟨hkey, rfl⟩ := of_watermarkFromRow hparsed
      simp only [bind_eq_ok] at h
      obtain ⟨replaces, hreplaces, h⟩ := h
      cases replaces with
      | false =>
          simp only [pure_eq_ok, Prod.mk.injEq] at h
          obtain ⟨rfl, -, rfl⟩ := h
          exact Or.inl ⟨rfl, hparsed, hrow, hreplaces⟩
      | true =>
          simp only [updateWatermark, bind_eq_ok, require_eq_ok, Dict.compareAndSet_eq_some,
            pure_eq_ok, Prod.mk.injEq] at h
          obtain ⟨w', hnew, _, ⟨_, ⟨_, -, -, rfl⟩, rfl⟩, rfl, -, rfl⟩ := h
          have hkey' : w'.toSeriesKey = seriesKey request.experimentHash event.identity := by
            rw [of_newWatermark hnew]
            rfl
          -- both watermarks are of one series, so the row keeps its ID
          have hid : ({ w'.toSymbolWatermarkRow with
              symbolWatermarkId := current.symbolWatermarkId } : SymbolWatermarkRow) =
              w'.toSymbolWatermarkRow := by
            rw [symbolWatermarkId_eq current, hkey, ← hkey', ← symbolWatermarkId_eq w']
          rw [hid, hkey]
          exact Or.inr ⟨_, hnew, rfl, Or.inr ⟨_, hrow, rfl⟩⟩

/-! ## The invariant -/

/-- The database after at most `n` appends whose watermarks are all supported. -/
structure Readable (db : MarketDatabase) (S : Set BarIdentity) (n : Nat) : Prop where
  consistent : db.bars.Consistent S
  lengths : ∀ i ∈ S, ∀ chain, db.bars.Holds i chain → chain.length ≤ n
  supported : ∀ k row, db.watermarks.get? k = some row → ∃ w event,
    w.toSeriesKey = k ∧ w.toSymbolWatermarkRow = row ∧ db.bars.Supported S w event
  versions : ∀ k row, db.watermarks.get? k = some row → row.version ≤ n

theorem readable_empty {db : MarketDatabase} (hbars : db.bars = {})
    (hwatermarks : db.watermarks = Dict.empty) (S : Set BarIdentity) : db.Readable S 0 := by
  have hnone : ∀ k row, ¬ db.watermarks.get? k = some row := by
    intro k row hrow
    rw [hwatermarks] at hrow
    cases hrow
  refine ⟨hbars ▸ BarTables.consistent_empty S, ?_, fun k row h => absurd h (hnone k row),
    fun k row h => absurd h (hnone k row)⟩
  intro i _ chain hholds
  obtain ⟨first, -, hrow⟩ := hholds.identity
  rw [hbars] at hrow
  cases hrow

/-- The append would correct the bar on which the watermark of the series rests. -/
def CorrectsReferenced (db : MarketDatabase) (bar : BarWrite) (k : SeriesKey) : Prop :=
  ∃ row event, db.watermarks.get? k = some row ∧
    db.bars.readLatest bar.identity = .ok (some event) ∧
    row.latestBarEventId = some event.barEventId ∧ ¬ Repeats bar false event

/-- The append approves what it corrects: it carries a request of each experiment whose watermark
rests on the bar, and a request for a repeated bar is not dated before the stored receipt. -/
structure Approved (db : MarketDatabase) (bar : BarWrite) (request : Option EligibleWatermark) :
    Prop where
  corrections : ∀ k, db.CorrectsReferenced bar k →
    ∃ r, request = some r ∧ r.experimentHash = k.experimentHash
  receipts : ∀ r event, request = some r →
    db.bars.readLatest bar.identity = .ok (some event) → Repeats bar false event →
    event.bar.receivedAt ≤ r.updatedAt

/-- A reader accepts every stored watermark. -/
theorem Readable.selectWatermark (h : db.Readable S n) (k : SeriesKey)
    {allowed : Option StoredBarEvent} : ∃ found, db.selectWatermark k allowed = .ok found := by
  cases hrow : db.watermarks.get? k with
  | none => exact ⟨none, by simp only [MarketDatabase.selectWatermark, hrow]⟩
  | some row =>
      obtain ⟨w, event, rfl, rfl, hsupported⟩ := h.supported k row hrow
      refine ⟨some w, ?_⟩
      simp only [MarketDatabase.selectWatermark, hrow, bind_eq_ok, pure_eq_ok]
      exact ⟨w, watermarkFromRow_self w, (), hsupported.verifyWatermarkReference allowed, rfl⟩

theorem Readable.noIntegrityError_watermark (h : db.Readable S n) (experimentHash : String)
    (identity : BarIdentity) : NoIntegrityError (db.watermark experimentHash identity) := by
  refine (NoIntegrityError.rejectIf (by rintro _ ⟨⟩)).bind fun _ _ => ?_
  obtain ⟨found, hfound⟩ := h.selectWatermark (seriesKey experimentHash identity)
  exact NoIntegrityError.of_eq_ok hfound

/-! ## Appends without an integrity error -/

theorem Readable.checkReference (h : db.Readable S n) (bar : BarWrite)
    (request : Option EligibleWatermark) : db.checkReference bar request = .ok () := by
  cases request with
  | none => rfl
  | some request =>
      simp only [MarketDatabase.checkReference, bind_eq_ok, pure_eq_ok]
      cases hrow : db.watermarks.get? (seriesKey request.experimentHash bar.identity) with
      | none => exact ⟨none, by simp [watermarkReferenceIdentityId, hrow], trivial⟩
      | some row =>
          obtain ⟨w, event, -, rfl, hsupported⟩ := h.supported _ row hrow
          obtain ⟨chain, hholds, hlast⟩ := hsupported.history
          have hreferences : w.latestBarEventId = some event.barEventId := hsupported.references
          have hid : (eventRow event).barIdentityId = event.identity.barIdentityId := rfl
          refine ⟨some event.identity.barIdentityId, ?_, trivial⟩
          simp only [watermarkReferenceIdentityId, hrow, Option.bind_some, hreferences, bind_eq_ok,
            rejectIf_eq_ok, require_eq_ok, pure_eq_ok, isPrefixedDigest_barEventId]
          exact ⟨(), Bool.noConfusion, eventRow event,
            hholds.get?_event (List.mem_of_getLast? hlast), (),
            by rw [hid, isPrefixedDigest_barIdentityId]; exact Bool.noConfusion, rfl⟩

/-- Behind a bar write a request finds its watermark acceptable. -/
theorem Readable.noIntegrityError_applyRequest (h : db.Readable S n)
    (hroom : n < maxSigned64BitInteger) {bar : BarWrite} {selected : Bool} {r : RecordedBar}
    {t : BarTables} (hr : BarTables.Recorded db.bars bar selected r t)
    (request : Option EligibleWatermark) :
    NoIntegrityError ({ db with bars := t }.applyRequest r.event request) := by
  cases request with
  | none => exact NoIntegrityError.ok _
  | some request =>
      refine NoIntegrityError.bind ?_ fun _ _ => NoIntegrityError.ok _
      set k := seriesKey request.experimentHash r.event.identity with hk
      unfold applyEligibleWatermark
      rw [← hk]
      cases hrow : db.watermarks.get? k with
      | none =>
          have hselect : ({ db with bars := t } : MarketDatabase).selectWatermark k (some r.event) =
              .ok none := by
            simp only [MarketDatabase.selectWatermark, hrow]
          refine (NoIntegrityError.of_eq_ok hselect).bind fun current hcurrent => ?_
          rw [hselect] at hcurrent
          cases hcurrent
          obtain ⟨w, hw⟩ := exists_newWatermark r.event request le_rfl
            (by norm_num [maxSigned64BitInteger])
          refine (NoIntegrityError.of_eq_ok hw).bind fun _ _ => ?_
          refine NoIntegrityError.bind ?_ fun _ _ => NoIntegrityError.ok _
          exact (NoIntegrityError.rejectIf (by rintro _ ⟨⟩)).bind fun _ _ => NoIntegrityError.ok _
      | some row =>
          obtain ⟨w, event, hkey, rfl, hsupported⟩ := h.supported k row hrow
          have hselect : ({ db with bars := t } : MarketDatabase).selectWatermark k (some r.event) =
              .ok (some w) := by
            simp only [MarketDatabase.selectWatermark, hrow, bind_eq_ok, pure_eq_ok]
            exact ⟨w, hkey ▸ watermarkFromRow_self w, (), hsupported.verify_of_recorded hr, rfl⟩
          have hversion : w.version ≤ n := h.versions k _ hrow
          refine (NoIntegrityError.of_eq_ok hselect).bind fun current hcurrent => ?_
          rw [hselect] at hcurrent
          cases hcurrent
          refine NoIntegrityError.bind ?_ fun replaces hreplaces => ?_
          · unfold replacesWatermark
            split
            · exact NoIntegrityError.ok _
            split
            · exact NoIntegrityError.ok _
            split
            · exact (NoIntegrityError.rejectIf (by rintro _ ⟨⟩)).bind fun _ _ => NoIntegrityError.ok _
            · refine (NoIntegrityError.rejectIf (by rintro _ ⟨⟩)).bind fun _ _ => ?_
              refine (NoIntegrityError.rejectIf_of_not ?_).bind fun _ _ => NoIntegrityError.ok _
              omega
          · cases replaces with
            | false => exact NoIntegrityError.ok _
            | true =>
                have hpositive := one_le_version w
                obtain ⟨w', hw'⟩ := @exists_newWatermark _ r.event request (w.version + 1)
                  (by omega) (by omega)
                refine (NoIntegrityError.of_eq_ok hw').bind fun _ _ => ?_
                refine NoIntegrityError.bind ?_ fun _ _ => NoIntegrityError.ok _
                exact (NoIntegrityError.require (by rintro _ ⟨⟩)).bind fun _ _ => NoIntegrityError.ok _

/-- An append to a readable database fails, if it fails, for another reason than its integrity. -/
theorem Readable.noIntegrityError_append (h : db.Readable S n)
    (hS : Set.InjOn BarIdentity.barIdentityId S) (hroom : n < maxSigned64BitInteger)
    {bar : BarWrite} (hbar : bar.identity ∈ S) (request : Option EligibleWatermark) :
    NoIntegrityError (db.append bar request) := by
  refine (NoIntegrityError.rejectIf (by rintro _ ⟨⟩)).bind fun _ _ => ?_
  unfold appendOnConnection
  refine (NoIntegrityError.of_eq_ok (h.checkReference bar request)).bind fun _ _ => ?_
  have hrecord := h.consistent.noIntegrityError_recordBar hS hbar
    fun chain hholds => lt_of_le_of_lt (h.lengths _ hbar chain hholds) hroom
  refine hrecord.bind fun recorded hrecorded => ?_
  have hsource : BarTables.SelectedBoundary bar false := by rintro ⟨⟩
  have hr := h.consistent.recordBar hsource hrecorded
  refine (h.noIntegrityError_applyRequest hroom hr request).bind fun applied _ => ?_
  refine NoIntegrityError.bind ?_ fun audited _ => ?_
  · unfold auditCorrection appendCorrectionAudit
    split
    · split
      · exact NoIntegrityError.ok _
      · nofun
    · exact NoIntegrityError.ok _
  · refine (NoIntegrityError.rejectIf_of_not ?_).bind fun _ _ => NoIntegrityError.ok _
    have hpositive := recorded.1.event.one_le_revision
    have hversion := hr.latestVersion_eq
    omega

/-! ## Approved appends -/

/-- A request on a revision that has replaced the event of its watermark cannot leave it. -/
theorem replacesWatermark_ne_false {w : SymbolWatermark} {event : StoredBarEvent}
    {request : EligibleWatermark} (hend : event.identity.endAt = w.contiguousThrough)
    (hreferences : ¬ References w event) : replacesWatermark w event request ≠ .ok false := by
  intro h
  simp only [replacesWatermark, hend, hreferences, ne_eq, not_true, and_false, if_false, false_and,
    not_false_eq_true, and_self] at h
  split at h
  · simp [rejectIf, bind, Except.bind] at h
  · simp only [bind_eq_ok, pure_eq_ok, Bool.true_eq_false, and_false, exists_const] at h

theorem Readable.lengths_of_recorded (h : db.Readable S n) {bar : BarWrite} {selected : Bool}
    {r : RecordedBar} {t : BarTables} (hr : BarTables.Recorded db.bars bar selected r t)
    (hbar : bar.identity ∈ S) {i : BarIdentity} (hi : i ∈ S) {chain : List StoredBarEvent}
    (hholds : t.Holds i chain) : chain.length ≤ n + 1 := by
  cases hr with
  | repeated holds last repeats => exact (h.lengths i hi chain hholds).trans n.le_succ
  | @added _ chain' event before novel bar_eq holds elsewhere fresh events =>
      by_cases hid : i.barIdentityId = bar.identity.barIdentityId
      · obtain ⟨rfl, rfl⟩ := hholds.unique holds hid
        rw [List.length_append, List.length_singleton]
        rcases before with ⟨-, rfl⟩ | hbefore
        · simp
        · exact Nat.succ_le_succ (h.lengths _ hbar _ hbefore)
      · exact (h.lengths i hi chain ((elsewhere _ hid).symm.holds hholds)).trans n.le_succ

/-- Of a correction that no request of the series approves, no watermark of the series rests on the
bar. -/
theorem Approved.repeats_of_supported {bar : BarWrite} {request : Option EligibleWatermark}
    (h : db.Approved bar request) {w : SymbolWatermark} {event : StoredBarEvent}
    (hrow : db.watermarks.get? w.toSeriesKey = some w.toSymbolWatermarkRow)
    (hsupported : db.bars.Supported S w event)
    (hother : ∀ r, request = some r → w.toSeriesKey ≠ seriesKey r.experimentHash bar.identity)
    (hidentity : event.identity = bar.identity) : Repeats bar false event := by
  by_contra hnovel
  obtain ⟨chain, hholds, hlast⟩ := hsupported.history
  have hread : db.bars.readLatest bar.identity = .ok (some event) := by
    rw [← hidentity, hholds.verified.readLatest, hlast]
  obtain ⟨r, hr, hexperiment⟩ := h.corrections w.toSeriesKey
    ⟨_, event, hrow, hread, hsupported.references, hnovel⟩
  refine hother r hr ?_
  rw [hexperiment, ← hidentity]
  exact hsupported.series.symm

/-- The parts of an append that succeeded. -/
theorem of_append (hc : db.bars.Consistent S) {bar : BarWrite} {request : Option EligibleWatermark}
    {result : BarWriteResult} (h : db.append bar request = .ok (result, db')) :
    (∀ r, request = some r → bar.receivedAt ≤ r.updatedAt) ∧
      ∃ recorded applied, BarTables.Recorded db.bars bar false recorded db'.bars ∧
        { db with bars := db'.bars }.applyRequest recorded.event request = .ok applied ∧
        applied.2.2.watermarks = db'.watermarks := by
  simp only [append, appendOnConnection, bind_eq_ok, rejectIf_eq_ok, pure_eq_ok, Prod.mk.injEq] at h
  obtain ⟨_, hreceipt, _, -, ⟨recorded, t⟩, hrecorded, applied, happlied, _, haudited, _, -, -,
    rfl⟩ := h
  obtain ⟨events, rfl⟩ := of_auditCorrection haudited
  have hbars : applied.2.2.bars = t := bars_of_applyRequest happlied
  have hsource : BarTables.SelectedBoundary bar false := by rintro ⟨⟩
  refine ⟨fun r hr => not_lt.1 fun hlt => hreceipt ⟨r, hr, hlt⟩, recorded, applied, ?_, ?_, rfl⟩
  · exact hbars ▸ hc.recordBar hsource hrecorded
  · simpa only [hbars] using happlied

/-- The receipt of the recorded event is no later than an approving request. -/
theorem Approved.receivedAt_le {bar : BarWrite} {request : EligibleWatermark}
    (h : db.Approved bar (some request)) {r : RecordedBar} {t : BarTables}
    (hr : BarTables.Recorded db.bars bar false r t) (hreceipt : bar.receivedAt ≤ request.updatedAt) :
    r.event.bar.receivedAt ≤ request.updatedAt := by
  cases hr with
  | @repeated chain current holds last repeats =>
      have hread : db.bars.readLatest bar.identity = .ok (some current) := by
        rw [holds.verified.readLatest, last]
      exact h.receipts request current rfl hread repeats
  | added before novel bar_eq holds elsewhere fresh events => rwa [bar_eq]

/-- The watermark of the series that a request names is supported behind it. -/
theorem Readable.supported_of_applied (h : db.Readable S n) {bar : BarWrite}
    (hbar : bar.identity ∈ S) {request : EligibleWatermark}
    (happroved : db.Approved bar (some request)) (hreceipt : bar.receivedAt ≤ request.updatedAt)
    {recorded : RecordedBar} {t : BarTables}
    (hr : BarTables.Recorded db.bars bar false recorded t) {w : SymbolWatermark} {changed : Bool}
    (happlied : { db with bars := t }.applyEligibleWatermark recorded.event request =
      .ok (w, changed, db')) :
    (∃ event, t.Supported S w event) ∧ w.version ≤ n + 1 ∧
      w.toSeriesKey = seriesKey request.experimentHash recorded.event.identity ∧
      ∀ k, db'.watermarks.get? k =
        if k = w.toSeriesKey then some w.toSymbolWatermarkRow else db.watermarks.get? k := by
  rcases of_applyEligibleWatermark happlied with
    ⟨rfl, hparsed, hrow, hreplaces⟩ | ⟨version, hnew, rfl, hversion⟩
  · obtain ⟨hkey, -⟩ := of_watermarkFromRow hparsed
    obtain ⟨w', event, hkey', hrow', hsupported⟩ := h.supported _ _ hrow
    have hw : w' = w := by
      have hself := watermarkFromRow_self w'
      rw [hkey', hrow', hparsed] at hself
      exact (Except.ok.inj hself).symm
    subst hw
    refine ⟨⟨event, hsupported.of_recorded hr ?_⟩, ?_, hkey, ?_⟩
    · -- a request that leaves the watermark cannot have corrected its bar
      intro hidentity
      by_contra hnovel
      obtain ⟨chain, hholds, hlast⟩ := hsupported.history
      have hend : recorded.event.identity.endAt = w'.contiguousThrough := by
        rw [hr.identity_eq, ← hidentity]
        exact hsupported.endAt
      have hreferences : ¬ References w' recorded.event := by
        intro hsame
        have hstored := hholds.get?_event (List.mem_of_getLast? hlast)
        have hid : event.barEventId = recorded.event.barEventId :=
          Option.some.inj (hsupported.references.symm.trans hsame)
        cases hr with
        | @repeated chain' current holds last repeats =>
            obtain ⟨-, rfl⟩ := hholds.unique holds (congrArg _ hidentity)
            rw [hlast] at last
            cases last
            exact hnovel repeats
        | added before novel bar_eq holds elsewhere fresh events =>
            rw [hid, fresh] at hstored
            cases hstored
      exact replacesWatermark_ne_false hend hreferences hreplaces
    · have hbound := h.versions _ _ hrow
      omega
    · intro k
      split
      · next hk => rw [hk, hkey, hrow]
      · rfl
  · have hkey : w.toSeriesKey = seriesKey request.experimentHash recorded.event.identity := by
      rw [of_newWatermark hnew]
      rfl
    have hw : w.version = version := by
      rw [of_newWatermark hnew]
      rfl
    obtain ⟨chain, hholds, hlast⟩ := hr.history
    refine ⟨⟨recorded.event, supported_of_newWatermark hnew (hr.identity_eq ▸ hholds) hlast
      (hr.identity_eq ▸ hbar) (happroved.receivedAt_le hr hreceipt)⟩, ?_, hkey,
      fun k => by rw [hkey]; exact Dict.get?_set ..⟩
    rcases hversion with rfl | ⟨row, hrow, rfl⟩
    · omega
    · have hbound := h.versions _ _ hrow
      omega

/-- An approved append leaves the database readable. -/
theorem Readable.append (h : db.Readable S n) {bar : BarWrite} (hbar : bar.identity ∈ S)
    {request : Option EligibleWatermark} (happroved : db.Approved bar request)
    {result : BarWriteResult} (happend : db.append bar request = .ok (result, db')) :
    db'.Readable S (n + 1) := by
  obtain ⟨hreceipt, recorded, applied, hr, happlied, hwatermarks⟩ := of_append h.consistent happend
  -- a watermark of a series that the request does not name
  have hothers : ∀ k row, db.watermarks.get? k = some row →
      (∀ r, request = some r → k ≠ seriesKey r.experimentHash bar.identity) →
      (∃ w event, w.toSeriesKey = k ∧ w.toSymbolWatermarkRow = row ∧
        db'.bars.Supported S w event) ∧ row.version ≤ n + 1 := by
    intro k row hrow hother
    obtain ⟨w, event, rfl, rfl, hsupported⟩ := h.supported k row hrow
    have hbound := h.versions _ _ hrow
    refine ⟨⟨w, event, rfl, rfl, hsupported.of_recorded hr ?_⟩, by omega⟩
    exact happroved.repeats_of_supported hrow hsupported hother
  have hall : ∀ k row, db'.watermarks.get? k = some row →
      (∃ w event, w.toSeriesKey = k ∧ w.toSymbolWatermarkRow = row ∧
        db'.bars.Supported S w event) ∧ row.version ≤ n + 1 := by
    intro k row hrow
    rw [← hwatermarks] at hrow
    cases request with
    | none =>
        cases happlied
        exact hothers k row hrow nofun
    | some request =>
        simp only [applyRequest, bind_eq_ok, pure_eq_ok] at happlied
        obtain ⟨⟨w, changed, db₂⟩, happlied, rfl⟩ := happlied
        obtain ⟨⟨event, hsupported⟩, hversion, hkey, hset⟩ :=
          h.supported_of_applied hbar happroved (hreceipt request rfl) hr happlied
        rw [hset k] at hrow
        split at hrow
        · next hk =>
            cases hrow
            exact ⟨⟨w, event, hk.symm, rfl, hsupported⟩, hversion⟩
        · next hk =>
            refine hothers k row hrow fun r hr' => ?_
            cases hr'
            rw [← hr.identity_eq, ← hkey]
            exact hk
  exact ⟨h.consistent.recorded hbar hr,
    fun i hi chain hholds => h.lengths_of_recorded hr hbar hi hholds,
    fun k row hrow => (hall k row hrow).1, fun k row hrow => by exact_mod_cast (hall k row hrow).2⟩

/-! ## Corrections without a request -/

/-- Events of one ID are one event of one history. -/
theorem eq_of_barEventId {t : BarTables} {i j : BarIdentity} {chain chain' : List StoredBarEvent}
    {event event' : StoredBarEvent} (h : t.Holds i chain) (hmem : event ∈ chain)
    (h' : t.Holds j chain') (hmem' : event' ∈ chain') (hid : event.barEventId = event'.barEventId) :
    event = event' := by
  have hrow := h.get?_event hmem
  rw [hid, h'.get?_event hmem', Option.some.injEq] at hrow
  have hidentity : event.identity.barIdentityId = event'.identity.barIdentityId :=
    (congrArg BarEventRow.barIdentityId hrow).symm
  rw [h.identified event hmem, h'.identified event' hmem'] at hidentity
  obtain ⟨-, rfl⟩ := h.unique h' hidentity
  exact List.inj_on_of_nodup_map h.nodup_ids hmem hmem' hid

/-- Every reader refuses a watermark whose bar was corrected without a request. -/
theorem Readable.refuses_correction (h : db.Readable S n) {bar : BarWrite} {result : BarWriteResult}
    (happend : db.append bar none = .ok (result, db')) {experimentHash : String}
    {identity : BarIdentity} (hhash : isSha256 experimentHash = true)
    (hcorrects : db.CorrectsReferenced bar (seriesKey experimentHash identity)) :
    db'.watermark experimentHash identity =
      .error (.marketDataIntegrity "watermark event reference is not the latest revision") := by
  obtain ⟨-, recorded, applied, hr, happlied, hwatermarks⟩ := of_append h.consistent happend
  have hsame : db.watermarks = db'.watermarks := by
    cases happlied
    exact hwatermarks
  obtain ⟨row, event, hrow, hread, hreferences, hnovel⟩ := hcorrects
  obtain ⟨w, supporting, hkey, rfl, hsupported⟩ := h.supported _ row hrow
  obtain ⟨chain, hholds, hlast⟩ := hsupported.history
  obtain ⟨t, hbars⟩ : ∃ t, t = db'.bars := ⟨_, rfl⟩
  rw [← hbars] at hr
  cases hr with
  | @repeated _ current holds last repeats =>
      rw [holds.verified.readLatest, last] at hread
      cases hread
      exact absurd repeats hnovel
  | @added _ history correction before novel bar_eq holds elsewhere fresh events =>
      rcases before with ⟨habsent, -⟩ | hbefore
      · rw [BarTables.readLatest_of_absent habsent.identity] at hread
        cases hread
      · rw [hbefore.verified.readLatest, Except.ok.injEq] at hread
        have hmem := List.mem_of_getLast? hread
        have hid : event.barEventId = supporting.barEventId :=
          Option.some.inj (hreferences.symm.trans hsupported.references)
        obtain rfl := eq_of_barEventId hbefore hmem hholds (List.mem_of_getLast? hlast) hid
        have hne : correction.barEventId ≠ event.barEventId := by
          intro heq
          rw [heq, hbefore.get?_event hmem] at fresh
          cases fresh
        -- the history of the event now ends in the correction
        have hidentity : event.identity = bar.identity := hbefore.identified event hmem
        rw [← hidentity] at holds
        have hmem' : event ∈ history ++ [correction] := List.mem_append_left _ hmem
        have hreferenced := holds.referencedHistory hmem' hsupported.series hsupported.endAt
        have hhash' : requireHash experimentHash "experiment hash" = .ok () := by
          simp [requireHash, hhash]
        have hnotEarlier : ¬ w.updatedAt < event.bar.receivedAt := not_lt.2 hsupported.received
        have hreferences' : w.latestBarEventId = some event.barEventId := hsupported.references
        rw [← hkey] at hrow
        rw [MarketDatabase.watermark, hhash', MarketDatabase.selectWatermark, ← hsame, ← hbars, ← hkey]
        simp only [hrow, watermarkFromRow_self, BarTables.verifyWatermarkReference,
          hreferences', hreferenced, List.getLast?_concat, holds.find?_event hmem', require,
          rejectIf, bind, Except.bind, hnotEarlier, hne, ne_eq, not_false_eq_true, reduceCtorEq,
          false_and, and_self, if_true, if_false]

/-! ## Runs of appends -/

theorem Readable.mono (h : db.Readable S n) : db.Readable S (n + 1) where
  consistent := h.consistent
  lengths i hi chain hholds := (h.lengths i hi chain hholds).trans n.le_succ
  supported := h.supported
  versions k row hrow := (h.versions k row hrow).trans (by push_cast; omega)

/-- Appends to a database that starts without bars and watermarks. -/
def appends : Transition MarketDatabase (BarWrite × Option EligibleWatermark) where
  init db := db.bars = {} ∧ db.watermarks = Dict.empty
  step db l db' := db' = db.perform (.append l.1 l.2)

/-- The appends that approve what they correct. -/
def approvedAppends : Transition MarketDatabase (BarWrite × Option EligibleWatermark) :=
  appends.restrict fun db l => db.Approved l.1 l.2

theorem perform_append_of_ok {bar : BarWrite} {request : Option EligibleWatermark}
    {appended : BarWriteResult × MarketDatabase} (h : db.append bar request = .ok appended) :
    db.perform (.append bar request) = appended.2 := by
  simp only [perform, attempt, h, Except.map]

theorem perform_append_of_error {bar : BarWrite} {request : Option EligibleWatermark}
    {e : PlatformError} (h : db.append bar request = .error e) :
    db.perform (.append bar request) = db := by
  simp only [perform, attempt, h, Except.map]

/-- An append without a request rests on the bars and the audit events alone. -/
theorem exists_append_none {bar : BarWrite} (hbars : db'.bars = db.bars)
    (haudit : db'.auditEvents = db.auditEvents)
    (h : ∃ appended, db.append bar none = .ok appended) :
    ∃ appended, db'.append bar none = .ok appended := by
  obtain ⟨appended, h⟩ := h
  simp only [append, appendOnConnection, bind_eq_ok, pure_eq_ok] at h ⊢
  obtain ⟨_, hrequest, _, hcheck, recorded, hrecorded, applied, happlied, audited, haudited, _,
    hversion, -⟩ := h
  cases happlied
  have hevents : ({ db' with bars := recorded.2 } : MarketDatabase).correctionAuditEvents
      recorded.1.event =
        ({ db with bars := recorded.2 } : MarketDatabase).correctionAuditEvents
          recorded.1.event := by
    unfold correctionAuditEvents
    rw [haudit]
  have hrests : ∃ after, ({ db' with bars := recorded.2 } : MarketDatabase).auditCorrection
      recorded.1 = .ok after := by
    unfold auditCorrection appendCorrectionAudit at haudited ⊢
    rw [hevents]
    split at haudited
    · rename_i hcorrected
      rw [if_pos hcorrected]
      split at haudited
      · rename_i events hstored
        rw [hstored]
        exact ⟨_, rfl⟩
      · cases haudited
    · rename_i hnot
      rw [if_neg hnot]
      exact ⟨_, rfl⟩
  obtain ⟨after, hafter⟩ := hrests
  rw [hbars]
  exact ⟨_, _, hrequest, _, hcheck, recorded, hrecorded, _, rfl, after, hafter, _, hversion, rfl⟩

/-- What an append does to the bars does not depend on its request. -/
theorem bars_of_appends {bar : BarWrite} {request request' : Option EligibleWatermark}
    {appended appended' : BarWriteResult × MarketDatabase}
    (h : db.append bar request = .ok appended) (h' : db.append bar request' = .ok appended') :
    appended.2.bars = appended'.2.bars := by
  simp only [append, unit_bind_eq_ok] at h h'
  obtain ⟨recorded, hrecorded⟩ := bars_of_appendOnConnection h.2
  obtain ⟨recorded', hrecorded'⟩ := bars_of_appendOnConnection h'.2
  rw [hrecorded] at hrecorded'
  exact congrArg Prod.snd (Except.ok.inj hrecorded')

theorem readable_of_run {db₀ : MarketDatabase} {ls : List (BarWrite × Option EligibleWatermark)}
    (hinit : appends.init db₀) (hrun : approvedAppends.Run db₀ ls db)
    (hbars : ∀ l ∈ ls, l.1.identity ∈ S) : db.Readable S ls.length := by
  induction hrun with
  | refl => exact readable_empty hinit.1 hinit.2 S
  | @snoc ls db db' l hrun hstep ih =>
      obtain ⟨happroved, rfl⟩ := hstep
      have hreadable := ih fun l hl => hbars l (List.mem_append_left _ hl)
      have hbar := hbars l (List.mem_append_right _ (List.mem_singleton_self l))
      rw [List.length_append, List.length_singleton]
      cases happend : db.append l.1 l.2 with
      | error e =>
          rw [perform_append_of_error happend]
          exact hreadable.mono
      | ok appended =>
          rw [perform_append_of_ok happend]
          exact hreadable.append hbar happroved happend

end MarketDatabase

end Readable

/-! ## Samples -/

section Sample

namespace MarketDatabase

attribute [local instance] polynomialHasher

/-- A request of the sample experiment. -/
def sampleRequest (updatedAt : Instant) : EligibleWatermark :=
  ⟨⟨auditGenesisHash, auditGenesisHash, updatedAt⟩, by
    simp only [EligibleWatermarkFields.check]
    decide +kernel⟩

/-- The first minute again, now at 101. -/
def correctedBar : BarWrite := ⟨sampleFields firstMinute 101 (seconds 70), by decide +kernel⟩

def sampleStart : MarketDatabase := { experiments := [auditGenesisHash] }

/-- The first minute with a request of the experiment. -/
def sampleApproved : MarketDatabase :=
  sampleStart.perform (.append firstBar (some (sampleRequest (seconds 62))))

/-- The run of the sample. -/
theorem readable_sampleApproved : sampleApproved.Readable {firstMinute} 1 := by
  have hread : sampleStart.bars.readLatest firstMinute = .ok none := rfl
  have happroved : sampleStart.Approved firstBar (some (sampleRequest (seconds 62))) := by
    constructor
    · rintro k ⟨row, event, hrow, -⟩
      cases hrow
    · intro r event _ hevent
      rw [show firstBar.identity = firstMinute from rfl, hread] at hevent
      cases hevent
  have hrun : approvedAppends.Run sampleStart [(firstBar, some (sampleRequest (seconds 62)))]
      sampleApproved := Transition.Run.single ⟨happroved, rfl⟩
  exact readable_of_run ⟨rfl, rfl⟩ hrun fun l hl => by cases List.mem_singleton.1 hl; rfl

/-- The watermark rests on the bar that the correction corrects. -/
theorem sampleApproved_rests : sampleApproved.auditEvents.isEmpty = true ∧
    (sampleApproved.watermarks.get? (seriesKey auditGenesisHash firstMinute)).any (fun row =>
      (sampleApproved.bars.readLatest firstMinute).toOption.join.any fun event =>
        decide (row.latestBarEventId = some event.barEventId ∧
          ¬ Repeats correctedBar false event)) = true := by
  decide +kernel

/-- The first minute without a request. -/
def sampleUnmarked : MarketDatabase := sampleStart.perform (.append firstBar none)

theorem sampleUnmarked_corrected : (sampleStart.append firstBar none).isOk = true ∧
    sampleUnmarked.auditEvents.isEmpty = true ∧
      (sampleUnmarked.append correctedBar none).isOk = true := by
  decide +kernel

theorem exists_of_isOk {α ε : Type} {x : Except ε α} (h : x.isOk = true) : ∃ a, x = .ok a := by
  cases x with
  | error e => cases h
  | ok a => exact ⟨a, rfl⟩

/-- The watermark of the first minute leaves its bars as they are. -/
theorem sampleApproved_bars {row : SymbolWatermarkRow}
    (hrow : sampleApproved.watermarks.get? (seriesKey auditGenesisHash firstMinute) = some row) :
    sampleApproved.bars = sampleUnmarked.bars := by
  obtain ⟨unmarked, hunmarked⟩ := exists_of_isOk sampleUnmarked_corrected.1
  cases hmarked : sampleStart.append firstBar (some (sampleRequest (seconds 62))) with
  | error e =>
      rw [sampleApproved, perform_append_of_error hmarked] at hrow
      cases hrow
  | ok marked =>
      rw [sampleApproved, sampleUnmarked, perform_append_of_ok hmarked,
        perform_append_of_ok hunmarked]
      exact bars_of_appends hmarked hunmarked

end MarketDatabase

end Sample

end AdaptiveTrader.Storage
