import AdaptiveTrader.Collection.Projection

/-!
# Convergence of the current-value projection

A delivery of a finite set of observations is any sequence of committed batches that together hold
exactly the set, with redeliveries and with other work of the collector in between. After it the
projection shows the maximum observation of each bar, however the set was delivered, exactly when
the observations that tie for a maximum store the same prices (`TiesAgree`). Ties with different
prices exist because `_decimal_text` cuts prices to 28 significant digits before they are hashed.
-/

set_option autoImplicit false

namespace AdaptiveTrader

open Foundation PostgresMarketDataRepository

section Hashed

variable [ContentHasher]

/-! ## Observations that tie -/

namespace RawBarObservationV2

/-- The values that `current_bars` stores for an observation. -/
def storedValues (o : RawBarObservationV2) : BarValueColumns := o.valueColumns.stored

/-- The prices that `current_bars` stores for an observation. -/
def storedPrices (o : RawBarObservationV2) : ℚ × ℚ × ℚ × ℚ × Option ℚ :=
  (o.storedValues.openPrice, o.storedValues.high, o.storedValues.low, o.storedValues.close,
    o.storedValues.vwap)

theorem observationId_of_rank {a b : RawBarObservationV2} (h : a.rank = b.rank) :
    a.observationId = b.observationId := by
  simp only [rank, BarValueColumns.rank, EmbeddingLike.apply_eq_iff_eq, Prod.mk.injEq] at h
  exact h.2.2.2.2

theorem SameDelivery.rank_eq {a b : RawBarObservationV2} (h : SameDelivery a b)
    (hid : a.observationId = b.observationId) : a.rank = b.rank := by
  have hkey := h.content
  simp only [MarketBarV1Fields.contentKey, Prod.mk.injEq] at hkey
  simp only [rank, BarValueColumns.rank, valueColumns, h.source, h.correction, h.receipt, hkey.1,
    hid]

/-- Observations of one delivery store the same values once their prices are stored alike. -/
theorem SameDelivery.storedValues_eq {a b : RawBarObservationV2} (h : SameDelivery a b)
    (hprices : a.storedPrices = b.storedPrices) : a.storedValues = b.storedValues := by
  have hkey := h.content
  simp only [MarketBarV1Fields.contentKey, Prod.mk.injEq] at hkey
  simp only [storedPrices, storedValues, BarValueColumns.stored, valueColumns, Prod.mk.injEq]
    at hprices
  obtain ⟨hopen, hhigh, hlow, hclose, hvwap⟩ := hprices
  simp only [storedValues, BarValueColumns.stored, valueColumns, h.contentHash, h.source,
    h.correction, h.receipt, h.flags, hkey.1, hkey.2.1, hkey.2.2, hopen, hhigh, hlow, hclose, hvwap]

/-- No observation of the same bar in the set outranks `o`. -/
def IsMaximum (S : Finset RawBarObservationV2) (o : RawBarObservationV2) : Prop :=
  ∀ o' ∈ S, o'.bar.identityKey = o.bar.identityKey → o'.rank ≤ o.rank

/-- The identifiers of the observations in the set that report the bar of `o`. -/
def idsOfBar (S : Finset RawBarObservationV2) (o : RawBarObservationV2) : Finset String :=
  (S.filter fun o' => o'.bar.identityKey = o.bar.identityKey).image observationId

/-- The receipts of the observations in the set that report the bar of `o`. -/
def receiptsOfBar (S : Finset RawBarObservationV2) (o : RawBarObservationV2) : Set Instant :=
  {t | ∃ o' ∈ S, o'.bar.identityKey = o.bar.identityKey ∧ o'.bar.receiptTimestampUtc = t}

/-- Some observation with the identifier of `o` has a row that the tables accept. -/
def Storable (jsonbAccepts : String → Bool) (S : Finset RawBarObservationV2)
    (o : RawBarObservationV2) : Prop :=
  ∃ o' ∈ S, o'.observationId = o.observationId ∧
    o'.observationRow.accepted jsonbAccepts = true

/-- Observations that tie for the maximum of a bar store the same prices. -/
def TiesAgree (S : Finset RawBarObservationV2) : Prop :=
  ∀ a ∈ S, ∀ b ∈ S, IsMaximum S a → a.observationId = b.observationId →
    a.storedPrices = b.storedPrices

/-- The values hashed for a set of observations. -/
def hashedOf (S : Finset RawBarObservationV2) : Set Canonical := ⋃ o ∈ S, o.hashed

theorem hashed_subset {S : Finset RawBarObservationV2} {o : RawBarObservationV2} (ho : o ∈ S) :
    o.hashed ⊆ hashedOf S :=
  Set.subset_biUnion_of_mem (u := fun o : RawBarObservationV2 => o.hashed) ho

/-- Prices of at most 28 significant digits never make a tie differ. -/
theorem tiesAgree_of_fitsContext {S : Finset RawBarObservationV2}
    (hH : Set.InjOn sha256Hex (hashedOf S)) (hfits : ∀ o ∈ S, o.bar.FitsContext) : TiesAgree S := by
  intro a ha b hb _ hid
  have hprices := (sameDelivery_of_observationId hH (hashed_subset ha) (hashed_subset hb) hid).prices
  have hfa := hfits a ha
  have hfb := hfits b hb
  have hvwap : ∀ {o : RawBarObservationV2}, o.bar.FitsContext →
      o.bar.vwap.map normalizedText = o.bar.vwap := by
    intro o ho
    cases hq : o.bar.vwap with
    | none => rfl
    | some q => exact congrArg some (ho.vwap q (by rw [hq]; rfl))
  simp only [MarketBarV1Fields.priceTexts, Prod.mk.injEq, hvwap hfa, hvwap hfb] at hprices
  obtain ⟨hopen, hhigh, hlow, hclose, hvwap⟩ := hprices
  rw [hfa.openPrice, hfb.openPrice] at hopen
  rw [hfa.high, hfb.high] at hhigh
  rw [hfa.low, hfb.low] at hlow
  rw [hfa.close, hfb.close] at hclose
  simp only [storedPrices, storedValues, BarValueColumns.stored, valueColumns, hopen, hhigh, hlow,
    hclose, hvwap]

end RawBarObservationV2

/-! ## Deliveries -/

variable {κ : Type}

/-- A committed batch, or anything that leaves observations and projection alone: a batch that
raises, a lease or checkpoint operation, a canonical write. -/
inductive DeliveryStep
  | batch (observations : List RawBarObservationV2)
  | other

def DeliveryStep.observations : DeliveryStep → List RawBarObservationV2
  | batch observations => observations
  | other => []

/-- The observations and their projection under the steps of the collector. -/
def deliverySystem (platform : CollectionPlatform κ) (canonical : Bool) :
    Transition (CollectionDb κ) DeliveryStep where
  init db := db.barObservations = Dict.empty ∧ db.currentBars = Dict.empty
  step db label db' :=
    match label with
    | .batch observations => ∃ lease advances now result,
        appendBatch platform canonical observations lease advances now db = (.ok result, db')
    | .other => db'.barObservations = db.barObservations ∧ db'.currentBars = db.currentBars

/-- The observations that a run delivers, in order. -/
def delivered (labels : List DeliveryStep) : List RawBarObservationV2 :=
  labels.flatMap DeliveryStep.observations

/-- `db` is reached from an empty store by delivering exactly the set. -/
def Delivers (platform : CollectionPlatform κ) (canonical : Bool) (S : Finset RawBarObservationV2)
    (db : CollectionDb κ) : Prop :=
  ∃ db₀ labels, (deliverySystem platform canonical).init db₀ ∧
    (deliverySystem platform canonical).Run db₀ labels db ∧
    ∀ o, o ∈ delivered labels ↔ o ∈ S

/-- The columns that a delivery decides. -/
def shown (bar : CurrentBar) : String × BarValueColumns × Nat × Instant :=
  (bar.currentObservationId, bar.values, bar.observationCount, bar.lastObservedAt)

/-- Two projections show the same rows. -/
def RowsAgree (db db' : CollectionDb κ) : Prop :=
  ∀ identityHash,
    (db.currentBars.get? identityHash).map shown = (db'.currentBars.get? identityHash).map shown

/-- The projection shows the maximum observation of every bar of the set, the number of
observations and the latest receipt, and no other bar. -/
structure ShowsMaximum (S : Finset RawBarObservationV2) (db : CollectionDb κ) : Prop where
  maximum : ∀ o ∈ S, o.IsMaximum S → ∃ bar, db.currentBars.get? o.identityHash = some bar ∧
    bar.currentObservationId = o.observationId ∧ bar.values = o.storedValues ∧
    bar.observationCount = (o.idsOfBar S).card ∧ IsGreatest (o.receiptsOfBar S) bar.lastObservedAt
  only : ∀ identityHash bar, db.currentBars.get? identityHash = some bar →
    ∃ o ∈ S, o.identityHash = identityHash

/-! ## What a batch leaves behind -/

/-- A committed batch accepted every row and wrote what `writeObservations` says. -/
theorem appendBatch_eq_ok {platform : CollectionPlatform κ} {canonical : Bool}
    {observations : List RawBarObservationV2} {lease : LeaseToken}
    {advances : List CoverageAdvance} {now : Instant} {db db' : CollectionDb κ}
    {result : BatchResult}
    (h : appendBatch platform canonical observations lease advances now db = (.ok result, db')) :
    (∀ o ∈ uniqueObservations observations,
        o.observationRow.accepted platform.jsonbAccepts = true) ∧
      db'.barObservations = (writeObservations db
        ((uniqueObservations observations).map RawBarObservationV2.observationRow)).barObservations ∧
      db'.currentBars = (writeObservations db
        ((uniqueObservations observations).map RawBarObservationV2.observationRow)).currentBars := by
  simp only [appendBatch, Exec.transaction_eq_ok_iff, bind_eq_ok, rejectIf_eq_ok, pure_eq_ok,
    Prod.mk.injEq] at h
  obtain ⟨_, -, _, haccepted, _, -, _, -, -, hdb⟩ := h
  rw [Bool.not_eq_false, List.all_eq_true] at haccepted
  refine ⟨?_, ?_, ?_⟩
  · intro o ho
    exact haccepted _ (List.mem_map_of_mem ho)
  · rw [← hdb]
  · rw [← hdb]

theorem mem_uniqueObservations {observations : List RawBarObservationV2} {o : RawBarObservationV2}
    (h : o ∈ uniqueObservations observations) : o ∈ observations := by
  obtain ⟨id, hid⟩ := Dict.mem_values_iff.1 h
  exact (Dict.mem_of_get?_ofValues hid).1

/-- Every identifier of a batch is kept by one of its observations. -/
theorem exists_uniqueObservation {observations : List RawBarObservationV2}
    {o : RawBarObservationV2} (h : o ∈ observations) :
    ∃ o' ∈ uniqueObservations observations, o'.observationId = o.observationId := by
  obtain ⟨o', ho'⟩ := Dict.foldl_set_isSome RawBarObservationV2.observationId observations
    Dict.empty (Or.inl (List.mem_map_of_mem h))
  exact ⟨o', Dict.mem_values_iff.2 ⟨_, ho'⟩, (Dict.mem_of_get?_ofValues ho').2⟩

theorem nodup_uniqueObservations (observations : List RawBarObservationV2) :
    ((uniqueObservations observations).map RawBarObservationV2.observationId).Nodup :=
  Dict.nodup_map_values fun _ _ h => (Dict.mem_of_get?_ofValues h).2

/-- A committed batch stores a row for each of its observations. -/
theorem appendBatch_stores {platform : CollectionPlatform κ} {canonical : Bool}
    {observations : List RawBarObservationV2} {lease : LeaseToken}
    {advances : List CoverageAdvance} {now : Instant} {db db' : CollectionDb κ}
    {result : BatchResult}
    (h : appendBatch platform canonical observations lease advances now db = (.ok result, db'))
    {o : RawBarObservationV2} (ho : o ∈ observations) :
    ∃ row, db'.barObservations.get? o.observationId = some row := by
  obtain ⟨-, htable, -⟩ := appendBatch_eq_ok h
  rw [htable]
  refine Dict.foldl_set_isSome ObservationRow.observationId _ db.barObservations ?_
  -- the kept observation of this identifier is stored already or inserted now
  obtain ⟨o', ho', hid⟩ := exists_uniqueObservation ho
  cases hget : db.barObservations.get? o'.observationId with
  | some row => exact Or.inr ⟨row, hid ▸ hget⟩
  | none =>
      refine Or.inl (List.mem_map.2 ⟨o'.observationRow.stored, ?_, hid⟩)
      refine List.mem_map_of_mem (List.mem_filter.2 ⟨List.mem_map_of_mem ho', ?_⟩)
      simpa [Dict.contains, RawBarObservationV2.observationRow] using hget

/-- A committed batch moves the checkpoints as its advances say. -/
theorem appendBatch_checkpoints {platform : CollectionPlatform κ} {canonical : Bool}
    {observations : List RawBarObservationV2} {lease : LeaseToken}
    {advances : List CoverageAdvance} {now : Instant} {db db' : CollectionDb κ}
    {result : BatchResult}
    (h : appendBatch platform canonical observations lease advances now db = (.ok result, db')) :
    ∃ (written : CollectionDb κ) (advanced : Nat × Dict CheckpointKey CheckpointRow),
      written.checkpoints = db.checkpoints ∧ advanceCheckpoints written advances
        (uniqueObservations observations) lease = .ok advanced ∧
      db'.checkpoints = advanced.2 := by
  simp only [appendBatch, Exec.transaction_eq_ok_iff, bind_eq_ok, rejectIf_eq_ok, pure_eq_ok,
    Prod.mk.injEq] at h
  obtain ⟨_, -, _, -, _, -, advanced, hadvanced, -, hdb⟩ := h
  exact ⟨writeObservations db _, advanced, rfl, hadvanced, by rw [← hdb]⟩

/-- The tables hold exactly the observations delivered so far, one row for each identifier, and the
projection sums them up. -/
structure Holds (observations : List RawBarObservationV2) (db : CollectionDb κ) : Prop where
  keyed : ∀ id row, db.barObservations.get? id = some row → row.observationId = id
  known : ∀ row ∈ db.barObservations.values, ∃ o ∈ observations, row = o.observationRow.stored
  complete : ∀ o ∈ observations, ∃ row, db.barObservations.get? o.observationId = some row
  projected : ProjectionInvariant db.barObservations.values db.currentBars

theorem Holds.of_init {platform : CollectionPlatform κ} {canonical : Bool} {db : CollectionDb κ}
    (h : (deliverySystem platform canonical).init db) : Holds [] db := by
  obtain ⟨htable, hbars⟩ := h
  refine ⟨?_, ?_, ?_, ?_⟩
  · intro id row hrow
    rw [htable] at hrow
    simp at hrow
  · intro row hrow
    rw [htable] at hrow
    cases hrow
  · intro o ho
    cases ho
  · intro identityHash
    rw [hbars, htable]
    rfl

/-- A committed batch adds the rows it inserts to the stored observations. -/
theorem appendBatch_values {platform : CollectionPlatform κ} {canonical : Bool}
    {observations : List RawBarObservationV2} {lease : LeaseToken}
    {advances : List CoverageAdvance} {now : Instant} {db db' : CollectionDb κ}
    {result : BatchResult}
    (h : appendBatch platform canonical observations lease advances now db = (.ok result, db')) :
    db'.barObservations.values = db.barObservations.values ++ (insertedRows db
      ((uniqueObservations observations).map RawBarObservationV2.observationRow)).map
        ObservationRow.stored := by
  obtain ⟨-, htable, -⟩ := appendBatch_eq_ok h
  rw [htable]
  refine Dict.foldl_set_values ObservationRow.observationId _ db.barObservations ?_ ?_
  · rw [List.map_map]
    refine List.Nodup.sublist (List.Sublist.map _ (List.filter_sublist)) ?_
    rw [List.map_map]
    exact nodup_uniqueObservations observations
  · intro row hrow
    obtain ⟨raw, hraw, rfl⟩ := List.mem_map.1 hrow
    rw [ObservationRow.stored_observationId]
    exact insertedRows_new hraw

theorem Holds.batch {platform : CollectionPlatform κ} {canonical : Bool}
    {before observations : List RawBarObservationV2} {lease : LeaseToken}
    {advances : List CoverageAdvance} {now : Instant} {db db' : CollectionDb κ}
    {result : BatchResult} (hholds : Holds before db)
    (h : appendBatch platform canonical observations lease advances now db = (.ok result, db')) :
    Holds (before ++ observations) db' := by
  obtain ⟨-, htable, hbars⟩ := appendBatch_eq_ok h
  have hvalues := appendBatch_values h
  refine ⟨?_, ?_, ?_, ?_⟩
  · intro id row hrow
    rw [htable] at hrow
    exact Dict.foldl_set_key ObservationRow.observationId _ db.barObservations hholds.keyed hrow
  · intro row hrow
    rw [hvalues] at hrow
    rcases List.mem_append.1 hrow with hold | hnew
    · obtain ⟨o, ho, rfl⟩ := hholds.known row hold
      exact ⟨o, List.mem_append_left _ ho, rfl⟩
    · obtain ⟨raw, hraw, rfl⟩ := List.mem_map.1 hnew
      obtain ⟨o, ho, rfl⟩ := List.mem_map.1 (List.mem_filter.1 hraw).1
      exact ⟨o, List.mem_append_right _ (mem_uniqueObservations ho), rfl⟩
  · intro o ho
    rcases List.mem_append.1 ho with hold | hnew
    · obtain ⟨row, hrow⟩ := hholds.complete o hold
      exact ⟨row, htable ▸ writeObservations_get? hrow⟩
    · exact appendBatch_stores h hnew
  · rw [hvalues, hbars]
    exact projectionInvariant_upsert hholds.projected

theorem Holds.run {platform : CollectionPlatform κ} {canonical : Bool} {db₀ db : CollectionDb κ}
    {labels : List DeliveryStep} (hinit : (deliverySystem platform canonical).init db₀)
    (hrun : (deliverySystem platform canonical).Run db₀ labels db) : Holds (delivered labels) db := by
  induction hrun with
  | refl => exact Holds.of_init hinit
  | @snoc labels t u label _ hstep ih =>
      rw [delivered, List.flatMap_append, List.flatMap_singleton]
      cases label with
      | batch observations =>
          obtain ⟨lease, advances, now, result, happend⟩ := hstep
          exact ih.batch happend
      | other =>
          obtain ⟨htable, hbars⟩ := hstep
          rw [DeliveryStep.observations, List.append_nil]
          exact ⟨htable ▸ ih.keyed, htable ▸ ih.known, htable ▸ ih.complete,
            htable ▸ hbars ▸ ih.projected⟩

/-! ## Sufficiency -/

section Shown

variable {S : Finset RawBarObservationV2} {observations : List RawBarObservationV2}
  {db : CollectionDb κ}

/-- The stored rows of a bar come from observations of that bar. -/
theorem Holds.rowOfBar (hholds : Holds observations db) (hS : ∀ o, o ∈ observations ↔ o ∈ S)
    (hH : Set.InjOn sha256Hex (RawBarObservationV2.hashedOf S)) {o : RawBarObservationV2} (ho : o ∈ S)
    {row : ObservationRow} (hrow : row ∈ rowsOf db.barObservations.values o.identityHash) :
    ∃ o' ∈ S, o'.bar.identityKey = o.bar.identityKey ∧ row = o'.observationRow.stored := by
  obtain ⟨hmem, hhash⟩ := mem_rowsOf.1 hrow
  obtain ⟨o', ho', rfl⟩ := hholds.known row hmem
  have hin : o' ∈ S := (hS o').1 ho'
  have hkey := RawBarObservationV2.identityKey_of_identityHash hH
    (RawBarObservationV2.hashed_subset hin) (RawBarObservationV2.hashed_subset ho) hhash
  exact ⟨o', hin, hkey, rfl⟩

/-- Each observation of a bar is represented among the stored rows of that bar. -/
theorem Holds.rowOfObservation (hholds : Holds observations db)
    (hS : ∀ o, o ∈ observations ↔ o ∈ S)
    (hH : Set.InjOn sha256Hex (RawBarObservationV2.hashedOf S)) {o : RawBarObservationV2}
    (ho : o ∈ S) :
    ∃ o' ∈ S, o'.SameDelivery o ∧ o'.observationId = o.observationId ∧
      o'.observationRow.stored ∈ rowsOf db.barObservations.values o.identityHash := by
  obtain ⟨row, hrow⟩ := hholds.complete o ((hS o).2 ho)
  have hmem : row ∈ db.barObservations.values := Dict.mem_values_iff.2 ⟨_, hrow⟩
  obtain ⟨o', ho', rfl⟩ := hholds.known row hmem
  have hin : o' ∈ S := (hS o').1 ho'
  have hid : o'.observationId = o.observationId := hholds.keyed _ _ hrow
  have hsame := RawBarObservationV2.sameDelivery_of_observationId hH
    (RawBarObservationV2.hashed_subset hin) (RawBarObservationV2.hashed_subset ho) hid
  exact ⟨o', hin, hsame, hid, mem_rowsOf.2 ⟨hmem, hsame.identityHash⟩⟩

/-- The stored rows of a bar are as many as the identifiers that report it. -/
theorem Holds.length_rowsOf (hholds : Holds observations db) (hS : ∀ o, o ∈ observations ↔ o ∈ S)
    (hH : Set.InjOn sha256Hex (RawBarObservationV2.hashedOf S)) {o : RawBarObservationV2}
    (ho : o ∈ S) :
    (rowsOf db.barObservations.values o.identityHash).length = (o.idsOfBar S).card := by
  have hnodup : ((rowsOf db.barObservations.values o.identityHash).map
      ObservationRow.observationId).Nodup := by
    refine List.Nodup.sublist (List.Sublist.map _ List.filter_sublist) ?_
    exact Dict.nodup_map_values hholds.keyed
  rw [← List.length_map (f := ObservationRow.observationId), ← List.toFinset_card_of_nodup hnodup]
  congr 1
  ext id
  simp only [List.mem_toFinset, List.mem_map, RawBarObservationV2.idsOfBar, Finset.mem_image,
    Finset.mem_filter]
  constructor
  · rintro ⟨row, hrow, rfl⟩
    obtain ⟨o', ho', hkey, rfl⟩ := hholds.rowOfBar hS hH ho hrow
    exact ⟨o', ⟨ho', hkey⟩, rfl⟩
  · rintro ⟨o', ⟨ho', hkey⟩, rfl⟩
    obtain ⟨o'', -, -, hid, hrow⟩ := hholds.rowOfObservation hS hH ho'
    rw [RawBarObservationV2.identityHash_of_identityKey hkey] at hrow
    exact ⟨_, hrow, hid⟩

/-- The row of a maximum observation: it stores an observation with the same identifier. -/
theorem Holds.showsTie (hholds : Holds observations db) (hS : ∀ o, o ∈ observations ↔ o ∈ S)
    (hH : Set.InjOn sha256Hex (RawBarObservationV2.hashedOf S)) {o : RawBarObservationV2}
    (ho : o ∈ S) (hmax : o.IsMaximum S) :
    ∃ bar, db.currentBars.get? o.identityHash = some bar ∧
      bar.currentObservationId = o.observationId ∧
      (∃ w ∈ S, w.SameDelivery o ∧ w.observationId = o.observationId ∧
        w.observationRow.stored ∈ db.barObservations.values ∧ bar.values = w.storedValues) ∧
      bar.observationCount = (o.idsOfBar S).card ∧
      IsGreatest (o.receiptsOfBar S) bar.lastObservedAt := by
  obtain ⟨o', ho', hsame, hid, hrow⟩ := hholds.rowOfObservation hS hH ho
  have hinvariant := hholds.projected o.identityHash
  cases hbar : db.currentBars.get? o.identityHash with
  | none =>
      rw [hbar] at hinvariant
      rw [show rowsOf _ _ = [] from hinvariant] at hrow
      cases hrow
  | some bar =>
      rw [hbar] at hinvariant
      have hprojects : Projects (rowsOf db.barObservations.values o.identityHash) bar := hinvariant
      obtain ⟨row, hlatest, hwid, hwvalues⟩ := hprojects.winner
      obtain ⟨w, hw, hwkey, rfl⟩ := hholds.rowOfBar hS hH ho hlatest.1
      -- the winner outranks the stored row of `o`, and `o` outranks the winner
      have hrank : w.rank = o.rank := by
        refine le_antisymm (hmax w hw hwkey) ?_
        rw [← hsame.rank_eq hid]
        exact hlatest.2 _ hrow
      have hwo : w.observationId = o.observationId :=
        RawBarObservationV2.observationId_of_rank hrank
      have hwsame := RawBarObservationV2.sameDelivery_of_observationId hH
        (RawBarObservationV2.hashed_subset hw) (RawBarObservationV2.hashed_subset ho) hwo
      refine ⟨bar, rfl, hwid.trans hwo, ⟨w, hw, hwsame, hwo, (mem_rowsOf.1 hlatest.1).1, hwvalues⟩,
        ?_, ?_, ?_⟩
      · rw [hprojects.count, hholds.length_rowsOf hS hH ho]
      · obtain ⟨r, hr, hreceipt⟩ := hprojects.attained
        obtain ⟨p, hp, hpkey, rfl⟩ := hholds.rowOfBar hS hH ho hr
        exact ⟨p, hp, hpkey, hreceipt⟩
      · rintro t ⟨p, hp, hpkey, rfl⟩
        obtain ⟨p', -, hpsame, -, hprow⟩ := hholds.rowOfObservation hS hH hp
        rw [RawBarObservationV2.identityHash_of_identityKey hpkey] at hprow
        rw [← hpsame.receipt]
        exact hprojects.bound _ hprow

/-- A delivery shows the maximum observations when those that tie store the same prices. -/
theorem Holds.showsMaximum (hholds : Holds observations db) (hS : ∀ o, o ∈ observations ↔ o ∈ S)
    (hH : Set.InjOn sha256Hex (RawBarObservationV2.hashedOf S))
    (hties : RawBarObservationV2.TiesAgree S) : ShowsMaximum S db := by
  refine ⟨?_, ?_⟩
  · intro o ho hmax
    obtain ⟨bar, hbar, hid, ⟨w, hw, hsame, hwid, -, hvalues⟩, hcount, hlast⟩ :=
      hholds.showsTie hS hH ho hmax
    have hprices : o.storedPrices = w.storedPrices := hties o ho w hw hmax hwid.symm
    refine ⟨bar, hbar, hid, ?_, hcount, hlast⟩
    rw [hvalues]
    exact hsame.storedValues_eq hprices.symm
  · intro identityHash bar hbar
    have hinvariant := hholds.projected identityHash
    rw [hbar] at hinvariant
    have hprojects : Projects (rowsOf db.barObservations.values identityHash) bar := hinvariant
    obtain ⟨row, hlatest, -⟩ := hprojects.winner
    obtain ⟨hmem, hhash⟩ := mem_rowsOf.1 hlatest.1
    obtain ⟨o, ho, rfl⟩ := hholds.known row hmem
    exact ⟨o, (hS o).1 ho, hhash⟩

end Shown

/-- Every bar of a finite set has a maximum observation. -/
theorem exists_isMaximum {S : Finset RawBarObservationV2} {o : RawBarObservationV2} (ho : o ∈ S) :
    ∃ m ∈ S, m.bar.identityKey = o.bar.identityKey ∧ m.IsMaximum S := by
  obtain ⟨m, hm, hmax⟩ := Finset.exists_max_image
    (S.filter fun o' => o'.bar.identityKey = o.bar.identityKey) RawBarObservationV2.rank
    ⟨o, Finset.mem_filter.2 ⟨ho, rfl⟩⟩
  obtain ⟨hmS, hkey⟩ := Finset.mem_filter.1 hm
  refine ⟨m, hmS, hkey, ?_⟩
  intro o' ho' hkey'
  exact hmax o' (Finset.mem_filter.2 ⟨ho', hkey'.trans hkey⟩)

/-- Two projections that show the maximum of every bar show the same rows. -/
theorem ShowsMaximum.rowsAgree {S : Finset RawBarObservationV2} {db db' : CollectionDb κ}
    (h : ShowsMaximum S db) (h' : ShowsMaximum S db') : RowsAgree db db' := by
  intro identityHash
  by_cases hany : ∃ o ∈ S, o.identityHash = identityHash
  · obtain ⟨o, ho, rfl⟩ := hany
    obtain ⟨m, hm, hkey, hmax⟩ := exists_isMaximum ho
    rw [← RawBarObservationV2.identityHash_of_identityKey hkey]
    obtain ⟨bar, hbar, hid, hvalues, hcount, hlast⟩ := h.maximum m hm hmax
    obtain ⟨bar', hbar', hid', hvalues', hcount', hlast'⟩ := h'.maximum m hm hmax
    simp only [hbar, hbar', Option.map_some, shown, hid, hid', hvalues, hvalues', hcount, hcount',
      hlast.unique hlast']
  · have hnone : ∀ {e : CollectionDb κ}, ShowsMaximum S e → e.currentBars.get? identityHash = none := by
      intro e he
      rw [Option.eq_none_iff_forall_ne_some]
      intro bar hbar
      exact hany (he.only identityHash bar hbar)
    rw [hnone h, hnone h']

/-! ## Necessity -/

/-- A batch without coverage commits in a plain repository once its lease and its rows pass. -/
theorem appendBatch_plain {platform : CollectionPlatform κ} {observations : List RawBarObservationV2}
    {lease : LeaseToken} {now : Instant} {db : CollectionDb κ}
    (hlease : verifyLease db lease now = .ok ())
    (haccepted : ∀ o ∈ uniqueObservations observations,
      o.observationRow.accepted platform.jsonbAccepts = true) :
    ∃ result, appendBatch platform false observations lease [] now db = (.ok result,
      writeObservations db
        ((uniqueObservations observations).map RawBarObservationV2.observationRow)) := by
  have hrows : ((uniqueObservations observations).map RawBarObservationV2.observationRow).all
      (ObservationRow.accepted platform.jsonbAccepts) = true := by
    rw [List.all_eq_true]
    intro row hrow
    obtain ⟨o, ho, rfl⟩ := List.mem_map.1 hrow
    exact haccepted o ho
  have hadvance : ∀ written : CollectionDb κ, advanceCheckpoints written []
      (uniqueObservations observations) lease = .ok (0, written.checkpoints) := fun _ => rfl
  have hmirror : ∀ written : CollectionDb κ, ∀ identities,
      mirrorSelected platform false written identities [] = .ok written.canonical := fun _ _ => rfl
  have hcheck : rejectIf (((uniqueObservations observations).map
      RawBarObservationV2.observationRow).all (ObservationRow.accepted platform.jsonbAccepts) = false)
      (PlatformError.sqlIntegrity "bar_observations") = .ok () := by
    rw [rejectIf_eq_ok, hrows]
    decide
  refine ⟨batchResult db observations.length (insertedRows db
    ((uniqueObservations observations).map RawBarObservationV2.observationRow)) 0, ?_⟩
  simp only [appendBatch, Exec.transaction, hlease, hcheck, hmirror, hadvance]
  rfl

/-- Of two observations with one identifier a batch keeps the later. -/
theorem uniqueObservations_pair {a b : RawBarObservationV2}
    (h : a.observationId = b.observationId) : uniqueObservations [a, b] = [b] := by
  simp [uniqueObservations, Dict.ofValues, Dict.set, Dict.assign, Dict.values, Dict.empty, h]

/-- Batches of two observations with one identifier, the second of them accepted. -/
def pairBatches (pairs : List (RawBarObservationV2 × RawBarObservationV2)) : List DeliveryStep :=
  pairs.map fun pair => .batch [pair.1, pair.2]

omit [ContentHasher] in
theorem mem_delivered_pairBatches {pairs : List (RawBarObservationV2 × RawBarObservationV2)}
    {o : RawBarObservationV2} :
    o ∈ delivered (pairBatches pairs) ↔ ∃ pair ∈ pairs, o = pair.1 ∨ o = pair.2 := by
  simp [delivered, pairBatches, DeliveryStep.observations, List.mem_flatMap]

/-- Such batches all commit while the lease lives, and keep the rows stored before. -/
theorem exists_run_pairBatches {platform : CollectionPlatform κ} {lease : LeaseToken} {now : Instant}
    (pairs : List (RawBarObservationV2 × RawBarObservationV2))
    (hpairs : ∀ pair ∈ pairs, pair.1.observationId = pair.2.observationId ∧
      pair.2.observationRow.accepted platform.jsonbAccepts = true)
    (db : CollectionDb κ) (hlease : verifyLease db lease now = .ok ()) :
    ∃ db', (deliverySystem platform false).Run db (pairBatches pairs) db' ∧
      ∀ id row, db.barObservations.get? id = some row → db'.barObservations.get? id = some row := by
  induction pairs generalizing db with
  | nil => exact ⟨db, Transition.Run.refl, fun _ _ h => h⟩
  | cons pair rest ih =>
      obtain ⟨hid, haccepted⟩ := hpairs pair List.mem_cons_self
      have hunique := uniqueObservations_pair hid
      obtain ⟨result, happend⟩ := @appendBatch_plain _ _ platform
        [pair.1, pair.2] _ _ _ hlease (by
          intro o ho
          rw [hunique, List.mem_singleton] at ho
          exact ho ▸ haccepted)
      obtain ⟨db', hrun, hkeep⟩ := ih (fun p hp => hpairs p (List.mem_cons_of_mem _ hp))
        (writeObservations db ((uniqueObservations [pair.1, pair.2]).map
          RawBarObservationV2.observationRow)) hlease
      refine ⟨db', ?_, fun id row h => hkeep id row (writeObservations_get? h)⟩
      have hstep : (deliverySystem platform false).step db (.batch [pair.1, pair.2])
          (writeObservations db ((uniqueObservations [pair.1, pair.2]).map
            RawBarObservationV2.observationRow)) := ⟨lease, [], now, result, happend⟩
      exact (Transition.Run.single hstep).trans hrun

/-- An empty store whose collector lease is held. -/
def emptyStore (canonical : κ) : CollectionDb κ where
  leases := Dict.empty.set "market-data-collector.v1" ⟨"holder", 1, seconds 90⟩
  barObservations := Dict.empty
  currentBars := Dict.empty
  checkpoints := Dict.empty
  canonical := canonical

def emptyStoreLease : LeaseToken := ⟨"market-data-collector.v1", "holder", 1, seconds 90⟩

omit [ContentHasher] in
theorem verifyLease_emptyStore (canonical : κ) :
    verifyLease (emptyStore canonical) emptyStoreLease 0 = .ok () := by
  rw [verifyLease, rejectIf_eq_ok, emptyStore, emptyStoreLease, Dict.get?_set_self]
  decide

/-- A set of storable observations can be delivered, and any accepted one of them first. -/
theorem exists_delivers (platform : CollectionPlatform κ) (canonical : κ)
    {S : Finset RawBarObservationV2}
    (hstorable : ∀ o ∈ S, RawBarObservationV2.Storable platform.jsonbAccepts S o)
    {first : RawBarObservationV2} (hfirst : first ∈ S)
    (haccepted : first.observationRow.accepted platform.jsonbAccepts = true) :
    ∃ db, Delivers platform false S db ∧
      db.barObservations.get? first.observationId = some first.observationRow.stored := by
  choose! kept hkept hid hok using hstorable
  have hlease := verifyLease_emptyStore (κ := κ) canonical
  have hunique : uniqueObservations [first, first] = [first] := uniqueObservations_pair rfl
  obtain ⟨result, happend⟩ := @appendBatch_plain _ _ platform
    [first, first] _ _ _ hlease (by
      intro o ho
      rw [hunique, List.mem_singleton] at ho
      exact ho ▸ haccepted)
  have hstored : (writeObservations (emptyStore canonical)
      ((uniqueObservations [first, first]).map RawBarObservationV2.observationRow)
      ).barObservations.get? first.observationId = some first.observationRow.stored := by
    rw [hunique]
    exact Dict.get?_set_self _ _ _
  obtain ⟨db, hrun, hkeep⟩ := @exists_run_pairBatches _ _ platform _ _
    (S.toList.map fun o => (o, kept o)) (by
      intro pair hpair
      obtain ⟨o, ho, rfl⟩ := List.mem_map.1 hpair
      have hoS : o ∈ S := Finset.mem_toList.1 ho
      exact ⟨(hid o hoS).symm, hok o hoS⟩)
    (writeObservations (emptyStore canonical)
      ((uniqueObservations [first, first]).map RawBarObservationV2.observationRow)) hlease
  have hstep : (deliverySystem platform false).step (emptyStore canonical) (.batch [first, first])
      (writeObservations (emptyStore canonical)
        ((uniqueObservations [first, first]).map RawBarObservationV2.observationRow)) :=
    ⟨emptyStoreLease, [], 0, result, happend⟩
  refine ⟨db, ⟨emptyStore canonical, _, ⟨rfl, rfl⟩, (Transition.Run.single hstep).trans hrun, ?_⟩,
    hkeep _ _ hstored⟩
  intro o
  rw [delivered, List.flatMap_append, List.mem_append]
  change o ∈ [first, first] ++ [] ∨ o ∈ delivered (pairBatches _) ↔ o ∈ S
  rw [mem_delivered_pairBatches]
  constructor
  · rintro (hhead | ⟨pair, hpair, hcase⟩)
    · have hof : o = first := by simpa using hhead
      exact hof ▸ hfirst
    · obtain ⟨o', ho', rfl⟩ := List.mem_map.1 hpair
      have hoS : o' ∈ S := Finset.mem_toList.1 ho'
      rcases hcase with rfl | rfl
      · exact hoS
      · exact hkept o' hoS
  · intro ho
    exact Or.inr ⟨(o, kept o), List.mem_map_of_mem (Finset.mem_toList.2 ho), Or.inl rfl⟩

/-- What is delivered is storable. -/
theorem Delivers.storable {platform : CollectionPlatform κ} {canonical : Bool}
    {S : Finset RawBarObservationV2} {db : CollectionDb κ} (h : Delivers platform canonical S db) :
    ∀ o ∈ S, RawBarObservationV2.Storable platform.jsonbAccepts S o := by
  obtain ⟨db₀, labels, -, hrun, hS⟩ := h
  have hall : ∀ o ∈ delivered labels, ∃ o' ∈ delivered labels,
      o'.observationId = o.observationId ∧
        o'.observationRow.accepted platform.jsonbAccepts = true := by
    clear hS
    induction hrun with
    | refl =>
        intro o ho
        cases ho
    | @snoc labels t u label _ hstep ih =>
        intro o ho
        rw [delivered, List.flatMap_append, List.flatMap_singleton] at ho ⊢
        rcases List.mem_append.1 ho with hold | hnew
        · obtain ⟨o', ho', hboth⟩ := ih o hold
          exact ⟨o', List.mem_append_left _ ho', hboth⟩
        · cases label with
          | other => cases hnew
          | batch observations =>
              obtain ⟨lease, advances, now, result, happend⟩ := hstep
              obtain ⟨o', ho', hid⟩ := exists_uniqueObservation hnew
              exact ⟨o', List.mem_append_right _ (mem_uniqueObservations ho'), hid,
                (appendBatch_eq_ok happend).1 o' ho'⟩
  intro o ho
  obtain ⟨o', ho', hid, hok⟩ := hall o ((hS o).2 ho)
  exact ⟨o', (hS o').1 ho', hid, hok⟩

/-! ## Convergence -/

/-- However the set is delivered, to a plain or a canonical repository, the projection shows the
maximum of every bar, and any two deliveries show the same rows. -/
def Converges (κ : Type) (jsonbAccepts : String → Bool) (S : Finset RawBarObservationV2) : Prop :=
  ∀ (platform : CollectionPlatform κ), platform.jsonbAccepts = jsonbAccepts →
    ∀ canonical db, Delivers platform canonical S db →
      ShowsMaximum S db ∧ ∀ db', Delivers platform canonical S db' → RowsAgree db db'

theorem Delivers.showsMaximum {platform : CollectionPlatform κ} {canonical : Bool}
    {S : Finset RawBarObservationV2} {db : CollectionDb κ} (h : Delivers platform canonical S db)
    (hH : Set.InjOn sha256Hex (RawBarObservationV2.hashedOf S))
    (hties : RawBarObservationV2.TiesAgree S) : ShowsMaximum S db := by
  obtain ⟨db₀, labels, hinit, hrun, hS⟩ := h
  exact (Holds.run hinit hrun).showsMaximum hS hH hties

/-- If no two of the values hashed for a set have the same hash, its projection converges exactly
when, provided each of its observations is storable, those that tie for a maximum store the same
prices. -/
theorem projection_converges_iff (κ : Type) [Inhabited κ] (jsonbAccepts : String → Bool)
    (S : Finset RawBarObservationV2) (hH : Set.InjOn sha256Hex (RawBarObservationV2.hashedOf S)) :
    Converges κ jsonbAccepts S ↔
      ((∀ o ∈ S, RawBarObservationV2.Storable jsonbAccepts S o) →
        RawBarObservationV2.TiesAgree S) := by
  constructor
  · intro hconverges hstorable a ha b hb hmax hid
    have hsame := RawBarObservationV2.sameDelivery_of_observationId hH
      (RawBarObservationV2.hashed_subset ha) (RawBarObservationV2.hashed_subset hb) hid
    have hmaxb : RawBarObservationV2.IsMaximum S b := by
      intro o ho hkey
      rw [← hsame.rank_eq hid]
      exact hmax o ho (hkey.trans hsame.identity.symm)
    obtain ⟨kept, hkept, -, hok⟩ := hstorable a ha
    let platform : CollectionPlatform κ := ⟨jsonbAccepts, fun db _ _ => .ok db.canonical⟩
    obtain ⟨db, hdelivers, -⟩ := exists_delivers platform default hstorable hkept hok
    have hshows := (hconverges platform rfl false db hdelivers).1
    -- both observations are maxima of the same bar, so its row shows both
    obtain ⟨bar, hbar, -, hvalues, -⟩ := hshows.maximum a ha hmax
    obtain ⟨bar', hbar', -, hvalues', -⟩ := hshows.maximum b hb hmaxb
    have hbars : bar = bar' := by
      rw [hsame.identityHash, hbar'] at hbar
      exact (Option.some.inj hbar).symm
    subst hbars
    have hstored : a.storedValues = b.storedValues := hvalues.symm.trans hvalues'
    simp only [RawBarObservationV2.storedPrices, hstored]
  · rintro hties platform rfl canonical db hdelivers
    have hagree := hties hdelivers.storable
    refine ⟨hdelivers.showsMaximum hH hagree, ?_⟩
    intro db' hdelivers'
    exact (hdelivers.showsMaximum hH hagree).rowsAgree (hdelivers'.showsMaximum hH hagree)

/-- The first accepted observation of a tie decides the row. -/
theorem Delivers.showsFirst {platform : CollectionPlatform κ} {canonical : Bool}
    {S : Finset RawBarObservationV2} {db : CollectionDb κ} (h : Delivers platform canonical S db)
    (hH : Set.InjOn sha256Hex (RawBarObservationV2.hashedOf S)) {first : RawBarObservationV2}
    (hfirst : first ∈ S) (hmax : first.IsMaximum S)
    (hstored : db.barObservations.get? first.observationId = some first.observationRow.stored) :
    ∃ bar, db.currentBars.get? first.identityHash = some bar ∧ bar.values = first.storedValues := by
  obtain ⟨db₀, labels, hinit, hrun, hS⟩ := h
  have hholds := Holds.run hinit hrun
  obtain ⟨bar, hbar, -, ⟨w, -, -, hid, hmem, hvalues⟩, -⟩ := hholds.showsTie hS hH hfirst hmax
  have hget : db.barObservations.get? first.observationId = some w.observationRow.stored := by
    obtain ⟨id, hrow⟩ := Dict.mem_values_iff.1 hmem
    have hkey : w.observationId = id := hholds.keyed id _ hrow
    rw [← hid, hkey]
    exact hrow
  have hsame : first.observationRow.stored = w.observationRow.stored :=
    Option.some.inj (hstored.symm.trans hget)
  refine ⟨bar, hbar, hvalues.trans ?_⟩
  exact congrArg ObservationRow.values hsame.symm

end Hashed

/-! ## Two observations that tie -/

/-- A price of 14 digits, and one of 33 digits that is printed like it. -/
def shortPrice : ℚ := 10000000000005 / 10 ^ 13

def longPrice : ℚ := 100000000000049999999999999999999 / 10 ^ 32

theorem lastDigitExponent_of_unit {q : ℚ} (hlow : 1 ≤ q) (hhigh : q < 10) :
    lastDigitExponent q = -27 := by
  have hfloor : ⌊q⌋₊ < 10 := by
    rw [Nat.floor_lt (by linarith)]
    exact_mod_cast hhigh
  have hlog : Int.log 10 |q| = 0 := by
    rw [abs_of_nonneg (by linarith), Int.log_of_one_le_right 10 hlow, Nat.log_of_lt hfloor]
    rfl
  rw [lastDigitExponent, hlog]
  rfl

theorem normalizedText_shortPrice : normalizedText shortPrice = shortPrice := by
  refine @normalizedText_eq_self _ 1000000000000500000000000000 ?_
  rw [lastDigitExponent_of_unit (by norm_num [shortPrice]) (by norm_num [shortPrice])]
  norm_num [shortPrice]

theorem normalizedText_longPrice : normalizedText longPrice = shortPrice := by
  have hexponent : lastDigitExponent longPrice = -27 :=
    lastDigitExponent_of_unit (by norm_num [longPrice]) (by norm_num [longPrice])
  have hfloor : ⌊longPrice / (10 : ℚ) ^ (-27 : ℤ)⌋ = 1000000000000499999999999999 := by
    rw [Int.floor_eq_iff]
    norm_num [longPrice]
  have hround : roundHalfEven (longPrice / (10 : ℚ) ^ (-27 : ℤ)) =
      1000000000000500000000000000 := by
    unfold roundHalfEven
    rw [hfloor]
    norm_num [longPrice]
  rw [normalizedText, if_neg (by norm_num [longPrice]), hexponent, hround]
  norm_num [shortPrice]

/-- A bar that opens at the given price. -/
def tieBarFields (price : ℚ) : MarketBarV1Fields where
  provider := "alpaca"
  feed := "IEX"
  adjustment := "raw"
  symbol := "AAPL"
  timeframe := "1m"
  barTimestampUtc := 0
  receiptTimestampUtc := seconds 60
  openPrice := price
  high := 2
  low := 1
  close := 1
  volume := 100
  tradeCount := none
  vwap := none
  providerEventTimestampUtc := none
  qualityFlags := []
  source := "iex_bar"

def tieFields (bar : MarketBarV1) : RawBarObservationV2Fields where
  bar := bar
  isCorrection := false
  providerEventId := none
  rawPayloadSha256 := none
  rawPayloadJson := none

def shortObservation : RawBarObservationV2 :=
  ⟨tieFields ⟨tieBarFields shortPrice, by decide +kernel⟩, by decide +kernel⟩

def longObservation : RawBarObservationV2 :=
  ⟨tieFields ⟨tieBarFields longPrice, by decide +kernel⟩, by decide +kernel⟩

def tieSet : Finset RawBarObservationV2 := {shortObservation, longObservation}

section Sample

local instance tieHasher : ContentHasher := polynomialHasher

/-- The identity payload of both observations. -/
def tieIdentity : Canonical := shortObservation.bar.identityPayload

/-- The content payload of both observations, with the prices as printed. -/
def tieContent : Canonical :=
  .mapping [
    ("close", .decimal 1),
    ("high", .decimal 2),
    ("identity_hash", .text (sha256Hex tieIdentity)),
    ("low", .decimal 1),
    ("open", .decimal shortPrice),
    ("provider_event_timestamp_utc", .null),
    ("trade_count", .null),
    ("volume", .int 100),
    ("vwap", .null)]

/-- The delivery payload of both observations. -/
def tieDelivery : Canonical :=
  .mapping [
    ("bar_content_hash", .text (sha256Hex tieContent)),
    ("bar_identity_hash", .text (sha256Hex tieIdentity)),
    ("is_correction", .bool false),
    ("provider_event_id", .null),
    ("quality_flags", .texts []),
    ("raw_payload_sha256", .null),
    ("receipt_timestamp_utc", .instant (seconds 60)),
    ("schema_version", .text "raw-bar-observation.v2"),
    ("source", .text "iex_bar")]

theorem normalizedText_natCast_of_lt_ten {n : Nat} (hpos : 1 ≤ n) (hlt : n < 10) :
    normalizedText n = n := by
  refine @normalizedText_eq_self _ (n * 10 ^ 27) ?_
  rw [lastDigitExponent_of_unit (by exact_mod_cast hpos) (by exact_mod_cast hlt)]
  push_cast
  field_simp
  norm_num

theorem tieContent_eq {price : ℚ} (hprice : normalizedText price = shortPrice) :
    (tieBarFields price).contentPayload = tieContent := by
  have hone : normalizedText 1 = 1 := by
    exact_mod_cast normalizedText_natCast_of_lt_ten (n := 1) (by decide) (by decide)
  have htwo : normalizedText 2 = 2 := by
    exact_mod_cast normalizedText_natCast_of_lt_ten (n := 2) (by decide) (by decide)
  simp only [MarketBarV1Fields.contentPayload, tieBarFields, hprice, hone, htwo]
  rfl

theorem shortObservation_contentPayload : shortObservation.bar.contentPayload = tieContent :=
  tieContent_eq normalizedText_shortPrice

theorem longObservation_contentPayload : longObservation.bar.contentPayload = tieContent :=
  tieContent_eq normalizedText_longPrice

theorem shortObservation_idPayload : shortObservation.idPayload = tieDelivery := by
  simp only [RawBarObservationV2.idPayload, RawBarObservationV2.contentHash,
    MarketBarV1Fields.contentHash, shortObservation_contentPayload]
  rfl

theorem longObservation_idPayload : longObservation.idPayload = tieDelivery := by
  simp only [RawBarObservationV2.idPayload, RawBarObservationV2.contentHash,
    MarketBarV1Fields.contentHash, longObservation_contentPayload]
  rfl

theorem hashedOf_tieSet :
    RawBarObservationV2.hashedOf tieSet = {tieIdentity, tieContent, tieDelivery} := by
  have hshort : shortObservation.hashed = {tieIdentity, tieContent, tieDelivery} := by
    rw [RawBarObservationV2.hashed, shortObservation_contentPayload, shortObservation_idPayload]
    rfl
  have hlong : longObservation.hashed = {tieIdentity, tieContent, tieDelivery} := by
    rw [RawBarObservationV2.hashed, longObservation_contentPayload, longObservation_idPayload]
    rfl
  rw [RawBarObservationV2.hashedOf, tieSet, Finset.set_biUnion_insert,
    Finset.set_biUnion_singleton, hshort, hlong, Set.union_self]

/-- Any batch may hold a raw payload; the canonical tables are left alone. -/
def tiePlatform : CollectionPlatform Unit := ⟨fun _ => true, fun _ _ _ => .ok ()⟩

/-- The three payloads have different digests, both observations are accepted, and they store
different opening prices. -/
theorem tie_facts : (sha256Hex tieIdentity ≠ sha256Hex tieContent ∧
      sha256Hex tieIdentity ≠ sha256Hex tieDelivery ∧
      sha256Hex tieContent ≠ sha256Hex tieDelivery) ∧
    (shortObservation.observationRow.accepted tiePlatform.jsonbAccepts = true ∧
      longObservation.observationRow.accepted tiePlatform.jsonbAccepts = true) ∧
    numeric28Scale12 shortPrice ≠ numeric28Scale12 longPrice := by
  decide +kernel

theorem injOn_hashedOf_tieSet : Set.InjOn sha256Hex (RawBarObservationV2.hashedOf tieSet) := by
  obtain ⟨hic, hid, hcd⟩ := tie_facts.1
  rw [hashedOf_tieSet]
  rintro a (rfl | rfl | rfl) b (rfl | rfl | rfl) h
  · rfl
  · exact absurd h hic
  · exact absurd h hid
  · exact absurd h.symm hic
  · rfl
  · exact absurd h hcd
  · exact absurd h.symm hid
  · exact absurd h.symm hcd
  · rfl

theorem observationId_tie : shortObservation.observationId = longObservation.observationId :=
  congrArg sha256Hex (shortObservation_idPayload.trans longObservation_idPayload.symm)

theorem storedPrices_tie : shortObservation.storedPrices ≠ longObservation.storedPrices := by
  intro h
  have hopen : numeric28Scale12 shortPrice = numeric28Scale12 longPrice := congrArg Prod.fst h
  exact absurd hopen tie_facts.2.2

theorem isMaximum_tie {o : RawBarObservationV2} (ho : o ∈ tieSet) : o.IsMaximum tieSet := by
  have hsame := RawBarObservationV2.sameDelivery_of_observationId injOn_hashedOf_tieSet
    (RawBarObservationV2.hashed_subset (Finset.mem_insert_self _ _))
    (RawBarObservationV2.hashed_subset
      (Finset.mem_insert_of_mem (Finset.mem_singleton_self longObservation))) observationId_tie
  have hrank : shortObservation.rank = longObservation.rank := hsame.rank_eq observationId_tie
  have hall : ∀ o ∈ tieSet, o.rank = longObservation.rank := by
    intro o ho
    rcases Finset.mem_insert.1 ho with rfl | hlong
    · exact hrank
    · exact (Finset.mem_singleton.1 hlong) ▸ rfl
  intro o' ho' _
  rw [hall o' ho', hall o ho]

theorem accepted_tie {o : RawBarObservationV2} (ho : o ∈ tieSet) :
    o.observationRow.accepted tiePlatform.jsonbAccepts = true := by
  rcases Finset.mem_insert.1 ho with rfl | hlong
  · exact tie_facts.2.1.1
  · rw [Finset.mem_singleton.1 hlong]
    exact tie_facts.2.1.2

/-- Whichever of the two observations is delivered first decides the stored price. -/
theorem rows_follow_first {first : RawBarObservationV2} (hfirst : first ∈ tieSet) :
    ∃ db, Delivers tiePlatform false tieSet db ∧
      ∃ bar, db.currentBars.get? first.identityHash = some bar ∧
        bar.values = first.storedValues := by
  have hstorable : ∀ o ∈ tieSet,
      RawBarObservationV2.Storable tiePlatform.jsonbAccepts tieSet o :=
    fun o ho => ⟨o, ho, rfl, accepted_tie ho⟩
  obtain ⟨db, hdelivers, hstored⟩ := exists_delivers tiePlatform () hstorable hfirst
    (accepted_tie hfirst)
  exact ⟨db, hdelivers, hdelivers.showsFirst injOn_hashedOf_tieSet hfirst (isMaximum_tie hfirst)
    hstored⟩

/-- The projection of the two observations depends on the order of delivery. -/
theorem projection_depends_on_order : Set.InjOn sha256Hex (RawBarObservationV2.hashedOf tieSet) ∧
    ¬ Converges Unit (fun _ => true) tieSet := by
  refine ⟨injOn_hashedOf_tieSet, ?_⟩
  intro hconverges
  obtain ⟨db, hdelivers, bar, hbar, hvalues⟩ :=
    rows_follow_first (Finset.mem_insert_self shortObservation {longObservation})
  obtain ⟨db', hdelivers', bar', hbar', hvalues'⟩ :=
    rows_follow_first (Finset.mem_insert_of_mem (Finset.mem_singleton_self longObservation))
  have hagree := (hconverges tiePlatform rfl false db hdelivers).2 db' hdelivers'
    shortObservation.identityHash
  have hhash : shortObservation.identityHash = longObservation.identityHash := rfl
  rw [hbar, hhash, hbar', Option.map_some, Option.map_some, Option.some.injEq] at hagree
  have hstored : bar.values = bar'.values := congrArg (fun shown => shown.2.1) hagree
  rw [hvalues, hvalues'] at hstored
  refine storedPrices_tie ?_
  simp only [RawBarObservationV2.storedPrices, hstored]

/-- Alone, the observation with the short price converges. -/
theorem projection_converges_short : Converges Unit (fun _ => true) {shortObservation} := by
  have hsubset : RawBarObservationV2.hashedOf {shortObservation} ⊆
      RawBarObservationV2.hashedOf tieSet :=
    Set.biUnion_subset_biUnion_left fun _ ho =>
      Finset.mem_insert.2 (Or.inl (Finset.mem_singleton.1 ho))
  refine (projection_converges_iff Unit (fun _ => true) {shortObservation}
    (injOn_hashedOf_tieSet.mono hsubset)).2 ?_
  intro _ a ha b hb _ _
  rw [Finset.mem_singleton.1 ha, Finset.mem_singleton.1 hb]

end Sample

end AdaptiveTrader
