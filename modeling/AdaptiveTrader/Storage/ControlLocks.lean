import AdaptiveTrader.Execution.Progress
import AdaptiveTrader.Storage.ReconciliationBundle

/-!
# Blocking controls and lock order

The two operations that engage latches, with the advisory locks they take on PostgreSQL: first the
locks of the records they touch, as sorted sets, then one audit lock for each event, in the order of
the appends. The sets are always granted (`riskBoundary_granted`, `bundleBoundary_granted`). The
audit locks are taken in an order the code fixes and their keys are hashes, so an operation that
would engage a latch can be refused for the keys alone, at every retry.
`blocking_controls_unblocked_iff` says exactly when it is not.
-/

set_option autoImplicit false

namespace AdaptiveTrader

open Foundation Storage

/-! ## The operations on PostgreSQL -/

/-- What `persist` makes of the errors raised in its transaction. -/
def riskPersistErrors : PlatformError → PlatformError
  | .auditPersistence _ | .auditValidation _ =>
      .riskPersistence "risk decision audit could not be persisted"
  | .domainValidation _ | .executionValidation _ | .signedRiskPolicy _ | .valueError _
  | .sqlIntegrity _ => .riskPersistence "risk decision could not be persisted"
  | e => e

/-- What `record_reconciliation_bundle` makes of the errors raised in its transaction. -/
def bundleErrors : PlatformError → PlatformError
  | .auditPersistence _ | .auditValidation _ =>
      .executionPersistence "reconciliation audit could not be persisted"
  | .domainValidation _ | .signedRiskValidation _ | .signedRiskPolicy _ | .valueError _
  | .sqlIntegrity _ => .executionPersistence "reconciliation could not be persisted"
  | e => e

section Operations

variable [ContentHasher] (keys : LockKeys) (transaction : Nat)

/-- The locks `SignedRiskRepository._acquire_locks` asks for. -/
def riskBoundaryLocks (decision : RiskDecision) : List PostgresAdvisoryLockRequest :=
  keys.request .riskSignal decision.signalId :: RiskLatchKind.inOrder.map fun kind =>
    keys.request .riskLatch (decision.experimentHash ++ ":" ++ kind.value)

/-- `SignedRiskRepository.persist` on PostgreSQL. -/
def persistLocked (decision : RiskDecision) (precedingReconciliationId : Option String)
    (db : ExecutionDatabase) (events : List AuditEvent) :
    Except PlatformError (ExecutionDatabase × PostgresConnection × List AuditEvent) :=
  Except.mapError riskPersistErrors do
    let c ← lockSet (riskBoundaryLocks keys decision) { transaction := some transaction }
    db.persist (executionAppendLocked keys) decision precedingReconciliationId (c, events)

/-- `SignedRiskRepository.persist` where no locks are taken. -/
def persistUnlocked (decision : RiskDecision) (precedingReconciliationId : Option String)
    (db : ExecutionDatabase) (events : List AuditEvent) :
    Except PlatformError (ExecutionDatabase × List AuditEvent) :=
  Except.mapError riskPersistErrors
    (db.persist executionAppend decision precedingReconciliationId events)

/-- The latch and the experiment of a bundle. -/
def bundleBoundaryLocks (receipt : ReconciliationReceipt) (latchEvent : Option RiskLatchEvent) :
    List PostgresAdvisoryLockRequest :=
  (latchEvent.toList.map fun e =>
    keys.request .riskLatch (receipt.experimentHash ++ ":" ++ e.latchType.value)) ++
  [keys.request .executionExperiment receipt.experimentHash]

/-- The plan, the orders and the receipt of a bundle. -/
def bundleRecordLocks (receipt : ReconciliationReceipt) (db : ExecutionDatabase) :
    List PostgresAdvisoryLockRequest :=
  let planned := receipt.executionPlanId.toList.flatMap db.intentsForPlan
  let active := db.orders.values.filter fun o => !o.state.terminal &&
    (db.intents.get? o.clientOrderId).any fun i =>
      decide (i.experimentHash = receipt.experimentHash)
  receipt.executionPlanId.toList.map (keys.request .executionPlan) ++
    (sortedSet (planned.map (·.clientOrderId) ++ active.map (·.clientOrderId))).map
      (keys.request .orderClientId) ++
    [keys.request .reconciliation receipt.reconciliationId]

/-- `record_reconciliation_bundle` on PostgreSQL. -/
def recordReconciliationBundleLocked (receipt : ReconciliationReceipt)
    (request : ReconciliationRequest) (latchEvent : Option RiskLatchEvent)
    (incident : Option Incident) (db : ExecutionDatabase) (events : List AuditEvent) :
    Except PlatformError (ExecutionDatabase × PostgresConnection × List AuditEvent) := do
  validateReconciliationBundle receipt latchEvent incident
  Except.mapError bundleErrors do
    let c ← lockSet (bundleBoundaryLocks keys receipt latchEvent) { transaction := some transaction }
    let c ← lockSet (bundleRecordLocks keys receipt db) c
    db.recordReconciliationBundle (executionAppendLocked keys) receipt request latchEvent incident
      (c, events)

/-- `record_reconciliation_bundle` where no locks are taken. -/
def recordReconciliationBundleUnlocked (receipt : ReconciliationReceipt)
    (request : ReconciliationRequest) (latchEvent : Option RiskLatchEvent)
    (incident : Option Incident) (db : ExecutionDatabase) (events : List AuditEvent) :
    Except PlatformError (ExecutionDatabase × List AuditEvent) := do
  validateReconciliationBundle receipt latchEvent incident
  Except.mapError bundleErrors
    (db.recordReconciliationBundle executionAppend receipt request latchEvent incident events)

end Operations

/-! ## Locks of records come first -/

section Boundary

variable {keys : LockKeys}

/-- An audit lock lies above every other lock. -/
theorem lt_auditLock {r : PostgresAdvisoryLockRequest} (h : r.lockNamespace ≠ .audit)
    (streamId : String) : r < keys.request .audit streamId := by
  refine PostgresAdvisoryLockRequest.lt_iff.2 (Or.inl ?_)
  show r.lockNamespace.value < PostgresAdvisoryLockNamespace.audit.value
  revert h
  cases r.lockNamespace <;> decide

/-- Only the order of the audit locks matters behind a set of other locks. -/
theorem ascends_behind_records {records audits : List PostgresAdvisoryLockRequest}
    (hrecords : ∀ r ∈ records, r.lockNamespace ≠ .audit)
    (haudits : ∀ r ∈ audits, ∃ streamId, r = keys.request .audit streamId) :
    Ascends records audits ↔ Ascends [] audits := by
  have hbelow : ∀ held ∈ records, ∀ r ∈ audits, held < r := by
    intro held hheld r hr
    obtain ⟨streamId, rfl⟩ := haudits r hr
    exact lt_auditLock (hrecords held hheld) streamId
  have h := @ascends_append_left [] audits records hbelow
  rwa [List.append_nil] at h

theorem latchLocks_audit [ContentHasher] {required : List RiskLatchEvent} {db : ExecutionDatabase} :
    ∀ r ∈ ExecutionDatabase.latchLocks keys required db, ∃ streamId, r = keys.request .audit streamId := by
  induction required generalizing db with
  | nil =>
      intro r hr
      cases hr
  | cons event rest ih =>
      intro r hr
      unfold ExecutionDatabase.latchLocks at hr
      cases hmatch : db.matchingLatch? event with
      | some prior =>
          rw [hmatch] at hr
          exact ih r hr
      | none =>
          rw [hmatch] at hr
          rcases List.mem_cons.1 hr with rfl | hr
          · exact ⟨_, rfl⟩
          · exact ih r hr

theorem persistLocks_audit [ContentHasher] {decision : RiskDecision}
    {precedingReconciliationId : Option String} {db : ExecutionDatabase} :
    ∀ r ∈ db.persistLocks keys decision precedingReconciliationId,
      ∃ streamId, r = keys.request .audit streamId := by
  unfold ExecutionDatabase.persistLocks
  intro r hr
  split at hr
  · cases hr
  · rcases List.mem_append.1 hr with hr | hr
    · exact latchLocks_audit r hr
    · exact ⟨_, List.mem_singleton.1 hr⟩

theorem bundleLocks_audit [ContentHasher] {receipt : ReconciliationReceipt}
    {latchEvent : Option RiskLatchEvent} {db : ExecutionDatabase} :
    ∀ r ∈ db.bundleLocks keys receipt latchEvent, ∃ streamId, r = keys.request .audit streamId := by
  unfold ExecutionDatabase.bundleLocks
  intro r hr
  split at hr
  · cases hr
  · rcases List.mem_append.1 hr with hr | hr
    · exact latchLocks_audit r hr
    · exact ⟨_, List.mem_singleton.1 hr⟩

/-- The locks of a decision's records are granted. -/
theorem riskBoundary_granted (transaction : Nat) (decision : RiskDecision) :
    ∃ c, lockSet (riskBoundaryLocks keys decision) { transaction := some transaction } = .ok c ∧
      ∃ records, c.Holds records ∧ ∀ r ∈ records, r.lockNamespace ≠ .audit := by
  obtain ⟨c, hc, hholds⟩ := @lockSet_eq_ok (riskBoundaryLocks keys decision) [] _
    (PostgresConnection.holds_nil transaction) (fun held hheld => by cases hheld)
  refine ⟨c, hc, _, hholds, ?_⟩
  intro r hr
  rw [List.nil_append, mem_sortedSet, riskBoundaryLocks, List.mem_cons, List.mem_map] at hr
  rcases hr with rfl | ⟨kind, -, rfl⟩
  · simp [LockKeys.request]
  · simp [LockKeys.request]

/-- The two sets of locks of a bundle are granted, one after the other. -/
theorem bundleBoundary_granted [ContentHasher] (transaction : Nat) (receipt : ReconciliationReceipt)
    (latchEvent : Option RiskLatchEvent) (db : ExecutionDatabase) :
    ∃ c₁ c₂, lockSet (bundleBoundaryLocks keys receipt latchEvent)
        { transaction := some transaction } = .ok c₁ ∧
      lockSet (bundleRecordLocks keys receipt db) c₁ = .ok c₂ ∧
      ∃ records, c₂.Holds records ∧ ∀ r ∈ records, r.lockNamespace ≠ .audit := by
  have hboundary : ∀ r ∈ bundleBoundaryLocks keys receipt latchEvent,
      r.lockNamespace = .riskLatch ∨ r.lockNamespace = .executionExperiment := by
    intro r hr
    rcases List.mem_append.1 hr with hr | hr
    · obtain ⟨event, -, rfl⟩ := List.mem_map.1 hr
      exact Or.inl rfl
    · rw [List.mem_singleton.1 hr]
      exact Or.inr rfl
  have hrecord : ∀ r ∈ bundleRecordLocks keys receipt db, r.lockNamespace = .executionPlan ∨
      r.lockNamespace = .orderClientId ∨ r.lockNamespace = .reconciliation := by
    intro r hr
    rcases List.mem_append.1 hr with hr | hr
    · rcases List.mem_append.1 hr with hr | hr
      · obtain ⟨planId, -, rfl⟩ := List.mem_map.1 hr
        exact Or.inl rfl
      · obtain ⟨clientOrderId, -, rfl⟩ := List.mem_map.1 hr
        exact Or.inr (Or.inl rfl)
    · rw [List.mem_singleton.1 hr]
      exact Or.inr (Or.inr rfl)
  obtain ⟨c₁, hc₁, hholds₁⟩ := @lockSet_eq_ok (bundleBoundaryLocks keys receipt latchEvent) [] _
    (PostgresConnection.holds_nil transaction) (fun held hheld => by cases hheld)
  rw [List.nil_append] at hholds₁
  -- the namespaces of the second set lie above those of the first
  obtain ⟨c₂, hc₂, hholds₂⟩ := @lockSet_eq_ok (bundleRecordLocks keys receipt db) _ c₁ hholds₁ (by
    intro held hheld r hr
    refine PostgresAdvisoryLockRequest.lt_iff.2 (Or.inl ?_)
    rcases hboundary held (mem_sortedSet.1 hheld) with h₁ | h₁ <;>
      rcases hrecord r hr with h₂ | h₂ | h₂ <;> rw [h₁, h₂] <;> decide)
  refine ⟨c₁, c₂, hc₁, hc₂, _, hholds₂, ?_⟩
  intro r hr
  rcases List.mem_append.1 hr with hr | hr
  · rcases hboundary r (mem_sortedSet.1 hr) with h | h <;> rw [h] <;> decide
  · rcases hrecord r (mem_sortedSet.1 hr) with h | h | h <;> rw [h] <;> decide

end Boundary

/-! ## When the order stands in the way -/

section Unblocked

variable {γ β : Type} {records requests : List PostgresAdvisoryLockRequest}
  {locked : StateT (PostgresConnection × γ) (Except PlatformError) β}
  {plain : StateT γ (Except PlatformError) β} {c : PostgresConnection}
  {errors : PlatformError → PlatformError}

/-- An operation whose locks ascend ends as the same operation without locks. -/
theorem locked_eq_of_ascends (h : TakesLocks records requests locked plain) (hc : c.Holds records)
    (ha : Ascends records requests) (s : γ) :
    ((locked (c, s)).mapError errors).map (fun w => (w.1, w.2.2)) = (plain s).mapError errors := by
  cases hplain : plain s with
  | error e =>
      rw [h.failed ha c s hc e hplain]
      rfl
  | ok w =>
      obtain ⟨c', hc', -⟩ := h.granted ha c s hc w.1 w.2 hplain
      rw [hc']
      rfl

theorem eq_ok_of_mapError {x : Except PlatformError β} {b : β}
    (h : x.mapError errors = .ok b) : x = .ok b := by
  cases x with
  | error e => cases h
  | ok b' => exact h

/-- When the locks do not ascend, an operation that would succeed fails on their order. -/
theorem locked_eq_error (h : TakesLocks records requests locked plain) (hc : c.Holds records)
    {s : γ} {w : β × γ} (hplain : (plain s).mapError errors = .ok w)
    (ha : ¬ Ascends records requests) :
    (locked (c, s)).mapError errors = .error (errors auditLockOrderError) := by
  rw [h.refused ha c s hc w (eq_ok_of_mapError hplain)]
  rfl

/-- Where the operation without locks succeeds, the one with locks does exactly when they ascend. -/
theorem locked_isOk_iff (h : TakesLocks records requests locked plain) (hc : c.Holds records)
    {s s' : γ} {b : β} (hplain : (plain s).mapError errors = .ok (b, s')) :
    (∃ c', (locked (c, s)).mapError errors = .ok (b, c', s')) ↔ Ascends records requests := by
  constructor
  · rintro ⟨c', hc'⟩
    by_contra ha
    rw [locked_eq_error h hc hplain ha] at hc'
    cases hc'
  · intro ha
    obtain ⟨c', hc', -⟩ := h.granted ha c s hc b s' (eq_ok_of_mapError hplain)
    exact ⟨c', by rw [hc']; rfl⟩

end Unblocked

/-- `record_reconciliation_bundle` and `persist` on PostgreSQL do what they do without locks when
their audit locks ascend. Where they would succeed without locks, they succeed exactly then, and
the latches they are called for are engaged behind them. -/
theorem blocking_controls_unblocked_iff [ContentHasher] (keys : LockKeys) (transaction : Nat)
    (db : ExecutionDatabase) (events : List AuditEvent) :
    (∀ (receipt : ReconciliationReceipt) (request : ReconciliationRequest)
        (latchEvent : Option RiskLatchEvent) (incident : Option Incident),
      (Ascends [] (db.bundleLocks keys receipt latchEvent) →
        (recordReconciliationBundleLocked keys transaction receipt request latchEvent incident db
          events).map (fun w => (w.1, w.2.2)) =
        recordReconciliationBundleUnlocked receipt request latchEvent incident db events) ∧
      ∀ stored log, recordReconciliationBundleUnlocked receipt request latchEvent incident db
          events = .ok (stored, log) →
        ((∃ c, recordReconciliationBundleLocked keys transaction receipt request latchEvent incident
            db events = .ok (stored, c, log)) ↔ Ascends [] (db.bundleLocks keys receipt latchEvent)) ∧
        (receipt.status = .blocking → ∃ state,
          stored.latchState receipt.experimentHash = .ok state ∧
            .reconciliation ∈ state.active)) ∧
    ∀ (decision : RiskDecision) (precedingReconciliationId : Option String),
      (Ascends [] (db.persistLocks keys decision precedingReconciliationId) →
        (persistLocked keys transaction decision precedingReconciliationId db events).map
          (fun w => (w.1, w.2.2)) =
        persistUnlocked decision precedingReconciliationId db events) ∧
      ∀ stored log, persistUnlocked decision precedingReconciliationId db events =
          .ok (stored, log) →
        ((∃ c, persistLocked keys transaction decision precedingReconciliationId db events =
            .ok (stored, c, log)) ↔
          Ascends [] (db.persistLocks keys decision precedingReconciliationId)) ∧
        (db.decisionRow? decision.signalId
            (ExecutionDatabase.executionStage precedingReconciliationId) = none →
          ∃ state, stored.latchState decision.experimentHash = .ok state ∧
            state.active = decision.activeLatches) := by
  constructor
  · intro receipt request latchEvent incident
    obtain ⟨c₁, c₂, hc₁, hc₂, records, hholds, hrecords⟩ :=
      @bundleBoundary_granted keys _ transaction receipt latchEvent db
    have htakes := @ExecutionDatabase.recordReconciliationBundle_takesLocks _ keys records db receipt
      request latchEvent incident
    have hascends := ascends_behind_records hrecords
      (@bundleLocks_audit keys _ receipt latchEvent db)
    unfold recordReconciliationBundleLocked recordReconciliationBundleUnlocked
    cases validateReconciliationBundle receipt latchEvent incident with
    | error e =>
        refine ⟨fun _ => rfl, ?_⟩
        intro stored log h
        cases h
    | ok valid =>
        simp only [hc₁, hc₂, bind, Except.bind]
        refine ⟨fun ha => locked_eq_of_ascends htakes hholds (hascends.2 ha) events, ?_⟩
        intro stored log hplain
        refine ⟨(locked_isOk_iff htakes hholds hplain).trans hascends, fun hblocking => ?_⟩
        exact ExecutionDatabase.recordReconciliationBundle_engaged hblocking
          (eq_ok_of_mapError hplain)
  · intro decision precedingReconciliationId
    obtain ⟨c, hc, records, hholds, hrecords⟩ := @riskBoundary_granted keys transaction decision
    have htakes := @ExecutionDatabase.persist_takesLocks _ keys records db decision
      precedingReconciliationId
    have hascends := ascends_behind_records hrecords
      (@persistLocks_audit keys _ decision precedingReconciliationId db)
    unfold persistLocked persistUnlocked
    rw [hc]
    refine ⟨fun ha => locked_eq_of_ascends htakes hholds (hascends.2 ha) events, ?_⟩
    intro stored log hplain
    refine ⟨(locked_isOk_iff htakes hholds hplain).trans hascends, fun hnew => ?_⟩
    exact ExecutionDatabase.persist_latchState hnew (eq_ok_of_mapError hplain)

/-- What a decision that could be stored is refused with. -/
theorem persistLocked_eq_error [ContentHasher] {keys : LockKeys} (transaction : Nat)
    {db : ExecutionDatabase} {events : List AuditEvent} {decision : RiskDecision}
    {precedingReconciliationId : Option String} {w : ExecutionDatabase × List AuditEvent}
    (hplain : persistUnlocked decision precedingReconciliationId db events = .ok w)
    (hlocks : ¬ Ascends [] (db.persistLocks keys decision precedingReconciliationId)) :
    persistLocked keys transaction decision precedingReconciliationId db events =
      .error (.riskPersistence "risk decision audit could not be persisted") := by
  obtain ⟨c, hc, records, hholds, hrecords⟩ := @riskBoundary_granted keys transaction decision
  have htakes := @ExecutionDatabase.persist_takesLocks _ keys records db decision
    precedingReconciliationId
  have hascends := ascends_behind_records hrecords
    (@persistLocks_audit keys _ decision precedingReconciliationId db)
  unfold persistLocked
  rw [hc]
  exact locked_eq_error htakes hholds hplain fun ha => hlocks (hascends.1 ha)

/-! ## A session loss whose latch cannot be engaged -/

section Sample

local instance controlHasher : ContentHasher := polynomialHasher

/-- The engagement of the session-loss latch of an experiment without latch events. -/
def sampleLatchEvent : RiskLatchEvent :=
  ⟨{ experimentHash := repeatedDigest 'a', latchType := .sessionLoss, sequence := 1,
     action := .engaged, reasonCode := "session_loss", actor := "signed_risk_engine",
     occurredAt := 0, correlationId := "correlation_" ++ repeatedDigest 'a',
     idempotencyKey := "session_loss" }, by decide +kernel⟩

theorem sampleFlatExposure_check : ExposureSnapshotFields.check
    { gross := 0, net := 0, positive := 0, shortAbs := 0, groupGross := [], clusterGross := [] } =
      .ok () := by
  decide +kernel

def sampleFlatExposure : ExposureSnapshot :=
  ⟨{ gross := 0, net := 0, positive := 0, shortAbs := 0, groupGross := [], clusterGross := [] },
    sampleFlatExposure_check⟩

/-- A decision that flattens on a session loss. -/
def sampleLossDecision : RiskDecision :=
  ⟨{ sampleDecisionFields with
      finalTargets := [("SPY", 0)]
      afterExposure := sampleFlatExposure
      blockReasons := ["session_loss"]
      flattenReasons := ["session_loss"]
      latchStateHash := ((RiskLatchState.fromEvents (repeatedDigest 'a') []).toOption.map
        (·.contentHash)).getD ""
      activeLatches := [.sessionLoss]
      requiredLatchEvents := [sampleLatchEvent]
      executionScope := .riskReducingOnly }, by decide +kernel⟩

/-- The tables with the signal of the decision. -/
def sampleSignalTables : ExecutionDatabase where
  signals := Dict.empty.set ("signal_" ++ repeatedDigest 'a')
    ⟨"signal_" ++ repeatedDigest 'a', "slot_" ++ repeatedDigest 'a', repeatedDigest 'a',
      "correlation_" ++ repeatedDigest 'a', repeatedDigest 'a'⟩

/-- Keys under which the latch's stream has a larger one than the stream of decisions. -/
def latchAboveRisk : LockKeys where
  key _ resourceRef :=
    if resourceRef = latchAuditStream (repeatedDigest 'a') .sessionLoss then 1 else 0
  signed _ resourceRef := by
    split <;> decide

/-- The decision could be stored and its latch engaged, and the lock order prevents both. -/
theorem session_loss_blocked :
    (∃ w, persistUnlocked sampleLossDecision none sampleSignalTables [] = .ok w) ∧
      persistLocked latchAboveRisk 1 sampleLossDecision none sampleSignalTables [] =
        .error (.riskPersistence "risk decision audit could not be persisted") := by
  have hrun : (persistUnlocked sampleLossDecision none sampleSignalTables []).isOk = true := by
    decide +kernel
  have hlocks : ¬ Ascends []
      (sampleSignalTables.persistLocks latchAboveRisk sampleLossDecision none) := by
    decide +kernel
  cases hplain : persistUnlocked sampleLossDecision none sampleSignalTables [] with
  | error e =>
      rw [hplain] at hrun
      cases hrun
  | ok w =>
      exact ⟨⟨w, rfl⟩, persistLocked_eq_error 1 hplain hlocks⟩

end Sample

end AdaptiveTrader
