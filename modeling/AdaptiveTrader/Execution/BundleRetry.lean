import AdaptiveTrader.Execution.Splitting

/-!
# Retried reconciliation bundles

A caller that does not learn whether its bundle was recorded records it again. The retry repeats
every check against a ledger that now holds the bundle. Only one check reads what the bundle
brought along: the latch history is replayed with the offered engagement appended, whether or not
the ledger holds it already. So the retry of a bundle with an engagement is refused
(`engagement_retry_refused`), and every other bundle can be retried (`retry_of_durable`).
-/

set_option autoImplicit false

namespace AdaptiveTrader

open Foundation

namespace MemoryExecutionRepository

variable [ContentHasher] {repo repo' : MemoryExecutionRepository}
  {receipt : ReconciliationReceipt} {request : ReconciliationRequest}
  {latchEvent : Option RiskLatchEvent} {incident : Option Incident}

/-! ## The ledger with the bundle -/

/-- The records a reconciliation is recomputed from. -/
structure SameRecords (repo repo' : MemoryExecutionRepository) : Prop where
  plans : repo'.planTable = repo.planTable
  decisions : repo'.riskDecisionTable = repo.riskDecisionTable
  intents : repo'.intentTable = repo.intentTable
  orders : repo'.orderTable = repo.orderTable
  fills : repo'.fillTable = repo.fillTable

theorem storeBundle_sameRecords (audit : AuditEvent) :
    SameRecords repo (repo.storeBundle receipt latchEvent incident audit) := by
  cases incident with
  | none => exact ⟨rfl, rfl, rfl, rfl, rfl⟩
  | some i => exact ⟨rfl, rfl, rfl, rfl, rfl⟩

omit [ContentHasher] in
/-- A receipt is checked against plans, intents, orders and fills only. -/
theorem SameRecords.authoritativeRequest_eq [ContentHasher] (h : SameRecords repo repo')
    (plan : ExecutionPlan) (decision : RiskDecision) (request : ReconciliationRequest) :
    repo'.authoritativeRequest plan decision request =
      repo.authoritativeRequest plan decision request := by
  obtain ⟨hplans, hdecisions, hintents, horders, hfills⟩ := h
  cases repo
  cases repo'
  subst hplans hdecisions hintents horders hfills
  rfl

theorem reconciliationTable_storeBundle (audit : AuditEvent) :
    (repo.storeBundle receipt latchEvent incident audit).reconciliationTable.get?
      receipt.reconciliationId = some receipt := by
  cases incident with
  | none => exact Dict.get?_set_self _ _ _
  | some i => exact Dict.get?_set_self _ _ _

theorem latchEventTable_storeBundle (audit : AuditEvent) :
    (repo.storeBundle receipt latchEvent incident audit).latchEventTable =
      match latchEvent with
      | some e => repo.latchEventTable.setdefault e.latchEventId e
      | none => repo.latchEventTable := by
  cases incident with
  | none => rfl
  | some i => rfl

/-- The incident of a recorded bundle is durable under both of its keys. -/
theorem incident_storeBundle {i : Incident} (audit : AuditEvent) :
    (repo.storeBundle receipt latchEvent (some i) audit).incidentTable.get? i.incidentId = some i ∧
      (repo.storeBundle receipt latchEvent (some i) audit).incidentKeyTable.get?
        i.idempotencyKey = some i :=
  ⟨Dict.get?_set_self _ _ _, Dict.get?_set_self _ _ _⟩

/-! ## Bundles that can be retried -/

/-- A bundle whose receipt and incident are durable is accepted again, and nothing is written. -/
theorem retry_of_durable (hids : repo.checkBundleIdentities receipt latchEvent incident = .ok ())
    (hreconciled : ∃ planId plan decision authoritative, receipt.executionPlanId = some planId ∧
      repo.planTable.get? planId = some plan ∧ plan.experimentHash = receipt.experimentHash ∧
      repo.riskDecisionTable.get? plan.riskDecisionId = some decision ∧
      checkReconciliationRequest plan decision receipt request = .ok () ∧
      repo.authoritativeRequest plan decision request = .ok authoritative ∧
      reconcile authoritative = .ok receipt)
    (hcontrols : repo.validateReconciliationControls receipt latchEvent incident = .ok ())
    (hreceipt : repo.reconciliationTable.get? receipt.reconciliationId = some receipt)
    (hincident : ∀ i ∈ incident, repo.incidentTable.get? i.incidentId = some i) :
    repo.recordReconciliationBundle receipt request latchEvent incident = .ok repo := by
  obtain ⟨planId, plan, decision, authoritative, hplanId, hplan, hexperiment, hdecision, hrequest,
    hauthoritative, hreconcile⟩ := hreconciled
  simp only [recordReconciliationBundle, bind_eq_ok, rejectIf_eq_ok, exists_const, require_eq_ok,
    getPlan_eq_ok, not_not, hreceipt, pure_eq_ok]
  refine ⟨(), hids, planId, hplanId, plan, hplan, hexperiment, decision, hdecision, (), hrequest,
    authoritative, hauthoritative, receipt, hreconcile, rfl, (), hcontrols, ?_⟩
  refine ⟨trivial, ?_, trivial⟩
  rintro ⟨i, hi, hne⟩
  exact hne (hincident i hi)

/-- A new bundle without an engagement can be retried. -/
theorem retry_without_engagement {audit : AuditEvent}
    (h : BundleAdmitted repo receipt request none incident audit) :
    (repo.storeBundle receipt none incident audit).recordReconciliationBundle receipt request none
      incident = .ok (repo.storeBundle receipt none incident audit) := by
  have hsame : SameRecords repo (repo.storeBundle receipt none incident audit) :=
    storeBundle_sameRecords audit
  have hlatches : (repo.storeBundle receipt none incident audit).latchEventTable =
      repo.latchEventTable := latchEventTable_storeBundle audit
  refine retry_of_durable ?_ ?_ ?_ (reconciliationTable_storeBundle audit) ?_
  · -- the identities: no latch event, and the incident is the durable one
    have hids := h.identities
    cases incident with
    | none => exact hids
    | some i =>
        simp only [checkBundleIdentities, unit_bind_eq_ok, rejectIf_eq_ok] at hids ⊢
        refine ⟨by simp, by simp, hids.2.2.1, ?_⟩
        rintro ⟨_, hi, keyed, hkeyed, hne⟩
        cases Option.mem_some_iff.1 hi
        rw [(incident_storeBundle audit).2, Option.mem_some_iff] at hkeyed
        exact hne hkeyed.symm
  · obtain ⟨planId, plan, decision, authoritative, hplanId, hplan, hexperiment, hdecision, hrequest,
      hauthoritative, hreconcile⟩ := h.reconciled
    refine ⟨planId, plan, decision, authoritative, hplanId, ?_, hexperiment, ?_, hrequest, ?_,
      hreconcile⟩
    · rw [hsame.plans]
      exact hplan
    · rw [hsame.decisions]
      exact hdecision
    · rw [hsame.authoritativeRequest_eq]
      exact hauthoritative
  · have hcontrols := h.controls
    unfold validateReconciliationControls at hcontrols ⊢
    rw [hlatches]
    exact hcontrols
  · rintro i rfl
    exact (incident_storeBundle audit).1

/-! ## Bundles that cannot -/

/-- The checks every recorded bundle passed. -/
theorem recordReconciliationBundle_checks
    (h : repo.recordReconciliationBundle receipt request latchEvent incident = .ok repo') :
    repo.checkBundleIdentities receipt latchEvent incident = .ok () ∧
      repo.validateReconciliationControls receipt latchEvent incident = .ok () := by
  simp only [recordReconciliationBundle, bind_eq_ok, rejectIf_eq_ok, exists_const] at h
  obtain ⟨_, hids, _, -, _, -, -, _, -, _, -, _, -, _, -, -, _, hcontrols, -⟩ := h
  exact ⟨hids, hcontrols⟩

/-- The engagement of a blocking bundle occurs at the receipt's completion, and the ledger's
history with the engagement appended names no event twice. -/
theorem engagement_of_controls {e : RiskLatchEvent}
    (h : repo.validateReconciliationControls receipt (some e) incident = .ok ()) :
    e.occurredAt = receipt.completedAt ∧
      (((repo.latchEventTable.values ++ [e]).filter fun event =>
        decide (event.experimentHash = receipt.experimentHash ∧
          event.occurredAt ≤ receipt.completedAt)).map (·.latchEventId)).Nodup := by
  unfold validateReconciliationControls at h
  split_ifs at h with hclean
  · simp [rejectIf_eq_ok] at h
  · simp only [bind_eq_ok, rejectIf_eq_ok] at h
    obtain ⟨_, -, _, hevidence, state, hstate, -⟩ := h
    refine ⟨?_, ?_⟩
    · by_contra hne
      exact hevidence ⟨e, rfl, Or.inr (Or.inr (Or.inr (Or.inr (Or.inr hne))))⟩
    · simp only [RiskLatchState.fromEvents, bind_eq_ok] at hstate
      obtain ⟨_, -, _, hhistory, -⟩ := hstate
      exact (RiskLatchState.checkLatchHistory_eq_ok.1 hhistory).2

/-- A ledger that holds an engagement refuses every bundle that brings it along. -/
theorem engagement_retry_refused {e : RiskLatchEvent}
    (hheld : repo.latchEventTable.get? e.latchEventId = some e) :
    repo.recordReconciliationBundle receipt request (some e) incident ≠ .ok repo' := by
  intro h
  obtain ⟨hids, hcontrols⟩ := recordReconciliationBundle_checks h
  obtain ⟨htime, hnodup⟩ := engagement_of_controls hcontrols
  have hexperiment : e.experimentHash = receipt.experimentHash := by
    simp only [checkBundleIdentities, unit_bind_eq_ok, rejectIf_eq_ok] at hids
    by_contra hne
    exact hids.1 ⟨e, rfl, hne⟩
  -- the engagement occurs once in the stored history and once as the appended event
  have hkept : decide (e.experimentHash = receipt.experimentHash ∧
      e.occurredAt ≤ receipt.completedAt) = true := decide_eq_true ⟨hexperiment, htime.le⟩
  have hmem : e ∈ repo.latchEventTable.values.filter fun event =>
      decide (event.experimentHash = receipt.experimentHash ∧
        event.occurredAt ≤ receipt.completedAt) :=
    List.mem_filter.2 ⟨Dict.mem_values_iff.2 ⟨_, hheld⟩, hkept⟩
  rw [List.filter_append, List.map_append, List.nodup_append] at hnodup
  have happended : e ∈ [e].filter fun event =>
      decide (event.experimentHash = receipt.experimentHash ∧
        event.occurredAt ≤ receipt.completedAt) :=
    List.mem_filter.2 ⟨List.mem_singleton_self e, hkept⟩
  exact hnodup.2.2 e.latchEventId (List.mem_map_of_mem hmem) e.latchEventId
    (List.mem_map_of_mem happended) rfl

/-- The engagement a bundle brought along is held afterwards. -/
theorem latchEvent_storeBundle {e : RiskLatchEvent} {audit : AuditEvent}
    (h : BundleAdmitted repo receipt request (some e) incident audit) :
    (repo.storeBundle receipt (some e) incident audit).latchEventTable.get? e.latchEventId =
      some e := by
  rw [latchEventTable_storeBundle]
  cases hprior : repo.latchEventTable.get? e.latchEventId with
  | none =>
      show (repo.latchEventTable.setdefault e.latchEventId e).get? e.latchEventId = some e
      rw [Dict.setdefault_of_get?_none hprior]
      exact Dict.get?_set_self _ _ _
  | some prior =>
      have hids := h.identities
      simp only [checkBundleIdentities, unit_bind_eq_ok, rejectIf_eq_ok] at hids
      have hsame : prior = e := by
        by_contra hne
        exact hids.2.1 ⟨e, rfl, prior, hprior, hne⟩
      show (repo.latchEventTable.setdefault e.latchEventId e).get? e.latchEventId = some e
      rw [Dict.setdefault_of_get? hprior, hprior, hsame]

/-- A recorded bundle can be recorded again at once exactly when it carries no engagement, or its
receipt was durable before the first call already. -/
theorem bundle_retry_iff
    (h : repo.recordReconciliationBundle receipt request latchEvent incident = .ok repo') :
    repo'.recordReconciliationBundle receipt request latchEvent incident = .ok repo' ↔
      latchEvent = none ∨
        repo.reconciliationTable.get? receipt.reconciliationId = some receipt := by
  obtain ⟨rfl, hdurable⟩ | ⟨audit, hadmitted, rfl⟩ := recordReconciliationBundle_spec h
  · exact iff_of_true h (Or.inr hdurable)
  · have hfresh : ¬ repo.reconciliationTable.get? receipt.reconciliationId = some receipt := by
      rw [hadmitted.receiptFresh]
      exact nofun
    rw [or_iff_left hfresh]
    cases latchEvent with
    | none => exact iff_of_true (retry_without_engagement hadmitted) rfl
    | some e =>
        exact iff_of_false (engagement_retry_refused (latchEvent_storeBundle hadmitted)) nofun

end MemoryExecutionRepository

/-! ## A refused retry -/

section Sample

open MemoryExecutionRepository

local instance retryHasher : ContentHasher := polynomialHasher

/-- A decision that keeps an empty portfolio. -/
def flatDecision : RiskDecision :=
  ⟨{ sampleDecisionFields with
     proposedTargets := [("SPY", 0)], finalTargets := [("SPY", 0)]
     beforeExposure := flatExposure, afterExposure := flatExposure }, by decide +kernel⟩

def flatRequest : ExecutionPlanningRequest :=
  ⟨{ sampleRequest.toExecutionPlanningRequestFields with riskDecision := flatDecision },
    by decide +kernel⟩

/-- The account of the decision with a thousand missing. -/
def shortfallAccount : AccountState :=
  ⟨{ accountId := "account", cash := 99000, equity := 99000, buyingPower := 99000
     restrictedShortProceeds := 0, observedAt := 1 }, by decide +kernel⟩

/-- A recorded bundle with the ledgers before and after it. -/
structure RecordedBundle where
  before : MemoryExecutionRepository
  receipt : ReconciliationReceipt
  request : ReconciliationRequest
  latchEvent : RiskLatchEvent
  incident : Incident
  after : MemoryExecutionRepository

/-- The ledger before a bundle is reachable, and recording the bundle succeeds. -/
structure RecordedBundle.Valid (b : RecordedBundle) : Prop where
  reachable : successfulRuns.Reachable b.before
  recorded : b.before.recordReconciliationBundle b.receipt b.request (some b.latchEvent)
    (some b.incident) = .ok b.after

/-- The engagement and the incident of a blocking receipt. -/
def blockingControls (repo : MemoryExecutionRepository) (receipt : ReconciliationReceipt) :
    Except PlatformError (RiskLatchEvent × Incident) := do
  let latches ← repo.latchState receipt.experimentHash
  let latchEvent ← createLatchEngagement latches .reconciliation "reconciliation_blocking"
    "reconciler" receipt.completedAt receipt.correlationId
    ("reconciliation_" ++ takeText 32 receipt.contentHash)
  let incident ← Incident.create {
    idempotencyKey := blockingIncidentKey receipt
    experimentHash := receipt.experimentHash
    correlationId := receipt.correlationId
    reasonCode := "reconciliation_blocking"
    openedAt := receipt.completedAt }
  pure (latchEvent, incident)

/-- Reconcile the flat plan against the account that misses cash and record the receipt. -/
def recordShortfall (repo : MemoryExecutionRepository) (plan : ExecutionPlan) :
    Except PlatformError RecordedBundle := do
  let request ← ReconciliationRequest.create {
    experimentHash := flatDecision.experimentHash
    slotId := some flatDecision.slotId
    executionPlanId := some plan.executionPlanId
    correlationId := plan.correlationId
    activeSymbols := ["SPY"]
    shortEligibleSymbols := ["SPY"]
    baselinePositions := plan.currentPositions
    baselineCash := sampleAccount.cash
    fills := []
    orderFills := []
    intents := []
    durableOrders := []
    brokerOrders := []
    brokerPositions := []
    brokerAccount := shortfallAccount
    expectedAccountIdHash := sampleAccount.accountIdHash
    markPrices := plan.referencePrices
    startedAt := 1
    completedAt := 1 }
  let authoritative ← repo.authoritativeRequest plan flatDecision request
  let receipt ← reconcile authoritative
  let controls ← blockingControls repo receipt
  let after ← repo.recordReconciliationBundle receipt request (some controls.1) (some controls.2)
  pure ⟨repo, receipt, request, controls.1, controls.2, after⟩

/-- The event of a planned bundle, the first of its stream. -/
def planAudit (result : ExecutionPlanningResult)
    (h : result.intents.length ≤ maximumIntentsPerPlan) : AuditEvent :=
  ⟨executionStream result.plan.experimentHash, 1, auditGenesisHash, "execution.plan_persisted",
    .execution, result.plan.createdAt, ⟨planPersistedPayload result.plan result.intents,
      validateAuditObject_planPersisted result.plan h⟩⟩

/-- The ledger that holds a plan for the flat decision and nothing else. -/
def plannedLedger (result : ExecutionPlanningResult)
    (h : result.intents.length ≤ maximumIntentsPerPlan) : MemoryExecutionRepository :=
  storePlan {} result.plan result.intents flatDecision (planAudit result h)

theorem persist_plannedLedger {result : ExecutionPlanningResult}
    (hresult : planSignedOrders flatRequest = .ok result)
    (h : result.intents.length ≤ maximumIntentsPerPlan) :
    persistPlanAndIntents {} result.plan result.intents flatDecision =
      .ok (plannedLedger result h) := by
  obtain ⟨audit, hpersist⟩ := @persist_of_planned _ {} _ _ hresult rfl fun _ _ => ⟨rfl, rfl⟩
  obtain ⟨hsame, hdurable⟩ | ⟨audit', hadmitted, hstored⟩ := persistPlanAndIntents_spec hpersist
  · cases hdurable
  obtain ⟨payload, hentries, haudit⟩ := (nextAudit_eq_ok_iff result.plan.isSha256_experimentHash
    isExecutionEventType_ledger.1).1 hadmitted.audited
  obtain ⟨entries, hchecked⟩ := payload
  cases hentries
  have hevent : audit' = planAudit result h := haudit
  refine hpersist.trans (congrArg Except.ok ?_)
  rw [hstored, hevent]
  rfl

/-- The bundle on the ledger that holds the flat plan. -/
def shortfallBundle : Except PlatformError RecordedBundle := do
  let result ← planSignedOrders flatRequest
  if h : result.intents.length ≤ maximumIntentsPerPlan then
    recordShortfall (plannedLedger result h) result.plan
  else
    .error (.executionValidation "execution plan intent count is invalid")

theorem shortfallBundle_blocking :
    shortfallBundle.map (fun b => b.receipt.status) = .ok .blocking := by
  decide +kernel

/-- The shortfall is recorded in a reachable ledger that holds no receipt yet. -/
theorem exists_shortfall : ∃ b : RecordedBundle, b.Valid ∧ b.receipt.status = .blocking ∧
    b.before.reconciliationTable.get? b.receipt.reconciliationId = none := by
  obtain ⟨b, hb, hblocking⟩ := map_eq_ok.1 shortfallBundle_blocking
  simp only [shortfallBundle, bind_eq_ok] at hb
  obtain ⟨result, hresult, hb⟩ := hb
  by_cases hlength : result.intents.length ≤ maximumIntentsPerPlan
  · rw [dif_pos hlength] at hb
    simp only [recordShortfall, bind_eq_ok, pure_eq_ok] at hb
    obtain ⟨request, -, _, -, receipt, -, controls, -, after, hafter, rfl⟩ := hb
    have hexec : (LedgerOperation.persistPlanAndIntents result.plan result.intents
        flatDecision).exec {} = (.ok (), plannedLedger result hlength) := by
      simp only [LedgerOperation.exec, Exec.transaction, persist_plannedLedger hresult hlength,
        Except.map]
    have hreachable : successfulRuns.Reachable (plannedLedger result hlength) :=
      (Transition.Reachable.of_init rfl).tail ⟨congrArg Prod.fst hexec, congrArg Prod.snd hexec⟩
    refine ⟨_, ⟨hreachable, hafter⟩, hblocking, ?_⟩
    simp only [plannedLedger, storePlan_eq]
    rfl
  · rw [dif_neg hlength] at hb
    cases hb

/-- A blocking bundle with its engagement is recorded once and refused the second time. -/
theorem shortfall_retry_refused :
    ¬ ∀ (repo repo' : MemoryExecutionRepository) (receipt : ReconciliationReceipt)
      (request : ReconciliationRequest) (latchEvent : Option RiskLatchEvent)
      (incident : Option Incident), successfulRuns.Reachable repo →
        repo.recordReconciliationBundle receipt request latchEvent incident = .ok repo' →
        repo'.recordReconciliationBundle receipt request latchEvent incident = .ok repo' := by
  intro hretry
  obtain ⟨b, hvalid, -, hfresh⟩ := exists_shortfall
  have hagain := hretry _ _ _ _ _ _ hvalid.reachable hvalid.recorded
  obtain ⟨-, hdurable⟩ | ⟨audit, hadmitted, hafter⟩ :=
    recordReconciliationBundle_spec hvalid.recorded
  · rw [hfresh] at hdurable
    cases hdurable
  · rw [hafter] at hagain
    exact engagement_retry_refused (latchEvent_storeBundle hadmitted) hagain

theorem shortfall_retry : ∃ b : RecordedBundle, b.Valid ∧ b.receipt.status = .blocking ∧
    ¬ b.after.recordReconciliationBundle b.receipt b.request (some b.latchEvent)
      (some b.incident) = .ok b.after := by
  obtain ⟨b, hvalid, hblocking, hfresh⟩ := exists_shortfall
  refine ⟨b, hvalid, hblocking, fun hagain => ?_⟩
  obtain hnone | hdurable := (bundle_retry_iff hvalid.recorded).1 hagain
  · cases hnone
  · rw [hfresh] at hdurable
    cases hdurable

end Sample

end AdaptiveTrader
