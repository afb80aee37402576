import AdaptiveTrader.Execution.Repository
import AdaptiveTrader.Foundation.Transition

/-!
# What the ledger's operations do

Each operation of the ledger either leaves it alone or performs one of five writes: it stores a
plan, an incident, a transition of one order, a fill or a reconciliation bundle. `Write` lists them
with everything that was checked before the write, and one lemma per operation reads its success
backwards into a write. An invariant of the ledger is proved once per write.

`LedgerOperation` names the operations as steps, and `ledgerRuns` is the system of all their runs.
-/

set_option autoImplicit false

namespace AdaptiveTrader

open Foundation

namespace MemoryExecutionRepository

/-! ## Lookups -/

@[simp] theorem getOrder_eq_ok {repo : MemoryExecutionRepository} {id : String}
    {order : BrokerOrder} : repo.getOrder id = .ok order ↔ repo.orderTable.get? id = some order :=
  require_eq_ok

@[simp] theorem getIntent_eq_ok {repo : MemoryExecutionRepository} {id : String}
    {intent : OrderIntent} :
    repo.getIntent id = .ok intent ↔ repo.intentTable.get? id = some intent :=
  require_eq_ok

@[simp] theorem getPlan_eq_ok {repo : MemoryExecutionRepository} {id : String}
    {plan : ExecutionPlan} : repo.getPlan id = .ok plan ↔ repo.planTable.get? id = some plan :=
  require_eq_ok

@[simp] theorem getRiskDecision_eq_ok {repo : MemoryExecutionRepository} {id : String}
    {decision : RiskDecision} :
    repo.getRiskDecision id = .ok decision ↔ repo.riskDecisionTable.get? id = some decision :=
  require_eq_ok

theorem checkBrokerEventId_eq_ok {repo : MemoryExecutionRepository}
    {clientOrderId : String} {brokerEventId : Option String} :
    repo.checkBrokerEventId clientOrderId brokerEventId = .ok () ↔
      ∀ id, brokerEventId = some id → repo.brokerEventOwners.get? id = none := by
  cases brokerEventId with
  | none => simp [checkBrokerEventId]
  | some id =>
      cases howner : repo.brokerEventOwners.get? id with
      | none => simp [checkBrokerEventId, howner]
      | some owner => simp [checkBrokerEventId, howner]

variable [ContentHasher]

/-! ## Admission -/

/-- What is checked before a plan is stored. -/
structure PlanAdmitted (repo : MemoryExecutionRepository) (plan : ExecutionPlan)
    (intents : List OrderIntent) (decision : RiskDecision) (audit : AuditEvent) : Prop where
  replanned : ∃ result, replan plan decision = .ok result ∧ result.plan = plan ∧
    result.intents = intents
  sequences : intents.map (·.sequence) = List.range intents.length
  planFresh : repo.planTable.get? plan.executionPlanId = none
  intentsFresh : ∀ i ∈ intents, repo.intentTable.get? i.clientOrderId = none ∧
    repo.intentIdTable.get? i.orderIntentId = none
  audited : nextAudit repo.auditLog plan.experimentHash "execution.plan_persisted" plan.createdAt
    (planPersistedPayload plan intents) = .ok audit

/-- What is checked before a transition is stored. -/
structure TransitionAdmitted (repo : MemoryExecutionRepository) (clientOrderId : String)
    (previous : BrokerOrder) (change : OrderChange) (brokerEventId authorityHash : Option String)
    (current : BrokerOrder) (event : OrderEvent) (audit : AuditEvent) : Prop where
  found : repo.orderTable.get? clientOrderId = some previous
  evolves : BrokerOrder.Evolves previous change current
  submittedOnce : change.submittedAt = none ∨ previous.state = .intentCommitted
  newBrokerEvent : ∀ id, brokerEventId = some id → repo.brokerEventOwners.get? id = none
  event_eq : event.toOrderEventFields = OrderEvent.betweenFields previous current brokerEventId
  eventFresh : repo.orderEventTable.get? event.orderEventId = none
  audited : ∃ intent plan, repo.intentTable.get? current.clientOrderId = some intent ∧
    repo.planTable.get? intent.executionPlanId = some plan ∧
    nextAudit repo.auditLog plan.experimentHash "order.state_changed" current.updatedAt
      (stateChangedPayload previous current event authorityHash) = .ok audit

/-- What is checked before an incident is stored. -/
structure IncidentAdmitted (repo : MemoryExecutionRepository) (incident : Incident)
    (audit : AuditEvent) : Prop where
  keyFresh : repo.incidentKeyTable.get? incident.idempotencyKey = none
  idFresh : repo.incidentTable.get? incident.incidentId = none
  audited : nextAudit repo.auditLog incident.experimentHash "incident.opened" incident.openedAt
    (incidentOpenedPayload incident) = .ok audit

/-- What is checked before a reconciliation bundle is stored. -/
structure BundleAdmitted (repo : MemoryExecutionRepository) (receipt : ReconciliationReceipt)
    (request : ReconciliationRequest) (latchEvent : Option RiskLatchEvent)
    (incident : Option Incident) (audit : AuditEvent) : Prop where
  identities : repo.checkBundleIdentities receipt latchEvent incident = .ok ()
  reconciled : ∃ planId plan decision authoritative, receipt.executionPlanId = some planId ∧
    repo.planTable.get? planId = some plan ∧ plan.experimentHash = receipt.experimentHash ∧
    repo.riskDecisionTable.get? plan.riskDecisionId = some decision ∧
    checkReconciliationRequest plan decision receipt request = .ok () ∧
    repo.authoritativeRequest plan decision request = .ok authoritative ∧
    reconcile authoritative = .ok receipt
  controls : repo.validateReconciliationControls receipt latchEvent incident = .ok ()
  receiptFresh : repo.reconciliationTable.get? receipt.reconciliationId = none
  audited : nextAudit repo.auditLog receipt.experimentHash "reconciliation.completed"
    receipt.completedAt (reconciliationCompletedPayload receipt) = .ok audit

/-- The ledger with a new incident and its audit event. -/
def withIncident (repo : MemoryExecutionRepository) (incident : Incident) (audit : AuditEvent) :
    MemoryExecutionRepository :=
  { repo.storeIncident incident with auditLog := repo.auditLog ++ [audit] }

/-- The ledger with a new fill and its audit event. -/
def withFill (repo : MemoryExecutionRepository) (fill : Fill) (audit : AuditEvent) :
    MemoryExecutionRepository :=
  { repo.insertFill fill with auditLog := repo.auditLog ++ [audit] }

/-- One write of the ledger; a transition leads to a state that `enters` permits. -/
inductive Write (enters : OrderState → Prop) (repo : MemoryExecutionRepository) :
    MemoryExecutionRepository → Prop
  | plan (plan : ExecutionPlan) (intents : List OrderIntent) (decision : RiskDecision)
      (audit : AuditEvent) (admitted : PlanAdmitted repo plan intents decision audit) :
      Write enters repo (repo.storePlan plan intents decision audit)
  | transition (clientOrderId : String) (previous : BrokerOrder) (change : OrderChange)
      (brokerEventId authorityHash : Option String) (current : BrokerOrder) (event : OrderEvent)
      (audit : AuditEvent)
      (admitted : TransitionAdmitted repo clientOrderId previous change brokerEventId
        authorityHash current event audit) (entered : enters change.state) :
      Write enters repo (repo.storeTransition current event audit)
  | fill (intent : OrderIntent) (fill : Fill) (audit : AuditEvent)
      (fresh : repo.fillTable.get? fill.brokerExecutionId = none)
      (audited : (repo.insertFill fill).fillAudit intent fill = .ok audit) :
      Write enters repo (repo.withFill fill audit)
  | unauditedFill (fill : Fill) (fresh : repo.fillTable.get? fill.brokerExecutionId = none) :
      Write enters repo (repo.insertFill fill)
  | incident (incident : Incident) (audit : AuditEvent)
      (admitted : IncidentAdmitted repo incident audit) :
      Write enters repo (repo.withIncident incident audit)
  | bundle (receipt : ReconciliationReceipt) (request : ReconciliationRequest)
      (latchEvent : Option RiskLatchEvent) (incident : Option Incident) (audit : AuditEvent)
      (admitted : BundleAdmitted repo receipt request latchEvent incident audit) :
      Write enters repo (repo.storeBundle receipt latchEvent incident audit)

/-! ## One lemma per operation -/

variable {repo repo' : MemoryExecutionRepository}

/-- A persisted plan is new, or already durable with the same bundle. -/
theorem persistPlanAndIntents_spec {plan : ExecutionPlan} {intents : List OrderIntent}
    {decision : RiskDecision} (h : repo.persistPlanAndIntents plan intents decision = .ok repo') :
    (repo' = repo ∧ repo.planTable.get? plan.executionPlanId = some plan) ∨
      ∃ audit, PlanAdmitted repo plan intents decision audit ∧
        repo' = repo.storePlan plan intents decision audit := by
  simp only [persistPlanAndIntents, bind_eq_ok, rejectIf_eq_ok, exists_const, not_or, not_not] at h
  obtain ⟨-, hseq, result, hresult, ⟨hplan, hintents⟩, h⟩ := h
  cases hget : repo.planTable.get? plan.executionPlanId with
  | some existing =>
      simp only [hget, bind_eq_ok, rejectIf_eq_ok, exists_const, not_not, pure_eq_ok] at h
      obtain ⟨⟨rfl, -, -⟩, rfl⟩ := h
      exact Or.inl ⟨rfl, rfl⟩
  | none =>
      simp only [hget, bind_eq_ok, rejectIf_eq_ok, exists_const, pure_eq_ok, List.any_eq_true,
        Bool.or_eq_true, not_exists, not_and, not_or, Bool.not_eq_true,
        Dict.contains_eq_false] at h
      obtain ⟨hfresh, audit, haudit, rfl⟩ := h
      exact Or.inr ⟨audit, ⟨⟨result, hresult, hplan, hintents⟩, hseq, hget, hfresh, haudit⟩, rfl⟩

/-- A recorded incident is new, or already durable. -/
theorem recordIncident_spec {incident stored : Incident}
    (h : repo.recordIncident incident = .ok (stored, repo')) :
    stored = incident ∧ (repo' = repo ∨
      ∃ audit, IncidentAdmitted repo incident audit ∧ repo' = repo.withIncident incident audit) := by
  unfold recordIncident at h
  cases hkey : repo.incidentKeyTable.get? incident.idempotencyKey with
  | some existing =>
      simp only [hkey, rejectIf_bind_eq_ok, not_not, pure_eq_ok, Prod.mk.injEq] at h
      exact ⟨h.2.1.symm.trans h.1, Or.inl h.2.2.symm⟩
  | none =>
      cases hid : repo.incidentTable.get? incident.incidentId with
      | some identity =>
          simp only [hkey, hid, rejectIf_bind_eq_ok, not_not, pure_eq_ok, Prod.mk.injEq] at h
          exact ⟨h.2.1.symm.trans h.1, Or.inl h.2.2.symm⟩
      | none =>
          simp only [hkey, hid, bind_eq_ok, pure_eq_ok, Prod.mk.injEq] at h
          obtain ⟨audit, haudit, rfl, rfl⟩ := h
          exact ⟨rfl, Or.inr ⟨audit, ⟨hkey, hid, haudit⟩, rfl⟩⟩

/-- The transition of a found order, stored after `evolve` accepted it. -/
theorem appendOrderTransition_spec {clientOrderId : String} {previous current : BrokerOrder}
    {change : OrderChange} {brokerEventId authorityHash : Option String}
    (found : repo.orderTable.get? clientOrderId = some previous)
    (evolved : previous.evolve change = .ok current)
    (submittedOnce : change.submittedAt = none ∨ previous.state = .intentCommitted)
    (h : repo.appendOrderTransition previous current brokerEventId authorityHash = .ok repo') :
    ∃ event audit, TransitionAdmitted repo clientOrderId previous change brokerEventId
        authorityHash current event audit ∧
      repo' = repo.storeTransition current event audit := by
  simp only [appendOrderTransition, bind_eq_ok, rejectIf_eq_ok, exists_const, getIntent_eq_ok,
    getPlan_eq_ok, pure_eq_ok, Bool.not_eq_true, Dict.contains_eq_false] at h
  obtain ⟨_, hbroker, event, hevent, hfresh, intent, hintent, plan, hplan, audit, haudit, rfl⟩ := h
  exact ⟨event, audit, ⟨found, BrokerOrder.evolve_spec evolved, submittedOnce,
    checkBrokerEventId_eq_ok.1 hbroker, OrderEvent.fromOrders_eq_ok hevent, hfresh, intent, plan, hintent, hplan, haudit⟩, rfl⟩

/-- The transition that starts a submission. -/
def startedChange (startedAt : Instant) : OrderChange where
  state := .submissionStarted
  updatedAt := startedAt
  submittedAt := some startedAt

/-- A submission starts from a committed intent, under an authority for the present ledger. -/
theorem recordSubmissionStarted_spec {id : String} {startedAt : Instant}
    {authority : SubmissionAuthoritySnapshot} {current : BrokerOrder}
    (h : repo.recordSubmissionStarted id startedAt authority = .ok (current, repo')) :
    ∃ previous snapshot event audit, previous.state = .intentCommitted ∧
      authority.clientOrderId = id ∧
      repo.submissionLedgerSnapshot id = .ok snapshot ∧
      snapshot.contentHash = authority.ledgerSnapshotHash ∧
      TransitionAdmitted repo id previous (startedChange startedAt) none
        (some authority.contentHash) current event audit ∧
      repo' = repo.storeTransition current event audit := by
  simp only [recordSubmissionStarted, bind_eq_ok, rejectIf_eq_ok, exists_const, getOrder_eq_ok,
    pure_eq_ok, Prod.mk.injEq, not_not] at h
  obtain ⟨previous, hfound, hid, snapshot, hsnap, hhash, hstate, current', hevolve, stored,
    hstored, rfl, rfl⟩ := h
  obtain ⟨event, audit, hadmitted, rfl⟩ :=
    appendOrderTransition_spec hfound hevolve (Or.inr hstate) hstored
  exact ⟨previous, snapshot, event, audit, hstate, hid, hsnap, hhash, hadmitted, rfl⟩

/-- The three local transitions either find the order where they lead, or store one transition. -/
theorem recordReconciliationRequired_spec {id : String} {observedAt : Instant}
    {reasonCode : String} {current : BrokerOrder}
    (h : repo.recordReconciliationRequired id observedAt reasonCode = .ok (current, repo')) :
    (repo' = repo ∧ repo.orderTable.get? id = some current) ∨
      ∃ previous event audit, TransitionAdmitted repo id previous
          { state := .reconciliationRequired, updatedAt := observedAt,
            safeErrorCode := some reasonCode } none none current event audit ∧
        repo' = repo.storeTransition current event audit := by
  simp only [recordReconciliationRequired, bind_eq_ok, getOrder_eq_ok] at h
  obtain ⟨previous, hfound, h⟩ := h
  split at h
  · simp only [pure_eq_ok, Prod.mk.injEq] at h
    obtain ⟨rfl, rfl⟩ := h
    exact Or.inl ⟨rfl, hfound⟩
  · simp only [bind_eq_ok, rejectIf_eq_ok, exists_const, pure_eq_ok, Prod.mk.injEq] at h
    obtain ⟨-, current', hevolve, stored, hstored, rfl, rfl⟩ := h
    obtain ⟨event, audit, hadmitted, rfl⟩ :=
      appendOrderTransition_spec hfound hevolve (Or.inl rfl) hstored
    exact Or.inr ⟨previous, event, audit, hadmitted, rfl⟩

theorem recordCancelRequested_spec {id : String} {requestedAt : Instant} {current : BrokerOrder}
    (h : repo.recordCancelRequested id requestedAt = .ok (current, repo')) :
    (repo' = repo ∧ repo.orderTable.get? id = some current) ∨
      ∃ previous event audit, TransitionAdmitted repo id previous
          { state := .cancelRequested, updatedAt := requestedAt } none none current event audit ∧
        repo' = repo.storeTransition current event audit := by
  simp only [recordCancelRequested, bind_eq_ok, getOrder_eq_ok] at h
  obtain ⟨previous, hfound, h⟩ := h
  split at h
  · simp only [pure_eq_ok, Prod.mk.injEq] at h
    obtain ⟨rfl, rfl⟩ := h
    exact Or.inl ⟨rfl, hfound⟩
  · simp only [bind_eq_ok, rejectIf_eq_ok, exists_const, pure_eq_ok, Prod.mk.injEq] at h
    obtain ⟨-, current', hevolve, stored, hstored, rfl, rfl⟩ := h
    obtain ⟨event, audit, hadmitted, rfl⟩ :=
      appendOrderTransition_spec hfound hevolve (Or.inl rfl) hstored
    exact Or.inr ⟨previous, event, audit, hadmitted, rfl⟩

theorem recordSubmissionUnknown_spec {id : String} {observedAt : Instant} {reasonCode : String}
    {current : BrokerOrder}
    (h : repo.recordSubmissionUnknown id observedAt reasonCode = .ok (current, repo')) :
    (repo' = repo ∧ repo.orderTable.get? id = some current) ∨
      ∃ previous event audit, TransitionAdmitted repo id previous
          { state := .submissionUnknown, updatedAt := observedAt,
            safeErrorCode := some reasonCode } none none current event audit ∧
        repo' = repo.storeTransition current event audit := by
  simp only [recordSubmissionUnknown, bind_eq_ok, getOrder_eq_ok] at h
  obtain ⟨previous, hfound, h⟩ := h
  split at h
  · simp only [pure_eq_ok, Prod.mk.injEq] at h
    obtain ⟨rfl, rfl⟩ := h
    exact Or.inl ⟨rfl, hfound⟩
  · simp only [bind_eq_ok, rejectIf_eq_ok, exists_const, pure_eq_ok, Prod.mk.injEq] at h
    obtain ⟨-, current', hevolve, stored, hstored, rfl, rfl⟩ := h
    obtain ⟨event, audit, hadmitted, rfl⟩ :=
      appendOrderTransition_spec hfound hevolve (Or.inl rfl) hstored
    exact Or.inr ⟨previous, event, audit, hadmitted, rfl⟩

/-- An admitted update reports what the order already holds, or evolves the order. -/
theorem projectBrokerUpdate_spec {update : BrokerUpdate} {outcome : UpdateOutcome}
    (h : repo.projectBrokerUpdate update = .ok outcome) :
    ∃ previous intent, repo.orderTable.get? update.clientOrderId = some previous ∧
      repo.intentTable.get? update.clientOrderId = some intent ∧
      repo.validateBrokerUpdate update previous intent = .ok () ∧
      ((sameProjection previous update = true ∧ outcome = .unchanged previous ∧
          ∀ f ∈ update.fills, repo.fillTable.contains f.brokerExecutionId = true) ∨
        (sameProjection previous update = false ∧ ∃ current event audit,
          TransitionAdmitted repo update.clientOrderId previous (updateChange previous update)
            (some update.brokerEventId) none current event audit ∧
          outcome = .transitioned current intent (repo.storeTransition current event audit))) := by
  simp only [projectBrokerUpdate, bind_eq_ok, getOrder_eq_ok, getIntent_eq_ok] at h
  obtain ⟨previous, hfound, intent, hintent, _, hvalid, h⟩ := h
  refine ⟨previous, intent, hfound, hintent, hvalid, ?_⟩
  split at h
  · next hsame =>
      simp only [bind_eq_ok, rejectIf_eq_ok, exists_const, pure_eq_ok, Bool.not_eq_true,
        List.any_eq_false, Bool.not_eq_true'] at h
      obtain ⟨hknown, rfl⟩ := h
      exact Or.inl ⟨hsame, rfl, fun f hf =>
        by simpa [Option.ne_none_iff_exists'] using hknown f hf⟩
  · next hsame =>
      simp only [bind_eq_ok, pure_eq_ok] at h
      obtain ⟨current, hevolve, stored, hstored, rfl⟩ := h
      obtain ⟨event, audit, hadmitted, rfl⟩ :=
      appendOrderTransition_spec hfound hevolve (Or.inl rfl) hstored
      exact Or.inr ⟨by simpa using hsame, current, event, audit, hadmitted, rfl⟩

/-- A recorded bundle is new, or its receipt is already durable. -/
theorem recordReconciliationBundle_spec {receipt : ReconciliationReceipt}
    {request : ReconciliationRequest} {latchEvent : Option RiskLatchEvent}
    {incident : Option Incident}
    (h : repo.recordReconciliationBundle receipt request latchEvent incident = .ok repo') :
    (repo' = repo ∧ repo.reconciliationTable.get? receipt.reconciliationId = some receipt) ∨
      ∃ audit, BundleAdmitted repo receipt request latchEvent incident audit ∧
        repo' = repo.storeBundle receipt latchEvent incident audit := by
  simp only [recordReconciliationBundle, bind_eq_ok, rejectIf_eq_ok, exists_const, require_eq_ok,
    getPlan_eq_ok, not_not] at h
  obtain ⟨_, hids, planId, hplanId, plan, hplan, hexp, decision, hdecision, _, hrequest,
    authoritative, hauth, recomputed, hreconcile, hsame, _, hcontrols, h⟩ := h
  subst hsame
  cases hget : repo.reconciliationTable.get? recomputed.reconciliationId with
  | some existing =>
      simp only [hget, bind_eq_ok, rejectIf_eq_ok, exists_const, not_not, pure_eq_ok] at h
      obtain ⟨rfl, -, rfl⟩ := h
      exact Or.inl ⟨rfl, rfl⟩
  | none =>
      simp only [hget, bind_eq_ok, pure_eq_ok] at h
      obtain ⟨audit, haudit, rfl⟩ := h
      exact Or.inr ⟨audit, ⟨hids, ⟨planId, plan, decision, authoritative, hplanId, hplan, hexp,
        hdecision, hrequest, hauth, hreconcile⟩, hcontrols, hget, hexp ▸ haudit⟩, rfl⟩

/-- How `applyBrokerUpdate` ends, by the outcome of the checks. -/
theorem applyBrokerUpdate_of_error {update : BrokerUpdate} {e : PlatformError}
    (h : repo.projectBrokerUpdate update = .error e) :
    applyBrokerUpdate (some update) repo = (.error e, repo) := by
  simp only [applyBrokerUpdate, h]

theorem applyBrokerUpdate_of_unchanged {update : BrokerUpdate} {order : BrokerOrder}
    (h : repo.projectBrokerUpdate update = .ok (.unchanged order)) :
    applyBrokerUpdate (some update) repo = (.ok order, repo) := by
  simp only [applyBrokerUpdate, h]

theorem applyBrokerUpdate_of_transitioned {update : BrokerUpdate} {order : BrokerOrder}
    {intent : OrderIntent} {stored : MemoryExecutionRepository}
    (h : repo.projectBrokerUpdate update = .ok (.transitioned order intent stored)) :
    applyBrokerUpdate (some update) repo =
      Exec.andThen (Exec.forEach (recordFill intent) update.fills) (fun _ => Exec.ret order)
        stored := by
  simp only [applyBrokerUpdate, h]

/-! ## Operations as computations -/

/-- Zero or more writes. -/
def Writes (enters : OrderState → Prop) :
    MemoryExecutionRepository → MemoryExecutionRepository → Prop :=
  Relation.ReflTransGen (Write enters)

/-- Every operation but the start of a submission leads elsewhere. -/
def NotStarted (state : OrderState) : Prop := state ≠ .submissionStarted

omit [ContentHasher] in
theorem not_started_of_update (update : BrokerUpdate) : NotStarted update.state := by
  intro h
  have hmem := update.state_mem
  rw [h] at hmem
  exact absurd hmem (by decide)

section Writes

variable {enters : OrderState → Prop}

theorem Writes.refl (repo : MemoryExecutionRepository) : Writes enters repo repo :=
  Relation.ReflTransGen.refl

theorem Write.writes (h : Write enters repo repo') : Writes enters repo repo' :=
  Relation.ReflTransGen.single h

theorem composable_writes : Exec.Composable (Writes enters) :=
  ⟨Writes.refl, fun h₁ h₂ => Relation.ReflTransGen.trans h₁ h₂⟩

end Writes

theorem persistPlanAndIntents_writes {plan : ExecutionPlan} {intents : List OrderIntent}
    {decision : RiskDecision} (h : repo.persistPlanAndIntents plan intents decision = .ok repo') :
    Writes NotStarted repo repo' := by
  obtain ⟨rfl, -⟩ | ⟨audit, hadmitted, rfl⟩ := persistPlanAndIntents_spec h
  · exact Writes.refl repo'
  · exact (Write.plan _ _ _ _ hadmitted).writes

theorem recordIncident_writes {incident : Incident}
    {stored : Incident × MemoryExecutionRepository}
    (h : repo.recordIncident incident = .ok stored) : Writes NotStarted repo stored.2 := by
  obtain ⟨-, heq | ⟨audit, hadmitted, heq⟩⟩ := recordIncident_spec h
  · rw [heq]
    exact Writes.refl repo
  · exact heq ▸ (Write.incident _ _ hadmitted).writes

theorem recordSubmissionStarted_writes {id : String} {startedAt : Instant}
    {authority : SubmissionAuthoritySnapshot} {stored : BrokerOrder × MemoryExecutionRepository}
    (h : repo.recordSubmissionStarted id startedAt authority = .ok stored) :
    Writes (· = .submissionStarted) repo stored.2 := by
  obtain ⟨_, _, _, _, -, -, -, -, hadmitted, heq⟩ := recordSubmissionStarted_spec h
  rw [heq]
  refine Relation.ReflTransGen.single ?_
  exact Write.transition _ _ _ _ _ _ _ _ hadmitted rfl

theorem recordReconciliationRequired_writes {id : String} {observedAt : Instant}
    {reasonCode : String} {stored : BrokerOrder × MemoryExecutionRepository}
    (h : repo.recordReconciliationRequired id observedAt reasonCode = .ok stored) :
    Writes NotStarted repo stored.2 := by
  obtain ⟨heq, -⟩ | ⟨_, _, _, hadmitted, heq⟩ := recordReconciliationRequired_spec h
  · rw [heq]
    exact Writes.refl repo
  · exact heq ▸ (Write.transition _ _ _ _ _ _ _ _ hadmitted nofun).writes

theorem recordCancelRequested_writes {id : String} {requestedAt : Instant}
    {stored : BrokerOrder × MemoryExecutionRepository}
    (h : repo.recordCancelRequested id requestedAt = .ok stored) : Writes NotStarted repo stored.2 := by
  obtain ⟨heq, -⟩ | ⟨_, _, _, hadmitted, heq⟩ := recordCancelRequested_spec h
  · rw [heq]
    exact Writes.refl repo
  · exact heq ▸ (Write.transition _ _ _ _ _ _ _ _ hadmitted nofun).writes

theorem recordSubmissionUnknown_writes {id : String} {observedAt : Instant} {reasonCode : String}
    {stored : BrokerOrder × MemoryExecutionRepository}
    (h : repo.recordSubmissionUnknown id observedAt reasonCode = .ok stored) :
    Writes NotStarted repo stored.2 := by
  obtain ⟨heq, -⟩ | ⟨_, _, _, hadmitted, heq⟩ := recordSubmissionUnknown_spec h
  · rw [heq]
    exact Writes.refl repo
  · exact heq ▸ (Write.transition _ _ _ _ _ _ _ _ hadmitted nofun).writes

theorem recordReconciliationBundle_writes {receipt : ReconciliationReceipt}
    {request : ReconciliationRequest} {latchEvent : Option RiskLatchEvent}
    {incident : Option Incident}
    (h : repo.recordReconciliationBundle receipt request latchEvent incident = .ok repo') :
    Writes NotStarted repo repo' := by
  obtain ⟨rfl, -⟩ | ⟨audit, hadmitted, rfl⟩ := recordReconciliationBundle_spec h
  · exact Writes.refl repo'
  · exact (Write.bundle _ _ _ _ _ hadmitted).writes

theorem writes_recordFill (intent : OrderIntent) (fill : Fill) :
    Exec.Respects (Writes NotStarted) (recordFill intent fill) := by
  intro repo
  unfold recordFill
  split
  · exact Writes.refl repo
  · next hfresh =>
      have hfresh : repo.fillTable.get? fill.brokerExecutionId = none := by
        simpa [Dict.contains] using hfresh
      split
      · exact (Write.unauditedFill fill hfresh).writes
      · next audit haudit => exact (Write.fill intent fill audit hfresh haudit).writes

theorem writes_applyBrokerUpdate (update : Option BrokerUpdate) :
    Exec.Respects (Writes NotStarted) (applyBrokerUpdate update) := by
  intro repo
  cases update with
  | none => exact Writes.refl repo
  | some update =>
      cases hproject : repo.projectBrokerUpdate update with
      | error e =>
          rw [applyBrokerUpdate_of_error hproject]
          exact Writes.refl repo
      | ok outcome =>
          obtain ⟨previous, intent, -, -, -, ⟨-, rfl, -⟩ | ⟨-, current, event, audit, hadmitted,
            rfl⟩⟩ := projectBrokerUpdate_spec hproject
          · rw [applyBrokerUpdate_of_unchanged hproject]
            exact Writes.refl repo
          · have hfills := Exec.Respects.andThen composable_writes
              (Exec.Respects.forEach composable_writes (writes_recordFill intent) update.fills)
              (fun _ => Exec.Respects.ret composable_writes current)
            rw [applyBrokerUpdate_of_transitioned hproject]
            exact composable_writes.trans (Write.transition _ _ _ _ _ _ _ _ hadmitted
              (not_started_of_update update)).writes (hfills _)

end MemoryExecutionRepository

open MemoryExecutionRepository

/-- The mutating operations of the ledger. -/
inductive LedgerOperation
  | persistPlanAndIntents (plan : ExecutionPlan) (intents : List OrderIntent)
      (decision : RiskDecision)
  | recordIncident (incident : Incident)
  | recordSubmissionStarted (clientOrderId : String) (startedAt : Instant)
      (authority : SubmissionAuthoritySnapshot)
  | recordReconciliationRequired (clientOrderId : String) (observedAt : Instant)
      (reasonCode : String)
  | recordCancelRequested (clientOrderId : String) (requestedAt : Instant)
  | recordSubmissionUnknown (clientOrderId : String) (observedAt : Instant) (reasonCode : String)
  | applyBrokerUpdate (update : Option BrokerUpdate)
  | recordReconciliationBundle (receipt : ReconciliationReceipt) (request : ReconciliationRequest)
      (latchEvent : Option RiskLatchEvent) (incident : Option Incident)

section Runs

variable [ContentHasher]

/-- Perform an operation; its return value is dropped. -/
def LedgerOperation.exec : LedgerOperation → Exec MemoryExecutionRepository PlatformError Unit
  | persistPlanAndIntents plan intents decision => Exec.transaction fun repo =>
      (repo.persistPlanAndIntents plan intents decision).map fun stored => ((), stored)
  | recordIncident incident => Exec.transaction fun repo =>
      (repo.recordIncident incident).map fun stored => ((), stored.2)
  | recordSubmissionStarted id startedAt authority => Exec.transaction fun repo =>
      (repo.recordSubmissionStarted id startedAt authority).map fun stored => ((), stored.2)
  | recordReconciliationRequired id observedAt reasonCode => Exec.transaction fun repo =>
      (repo.recordReconciliationRequired id observedAt reasonCode).map fun stored => ((), stored.2)
  | recordCancelRequested id requestedAt => Exec.transaction fun repo =>
      (repo.recordCancelRequested id requestedAt).map fun stored => ((), stored.2)
  | recordSubmissionUnknown id observedAt reasonCode => Exec.transaction fun repo =>
      (repo.recordSubmissionUnknown id observedAt reasonCode).map fun stored => ((), stored.2)
  | applyBrokerUpdate update =>
      Exec.andThen (MemoryExecutionRepository.applyBrokerUpdate update) fun _ => Exec.ret ()
  | recordReconciliationBundle receipt request latchEvent incident => Exec.transaction fun repo =>
      (repo.recordReconciliationBundle receipt request latchEvent incident).map
        fun stored => ((), stored)

/-- All runs of the ledger: any operation may follow any other, and one that raises is a step too. -/
def ledgerRuns : Transition MemoryExecutionRepository LedgerOperation where
  init repo := repo = {}
  step repo operation repo' := (operation.exec repo).2 = repo'

/-- The operation returns instead of raising. -/
def LedgerOperation.Succeeds (repo : MemoryExecutionRepository) (operation : LedgerOperation) :
    Prop :=
  (operation.exec repo).1 = .ok ()

/-- The runs in which every operation succeeds. -/
def successfulRuns : Transition MemoryExecutionRepository LedgerOperation :=
  ledgerRuns.restrict LedgerOperation.Succeeds

/-- A transaction whose successes are sequences of writes. -/
theorem writes_transaction {enters : OrderState → Prop} {α : Type} 
    {f : MemoryExecutionRepository → Except PlatformError α} (stored : α → MemoryExecutionRepository)
    (hf : ∀ repo a, f repo = .ok a → Writes enters repo (stored a)) :
    Exec.Respects (Writes enters)
      (Exec.transaction fun repo => (f repo).map fun a => ((), stored a)) := by
  refine Exec.Respects.transaction composable_writes fun repo _ repo' h => ?_
  obtain ⟨a, ha, heq⟩ := map_eq_ok.1 h
  obtain ⟨-, rfl⟩ := Prod.mk.inj heq
  exact hf repo a ha

/-- The states an operation can lead an order to. -/
def LedgerOperation.enters : LedgerOperation → OrderState → Prop
  | recordSubmissionStarted _ _ _ => (· = .submissionStarted)
  | _ => NotStarted

/-- Every operation is a sequence of writes, whether it returns or raises. -/
theorem writes_exec (operation : LedgerOperation) : 
    Exec.Respects (Writes operation.enters) operation.exec := by
  cases operation with
  | persistPlanAndIntents plan intents decision =>
      exact writes_transaction _ fun _ _ h => persistPlanAndIntents_writes h
  | recordIncident incident => exact writes_transaction _ fun _ _ h => recordIncident_writes h
  | recordSubmissionStarted id startedAt authority =>
      exact writes_transaction _ fun _ _ h => recordSubmissionStarted_writes h
  | recordReconciliationRequired id observedAt reasonCode =>
      exact writes_transaction _ fun _ _ h => recordReconciliationRequired_writes h
  | recordCancelRequested id requestedAt =>
      exact writes_transaction _ fun _ _ h => recordCancelRequested_writes h
  | recordSubmissionUnknown id observedAt reasonCode =>
      exact writes_transaction _ fun _ _ h => recordSubmissionUnknown_writes h
  | applyBrokerUpdate update =>
      exact Exec.Respects.andThen composable_writes (writes_applyBrokerUpdate update)
        fun _ => Exec.Respects.ret composable_writes ()
  | recordReconciliationBundle receipt request latchEvent incident =>
      exact writes_transaction _ fun _ _ h => recordReconciliationBundle_writes h

end Runs

end AdaptiveTrader
