import Mathlib
import AdaptiveTrader.Execution.Progress

/-!
# What a broker update can do to the ledger

`apply_broker_update` checks an update, stores the order's transition and then records the new
fills one by one. The transition's audit payload always meets the audit contract; a fill's payload
meets it exactly when the broker execution ID is an audit ID, which the fill's own validation does
not ask for. An admitted update with such a fill therefore raises with its transition stored
(`update_atomic_iff`).
-/

set_option autoImplicit false

namespace AdaptiveTrader

open Foundation

namespace MemoryExecutionRepository

/-! ## Checks on fills -/

section Checks

variable {repo : MemoryExecutionRepository} {intent : OrderIntent} {order : BrokerOrder}

-- The equations of the definitions, stated once for all the proofs below.
attribute [local simp] checkReportedFills checkFillLifecycle verifyFillEvidence checkCumulativeFill
  validateBrokerUpdate fillAudit nextAudit AuditPayload.fromMapping recordFill Exec.forEach
  appendOrderTransition projectBrokerUpdate FillFields.check BrokerUpdateFields.check
  BrokerOrderFields.check BrokerOrder.evolvedFields updateChange startedChange in
theorem checkReportedFills_eq_ok {fills : List Fill} :
    repo.checkReportedFills intent fills = .ok () ↔ ∀ f ∈ fills, fillMatches intent f = true ∧
      ∀ existing, repo.fillTable.get? f.brokerExecutionId = some existing → existing = f := by
  induction fills with
  | nil => simp [checkReportedFills]
  | cons f rest ih =>
      simp only [checkReportedFills, rejectIf_bind_eq_ok, ih, List.forall_mem_cons,
        Bool.not_eq_false, Option.mem_def, not_exists, not_and, not_not, and_assoc]

/-- A fill lies within the order's lifecycle. -/
def WithinLifecycle (intent : OrderIntent) (order : BrokerOrder) (updateAt : Instant)
    (fill : Fill) : Prop :=
  fillMatches intent fill = true ∧ intent.createdAt ≤ fill.occurredAt ∧
    (∀ s, order.submittedAt = some s → s ≤ fill.occurredAt) ∧ fill.occurredAt ≤ updateAt

theorem checkFillLifecycle_eq_ok {fills : List Fill} {updateAt : Instant} :
    checkFillLifecycle intent order updateAt fills = .ok () ↔
      ∀ f ∈ fills, WithinLifecycle intent order updateAt f := by
  induction fills with
  | nil => simp [checkFillLifecycle]
  | cons f rest ih =>
      simp only [checkFillLifecycle, rejectIf_bind_eq_ok, ih, List.forall_mem_cons,
        WithinLifecycle, Bool.not_eq_false, Option.mem_def, not_or, not_exists, not_and, not_lt,
        and_assoc]

/-- The evidence for a cumulative fill: a submitted order and fills of its lifecycle that add up. -/
theorem verifyFillEvidence_eq_ok {fills : List Fill} {cumulative : ℚ} {average : Option ℚ}
    {updateAt : Instant} :
    verifyFillEvidence intent order fills cumulative average updateAt = .ok () ↔
      (order.submittedAt = none → fills = []) ∧
        (∀ f ∈ fills, WithinLifecycle intent order updateAt f) ∧
        totalQuantity fills = cumulative ∧ average = meanPrice fills := by
  simp only [verifyFillEvidence, unit_bind_eq_ok, rejectIf_eq_ok, checkFillLifecycle_eq_ok,
    not_and, not_not]

/-- The reported quantity fits the intent and the reported state. -/
structure CumulativeFillFits (intent : OrderIntent) (update : BrokerUpdate) : Prop where
  le_quantity : update.cumulativeFilledQuantity ≤ intent.quantity
  filled : update.state = .filled → update.cumulativeFilledQuantity = intent.quantity
  partiallyFilled : update.state = .partiallyFilled →
    0 < update.cumulativeFilledQuantity ∧ update.cumulativeFilledQuantity < intent.quantity
  unfilled : update.state ∈ [OrderState.submitted, .accepted, .pending, .rejected] →
    update.cumulativeFilledQuantity = 0

theorem checkCumulativeFill_eq_ok {update : BrokerUpdate} :
    checkCumulativeFill intent update = .ok () ↔ CumulativeFillFits intent update := by
  simp only [checkCumulativeFill, unit_bind_eq_ok, rejectIf_eq_ok]
  constructor
  · rintro ⟨h₁, h₂, h₃, h₄⟩
    exact ⟨not_lt.1 h₁, fun hs => by_contra fun hq => h₂ ⟨hs, hq⟩,
      fun hs => by_contra fun hq => h₃ ⟨hs, hq⟩, fun hs => by_contra fun hq => h₄ ⟨hs, hq⟩⟩
  · intro h
    exact ⟨not_lt.2 h.le_quantity, fun hs => hs.2 (h.filled hs.1),
      fun hs => hs.2 (h.partiallyFilled hs.1), fun hs => hs.2 (h.unfilled hs.1)⟩

/-- What an update has to satisfy before anything is written. -/
structure UpdateValid (repo : MemoryExecutionRepository) (update : BrokerUpdate)
    (previous : BrokerOrder) (intent : OrderIntent) : Prop where
  started : previous.state ≠ .intentCommitted
  fits : CumulativeFillFits intent update
  eventOwner : ∀ owner, repo.brokerEventOwners.get? update.brokerEventId = some owner →
    owner = update.clientOrderId
  brokerOrderOwner : ∀ o ∈ repo.orderTable.values, o.brokerOrderId = some update.brokerOrderId →
    o.clientOrderId = update.clientOrderId
  brokerOrderId_keeps : ∀ id, previous.brokerOrderId = some id → update.brokerOrderId = id
  reported : ∀ f ∈ update.fills, fillMatches intent f = true ∧
    ∀ existing, repo.fillTable.get? f.brokerExecutionId = some existing → existing = f
  evidence : verifyFillEvidence intent previous (repo.candidateFills intent update)
    update.cumulativeFilledQuantity update.averageFillPrice update.occurredAt = .ok ()

theorem validateBrokerUpdate_eq_ok {update : BrokerUpdate} :
    repo.validateBrokerUpdate update order intent = .ok () ↔
      UpdateValid repo update order intent := by
  simp only [validateBrokerUpdate, unit_bind_eq_ok, rejectIf_eq_ok, checkCumulativeFill_eq_ok,
    checkReportedFills_eq_ok, Option.mem_def, List.any_eq_true, decide_eq_true_eq, not_exists,
    not_and, not_not]
  constructor
  · rintro ⟨h₁, h₂, h₃, h₄, h₅, h₆, -, h₇⟩
    exact ⟨h₁, h₂, h₃, fun o ho hid => by_contra fun hne => h₄ o ho hne hid, h₅, h₆, h₇⟩
  · intro h
    refine ⟨h.started, h.fits, h.eventOwner, fun o ho hne hid => hne (h.brokerOrderOwner o ho hid),
      h.brokerOrderId_keeps, h.reported, ?_, h.evidence⟩
    exact (verifyFillEvidence_eq_ok.1 h.evidence).2.2.1

end Checks

variable [ContentHasher] {repo repo' : MemoryExecutionRepository}

/-! ## The loop over the reported fills -/

section Fills

variable {intent : OrderIntent} {plan : ExecutionPlan} {fill : Fill}

/-- The audit event of a fill can be built exactly when its execution ID is an audit ID. -/
theorem fillAudit_cases (hplan : repo.planTable.get? intent.executionPlanId = some plan)
    (fill : Fill) :
    (isAuditId fill.brokerExecutionId = true ∧ ∃ audit, repo.fillAudit intent fill = .ok audit) ∨
      (isAuditId fill.brokerExecutionId = false ∧
        repo.fillAudit intent fill = .error (.auditValidation "audit payload ID is invalid")) := by
  have hget : repo.getPlan intent.executionPlanId = .ok plan := getPlan_eq_ok.2 hplan
  have hcontract := validateAuditObject_fillRecorded intent fill
  cases hid : isAuditId fill.brokerExecutionId with
  | true =>
      rw [hid, if_pos rfl] at hcontract
      have htype := isExecutionEventType_ledger.2.2
      obtain ⟨audit, haudit⟩ := (@nextAudit_isOk_iff _ repo.auditLog _ _ fill.occurredAt _
        plan.isSha256_experimentHash htype).2 hcontract
      refine Or.inl ⟨rfl, audit, ?_⟩
      rw [fillAudit, hget]
      exact haudit
  | false =>
      rw [hid, if_neg Bool.false_ne_true] at hcontract
      refine Or.inr ⟨rfl, ?_⟩
      rw [fillAudit, hget]
      show nextAudit _ _ _ _ _ = _
      rw [nextAudit, AuditPayload.fromMapping, validated_eq_error hcontract]
      rfl

theorem recordFill_known (hknown : repo.fillTable.contains fill.brokerExecutionId = true) :
    recordFill intent fill repo = (.ok (), repo) := by
  rw [recordFill, if_pos hknown]

/-- A new fill with an audit ID is recorded together with its audit event. -/
theorem recordFill_of_auditId (hplan : repo.planTable.get? intent.executionPlanId = some plan)
    (hnew : repo.fillTable.contains fill.brokerExecutionId = false)
    (hid : isAuditId fill.brokerExecutionId = true) :
    ∃ audit, recordFill intent fill repo = (.ok (), repo.withFill fill audit) := by
  obtain ⟨-, audit, haudit⟩ | ⟨hnot, -⟩ :=
    @fillAudit_cases _ (repo.insertFill fill) intent plan hplan fill
  · refine ⟨audit, ?_⟩
    rw [recordFill, hnew, if_neg Bool.false_ne_true, haudit]
    rfl
  · rw [hid] at hnot
    cases hnot

/-- A new fill without an audit ID is inserted before the audit contract refuses it. -/
theorem recordFill_of_not_auditId (hplan : repo.planTable.get? intent.executionPlanId = some plan)
    (hnew : repo.fillTable.contains fill.brokerExecutionId = false)
    (hid : isAuditId fill.brokerExecutionId = false) :
    recordFill intent fill repo =
      (.error (.auditValidation "audit payload ID is invalid"), repo.insertFill fill) := by
  obtain ⟨hnot, -⟩ | ⟨-, herror⟩ :=
    @fillAudit_cases _ (repo.insertFill fill) intent plan hplan fill
  · rw [hid] at hnot
    cases hnot
  · rw [recordFill, hnew, if_neg Bool.false_ne_true, herror]

omit [ContentHasher] in
/-- A fill that is unknown after another was recorded was unknown before. -/
theorem contains_of_withFill {audit : AuditEvent} {k : String}
    (h : (repo.withFill fill audit).fillTable.contains k = false) :
    k ≠ fill.brokerExecutionId ∧ repo.fillTable.contains k = false := by
  have hget : (repo.fillTable.set fill.brokerExecutionId fill).get? k = none :=
    Dict.contains_eq_false.1 h
  rw [Dict.get?_set] at hget
  split at hget
  · cases hget
  · next hk => exact ⟨hk, Dict.contains_eq_false.2 hget⟩

/-- The loop ends normally when every new fill has an audit ID. -/
theorem recordFills_ok (fills : List Fill)
    (hplan : repo.planTable.get? intent.executionPlanId = some plan)
    (hids : ∀ f ∈ fills, repo.fillTable.contains f.brokerExecutionId = false →
      isAuditId f.brokerExecutionId = true) :
    ∃ units repo', Exec.forEach (recordFill intent) fills repo = (.ok units, repo') := by
  induction fills generalizing repo with
  | nil => exact ⟨[], repo, rfl⟩
  | cons fill rest ih =>
      have hhead : ∃ stored, recordFill intent fill repo = (.ok (), stored) ∧
          stored.planTable = repo.planTable ∧ ∀ k, stored.fillTable.contains k = false →
            repo.fillTable.contains k = false := by
        cases hknown : repo.fillTable.contains fill.brokerExecutionId with
        | true => exact ⟨repo, recordFill_known hknown, rfl, fun _ h => h⟩
        | false =>
            obtain ⟨audit, haudit⟩ :=
              recordFill_of_auditId hplan hknown (hids fill List.mem_cons_self hknown)
            exact ⟨_, haudit, rfl, fun k h => (contains_of_withFill h).2⟩
      obtain ⟨stored, hstored, hplans, hless⟩ := hhead
      obtain ⟨units, repo', hrest⟩ := @ih stored (hplans ▸ hplan) fun f hf hnew =>
        hids f (List.mem_cons_of_mem _ hf) (hless _ hnew)
      refine ⟨() :: units, repo', ?_⟩
      rw [Exec.forEach]
      refine Exec.andThen_eq_ok_iff.2 ⟨(), stored, hstored, ?_⟩
      exact Exec.andThen_eq_ok_iff.2 ⟨units, repo', hrest, rfl⟩

/-- The loop raises when some new fill has no audit ID. -/
theorem recordFills_error (fills : List Fill)
    (hplan : repo.planTable.get? intent.executionPlanId = some plan)
    (hbad : ∃ f ∈ fills, repo.fillTable.contains f.brokerExecutionId = false ∧
      isAuditId f.brokerExecutionId = false) :
    ∃ repo', Exec.forEach (recordFill intent) fills repo =
      (.error (.auditValidation "audit payload ID is invalid"), repo') := by
  induction fills generalizing repo with
  | nil =>
      obtain ⟨f, hf, -⟩ := hbad
      cases hf
  | cons fill rest ih =>
      obtain ⟨bad, hmem, hnew, hid⟩ := hbad
      rw [Exec.forEach]
      cases hknown : repo.fillTable.contains fill.brokerExecutionId with
      | true =>
          have hrest : bad ∈ rest := by
            rcases List.mem_cons.1 hmem with rfl | hrest
            · rw [hknown] at hnew
              cases hnew
            · exact hrest
          obtain ⟨repo', hloop⟩ := ih hplan ⟨bad, hrest, hnew, hid⟩
          refine ⟨repo', Exec.andThen_eq_error_iff.2 (Or.inr ⟨(), repo, ?_, ?_⟩)⟩
          · exact recordFill_known hknown
          · exact Exec.andThen_eq_error_iff.2 (Or.inl hloop)
      | false =>
          cases haudit : isAuditId fill.brokerExecutionId with
          | false =>
              have hraise := recordFill_of_not_auditId hplan hknown haudit
              exact ⟨_, Exec.andThen_eq_error_iff.2 (Or.inl hraise)⟩
          | true =>
              have hne : bad.brokerExecutionId ≠ fill.brokerExecutionId := by
                intro heq
                rw [heq, haudit] at hid
                cases hid
              have hrest : bad ∈ rest := by
                rcases List.mem_cons.1 hmem with rfl | hrest
                · exact absurd rfl hne
                · exact hrest
              obtain ⟨audit, hstored⟩ := recordFill_of_auditId hplan hknown haudit
              have hstill : (repo.withFill fill audit).fillTable.contains bad.brokerExecutionId
                  = false := by
                refine Dict.contains_eq_false.2 ((Dict.get?_set_of_ne _ _ hne).trans ?_)
                exact Dict.contains_eq_false.1 hnew
              obtain ⟨repo', hloop⟩ :=
                @ih (repo.withFill fill audit) hplan ⟨bad, hrest, hstill, hid⟩
              refine ⟨repo', Exec.andThen_eq_error_iff.2 (Or.inr ⟨(), _, hstored, ?_⟩)⟩
              exact Exec.andThen_eq_error_iff.2 (Or.inl hloop)

/-- What the loop leaves behind: unknown execution IDs are added, the first fill of an ID wins, and
only the audit log changes besides. -/
theorem recordFills_spec (fills : List Fill) {units : List Unit}
    (h : Exec.forEach (recordFill intent) fills repo = (.ok units, repo')) :
    ∃ log, repo' = { repo with
      fillTable := fills.foldl (fun d f => d.setdefault f.brokerExecutionId f) repo.fillTable
      auditLog := log } := by
  induction fills generalizing repo units with
  | nil =>
      cases h
      exact ⟨_, rfl⟩
  | cons fill rest ih =>
      rw [Exec.forEach] at h
      obtain ⟨_, stored, hhead, h⟩ := Exec.andThen_eq_ok_iff.1 h
      obtain ⟨units', _, hloop, h⟩ := Exec.andThen_eq_ok_iff.1 h
      cases h
      obtain ⟨log, rfl⟩ := ih hloop
      have hstored : ∃ log', stored = { repo with
          fillTable := repo.fillTable.setdefault fill.brokerExecutionId fill
          auditLog := log' } := by
        rw [recordFill] at hhead
        cases hknown : repo.fillTable.contains fill.brokerExecutionId with
        | true =>
            rw [hknown, if_pos rfl] at hhead
            cases hhead
            obtain ⟨v, hv⟩ := Dict.contains_eq_true.1 hknown
            exact ⟨repo.auditLog, by rw [Dict.setdefault_of_get? hv]⟩
        | false =>
            rw [hknown, if_neg Bool.false_ne_true] at hhead
            split at hhead
            · cases hhead
            · next audit haudit =>
                cases hhead
                refine ⟨repo.auditLog ++ [audit], ?_⟩
                rw [Dict.setdefault_of_get?_none (Dict.contains_eq_false.1 hknown)]
                rfl
      obtain ⟨log', rfl⟩ := hstored
      exact ⟨log, rfl⟩

end Fills

/-! ## New projections -/

/-- An update passes every check before the first write and changes the order's projection. -/
structure Reprojects (repo : MemoryExecutionRepository) (update : BrokerUpdate)
    (previous : BrokerOrder) (intent : OrderIntent) (current : BrokerOrder) (event : OrderEvent) :
    Prop where
  order_found : repo.orderTable.get? update.clientOrderId = some previous
  intent_found : repo.intentTable.get? update.clientOrderId = some intent
  valid : repo.validateBrokerUpdate update previous intent = .ok ()
  changed : sameProjection previous update = false
  evolved : previous.evolve (updateChange previous update) = .ok current
  eventUnowned : repo.brokerEventOwners.get? update.brokerEventId = none
  event_eq : OrderEvent.fromOrders previous current (some update.brokerEventId) = .ok event
  eventFresh : repo.orderEventTable.get? event.orderEventId = none

/-- The ledger admits the update as a new projection of its order. -/
def NewProjection (repo : MemoryExecutionRepository) (update : BrokerUpdate) : Prop :=
  ∃ previous intent current event, Reprojects repo update previous intent current event

/-- An admitted update gets as far as the transition: its audit event can be built. -/
theorem Reprojects.projected {update : BrokerUpdate} {previous current : BrokerOrder}
    {intent : OrderIntent} {event : OrderEvent} (hw : WellFormed repo)
    (h : Reprojects repo update previous intent current event) :
    ∃ audit, repo.projectBrokerUpdate update =
      .ok (.transitioned current intent (repo.storeTransition current event audit)) := by
  have hid : current.clientOrderId = update.clientOrderId :=
    (BrokerOrder.evolve_spec h.evolved).clientOrderId.trans (hw.order_key _ _ h.order_found)
  obtain ⟨plan, hplan, -⟩ := hw.intent_plan _ _ h.intent_found
  have htype := isExecutionEventType_ledger.2.1
  have hcontract : validateAuditObject (stateChangedPayload previous current event none) = .ok () :=
    validateAuditObject_stateChanged previous current event nofun
  obtain ⟨audit, haudit⟩ := (@nextAudit_isOk_iff _ repo.auditLog _ _ current.updatedAt _
    plan.isSha256_experimentHash htype).2 hcontract
  have hstored : repo.appendOrderTransition previous current (some update.brokerEventId) none =
      .ok (repo.storeTransition current event audit) := by
    simp only [appendOrderTransition, bind_eq_ok, rejectIf_eq_ok, exists_const, getIntent_eq_ok,
      getPlan_eq_ok, pure_eq_ok, Bool.not_eq_true, Dict.contains_eq_false]
    refine ⟨(), checkBrokerEventId_eq_ok.2 ?_, event, h.event_eq, h.eventFresh, intent, ?_, plan,
      hplan, audit, haudit, rfl⟩
    · rintro id ⟨⟩
      exact h.eventUnowned
    · rw [hid]
      exact h.intent_found
  refine ⟨audit, ?_⟩
  simp only [projectBrokerUpdate, bind_eq_ok, getOrder_eq_ok, getIntent_eq_ok]
  refine ⟨previous, h.order_found, intent, h.intent_found, (), h.valid, ?_⟩
  rw [h.changed, if_neg Bool.false_ne_true]
  simp only [bind_eq_ok, pure_eq_ok]
  exact ⟨current, h.evolved, _, hstored, rfl⟩

/-- An update that transitions its order was admitted as a new projection. -/
theorem Reprojects.of_projected {update : BrokerUpdate} {current : BrokerOrder}
    {intent : OrderIntent} {stored : MemoryExecutionRepository}
    (h : repo.projectBrokerUpdate update = .ok (.transitioned current intent stored)) :
    ∃ previous event, Reprojects repo update previous intent current event := by
  simp only [projectBrokerUpdate, bind_eq_ok, getOrder_eq_ok, getIntent_eq_ok] at h
  obtain ⟨previous, hfound, intent', hintent, _, hvalid, h⟩ := h
  split at h
  · simp only [bind_eq_ok, pure_eq_ok] at h
    obtain ⟨_, -, h⟩ := h
    cases h
  · next hsame =>
      simp only [bind_eq_ok, pure_eq_ok, appendOrderTransition, rejectIf_eq_ok, exists_const,
        Bool.not_eq_true, Dict.contains_eq_false, UpdateOutcome.transitioned.injEq] at h
      obtain ⟨current', hevolve, _, ⟨_, hunowned, event, hevent, hfresh, -⟩, rfl, rfl, -⟩ := h
      exact ⟨previous, event, hfound, hintent, hvalid, by simpa using hsame, hevolve,
        checkBrokerEventId_eq_ok.1 hunowned _ rfl, hevent, hfresh⟩

/-! ## Atomicity -/

/-- Two ledgers with the same orders, order events, owners of broker events, fills and audit
events. -/
structure SameEvidence (before after : MemoryExecutionRepository) : Prop where
  orders : after.orderTable = before.orderTable
  orderEvents : after.orderEventTable = before.orderEventTable
  brokerEventOwners : after.brokerEventOwners = before.brokerEventOwners
  fills : after.fillTable = before.fillTable
  auditEvents : after.auditLog = before.auditLog

omit [ContentHasher] in
theorem SameEvidence.refl (repo : MemoryExecutionRepository) : SameEvidence repo repo :=
  ⟨rfl, rfl, rfl, rfl, rfl⟩

/-- A new projection with an unrecorded fill that has no audit ID raises after its transition. -/
theorem applyBrokerUpdate_torn {update : BrokerUpdate} (hw : WellFormed repo)
    (hnew : NewProjection repo update)
    (hbad : ∃ f ∈ update.fills, repo.fillTable.contains f.brokerExecutionId = false ∧
      isAuditId f.brokerExecutionId = false) :
    ∃ repo' audit, applyBrokerUpdate (some update) repo =
        (.error (.auditValidation "audit payload ID is invalid"), repo') ∧
      repo.auditLog ++ [audit] <+: repo'.auditLog := by
  obtain ⟨previous, intent, current, event, h⟩ := hnew
  obtain ⟨audit, hproject⟩ := h.projected hw
  obtain ⟨plan, hplan, -⟩ := hw.intent_plan _ _ h.intent_found
  obtain ⟨repo', hloop⟩ :=
    @recordFills_error _ (repo.storeTransition current event audit) intent plan _ hplan hbad
  have hwrites := (Exec.Respects.forEach composable_writes (writes_recordFill intent)
    update.fills) (repo.storeTransition current event audit)
  rw [hloop] at hwrites
  refine ⟨repo', audit, ?_, hwrites.auditLog_prefix⟩
  rw [applyBrokerUpdate_of_transitioned hproject]
  exact Exec.andThen_eq_error_iff.2 (Or.inl hloop)

/-- A new projection whose unrecorded fills all have audit IDs is applied completely. -/
theorem applyBrokerUpdate_completes {update : BrokerUpdate} (hw : WellFormed repo)
    {current : BrokerOrder} {intent : OrderIntent} {stored : MemoryExecutionRepository}
    (hproject : repo.projectBrokerUpdate update = .ok (.transitioned current intent stored))
    (hids : ∀ f ∈ update.fills, repo.fillTable.contains f.brokerExecutionId = false →
      isAuditId f.brokerExecutionId = true) :
    ∃ repo', applyBrokerUpdate (some update) repo = (.ok current, repo') := by
  obtain ⟨previous, event, hr⟩ := Reprojects.of_projected hproject
  obtain ⟨plan, hplan, -⟩ := hw.intent_plan _ _ hr.intent_found
  obtain ⟨audit, hsame⟩ := hr.projected hw
  rw [hproject] at hsame
  cases hsame
  obtain ⟨units, repo', hloop⟩ :=
    @recordFills_ok _ (repo.storeTransition current event audit) intent plan _ hplan hids
  refine ⟨repo', ?_⟩
  rw [applyBrokerUpdate_of_transitioned hproject]
  exact Exec.andThen_eq_ok_iff.2 ⟨units, repo', hloop, rfl⟩

end MemoryExecutionRepository

/-! ## Updates of the sample ledger -/

section Sample

open MemoryExecutionRepository

attribute [local instance] sampleHasher

/-- A fill of the sample order at the price of one hundred. -/
def sampleFill (brokerExecutionId : String) (quantity : ℚ)
    (hid : isIdentifier brokerExecutionId = true) (hquantity : 0 < quantity) : Fill :=
  ⟨{ clientOrderId := sampleClientOrderId, brokerExecutionId, symbol := "SPY", side := .buy,
     quantity, price := 100, fee := 0, occurredAt := 0 }, by
    simp only [FillFields.check, rejectIf_bind_eq_ok, rejectIf_eq_ok, hid, not_le]
    exact ⟨by decide +kernel, nofun, by decide +kernel, hquantity, by norm_num, by norm_num⟩⟩

/-- A partial fill of the sample order, reported with the given fills. -/
def sampleUpdate (fills : List Fill) (cumulative : ℚ) (hcumulative : 0 < cumulative) :
    BrokerUpdate :=
  ⟨{ clientOrderId := sampleClientOrderId, brokerOrderId := "order-1", brokerEventId := "event-1",
     state := .partiallyFilled, occurredAt := 0, cumulativeFilledQuantity := cumulative,
     averageFillPrice := some 100, fills, safeErrorCode := none }, by
    simp only [BrokerUpdateFields.check, rejectIf_bind_eq_ok, rejectIf_eq_ok, not_lt, not_not]
    refine ⟨by decide, hcumulative.le, ?_, by simp [hcumulative.ne']⟩
    rintro ⟨price, ⟨⟩, hprice⟩
    exact absurd hprice (by norm_num)⟩

/-- The order of the sample bundle after the partial fill. -/
theorem SampleStarted.evolve {repo : MemoryExecutionRepository} {intent : OrderIntent}
    {order : BrokerOrder} (h : SampleStarted repo intent order) {fills : List Fill}
    {cumulative : ℚ} (hpos : 0 < cumulative) :
    ∃ current, order.evolve (updateChange order (sampleUpdate fills cumulative hpos)) =
      .ok current := by
  have hc := order.checked
  simp only [BrokerOrderFields.check, unit_bind_eq_ok, rejectIf_eq_ok] at hc
  have hcheck : (order.evolvedFields
      (updateChange order (sampleUpdate fills cumulative hpos))).check = .ok () := by
    have hidentifier : isIdentifier "order-1" = true := by decide +kernel
    have hprice : ¬ (100 : ℚ) ≤ 0 := by norm_num
    have hbase := h.order_eq
    simp only [BrokerOrderFields.check, unit_bind_eq_ok, rejectIf_eq_ok]
    refine ⟨hc.1, hc.2.1, ?_⟩
    simp [hbase, BrokerOrder.evolvedFields, updateChange, sampleUpdate, startedChange,
      checkOptional, checkAveragePrice, BrokerOrder.committed, BrokerOrder.committedFields,
      hidentifier, hprice, hpos.le, hpos.ne', acceptedStates]
  have hpermitted : transitionIsPermitted order.state .partiallyFilled = true := by
    rw [h.order_eq]
    rfl
  have hprior : order.updatedAt = 0 ∧ order.brokerOrderId = none ∧
      order.cumulativeFilledQuantity = 0 := by
    rw [h.order_eq]
    exact ⟨rfl, rfl, rfl⟩
  simp only [BrokerOrder.evolve, unit_bind_eq_ok, rejectIf_eq_ok, validateOrderTransition_eq_ok]
  refine ⟨_, hpermitted, not_lt.2 hprior.1.le, ?_, ?_, validated_of_ok hcheck⟩
  · rw [hprior.2.1]
    rintro ⟨old, ⟨⟩, -⟩
  · rw [hprior.2.2]
    exact not_lt.2 hpos.le

/-- The event of the partial fill. -/
def samplePartialEvent : OrderEvent :=
  ⟨{ clientOrderId := sampleClientOrderId, sequence := 2, fromState := .submissionStarted,
     toState := .partiallyFilled, brokerEventId := some "event-1", occurredAt := 0,
     safeErrorCode := none }, by decide +kernel⟩

/-- The fills of the partial fill are new and lie within the sample order's lifecycle. -/
structure SampleFills (fills : List Fill) (cumulative : ℚ) : Prop where
  matching : ∀ f ∈ fills, f.clientOrderId = sampleClientOrderId ∧ f.symbol = "SPY" ∧
    f.side = .buy ∧ f.occurredAt = 0
  total : totalQuantity (Dict.ofValues (·.brokerExecutionId) fills).values = cumulative
  mean : meanPrice (Dict.ofValues (·.brokerExecutionId) fills).values = some 100

theorem SampleStarted.updateValid {repo : MemoryExecutionRepository} {intent : OrderIntent}
    {order : BrokerOrder} (h : SampleStarted repo intent order) {fills : List Fill}
    {cumulative : ℚ} (hfills : SampleFills fills cumulative) (hpos : 0 < cumulative)
    (hlt : cumulative < 100) :
    UpdateValid repo (sampleUpdate fills cumulative hpos) order intent := by
  have hw := WellFormed.of_reachable h.reachable.of_restrict
  have hid : order.clientOrderId = sampleClientOrderId := hw.order_key _ _ h.order_found
  have hprior : order.state ≠ .intentCommitted ∧ order.submittedAt = some 0 ∧
      order.brokerOrderId = none := by
    rw [h.order_eq]
    exact ⟨nofun, rfl, rfl⟩
  have hmatches : ∀ f ∈ fills, fillMatches intent f = true := fun f hf => by
    obtain ⟨h₁, h₂, h₃, -⟩ := hfills.matching f hf
    simp [fillMatches, h₁, h₂, h₃, h.intent_id, h.intent_symbol, h.intent_side]
  have hcandidates : repo.candidateFills intent (sampleUpdate fills cumulative hpos) =
      (Dict.ofValues (·.brokerExecutionId) fills).values := by
    have hnone : repo.fillsForOrder intent.clientOrderId = [] := by
      rw [fillsForOrder, h.fills]
      rfl
    rw [candidateFills, hnone]
    rfl
  have hmem : ∀ f ∈ (Dict.ofValues (·.brokerExecutionId) fills).values, f ∈ fills :=
    fun f hf => by
      obtain ⟨k, hk⟩ := Dict.mem_values_iff.1 hf
      exact (Dict.mem_of_get?_ofValues hk).1
  refine ⟨hprior.1, ⟨?_, nofun, fun _ => ⟨hpos, ?_⟩, ?_⟩, ?_, ?_, ?_, ?_, ?_⟩
  · exact hlt.le.trans h.intent_quantity.ge
  · exact hlt.trans_le h.intent_quantity.ge
  · intro hs
    simp [sampleUpdate] at hs
  · rw [h.brokerEventOwners]
    rintro owner ⟨⟩
  · rw [h.orders]
    intro o ho _
    rw [List.mem_singleton.1 ho, hid]
    rfl
  · rw [hprior.2.2]
    rintro id ⟨⟩
  · refine fun f hf => ⟨hmatches f hf, ?_⟩
    rw [h.fills]
    rintro existing ⟨⟩
  · rw [hcandidates]
    refine verifyFillEvidence_eq_ok.2 ⟨?_, fun f hf => ?_, hfills.total, hfills.mean.symm⟩
    · rw [hprior.2.1]
      nofun
    · have hzero := (hfills.matching f (hmem f hf)).2.2.2
      refine ⟨hmatches f (hmem f hf), ?_, ?_, hzero.le⟩
      · rw [h.intent_createdAt, hzero]
      · rw [hprior.2.1, hzero]
        rintro s ⟨⟩
        exact le_refl _

/-- The partial fill of the sample order is admitted as a new projection. -/
theorem SampleStarted.newProjection {repo : MemoryExecutionRepository} {intent : OrderIntent}
    {order : BrokerOrder} (h : SampleStarted repo intent order) {fills : List Fill}
    {cumulative : ℚ} (hfills : SampleFills fills cumulative) (hpos : 0 < cumulative)
    (hlt : cumulative < 100) : NewProjection repo (sampleUpdate fills cumulative hpos) := by
  have hw := WellFormed.of_reachable h.reachable.of_restrict
  obtain ⟨current, hevolve⟩ := @SampleStarted.evolve _ _ _ h fills _ hpos
  have hevolves := BrokerOrder.evolve_spec hevolve
  have hfields : OrderEvent.betweenFields order current (some "event-1") =
      samplePartialEvent.toOrderEventFields := by
    rw [OrderEvent.betweenFields, hevolves.fields]
    simp [h.order_eq, BrokerOrder.evolvedFields, updateChange, sampleUpdate, samplePartialEvent,
      BrokerOrder.committed, BrokerOrder.committedFields, startedChange, h.intent_id]
  have hchanged : sameProjection order (sampleUpdate fills cumulative hpos) = false := by
    simp [sameProjection, sampleUpdate, h.order_eq, BrokerOrder.evolvedFields, startedChange,
      BrokerOrder.committed, BrokerOrder.committedFields]
  have hevent : OrderEvent.fromOrders order current (some "event-1") = .ok samplePartialEvent := by
    simp only [OrderEvent.fromOrders, rejectIf_bind_eq_ok, not_not]
    refine ⟨hevolves.clientOrderId.symm, hevolves.version, validated_eq_ok.2 ⟨?_, ?_⟩⟩
    · rw [hfields]
      exact samplePartialEvent.checked
    · exact OrderEvent.eq_of_fields hfields
  have hfresh : samplePartialEvent.orderEventId ≠ sampleStartedEvent.orderEventId := by
    decide +kernel
  refine ⟨order, intent, current, samplePartialEvent, h.order_found, h.intent_found,
    validateBrokerUpdate_eq_ok.2 (h.updateValid hfills hpos hlt), hchanged, hevolve, ?_, hevent,
    h.orderEvents _ hfresh⟩
  rw [h.brokerEventOwners]
  rfl

/-- A partial fill of one share with the given execution ID. -/
def sampleOneShare (brokerExecutionId : String) (hid : isIdentifier brokerExecutionId = true) :
    BrokerUpdate :=
  sampleUpdate [sampleFill brokerExecutionId 1 hid one_pos] 1 one_pos

theorem sampleOneShare_fills {brokerExecutionId : String}
    (hid : isIdentifier brokerExecutionId = true) :
    SampleFills [sampleFill brokerExecutionId 1 hid one_pos] 1 where
  matching f hf := by
    rw [List.mem_singleton.1 hf]
    exact ⟨rfl, rfl, rfl, rfl⟩
  total := by
    show (1 : ℚ) + 0 = 1
    norm_num
  mean := by
    show (if (1 : ℚ) + 0 = 0 then none else some (((1 : ℚ) * 100 + 0) / (1 + 0))) = some 100
    norm_num

end Sample

end AdaptiveTrader
