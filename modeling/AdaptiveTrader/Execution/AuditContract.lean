import AdaptiveTrader.Execution.LedgerStructure

/-!
# The audit payloads of the ledger

The payloads that the ledger builds for plans and for order transitions always meet the audit
contract. The payload of a fill meets it exactly when the broker execution ID is an audit ID, which
the validation of a fill does not ask for.
-/

set_option autoImplicit false

namespace AdaptiveTrader

open Foundation

namespace MemoryExecutionRepository

variable [ContentHasher]

/-! ## IDs and slugs -/

-- The equations of the checks, stated once for all the proofs below.
attribute [local simp] isAuditId isContentIdOf BrokerOrderFields.check validateAuditObject
  validateAuditEntries validateAuditPayloadValue requireAuditText requireAuditSlug requireAuditId
  requireAuditInteger requireAuditDecimal planPersistedPayload stateChangedPayload
  fillRecordedPayload in
omit [ContentHasher] in
/-- The states of an order have slugs. -/
theorem isSlug_slug (s : OrderState) :
    isSlug s.slug = true ∧ isSha256 s.slug = false ∧ isSecretLike s.slug = false := by
  cases s <;> decide +kernel

omit [ContentHasher] in
/-- An order refers to a content-addressed intent. -/
theorem isAuditId_orderIntentId (o : BrokerOrder) : isAuditId o.orderIntentId = true := by
  have h := o.checked
  simp only [BrokerOrderFields.check, unit_bind_eq_ok, rejectIf_eq_ok, Bool.not_eq_false] at h
  have hid : isContentIdOf "intent" o.orderIntentId = true := by simpa using h.2.1
  simp only [isContentIdOf, Bool.and_eq_true] at hid
  simp [isAuditId, hid.1]

theorem isAuditId_orderEventId (e : OrderEvent) : isAuditId e.orderEventId = true := by
  have h : isContentId e.orderEventId = true :=
    isContentId_deterministicId (by decide) (isSha256_sha256Hex _)
  simp [isAuditId, h]

theorem isAuditId_intent_orderIntentId (i : OrderIntent) : isAuditId i.orderIntentId = true := by
  have h : isContentId i.orderIntentId = true :=
    isContentId_deterministicId (by decide) (isSha256_sha256Hex _)
  simp [isAuditId, h]

theorem isAuditId_executionPlanId (plan : ExecutionPlan) :
    isAuditId plan.executionPlanId = true := by
  have h : isContentId plan.executionPlanId = true :=
    isContentId_deterministicId (by decide) (isSha256_sha256Hex _)
  simp [isAuditId, h]

omit [ContentHasher] in
/-- The events of the ledger are of the execution writer's types. -/
theorem isExecutionEventType_ledger : isExecutionEventType "execution.plan_persisted" = true ∧
    isExecutionEventType "order.state_changed" = true ∧
      isExecutionEventType "fill.recorded" = true := by
  decide +kernel

/-! ## Payloads -/

/-- The audit payload of a plan meets the contract. -/
theorem validateAuditObject_planPersisted (plan : ExecutionPlan) {intents : List OrderIntent}
    (hcount : intents.length ≤ maximumIntentsPerPlan) :
    validateAuditObject (planPersistedPayload plan intents) = .ok () := by
  have hhash : isSha256 plan.contentHash = true := isSha256_sha256Hex _
  have hlen : ¬ (2 : ℤ) ^ 63 - 1 < intents.length := by
    unfold maximumIntentsPerPlan at hcount
    omega
  simp [validateAuditObject, planPersistedPayload, validateAuditEntries, validateAuditPayloadValue,
    auditSlugListKeys, auditIdListKeys, auditHashListKeys, auditTimestampKeys, auditHashKeys,
    auditIdKeys, auditIntegerKeys, requireAuditText, requireAuditId,
    requireAuditInteger, hhash, isAuditId_executionPlanId]
  omega

/-- The audit payload of a transition meets the contract. -/
theorem validateAuditObject_stateChanged (previous current : BrokerOrder) (event : OrderEvent)
    {authorityHash : Option String} (h : ∀ hash, authorityHash = some hash → isSha256 hash = true) :
    validateAuditObject (stateChangedPayload previous current event authorityHash) = .ok () := by
  have hhash : isSha256 current.contentHash = true := isSha256_sha256Hex _
  cases authorityHash with
  | none =>
      simp [validateAuditObject, stateChangedPayload, validateAuditEntries,
        validateAuditPayloadValue, auditSlugListKeys, auditIdListKeys, auditHashListKeys, auditTimestampKeys,
        auditBooleanKeys, auditHashKeys, auditIdKeys, auditIntegerKeys, auditSlugKeys,
        requireAuditText, requireAuditSlug, requireAuditId, hhash, isSlug_slug, isAuditId_orderIntentId,
        isAuditId_orderEventId]
  | some hash =>
      have hauthority := h hash rfl
      simp [validateAuditObject, stateChangedPayload, validateAuditEntries,
        validateAuditPayloadValue, auditSlugListKeys, auditIdListKeys, auditHashListKeys, auditTimestampKeys,
        auditBooleanKeys, auditHashKeys, auditIdKeys, auditIntegerKeys, auditSlugKeys,
        requireAuditText, requireAuditSlug, requireAuditId, hhash, hauthority, isSlug_slug, isAuditId_orderIntentId,
        isAuditId_orderEventId]

/-- The audit payload of a fill meets the contract when the execution ID is an audit ID. -/
theorem validateAuditObject_fillRecorded (intent : OrderIntent) (fill : Fill) :
    validateAuditObject (fillRecordedPayload intent fill) =
      if isAuditId fill.brokerExecutionId = true then .ok ()
      else .error (.auditValidation "audit payload ID is invalid") := by
  have hhash : isSha256 fill.contentHash = true := isSha256_sha256Hex _
  cases hid : isAuditId fill.brokerExecutionId <;>
    simp [validateAuditObject, fillRecordedPayload, validateAuditEntries, rejectIf, bind,
      Except.bind, validateAuditPayloadValue, auditSlugListKeys, auditIdListKeys,
      auditHashListKeys, auditTimestampKeys, auditBooleanKeys, auditHashKeys, auditIdKeys, auditIntegerKeys,
      auditSlugKeys, auditDecimalKeys, requireAuditText, requireAuditId, requireAuditDecimal, hhash,
      hid, fill.wellFormed.1, isAuditId_intent_orderIntentId]

end MemoryExecutionRepository

end AdaptiveTrader
