import AdaptiveTrader.Execution.Operations

/-!
# The structure of the ledger and its progress

Two facts hold for every write. `WellFormed`: tables are keyed by their records' own identities,
intents and order projections come in pairs and every intent's plan is durable. `Advances`: plans
and intents stay as they are and each order moves forward (`BrokerOrder.Precedes`): it is unchanged
or has a larger version, and what is monotone about an order never moves back.
-/

set_option autoImplicit false

namespace AdaptiveTrader

open Foundation

/-! ## Orders move forward -/

/-- The later projection of an order. -/
structure BrokerOrder.Precedes (o n : BrokerOrder) : Prop where
  version : n = o ∨ o.version < n.version
  updatedAt_le : o.updatedAt ≤ n.updatedAt
  filled_le : o.cumulativeFilledQuantity ≤ n.cumulativeFilledQuantity
  brokerOrderId_keeps : ∀ id, o.brokerOrderId = some id → n.brokerOrderId = some id
  submittedAt_keeps : ∀ t, o.submittedAt = some t → n.submittedAt = some t
  terminal_keeps : o.state.terminal = true → n = o
  not_planned : o.state ≠ .planned → n.state ≠ .planned
  left : o.state ≠ .planned → o.state ≠ .intentCommitted → n.state ≠ .intentCommitted

namespace BrokerOrder

namespace Precedes

theorem refl (o : BrokerOrder) : Precedes o o :=
  ⟨Or.inl rfl, le_refl _, le_refl _, fun _ h => h, fun _ h => h, fun _ => rfl, fun h => h,
    fun _ h => h⟩

theorem trans {o n m : BrokerOrder} (h₁ : Precedes o n) (h₂ : Precedes n m) : Precedes o m where
  version := by
    rcases h₁.version with rfl | h₁
    · exact h₂.version
    · rcases h₂.version with rfl | h₂
      · exact Or.inr h₁
      · exact Or.inr (h₁.trans h₂)
  updatedAt_le := h₁.updatedAt_le.trans h₂.updatedAt_le
  filled_le := h₁.filled_le.trans h₂.filled_le
  brokerOrderId_keeps id h := h₂.brokerOrderId_keeps id (h₁.brokerOrderId_keeps id h)
  submittedAt_keeps t h := h₂.submittedAt_keeps t (h₁.submittedAt_keeps t h)
  terminal_keeps h := by
    have hn := h₁.terminal_keeps h
    rw [h₂.terminal_keeps (hn ▸ h), hn]
  not_planned h := h₂.not_planned (h₁.not_planned h)
  left hp h := h₂.left (h₁.not_planned hp) (h₁.left hp h)

/-- An order that comes back to a version it had has not changed in between. -/
theorem eq_of_precedes {o n : BrokerOrder} (h₁ : Precedes o n) (h₂ : Precedes n o) : n = o := by
  rcases h₁.version with h | h₁
  · exact h
  · rcases h₂.version with h | h₂
    · exact h.symm
    · exact absurd (h₁.trans h₂) (lt_irrefl _)

end Precedes

/-- A committed intent has no submission time. -/
theorem submittedAt_of_intentCommitted {o : BrokerOrder} (h : o.state = .intentCommitted) :
    o.submittedAt = none := by
  have hc := o.checked
  simp only [BrokerOrderFields.check, unit_bind_eq_ok, rejectIf_eq_ok, h, true_and, not_or,
    not_not] at hc
  exact hc.2.2.2.2.2.2.2.1.2

theorem Evolves.version {o n : BrokerOrder} {change : OrderChange} (h : Evolves o change n) :
    n.version = o.version + 1 := by
  rw [h.fields]
  rfl

theorem Evolves.clientOrderId {o n : BrokerOrder} {change : OrderChange} (h : Evolves o change n) :
    n.clientOrderId = o.clientOrderId := by
  rw [h.fields]
  rfl

theorem Evolves.orderIntentId {o n : BrokerOrder} {change : OrderChange} (h : Evolves o change n) :
    n.orderIntentId = o.orderIntentId := by
  rw [h.fields]
  rfl

theorem Evolves.state {o n : BrokerOrder} {change : OrderChange} (h : Evolves o change n) :
    n.state = change.state := by
  rw [h.fields]
  rfl

/-- A transition moves the order forward. -/
theorem Evolves.precedes {o n : BrokerOrder} {change : OrderChange} (h : Evolves o change n)
    (submittedOnce : change.submittedAt = none ∨ o.state = .intentCommitted) : Precedes o n where
  version := Or.inr (by have := h.version; omega)
  updatedAt_le := by
    rw [h.fields]
    exact h.updatedAt_le
  filled_le := h.filled_le
  brokerOrderId_keeps := h.brokerOrderId_keeps
  submittedAt_keeps t ht := by
    rcases submittedOnce with hnone | hcommitted
    · have hn : n.submittedAt = change.submittedAt.or o.submittedAt := by
        rw [h.fields]
        rfl
      rw [hn, hnone, Option.none_or, ht]
    · rw [submittedAt_of_intentCommitted hcommitted] at ht
      cases ht
  terminal_keeps hterm := by
    rw [not_terminal_of_permitted h.permitted] at hterm
    cases hterm
  not_planned _ := h.state ▸ not_planned_of_permitted h.permitted
  left hp _ := h.state ▸ not_intentCommitted_of_permitted hp h.permitted

end BrokerOrder

namespace MemoryExecutionRepository

variable [ContentHasher] {repo repo' : MemoryExecutionRepository}

/-! ## The tables after a plan is stored -/

theorem foldl_storeIntent (intents : List OrderIntent) (repo : MemoryExecutionRepository) :
    intents.foldl storeIntent repo = { repo with
      intentTable := intents.foldl (fun d i => d.set i.clientOrderId i) repo.intentTable
      intentIdTable := intents.foldl (fun d i => d.set i.orderIntentId i) repo.intentIdTable
      orderTable := (intents.map BrokerOrder.committed).foldl
        (fun d o => d.set o.clientOrderId o) repo.orderTable } := by
  induction intents generalizing repo with
  | nil => rfl
  | cons i rest ih =>
      rw [List.foldl_cons, ih]
      rfl

theorem storePlan_eq (repo : MemoryExecutionRepository) (plan : ExecutionPlan)
    (intents : List OrderIntent) (decision : RiskDecision) (audit : AuditEvent) :
    repo.storePlan plan intents decision audit = { repo with
      planTable := repo.planTable.set plan.executionPlanId plan
      riskDecisionTable := repo.riskDecisionTable.set plan.riskDecisionId decision
      intentTable := intents.foldl (fun d i => d.set i.clientOrderId i) repo.intentTable
      intentIdTable := intents.foldl (fun d i => d.set i.orderIntentId i) repo.intentIdTable
      orderTable := (intents.map BrokerOrder.committed).foldl
        (fun d o => d.set o.clientOrderId o) repo.orderTable
      auditLog := repo.auditLog ++ [audit] } := by
  rw [storePlan, foldl_storeIntent]

namespace PlanAdmitted

variable {plan : ExecutionPlan} {intents : List OrderIntent} {decision : RiskDecision}
  {audit : AuditEvent}

/-- The planning pass that the bundle repeats. -/
theorem planned (h : PlanAdmitted repo plan intents decision audit) :
    ∃ request : ExecutionPlanningRequest, ∃ result,
      request.toExecutionPlanningRequestFields = planningRequestFields plan decision ∧
      Nonempty (Planned request result) ∧ result.plan = plan ∧ result.intents = intents := by
  obtain ⟨result, hresult, hplan, hintents⟩ := h.replanned
  simp only [replan, bind_eq_ok, ExecutionPlanningRequest.create_eq_ok] at hresult
  obtain ⟨request, hrequest, hplanned⟩ := hresult
  exact ⟨request, result, hrequest, planSignedOrders_planned hplanned, hplan, hintents⟩

theorem intent_plan (h : PlanAdmitted repo plan intents decision audit) {i : OrderIntent}
    (hi : i ∈ intents) :
    i.executionPlanId = plan.executionPlanId ∧ i.experimentHash = plan.experimentHash := by
  obtain ⟨_, _, -, ⟨hplanned⟩, rfl, rfl⟩ := h.planned
  exact hplanned.intent_plan hi

/-- The intents of one plan have distinct client order IDs. -/
theorem nodup_clientOrderId (h : PlanAdmitted repo plan intents decision audit) :
    (intents.map (·.clientOrderId)).Nodup := by
  have hseq : (intents.map (·.sequence)).Nodup := h.sequences ▸ List.nodup_range
  obtain ⟨_, _, -, ⟨hplanned⟩, -, rfl⟩ := h.planned
  rw [List.Nodup, List.pairwise_map] at hseq ⊢
  exact hseq.imp_of_mem fun hi hj hne hid =>
    hne (hplanned.sequence_of_clientOrderId hi hj hid)

/-- The intents after the plan is stored: the plan's own and the earlier ones. -/
theorem get?_intentTable (h : PlanAdmitted repo plan intents decision audit) {k : String}
    {i : OrderIntent} :
    (repo.storePlan plan intents decision audit).intentTable.get? k = some i ↔
      (i ∈ intents ∧ i.clientOrderId = k) ∨ repo.intentTable.get? k = some i := by
  rw [storePlan_eq]
  refine (Dict.foldl_set_get?_iff _ _ h.nodup_clientOrderId).trans (or_congr_right ?_)
  refine ⟨And.right, fun hget => ⟨fun hmem => ?_, hget⟩⟩
  obtain ⟨j, hj, rfl⟩ := List.mem_map.1 hmem
  rw [(h.intentsFresh j hj).1] at hget
  cases hget

/-- The orders after the plan is stored: one committed order per intent, and the earlier ones. -/
theorem get?_orderTable (h : PlanAdmitted repo plan intents decision audit)
    (hpaired : ∀ k o, repo.orderTable.get? k = some o → ∃ i, repo.intentTable.get? k = some i)
    (k : String) (o : BrokerOrder) :
    (repo.storePlan plan intents decision audit).orderTable.get? k = some o ↔
      (∃ i ∈ intents, o = BrokerOrder.committed i ∧ i.clientOrderId = k) ∨
        repo.orderTable.get? k = some o := by
  have hids : (intents.map BrokerOrder.committed).map (·.clientOrderId) =
      intents.map (·.clientOrderId) := by
    rw [List.map_map]
    rfl
  rw [storePlan_eq]
  refine (Dict.foldl_set_get?_iff _ _ (hids ▸ h.nodup_clientOrderId)).trans (or_congr ?_ ?_)
  · constructor
    · rintro ⟨hmem, rfl⟩
      obtain ⟨i, hi, rfl⟩ := List.mem_map.1 hmem
      exact ⟨i, hi, rfl, rfl⟩
    · rintro ⟨i, hi, rfl, rfl⟩
      exact ⟨List.mem_map_of_mem hi, rfl⟩
  · refine ⟨And.right, fun hget => ⟨fun hmem => ?_, hget⟩⟩
    rw [hids] at hmem
    obtain ⟨j, hj, rfl⟩ := List.mem_map.1 hmem
    obtain ⟨i, hi⟩ := hpaired _ _ hget
    rw [(h.intentsFresh j hj).1] at hi
    cases hi

theorem get?_planTable (h : PlanAdmitted repo plan intents decision audit) {k : String}
    {p : ExecutionPlan} :
    (repo.storePlan plan intents decision audit).planTable.get? k = some p ↔
      (k = plan.executionPlanId ∧ p = plan) ∨ repo.planTable.get? k = some p := by
  rw [storePlan_eq]
  exact Dict.get?_set_iff_of_get?_none h.planFresh

end PlanAdmitted

/-! ## Well-formedness -/

/-- Keys are the records' own identities and references lead to durable records. -/
structure WellFormed (repo : MemoryExecutionRepository) : Prop where
  plan_key : ∀ k p, repo.planTable.get? k = some p → p.executionPlanId = k
  intent_key : ∀ k i, repo.intentTable.get? k = some i → i.clientOrderId = k
  order_key : ∀ k o, repo.orderTable.get? k = some o → o.clientOrderId = k
  order_intent : ∀ k o, repo.orderTable.get? k = some o →
    ∃ i, repo.intentTable.get? k = some i ∧ o.orderIntentId = i.orderIntentId
  intent_order : ∀ k i, repo.intentTable.get? k = some i → ∃ o, repo.orderTable.get? k = some o
  intent_plan : ∀ k i, repo.intentTable.get? k = some i →
    ∃ p, repo.planTable.get? i.executionPlanId = some p ∧ p.experimentHash = i.experimentHash
  order_not_planned : ∀ k o, repo.orderTable.get? k = some o → o.state ≠ .planned

theorem WellFormed.empty : WellFormed {} := by
  constructor <;> intro k v h <;> cases h

theorem WellFormed.paired (h : WellFormed repo) (k : String) (o : BrokerOrder)
    (ho : repo.orderTable.get? k = some o) : ∃ i, repo.intentTable.get? k = some i :=
  (h.order_intent k o ho).imp fun _ => And.left

/-- Only the plan, intent and order tables bear on well-formedness. -/
theorem WellFormed.congr (h : WellFormed repo) (hplan : repo'.planTable = repo.planTable)
    (hintent : repo'.intentTable = repo.intentTable) (horder : repo'.orderTable = repo.orderTable) :
    WellFormed repo' := by
  obtain ⟨h₁, h₂, h₃, h₄, h₅, h₆, h₇⟩ := h
  constructor <;> simpa only [hplan, hintent, horder]

theorem WellFormed.storePlan {plan : ExecutionPlan} {intents : List OrderIntent}
    {decision : RiskDecision} {audit : AuditEvent} (h : WellFormed repo)
    (admitted : PlanAdmitted repo plan intents decision audit) :
    WellFormed (repo.storePlan plan intents decision audit) := by
  have horders := admitted.get?_orderTable h.paired
  constructor
  · intro k p hp
    rcases admitted.get?_planTable.1 hp with ⟨rfl, rfl⟩ | hp
    · rfl
    · exact h.plan_key k p hp
  · intro k i hi
    rcases admitted.get?_intentTable.1 hi with ⟨-, hk⟩ | hi
    · exact hk
    · exact h.intent_key k i hi
  · intro k o ho
    rcases (horders k o).1 ho with ⟨i, -, rfl, hk⟩ | ho
    · exact hk
    · exact h.order_key k o ho
  · intro k o ho
    rcases (horders k o).1 ho with ⟨i, hi, rfl, hk⟩ | ho
    · exact ⟨i, admitted.get?_intentTable.2 (Or.inl ⟨hi, hk⟩), rfl⟩
    · obtain ⟨i, hi, hid⟩ := h.order_intent k o ho
      exact ⟨i, admitted.get?_intentTable.2 (Or.inr hi), hid⟩
  · intro k i hi
    rcases admitted.get?_intentTable.1 hi with ⟨hi, hk⟩ | hi
    · exact ⟨_, (horders k _).2 (Or.inl ⟨i, hi, rfl, hk⟩)⟩
    · obtain ⟨o, ho⟩ := h.intent_order k i hi
      exact ⟨o, (horders k o).2 (Or.inr ho)⟩
  · intro k i hi
    rcases admitted.get?_intentTable.1 hi with ⟨hi, -⟩ | hi
    · obtain ⟨hid, hexp⟩ := admitted.intent_plan hi
      exact ⟨plan, admitted.get?_planTable.2 (Or.inl ⟨hid, rfl⟩), hexp.symm⟩
    · obtain ⟨p, hp, hexp⟩ := h.intent_plan k i hi
      exact ⟨p, admitted.get?_planTable.2 (Or.inr hp), hexp⟩
  · intro k o ho
    rcases (horders k o).1 ho with ⟨i, -, rfl, -⟩ | ho
    · exact nofun
    · exact h.order_not_planned k o ho

/-- The order behind a transition: the changed one at its key, the others as they were. -/
theorem TransitionAdmitted.get?_orderTable {clientOrderId : String} {previous current : BrokerOrder}
    {change : OrderChange} {brokerEventId authorityHash : Option String} {event : OrderEvent}
    {audit : AuditEvent} (h : WellFormed repo)
    (admitted : TransitionAdmitted repo clientOrderId previous change brokerEventId authorityHash
      current event audit) (k : String) :
    (repo.storeTransition current event audit).orderTable.get? k =
      if k = clientOrderId then some current else repo.orderTable.get? k := by
  have hid : current.clientOrderId = clientOrderId :=
    admitted.evolves.clientOrderId.trans (h.order_key _ _ admitted.found)
  show (repo.orderTable.set current.clientOrderId current).get? k = _
  rw [hid, Dict.get?_set]

theorem WellFormed.storeTransition {clientOrderId : String} {previous current : BrokerOrder}
    {change : OrderChange} {brokerEventId authorityHash : Option String} {event : OrderEvent}
    {audit : AuditEvent} (h : WellFormed repo)
    (admitted : TransitionAdmitted repo clientOrderId previous change brokerEventId authorityHash
      current event audit) : WellFormed (repo.storeTransition current event audit) := by
  have hget := admitted.get?_orderTable h
  have hid : current.clientOrderId = clientOrderId :=
    admitted.evolves.clientOrderId.trans (h.order_key _ _ admitted.found)
  refine ⟨h.plan_key, h.intent_key, ?_, ?_, ?_, h.intent_plan, ?_⟩
  · intro k o ho
    rw [hget] at ho
    split at ho
    · next hk =>
        cases ho
        rw [hid, hk]
    · exact h.order_key k o ho
  · intro k o ho
    rw [hget] at ho
    split at ho
    · next hk =>
        cases ho
        obtain ⟨i, hi, hintent⟩ := h.order_intent _ _ admitted.found
        exact ⟨i, hk ▸ hi, admitted.evolves.orderIntentId.trans hintent⟩
    · exact h.order_intent k o ho
  · intro k i hi
    obtain ⟨o, ho⟩ := h.intent_order k i hi
    by_cases hk : k = clientOrderId
    · exact ⟨current, by rw [hget, if_pos hk]⟩
    · exact ⟨o, by rw [hget, if_neg hk, ho]⟩
  · intro k o ho
    rw [hget] at ho
    split at ho
    · cases ho
      rw [admitted.evolves.state]
      exact not_planned_of_permitted admitted.evolves.permitted
    · exact h.order_not_planned k o ho

theorem Write.wellFormed {enters : OrderState → Prop} (hw : Write enters repo repo') (h : WellFormed repo) :
    WellFormed repo' := by
  cases hw with
  | plan plan intents decision audit admitted => exact h.storePlan admitted
  | transition _ _ _ _ _ _ _ _ admitted _ => exact h.storeTransition admitted
  | fill _ _ _ _ _ => exact h.congr rfl rfl rfl
  | unauditedFill _ _ => exact h.congr rfl rfl rfl
  | incident _ _ _ => exact h.congr rfl rfl rfl
  | bundle receipt request latchEvent incident audit _ =>
      cases incident <;> exact h.congr rfl rfl rfl

/-! ## Progress -/

/-- Plans and intents are immutable and orders move forward. -/
structure Advances (repo repo' : MemoryExecutionRepository) : Prop where
  plans : ∀ k p, repo.planTable.get? k = some p → repo'.planTable.get? k = some p
  intents : ∀ k i, repo.intentTable.get? k = some i → repo'.intentTable.get? k = some i
  orders : ∀ k o, repo.orderTable.get? k = some o →
    ∃ n, repo'.orderTable.get? k = some n ∧ BrokerOrder.Precedes o n

omit [ContentHasher] in
theorem Advances.refl (repo : MemoryExecutionRepository) : Advances repo repo :=
  ⟨fun _ _ h => h, fun _ _ h => h, fun _ o h => ⟨o, h, BrokerOrder.Precedes.refl o⟩⟩

omit [ContentHasher] in
theorem Advances.trans {repo'' : MemoryExecutionRepository} (h₁ : Advances repo repo')
    (h₂ : Advances repo' repo'') : Advances repo repo'' := by
  refine ⟨fun k p h => h₂.plans k p (h₁.plans k p h),
    fun k i h => h₂.intents k i (h₁.intents k i h), fun k o h => ?_⟩
  obtain ⟨n, hn, hon⟩ := h₁.orders k o h
  obtain ⟨m, hm, hnm⟩ := h₂.orders k n hn
  exact ⟨m, hm, hon.trans hnm⟩

omit [ContentHasher] in
/-- A write that leaves plans, intents and orders alone. -/
theorem Advances.of_eq (hplan : repo'.planTable = repo.planTable)
    (hintent : repo'.intentTable = repo.intentTable) (horder : repo'.orderTable = repo.orderTable) :
    Advances repo repo' := by
  have h := Advances.refl repo
  exact ⟨hplan ▸ h.plans, hintent ▸ h.intents, horder ▸ h.orders⟩

theorem Write.advances {enters : OrderState → Prop} (hw : Write enters repo repo')
    (h : WellFormed repo) : Advances repo repo' := by
  cases hw with
  | plan plan intents decision audit admitted =>
      refine ⟨fun k p hp => admitted.get?_planTable.2 (Or.inr hp),
        fun k i hi => admitted.get?_intentTable.2 (Or.inr hi), fun k o ho => ⟨o, ?_,
          BrokerOrder.Precedes.refl o⟩⟩
      exact (admitted.get?_orderTable h.paired k o).2 (Or.inr ho)
  | transition clientOrderId previous change _ _ current event audit admitted _ =>
      refine ⟨fun _ _ hp => hp, fun _ _ hi => hi, fun k o ho => ?_⟩
      rw [admitted.get?_orderTable h]
      by_cases hk : k = clientOrderId
      · rw [if_pos hk]
        rw [hk, admitted.found] at ho
        cases ho
        exact ⟨current, rfl, admitted.evolves.precedes admitted.submittedOnce⟩
      · rw [if_neg hk]
        exact ⟨o, ho, BrokerOrder.Precedes.refl o⟩
  | fill _ _ _ _ _ => exact Advances.of_eq rfl rfl rfl
  | unauditedFill _ _ => exact Advances.of_eq rfl rfl rfl
  | incident _ _ _ => exact Advances.of_eq rfl rfl rfl
  | bundle receipt request latchEvent incident audit _ =>
      cases incident <;> exact Advances.of_eq rfl rfl rfl

theorem Writes.wellFormed {enters : OrderState → Prop} (hw : Writes enters repo repo')
    (h : WellFormed repo) : WellFormed repo' := by
  induction hw with
  | refl => exact h
  | tail _ hstep ih => exact hstep.wellFormed ih

theorem Writes.advances {enters : OrderState → Prop} (hw : Writes enters repo repo')
    (h : WellFormed repo) : Advances repo repo' := by
  induction hw with
  | refl => exact Advances.refl repo
  | tail hrest hstep ih => exact ih.trans (hstep.advances (Writes.wellFormed hrest h))

/-- The audit log is append-only. -/
theorem Write.auditLog_prefix {enters : OrderState → Prop} (hw : Write enters repo repo') :
    repo.auditLog <+: repo'.auditLog := by
  cases hw with
  | plan plan intents decision audit _ =>
      rw [storePlan_eq]
      exact List.prefix_append _ _
  | transition _ _ _ _ _ _ _ _ _ _ => exact List.prefix_append _ _
  | fill _ _ _ _ _ => exact List.prefix_append _ _
  | unauditedFill _ _ => exact List.prefix_refl _
  | incident _ _ _ => exact List.prefix_append _ _
  | bundle receipt request latchEvent incident audit _ =>
      cases incident <;> exact List.prefix_append _ _

theorem Writes.auditLog_prefix {enters : OrderState → Prop} (hw : Writes enters repo repo') :
    repo.auditLog <+: repo'.auditLog := by
  induction hw with
  | refl => exact List.prefix_refl _
  | tail _ hstep ih => exact ih.trans hstep.auditLog_prefix

/-- Every reachable ledger is well formed. -/
theorem WellFormed.of_reachable (h : ledgerRuns.Reachable repo) : WellFormed repo := by
  refine h.invariant (fun s hs => hs ▸ WellFormed.empty) fun s operation t hs hstep => ?_
  exact (hstep ▸ writes_exec operation s).wellFormed hs

/-- Along every run plans and intents stay and orders move forward. -/
theorem Advances.of_run {operations : List LedgerOperation} (h : WellFormed repo)
    (hrun : ledgerRuns.Run repo operations repo') : Advances repo repo' := by
  refine hrun.related (P := WellFormed) ?_ Advances.refl (fun _ _ _ => Advances.trans) ?_ h
  · exact fun s operation t hs hstep => (hstep ▸ writes_exec operation s).wellFormed hs
  · exact fun s operation t hs hstep => (hstep ▸ writes_exec operation s).advances hs

end MemoryExecutionRepository

end AdaptiveTrader
