import AdaptiveTrader.Execution.ReconciliationOrder
import AdaptiveTrader.Execution.Splitting

/-!
# When a flat account reconciles

After a forced flattening the account must be proven flat. `FlatAtBroker` says what the broker shows
then: no position, terminal orders only, and locally nothing else but entries that were never
submitted and whose deadline has passed. The rule for open orders nevertheless counts every local
order that is not terminal, so one such entry keeps the reconciliation from being clean
(`allDifferences_eq_nil_iff`, `flat_reconciliation_clean_iff`).
-/

set_option autoImplicit false

namespace AdaptiveTrader

open Foundation

/-! ## The rules one by one -/

section Rules

variable {r : ReconciliationRequest}

/-- An entry that can no longer be submitted: committed, never started, past its deadline. -/
def DeadEntry (r : ReconciliationRequest) (o : BrokerOrder) : Prop :=
  o.state = .intentCommitted ∧ ∃ i ∈ r.intents, i.clientOrderId = o.clientOrderId ∧
    i.positionEffect.opensExposure = true ∧ i.deadlineAt ≤ r.completedAt

/-- The local and the broker's projection of an order agree. -/
structure SameAtBroker (localOrder brokerOrder : BrokerOrder) : Prop where
  clientOrderId : localOrder.clientOrderId = brokerOrder.clientOrderId
  state : localOrder.state = brokerOrder.state
  brokerOrderId : localOrder.brokerOrderId = brokerOrder.brokerOrderId
  filled : localOrder.cumulativeFilledQuantity = brokerOrder.cumulativeFilledQuantity

/-- The broker is flat in time, the expectations agree with it, its orders are terminal and known,
and every other local order is a dead entry. -/
structure FlatAtBroker (r : ReconciliationRequest) : Prop where
  noPosition : r.brokerPositions = []
  expectedPositions : reconstructSignedPositions r.baselinePositions r.fills = .ok []
  cash : |expectedCash r - r.brokerAccount.cash| ≤ cashTolerance
  equity : |expectedEquity r [] - r.brokerAccount.equity| ≤ equityTolerance
  brokerOrders : (r.brokerOrders.map (·.clientOrderId)).Nodup
  known : ∀ b ∈ r.brokerOrders, b.state.terminal = true ∧ ∃ o ∈ r.durableOrders, SameAtBroker o b
  others : ∀ o ∈ r.durableOrders, (∀ b ∈ r.brokerOrders, b.clientOrderId ≠ o.clientOrderId) →
    DeadEntry r o
  required : r.requireFlat = true
  inTime : ∀ deadline, r.requiredFlatAt = some deadline → r.completedAt ≤ deadline

/-- The records come from one ledger: no identity is repeated and every order has its intent. -/
structure LedgerRecords (r : ReconciliationRequest) : Prop where
  fills : (r.fills.map (·.brokerExecutionId)).Nodup
  orderFills : (r.orderFills.map (·.brokerExecutionId)).Nodup
  intents : (r.intents.map (·.clientOrderId)).Nodup
  durableOrders : (r.durableOrders.map (·.clientOrderId)).Nodup
  orderIntents : ∀ o ∈ r.durableOrders, ∃ i ∈ r.intents, i.clientOrderId = o.clientOrderId

theorem identityDifferences_eq_nil_iff (hl : LedgerRecords r) :
    identityDifferences r = [] ↔
      r.liveEndpointDetected = false ∧ r.paperFalseDetected = false := by
  have hfills : Dict.repeats id (r.fills.map (·.brokerExecutionId)) = [] :=
    (Dict.repeats_eq_nil_iff _ _).2 (by simpa using hl.fills)
  have horderFills : Dict.repeats id (r.orderFills.map (·.brokerExecutionId)) = [] :=
    (Dict.repeats_eq_nil_iff _ _).2 (by simpa using hl.orderFills)
  have hintents : Dict.repeats id (r.intents.map (·.clientOrderId)) = [] :=
    (Dict.repeats_eq_nil_iff _ _).2 (by simpa using hl.intents)
  simp only [identityDifferences, hfills, horderFills, hintents]
  simp [sortedSet]

theorem positionDifferences_of_flat (h : FlatAtBroker r) : positionDifferences r [] = [] := by
  have hobserved : observedMap r = Dict.empty := by
    rw [observedMap, h.noPosition]
    rfl
  simp [positionDifferences, h.noPosition, hobserved, expectedMap, Dict.ofValues, Dict.keys,
    Dict.empty, Dict.repeats, Dict.repeatsAfter, sortedSet]

theorem requiredFlatDifferences_of_flat (h : FlatAtBroker r) : requiredFlatDifferences r = [] := by
  have hobserved : observedMap r = Dict.empty := by
    rw [observedMap, h.noPosition]
    rfl
  have hdeadline : ¬ ∃ deadline ∈ r.requiredFlatAt, deadline < r.completedAt := by
    rintro ⟨deadline, hsome, hlate⟩
    exact absurd hlate (not_lt.2 (h.inTime deadline (Option.mem_def.1 hsome)))
  unfold requiredFlatDifferences
  rw [if_pos h.required, hobserved, if_neg hdeadline]
  rfl

theorem shortDifferences_nil [ContentHasher] : shortDifferences r [] = [] := rfl

/-- The intents are eligible: active symbols, and shorts only where they are permitted. -/
def IntentsEligible (r : ReconciliationRequest) : Prop :=
  ∀ i ∈ r.intents, i.symbol ∈ r.activeSymbols ∧
    (i.positionEffect.opensShort = true → i.symbol ∈ r.shortEligibleSymbols)

theorem intentDifferences_eq_nil_iff : intentDifferences r = [] ↔ IntentsEligible r := by
  unfold intentDifferences IntentsEligible
  rw [List.flatMap_eq_nil_iff]
  refine forall₂_congr fun i _ => ?_
  rw [List.append_eq_nil_iff]
  refine and_congr ?_ ?_
  · by_cases hactive : i.symbol ∈ r.activeSymbols <;> simp [hactive]
  · by_cases heligible : i.symbol ∈ r.shortEligibleSymbols <;> simp [heligible]

/-- The intent of an order is found in the map of intents. -/
theorem intentMap_of_order (hl : LedgerRecords r) {o : BrokerOrder} (ho : o ∈ r.durableOrders) :
    ∃ i ∈ r.intents, i.clientOrderId = o.clientOrderId ∧
      (intentMap r).get? o.clientOrderId = some i := by
  obtain ⟨i, hi, hid⟩ := hl.orderIntents o ho
  refine ⟨i, hi, hid, ?_⟩
  rw [intentMap, Dict.firstWins_eq_ofValues _ hl.intents, ← hid]
  exact Dict.get?_ofValues_of_mem _ hl.intents hi

theorem durableMap_values (hl : LedgerRecords r) : (durableMap r).values = r.durableOrders :=
  values_firstWins hl.durableOrders

/-- The broker's order with a client order ID. -/
theorem observedOrderMap_get? (h : FlatAtBroker r) {id : String} {b : BrokerOrder} :
    (observedOrderMap r).get? id = some b ↔ b ∈ r.brokerOrders ∧ b.clientOrderId = id := by
  rw [observedOrderMap, Dict.firstWins_eq_ofValues _ h.brokerOrders,
    Dict.get?_ofValues_iff fun v hv w hw hid =>
      List.inj_on_of_nodup_map h.brokerOrders hv hw hid]

/-- A local order is known to the broker, or it is a dead entry the broker has never seen. -/
theorem order_cases (h : FlatAtBroker r) (hl : LedgerRecords r) {o : BrokerOrder}
    (ho : o ∈ r.durableOrders) :
    (∃ b, (observedOrderMap r).get? o.clientOrderId = some b ∧ SameAtBroker o b ∧
        b.state.terminal = true) ∨
      ((observedOrderMap r).get? o.clientOrderId = none ∧ DeadEntry r o) := by
  cases hget : (observedOrderMap r).get? o.clientOrderId with
  | none =>
      refine Or.inr ⟨rfl, h.others o ho fun b hb hid => ?_⟩
      rw [(observedOrderMap_get? h).2 ⟨hb, hid⟩] at hget
      cases hget
  | some b =>
      obtain ⟨hb, hid⟩ := (observedOrderMap_get? h).1 hget
      obtain ⟨hterminal, o', ho', hsame⟩ := h.known b hb
      have heq : o' = o :=
        List.inj_on_of_nodup_map hl.durableOrders ho' ho (hsame.clientOrderId.trans hid)
      exact Or.inl ⟨b, rfl, heq ▸ hsame, hterminal⟩

/-- A dead entry is the only kind of open order. -/
theorem openOrderDifferences_eq_nil_iff (h : FlatAtBroker r) (hl : LedgerRecords r) :
    openOrderDifferences r = [] ↔ ∀ o ∈ r.durableOrders, o.state ≠ .intentCommitted := by
  unfold openOrderDifferences
  rw [if_pos h.required, durableMap_values hl, List.flatMap_eq_nil_iff]
  refine forall₂_congr fun o ho => ?_
  obtain ⟨i, hi, hid, hget⟩ := intentMap_of_order hl ho
  rw [hget]
  obtain ⟨b, -, hsame, hterminal⟩ | ⟨-, hcommitted, j, hj, hjid, hopens, -⟩ := order_cases h hl ho
  · have hstate : o.state.terminal = true := hsame.state ▸ hterminal
    have hne : o.state ≠ .intentCommitted := by
      intro heq
      rw [heq] at hstate
      cases hstate
    simp [hstate, hne]
  · have hij : j = i := List.inj_on_of_nodup_map hl.intents hj hi (hjid.trans hid.symm)
    rw [← hij]
    simp [hopens, hcommitted, OrderState.terminal]

theorem unknownOrderDifferences_of_flat (h : FlatAtBroker r) (hl : LedgerRecords r) :
    unknownOrderDifferences r = [] := by
  unfold unknownOrderDifferences
  rw [List.flatMap_eq_nil_iff]
  intro b hb
  obtain ⟨id, hget⟩ := Dict.mem_values_iff.1 hb
  obtain ⟨hmem, -⟩ := (observedOrderMap_get? h).1 hget
  obtain ⟨-, o, ho, hsame⟩ := h.known b hmem
  obtain ⟨i, -, -, hintent⟩ := intentMap_of_order hl ho
  rw [hsame.clientOrderId] at hintent
  rw [if_pos (Dict.contains_eq_true.2 ⟨i, hintent⟩)]

/-- Every local order's cumulative fill is the total of its recorded fills. -/
def FillsRecorded (r : ReconciliationRequest) : Prop :=
  ∀ o ∈ r.durableOrders,
    o.cumulativeFilledQuantity = persistedFillQuantity r.orderFills o.clientOrderId

theorem durableDifferences_eq_nil_iff [ContentHasher] (h : FlatAtBroker r) (hl : LedgerRecords r) :
    (durableMap r).values.flatMap
        (durableOrderDifferences r (intentMap r) (observedOrderMap r)) = [] ↔
      FillsRecorded r := by
  rw [durableMap_values hl, List.flatMap_eq_nil_iff]
  refine forall₂_congr fun o ho => ?_
  unfold durableOrderDifferences
  rw [List.append_eq_nil_iff]
  refine (and_iff_left ?_).trans ?_
  · -- what the broker shows adds nothing: it agrees with the order, or has never seen the entry
    obtain ⟨b, hget, hsame, hterminal⟩ | ⟨hget, hcommitted, -⟩ := order_cases h hl ho
    · have hclear : b.state.ambiguous = false := by
        revert hterminal
        cases b.state <;> simp [OrderState.terminal, OrderState.ambiguous]
      simp [hget, hclear, matchedOrderDifferences, hsame.state, hsame.brokerOrderId, hsame.filled]
    · simp [hget, hcommitted]
  · by_cases hfilled : o.cumulativeFilledQuantity =
      persistedFillQuantity r.orderFills o.clientOrderId <;> simp [hfilled]

theorem accountDifferences_eq_nil_iff [ContentHasher] (h : FlatAtBroker r) :
    accountDifferences r [] = [] ↔ r.brokerAccount.accountIdHash = r.expectedAccountIdHash := by
  have hcash : ¬ cashTolerance < |expectedCash r - r.brokerAccount.cash| := not_lt.2 h.cash
  have hequity : ¬ equityTolerance < |expectedEquity r [] - r.brokerAccount.equity| :=
    not_lt.2 h.equity
  by_cases hid : r.brokerAccount.accountIdHash = r.expectedAccountIdHash <;>
    simp [accountDifferences, hcash, hequity, hid]

/-- What else a clean reconciliation needs: a paper endpoint, the expected account, eligible intents
and recorded fills. -/
structure OtherwiseClean [ContentHasher] (r : ReconciliationRequest) : Prop where
  liveEndpoint : r.liveEndpointDetected = false
  paperFalse : r.paperFalseDetected = false
  account : r.brokerAccount.accountIdHash = r.expectedAccountIdHash
  intents : IntentsEligible r
  fills : FillsRecorded r

/-- A flat account shows no difference exactly when nothing else is wrong and no entry is left
committed. -/
theorem allDifferences_eq_nil_iff [ContentHasher] (h : FlatAtBroker r) (hl : LedgerRecords r) :
    allDifferences r [] = [] ↔
      OtherwiseClean r ∧ ∀ o ∈ r.durableOrders, o.state ≠ .intentCommitted := by
  have hduplicate : duplicateOrderDifferences r.durableOrders = [] ∧
      duplicateOrderDifferences r.brokerOrders = [] := by
    unfold duplicateOrderDifferences
    rw [(Dict.repeats_eq_nil_iff _ _).2 hl.durableOrders,
      (Dict.repeats_eq_nil_iff _ _).2 h.brokerOrders]
    exact ⟨rfl, rfl⟩
  simp only [allDifferences, List.append_eq_nil_iff, identityDifferences_eq_nil_iff hl,
    positionDifferences_of_flat h, requiredFlatDifferences_of_flat h, hduplicate,
    shortDifferences_nil, intentDifferences_eq_nil_iff, openOrderDifferences_eq_nil_iff h hl,
    unknownOrderDifferences_of_flat h hl, durableDifferences_eq_nil_iff h hl,
    accountDifferences_eq_nil_iff h, and_true]
  constructor
  · rintro ⟨⟨⟨⟨⟨hlive, hpaper⟩, hintents⟩, hentries⟩, hfills⟩, haccount⟩
    exact ⟨⟨hlive, hpaper, haccount, hintents, hfills⟩, hentries⟩
  · rintro ⟨hother, hentries⟩
    exact ⟨⟨⟨⟨⟨hother.liveEndpoint, hother.paperFalse⟩, hother.intents⟩, hentries⟩, hother.fills⟩,
      hother.account⟩

/-- The identities a receipt carries are valid. -/
structure Identified (r : ReconciliationRequest) : Prop where
  experimentHash : isSha256 r.experimentHash = true
  slotId : ∀ id, r.slotId = some id → isIdentifier id = true
  executionPlanId : ∀ id, r.executionPlanId = some id → isContentIdOf "execution" id = true
  correlationId : isIdentifier r.correlationId = true
  markPrices : checkPricePairs "mark price" r.markPrices = .ok ()

/-- The name of the field shows in the errors only. -/
theorem checkPricePairs_rename {fieldName otherName : String} {prices : List (String × ℚ)}
    (h : checkPricePairs fieldName prices = .ok ()) : checkPricePairs otherName prices = .ok () := by
  induction prices with
  | nil => rfl
  | cons price rest ih =>
      simp only [checkPricePairs, rejectIf_bind_eq_ok] at h ⊢
      exact ⟨h.1, h.2.1, ih h.2.2⟩

theorem checkHashTuple_sortedSet {hashes : List String} {fieldName : String}
    (h : ∀ hash ∈ hashes, isSha256 hash = true) :
    checkHashTuple (sortedSet hashes) fieldName = .ok () := by
  simp only [checkHashTuple, unit_bind_eq_ok, rejectIf_eq_ok, not_not, List.any_eq_true,
    Bool.not_eq_true', not_exists, not_and, Bool.not_eq_false]
  exact ⟨eq_sortedSet_iff.2 (sortedSet_pairwise _), fun hash hmem => h hash (mem_sortedSet.1 hmem)⟩

/-- A reconciliation without differences returns a clean receipt. -/
theorem reconcile_of_no_difference [ContentHasher] (h : FlatAtBroker r) (hi : Identified r)
    (hnone : allDifferences r [] = []) :
    ∃ receipt, reconcile r = .ok receipt ∧ receipt.status = .clean := by
  have hr := r.checked
  simp only [ReconciliationRequestFields.check, unit_bind_eq_ok, rejectIf_eq_ok, not_not] at hr
  obtain ⟨-, -, -, hsorted, -, -, -, hcompleted, hobserved, -, -, -, hflat⟩ := hr
  have hobservedMap : observedMap r = Dict.empty := by
    rw [observedMap, h.noPosition]
    rfl
  have hfills : ∀ hash ∈ (r.fills ++ r.orderFills).map (·.contentHash), isSha256 hash = true := by
    intro hash hmem
    obtain ⟨f, -, rfl⟩ := List.mem_map.1 hmem
    exact isSha256_sha256Hex _
  have horders : ∀ hash ∈ (r.durableOrders ++ r.brokerOrders).map (·.contentHash),
      isSha256 hash = true := by
    intro hash hmem
    obtain ⟨o, -, rfl⟩ := List.mem_map.1 hmem
    exact isSha256_sha256Hex _
  have hempty : collect (fun p : Position => Position.create p.symbol p.quantity)
      ((sortedBy (·.symbol) (observedMap r).values).filter fun p => p.quantity ≠ 0) = .ok [] := by
    rw [hobservedMap]
    rfl
  have hpositions : checkPositions [] true = .ok () := rfl
  simp only [reconcile, h.expectedPositions, hempty, hnone, bind, Except.bind]
  refine ⟨_, validated_of_ok ?_, rfl⟩
  simp only [ReconciliationReceiptFields.check, unit_bind_eq_ok, rejectIf_eq_ok, hpositions,
    checkHashTuple_sortedSet hfills, checkHashTuple_sortedSet horders, hi.markPrices, hi.experimentHash, hi.correlationId, true_and]
  refine ⟨by rintro ⟨⟩, ?_, ?_, by rintro ⟨⟩, ?_, hcompleted, not_not.2 hobserved, not_not.2 hsorted,
    not_not.2 hflat, not_not.2 rfl, not_not.2 rfl⟩
  · rintro ⟨id, hid, hinvalid⟩
    rw [hi.slotId id (Option.mem_def.1 hid)] at hinvalid
    cases hinvalid
  · rintro ⟨id, hid, hinvalid⟩
    rw [hi.executionPlanId id (Option.mem_def.1 hid)] at hinvalid
    cases hinvalid
  · have haccount : isSha256 r.brokerAccount.accountIdHash = true := isSha256_sha256Hex _
    rw [haccount]
    rintro ⟨⟩

/-- A clean receipt lists no difference. -/
theorem no_difference_of_clean [ContentHasher] (h : FlatAtBroker r)
    {receipt : ReconciliationReceipt} (hreceipt : reconcile r = .ok receipt)
    (hclean : receipt.status = .clean) : allDifferences r [] = [] := by
  have hnone := receipt.status_clean_iff.1 hclean
  simp only [reconcile, h.expectedPositions, bind_eq_ok, Except.ok.injEq, exists_eq_left'] at hreceipt
  obtain ⟨observed, -, hcreate⟩ := hreceipt
  have hlisted : receipt.discrepancies = sortedBy (·.key)
      (sortedBy (·.differenceKey) (allDifferences r []).dedup) :=
    congrArg (·.discrepancies) (ReconciliationReceipt.create_fields hcreate)
  rw [hlisted, List.eq_nil_iff_forall_not_mem] at hnone
  rw [List.eq_nil_iff_forall_not_mem]
  intro d hd
  exact hnone d (mem_sortedBy.2 (mem_sortedBy.2 (List.mem_dedup.2 hd)))

theorem reconcile_clean_iff [ContentHasher] (h : FlatAtBroker r) (hl : LedgerRecords r)
    (hi : Identified r) :
    (∃ receipt, reconcile r = .ok receipt ∧ receipt.status = .clean) ↔
      OtherwiseClean r ∧ ∀ o ∈ r.durableOrders, o.state ≠ .intentCommitted := by
  rw [← allDifferences_eq_nil_iff h hl]
  constructor
  · rintro ⟨receipt, hreceipt, hclean⟩
    exact no_difference_of_clean h hreceipt hclean
  · exact reconcile_of_no_difference h hi

end Rules

/-! ## Requests of a ledger -/

namespace MemoryExecutionRepository

variable [ContentHasher] {repo repo' : MemoryExecutionRepository}

/-- Fills are keyed by their execution IDs. -/
def FillsKeyed (repo : MemoryExecutionRepository) : Prop :=
  ∀ k f, repo.fillTable.get? k = some f → f.brokerExecutionId = k

theorem Write.fillsKeyed {enters : OrderState → Prop} (hw : Write enters repo repo')
    (h : FillsKeyed repo) : FillsKeyed repo' := by
  have hinsert : ∀ fill : Fill, repo.fillTable.get? fill.brokerExecutionId = none →
      FillsKeyed (repo.insertFill fill) := by
    intro fill hfresh k f hf
    rcases (Dict.get?_set_iff_of_get?_none hfresh).1 hf with ⟨rfl, rfl⟩ | hf
    · rfl
    · exact h k f hf
  cases hw with
  | plan plan intents decision audit _ =>
      rw [storePlan_eq]
      exact h
  | transition _ _ _ _ _ _ _ _ _ _ => exact h
  | fill intent fill audit hfresh _ => exact hinsert fill hfresh
  | unauditedFill fill hfresh => exact hinsert fill hfresh
  | incident _ _ _ => exact h
  | bundle receipt request latchEvent incident audit _ =>
      cases incident <;> exact h

theorem Writes.fillsKeyed {enters : OrderState → Prop} (hw : Writes enters repo repo')
    (h : FillsKeyed repo) : FillsKeyed repo' := by
  induction hw with
  | refl => exact h
  | tail _ hstep ih => exact hstep.fillsKeyed ih

theorem FillsKeyed.of_reachable (h : ledgerRuns.Reachable repo) : FillsKeyed repo := by
  refine h.invariant (fun s hs => ?_) fun s operation t hs hstep => ?_
  · rw [hs]
    rintro k f ⟨⟩
  · exact (hstep ▸ writes_exec operation s).fillsKeyed hs

/-- The request names its plan and decision, as the ledger checks before it records a receipt. -/
structure NamesPlan (request : ReconciliationRequest) (plan : ExecutionPlan)
    (decision : RiskDecision) : Prop where
  experimentHash : request.experimentHash = plan.experimentHash
  executionPlanId : request.executionPlanId = some plan.executionPlanId
  correlationId : request.correlationId = plan.correlationId
  slotId : request.slotId = some decision.slotId

section Authoritative

variable {plan : ExecutionPlan} {decision : RiskDecision} {request r : ReconciliationRequest}

/-- The authoritative request consists of the ledger's own records: each one once, and every order
together with its intent. -/
theorem ledgerRecords_of_authoritative (hw : WellFormed repo) (hf : FillsKeyed repo)
    (h : repo.authoritativeRequest plan decision request = .ok r) : LedgerRecords r := by
  simp only [authoritativeRequest, bind_eq_ok] at h
  obtain ⟨experiments, hexperiments, orderIntents, hintents, hcreate⟩ := h
  have hr := ReconciliationRequest.create_eq_ok hcreate
  have hlength : repo.allOrders.length ≤ experiments.length :=
    (collect_eq_ok_iff.1 hexperiments).length_eq.le
  -- the orders of the experiment are some of the ledger's orders
  have hsublist : (((repo.allOrders.zip experiments).filter
      fun o => o.2 = plan.experimentHash).map Prod.fst).Sublist repo.allOrders := by
    have hall := List.filter_sublist (l := repo.allOrders.zip experiments)
      (p := fun o => decide (o.2 = plan.experimentHash))
    have hfst := hall.map Prod.fst
    rwa [List.map_fst_zip hlength] at hfst
  have hfills : (repo.fills.map (·.brokerExecutionId)).Nodup :=
    (((Dict.valuesByKey_perm _).map _).nodup_iff).2 (Dict.nodup_map_values hf)
  have horders : (repo.allOrders.map (·.clientOrderId)).Nodup :=
    (((Dict.valuesByKey_perm _).map _).nodup_iff).2 (Dict.nodup_map_values hw.order_key)
  constructor
  · rw [hr]
    exact hfills.sublist (List.filter_sublist.map _)
  · rw [hr]
    exact hfills.sublist (List.filter_sublist.map _)
  · rw [hr]
    refine (((sortedBy_perm _ _).map _).nodup_iff).2 (Dict.nodup_map_values fun k i hi => ?_)
    exact (Dict.mem_of_get?_ofValues hi).2
  · rw [hr]
    exact horders.sublist (hsublist.map _)
  · rw [hr]
    intro o ho
    obtain ⟨i, hi, hget⟩ := exists_mem_of_collect hintents ho
    have hid : i.clientOrderId = o.clientOrderId := hw.intent_key _ _ (getIntent_eq_ok.1 hget)
    obtain ⟨j, hj⟩ := Dict.foldl_set_isSome (fun i : OrderIntent => i.clientOrderId)
      (repo.intentsForPlan plan.executionPlanId ++ orderIntents) Dict.empty
      (Or.inl (List.mem_map_of_mem (List.mem_append_right _ hi)))
    have hkey := (Dict.mem_of_get?_ofValues hj).2
    exact ⟨j, mem_sortedBy.2 (Dict.mem_values_iff.2 ⟨_, hj⟩), hkey.trans hid⟩

/-- A request that names its plan carries valid identities. -/
theorem identified_of_authoritative (hnames : NamesPlan request plan decision)
    (h : repo.authoritativeRequest plan decision request = .ok r) : Identified r := by
  simp only [authoritativeRequest, bind_eq_ok] at h
  obtain ⟨_, -, _, -, hcreate⟩ := h
  have hr := ReconciliationRequest.create_eq_ok hcreate
  have hplan := plan.checked
  simp only [ExecutionPlanFields.check, unit_bind_eq_ok, rejectIf_eq_ok, Bool.not_eq_false] at hplan
  obtain ⟨-, -, hexperiment, hcorrelation, -, -, -, hprices, -⟩ := hplan
  have hslot : isPrefixedDigest "slot" decision.slotId = true := by
    have hdecision := decision.checked
    simp only [RiskDecisionFields.check, rejectIf_bind_eq_ok, Bool.not_eq_false] at hdecision
    exact hdecision.1
  refine ⟨?_, fun id hid => ?_, fun id hid => ?_, ?_, ?_⟩
  · rw [hr]
    exact hnames.experimentHash ▸ hexperiment
  · rw [hr] at hid
    have hslotId : some decision.slotId = some id := hnames.slotId.symm.trans hid
    rw [← Option.some.inj hslotId]
    exact isIdentifier_of_isPrefixedDigest (by decide) hslot
  · rw [hr] at hid
    have hplanId : some plan.executionPlanId = some id := hnames.executionPlanId.symm.trans hid
    rw [← Option.some.inj hplanId]
    exact isContentIdOf_deterministicId (by decide) (isSha256_sha256Hex _)
  · rw [hr]
    exact hnames.correlationId ▸ hcorrelation
  · rw [hr]
    exact checkPricePairs_rename hprices

/-- A ledger with one committed order and no fill contributes this order and its intent. -/
theorem authoritativeRequest_of_committed {intent : OrderIntent}
    (hplan : repo.planTable.get? plan.executionPlanId = some plan)
    (hintent : repo.intentTable.get? intent.clientOrderId = some intent)
    (hintents : repo.intentTable.values = [intent])
    (horders : repo.allOrders = [BrokerOrder.committed intent]) (hfills : repo.fills = [])
    (hplanId : intent.executionPlanId = plan.executionPlanId)
    (hr : r.toReconciliationRequestFields = { request.toReconciliationRequestFields with
      activeSymbols := decision.symbols
      shortEligibleSymbols := shortEligibleSymbols decision.securityMetadata
      baselinePositions := plan.currentPositions
      baselineCash := decision.accountSnapshot.cash
      fills := []
      orderFills := []
      intents := [intent]
      durableOrders := [BrokerOrder.committed intent]
      expectedAccountIdHash := decision.accountSnapshot.accountIdHash
      markPrices := plan.referencePrices }) :
    repo.authoritativeRequest plan decision request = .ok r := by
  have hget : repo.getIntent intent.clientOrderId = .ok intent := getIntent_eq_ok.2 hintent
  have hexperiment : repo.orderExperiment (BrokerOrder.committed intent) =
      .ok plan.experimentHash := by
    simp only [orderExperiment, bind_eq_ok, getPlan_eq_ok, pure_eq_ok]
    exact ⟨intent, hget, plan, hplanId ▸ hplan, rfl⟩
  have hplanIntents : repo.intentsForPlan plan.executionPlanId = [intent] := by
    simp [intentsForPlan, hintents, hplanId, sortedBy]
  have hmap : sortedBy (·.clientOrderId)
      (Dict.ofValues (·.clientOrderId) ([intent] ++ [intent])).values = [intent] := by
    simp [Dict.ofValues, Dict.values, Dict.set, Dict.assign, Dict.empty, sortedBy]
  have hown : (([BrokerOrder.committed intent].zip [plan.experimentHash]).filter
      fun o => o.2 = plan.experimentHash).map Prod.fst = [BrokerOrder.committed intent] := by
    simp
  have hcreate : ReconciliationRequest.create r.toReconciliationRequestFields = .ok r :=
    validated_of_ok r.checked
  simp only [authoritativeRequest, bind_eq_ok, hplanIntents, horders, hfills]
  refine ⟨[plan.experimentHash], ?_, [intent], ?_, ?_⟩
  · simp only [collect, hexperiment, bind_eq_ok, pure_eq_ok]
    exact ⟨_, rfl, [], rfl, rfl⟩
  · rw [hown]
    simp only [collect, bind_eq_ok, pure_eq_ok]
    exact ⟨_, hget, [], rfl, rfl⟩
  · rw [hr] at hcreate
    rw [hown, hmap]
    exact hcreate

end Authoritative

end MemoryExecutionRepository

/-! ## An entry left behind -/

section Sample

open MemoryExecutionRepository

attribute [local instance] sampleHasher

/-- An idle account at the deadline of a plan. -/
def idleAccount : AccountState :=
  ⟨{ accountId := "account", cash := 100000, equity := 100000, buyingPower := 100000
     restrictedShortProceeds := 0, observedAt := 1000 }, by decide +kernel⟩

/-- The decision to buy one symbol for a tenth of the equity of this account. -/
def idleDecision : RiskDecision :=
  ⟨{ sampleDecisionFields with
     accountSnapshot :=
       ⟨{ accountIdHash := idleAccount.accountIdHash, equity := 100000, cash := 100000
          buyingPower := 100000, observedAt := 0 }, by decide +kernel⟩ }, by decide +kernel⟩

def idleRequest : ExecutionPlanningRequest :=
  ⟨{ sampleRequest.toExecutionPlanningRequestFields with riskDecision := idleDecision },
    by decide +kernel⟩

theorem idle_planned :
    (planSignedOrders idleRequest).map (fun result => result.intents.map fun i =>
      (i.symbol, i.createdAt, i.deadlineAt, i.positionEffect.opensExposure)) =
        .ok [("SPY", 0, 1000, true)] := by
  decide +kernel

/-- A request to reconcile a flat account at the deadline of the plan. -/
def idleFields (plan : ExecutionPlan) : ReconciliationRequestFields where
  experimentHash := plan.experimentHash
  slotId := some idleDecision.slotId
  executionPlanId := some plan.executionPlanId
  correlationId := plan.correlationId
  activeSymbols := ["SPY"]
  shortEligibleSymbols := ["SPY"]
  baselinePositions := sampleRequest.currentPositions
  baselineCash := 100000
  fills := []
  orderFills := []
  intents := []
  durableOrders := []
  brokerOrders := []
  brokerPositions := []
  brokerAccount := idleAccount
  expectedAccountIdHash := idleAccount.accountIdHash
  markPrices := [("SPY", 100)]
  startedAt := 1000
  completedAt := 1000
  requireFlat := true
  requiredFlatAt := some 1000

theorem idleFields_check (plan : ExecutionPlan) {intents : List OrderIntent}
    {orders : List BrokerOrder} (hintents : ∀ i ∈ intents, i.createdAt ≤ 1000)
    (horders : ∀ o ∈ orders, o.updatedAt ≤ 1000) :
    ReconciliationRequestFields.check { idleFields plan with
      intents := intents, durableOrders := orders } = .ok () := by
  have hsymbols : (["SPY"] : List String) = sortedSet ["SPY"] := by decide +kernel
  have hid : isSha256 idleAccount.accountIdHash = true := isSha256_sha256Hex _
  have hnoIntent : ¬ (intents.any fun i => decide ((1000 : Instant) < i.createdAt)) = true := by
    simpa using hintents
  have hnoOrder : ¬ ((orders ++ []).any fun o => decide ((1000 : Instant) < o.updatedAt)) = true := by
    simpa using horders
  simp only [ReconciliationRequestFields.check, unit_bind_eq_ok, rejectIf_eq_ok]
  refine ⟨not_not.2 hsymbols, not_not.2 hsymbols, not_not.2 (List.Subset.refl _),
    not_not.2 hsymbols, ?_, not_not.2 rfl, ?_, lt_irrefl (1000 : Int), ?_, by rintro ⟨⟩, hnoIntent,
    hnoOrder, not_not.2 rfl⟩
  · show ¬ ([(("SPY" : String), (100 : ℚ))].any fun p => decide (p.2 ≤ 0)) = true
    decide +kernel
  · show ¬ isSha256 idleAccount.accountIdHash = false
    rw [hid]
    rintro ⟨⟩
  · exact not_not.2 ⟨le_refl (1000 : Int), le_refl (1000 : Int)⟩

/-- A reachable ledger with one plan whose only entry has never been submitted, and the
reconciliation of a flat account at the plan's deadline. -/
structure SampleIdle (repo : MemoryExecutionRepository) (plan : ExecutionPlan)
    (request r : ReconciliationRequest) : Prop where
  reachable : ledgerRuns.Reachable repo
  names : NamesPlan request plan idleDecision
  authoritative : repo.authoritativeRequest plan idleDecision request = .ok r
  flat : FlatAtBroker r
  otherwise : OtherwiseClean r
  entry : ∃ o ∈ r.durableOrders, o.state = .intentCommitted

theorem exists_sampleIdle : ∃ repo plan request r, SampleIdle repo plan request r := by
  obtain ⟨result, hplanned, hintents⟩ := map_eq_ok.1 idle_planned
  obtain ⟨intent, hone, hfields⟩ := List.map_eq_singleton_iff.1 hintents
  simp only [Prod.mk.injEq] at hfields
  obtain ⟨hsymbol, hcreated, hdeadline, hopens⟩ := hfields
  obtain ⟨audit, hadmitted, hreachable⟩ := reachable_of_planned hplanned
  obtain ⟨hplanId, hexperiment⟩ :=
    hadmitted.intent_plan (hone ▸ List.mem_singleton_self intent)
  obtain ⟨hp⟩ := planSignedOrders_planned hplanned
  have hpositions : result.plan.currentPositions = sampleRequest.currentPositions := by
    rw [hp.plan_eq]
    rfl
  have hprices : result.plan.referencePrices = [("SPY", 100)] := by
    rw [hp.plan_eq]
    rfl
  rw [storePlan_eq, hone] at hreachable
  have hcheck : (idleFields result.plan).check = .ok () :=
    @idleFields_check result.plan [] [] (by simp) (by simp)
  have hcheck' := @idleFields_check result.plan [intent] [BrokerOrder.committed intent]
    (by simp [hcreated]) (by simp [BrokerOrder.committed, BrokerOrder.committedFields, hcreated])
  refine ⟨_, result.plan, ⟨idleFields result.plan, hcheck⟩, ⟨_, hcheck'⟩,
    hreachable.of_restrict, ⟨rfl, rfl, rfl, rfl⟩, ?_, ?_, ?_, ?_⟩
  · refine authoritativeRequest_of_committed (Dict.get?_set_self _ _ _) (Dict.get?_set_self _ _ _)
      rfl rfl rfl hplanId ?_
    rw [hpositions, hprices]
    rfl
  · refine ⟨rfl, ?_, ?_, ?_, List.nodup_nil, fun b hb => absurd hb List.not_mem_nil, ?_, rfl, ?_⟩
    · show reconstructSignedPositions sampleRequest.currentPositions [] = .ok []
      decide +kernel
    · show |(100000 : ℚ) + ([] : List ℚ).sum - 100000| ≤ cashTolerance
      norm_num [cashTolerance]
    · show |(100000 : ℚ) + ([] : List ℚ).sum + ([] : List ℚ).sum - 100000| ≤ equityTolerance
      norm_num [equityTolerance]
    · intro o ho _
      rw [List.mem_singleton.1 ho]
      exact ⟨rfl, intent, List.mem_singleton_self _, rfl, hopens, hdeadline.le⟩
    · intro deadline hsome
      have heq : (1000 : Instant) = deadline := Option.some.inj hsome
      exact heq.le
  · refine ⟨rfl, rfl, rfl, ?_, ?_⟩
    · intro i hi
      rw [List.mem_singleton.1 hi, hsymbol]
      exact ⟨List.mem_singleton_self _, fun _ => List.mem_singleton_self _⟩
    · intro o ho
      rw [List.mem_singleton.1 ho]
      rfl
  · exact ⟨_, List.mem_singleton_self _, rfl⟩

end Sample

end AdaptiveTrader
