import AdaptiveTrader.Execution.Reconciliation
import AdaptiveTrader.Foundation.StableSort

/-!
# The order of the records of a reconciliation

`reconcile` reads seven collections of records. When no collection repeats an identity, their order
does not matter: a permuted request is a request, and it yields the same receipt
(`reconcile_order_independent`). The maps and sums agree outright. The list of differences is
permuted in blocks, one block for each record, and a stable sort undoes that because a block is
marked with the identity of its record (`fiber_allDifferences`).
-/

set_option autoImplicit false

namespace AdaptiveTrader

open Foundation

/-! ## Permuted requests -/

/-- The same request with its collections in another order. -/
inductive ReconciliationRequestFields.Permuted (r : ReconciliationRequestFields) :
    ReconciliationRequestFields → Prop
  | mk {baselinePositions brokerPositions : List Position} {fills orderFills : List Fill}
      {intents : List OrderIntent} {durableOrders brokerOrders : List BrokerOrder}
      (baselinePositions_perm : r.baselinePositions.Perm baselinePositions)
      (fills_perm : r.fills.Perm fills) (orderFills_perm : r.orderFills.Perm orderFills)
      (intents_perm : r.intents.Perm intents) (durableOrders_perm : r.durableOrders.Perm durableOrders)
      (brokerOrders_perm : r.brokerOrders.Perm brokerOrders)
      (brokerPositions_perm : r.brokerPositions.Perm brokerPositions) :
      Permuted r { r with
        baselinePositions := baselinePositions, fills := fills, orderFills := orderFills,
        intents := intents, durableOrders := durableOrders, brokerOrders := brokerOrders,
        brokerPositions := brokerPositions }

/-- No collection repeats an identity. -/
structure ReconciliationRequestFields.Distinct (r : ReconciliationRequestFields) : Prop where
  baselinePositions : (r.baselinePositions.map (·.symbol)).Nodup
  fills : (r.fills.map (·.brokerExecutionId)).Nodup
  orderFills : (r.orderFills.map (·.brokerExecutionId)).Nodup
  intents : (r.intents.map (·.clientOrderId)).Nodup
  durableOrders : (r.durableOrders.map (·.clientOrderId)).Nodup
  brokerOrders : (r.brokerOrders.map (·.clientOrderId)).Nodup
  brokerPositions : (r.brokerPositions.map (·.symbol)).Nodup

/-- A request may be permuted. -/
theorem ReconciliationRequestFields.Permuted.check {r r' : ReconciliationRequestFields}
    (h : r.Permuted r') (hr : r.check = .ok ()) : r'.check = .ok () := by
  obtain ⟨_, hfills, horderFills, hintents, hdurable, hbroker, _⟩ := h
  simp only [ReconciliationRequestFields.check, rejectIf_bind_eq_ok, rejectIf_eq_ok] at hr ⊢
  obtain ⟨h₁, h₂, h₃, h₄, h₅, h₆, h₇, h₈, h₉, h₁₀, h₁₁, h₁₂, h₁₃⟩ := hr
  refine ⟨h₁, h₂, h₃, h₄, h₅, h₆, h₇, h₈, h₉, ?_, ?_, ?_, h₁₃⟩
  · rwa [← (hfills.append horderFills).any_eq]
  · rwa [← hintents.any_eq]
  · rwa [← (hdurable.append hbroker).any_eq]

theorem ReconciliationRequestFields.Permuted.distinct {r r' : ReconciliationRequestFields}
    (h : r.Permuted r') (hr : r.Distinct) : r'.Distinct := by
  obtain ⟨hbaseline, hfills, horderFills, hintents, hdurable, hbroker, hpositions⟩ := h
  exact ⟨(hbaseline.map _).nodup_iff.1 hr.baselinePositions, (hfills.map _).nodup_iff.1 hr.fills,
    (horderFills.map _).nodup_iff.1 hr.orderFills, (hintents.map _).nodup_iff.1 hr.intents,
    (hdurable.map _).nodup_iff.1 hr.durableOrders, (hbroker.map _).nodup_iff.1 hr.brokerOrders,
    (hpositions.map _).nodup_iff.1 hr.brokerPositions⟩

/-! ## Rebuilt quantities -/

theorem positionsOf_agree {d e : Dict String ℚ} (h : Dict.Agree d e) :
    positionsOf d = positionsOf e := by
  unfold positionsOf
  rw [sortedBy_eq_of_perm h.entries_perm d.nodupKeys]

theorem addQuantity_agree (d e : Dict String ℚ) (f : Fill) (h : Dict.Agree d e) :
    Dict.Agree (addQuantity d f.symbol f.signedQuantity)
      (addQuantity e f.symbol f.signedQuantity) := by
  unfold addQuantity
  rw [h f.symbol]
  exact h.set _ _

theorem addQuantity_comm (d : Dict String ℚ) (f g : Fill) :
    Dict.Agree
      (addQuantity (addQuantity d f.symbol f.signedQuantity) g.symbol g.signedQuantity)
      (addQuantity (addQuantity d g.symbol g.signedQuantity) f.symbol f.signedQuantity) := by
  intro k
  unfold addQuantity
  by_cases hsymbol : f.symbol = g.symbol
  · simp only [hsymbol, Dict.get?_set, if_true, Option.getD_some]
    split
    · rw [add_right_comm]
    · rfl
  · have hother : g.symbol ≠ f.symbol := fun heq => hsymbol heq.symm
    simp only [Dict.get?_set, if_neg hsymbol, if_neg hother]
    by_cases hf : k = f.symbol
    · rw [if_neg (hf ▸ hsymbol), if_pos hf, if_pos hf]
    · rw [if_neg hf, if_neg hf]

/-- A baseline without a repeated symbol is written position by position. -/
theorem baselineQuantities_eq {positions : List Position} {quantities : Dict String ℚ}
    (hn : (positions.map (·.symbol)).Nodup)
    (hfresh : ∀ p ∈ positions, quantities.get? p.symbol = none) :
    baselineQuantities quantities positions =
      .ok (positions.foldl (fun d p => d.set p.symbol p.quantity) quantities) := by
  induction positions generalizing quantities with
  | nil => rfl
  | cons p rest ih =>
      simp only [List.map_cons, List.nodup_cons] at hn
      have hnew : ¬ quantities.contains p.symbol = true := by
        simp [Dict.contains, hfresh p List.mem_cons_self]
      have hrest : ∀ q ∈ rest, (quantities.set p.symbol p.quantity).get? q.symbol = none := by
        intro q hq
        have hne : q.symbol ≠ p.symbol := fun heq => hn.1 (List.mem_map.2 ⟨q, hq, heq⟩)
        rw [Dict.get?_set_of_ne _ _ hne]
        exact hfresh q (List.mem_cons_of_mem _ hq)
      simp only [baselineQuantities, rejectIf, if_neg hnew, bind, Except.bind]
      exact ih hn.2 hrest

theorem distinctFills_eq {fills : List Fill} (hn : (fills.map (·.brokerExecutionId)).Nodup) :
    distinctFills fills = fills := by
  rw [distinctFills, Dict.firstWins_eq_ofValues _ hn, Dict.values_ofValues _ hn]

/-- The rebuilt positions do not depend on the order of the baseline and the fills. -/
theorem reconstructSignedPositions_perm {baseline baseline' : List Position}
    {fills fills' : List Fill} (hb : baseline.Perm baseline') (hf : fills.Perm fills')
    (hbn : (baseline.map (·.symbol)).Nodup) (hfn : (fills.map (·.brokerExecutionId)).Nodup) :
    reconstructSignedPositions baseline fills = reconstructSignedPositions baseline' fills' := by
  have hbn' := (hb.map (·.symbol)).nodup_iff.1 hbn
  have hfn' := (hf.map (·.brokerExecutionId)).nodup_iff.1 hfn
  have hcomm : baseline.Pairwise fun p q => ∀ d : Dict String ℚ,
      Dict.Agree ((d.set p.symbol p.quantity).set q.symbol q.quantity)
        ((d.set q.symbol q.quantity).set p.symbol p.quantity) := by
    refine (List.pairwise_map.1 hbn).imp ?_
    intro p q hne d k
    simp only [Dict.get?_set]
    by_cases hp : k = p.symbol
    · have hq : k ≠ q.symbol := fun heq => hne (hp.symm.trans heq)
      rw [if_neg hq, if_pos hp, if_pos hp]
    · rw [if_neg hp, if_neg hp]
  have hquantities : Dict.Agree
      (baseline.foldl (fun d p => d.set p.symbol p.quantity) Dict.empty)
      (baseline'.foldl (fun d p => d.set p.symbol p.quantity) Dict.empty) :=
    Dict.Agree.foldl_of_perm (fun _ _ (p : Position) h => h.set p.symbol p.quantity) hb hcomm
      (Dict.Agree.refl _)
  have hmoved := Dict.Agree.foldl_of_perm addQuantity_agree hf
    (List.pairwise_of_forall fun f g d => addQuantity_comm d f g) hquantities
  unfold reconstructSignedPositions
  rw [baselineQuantities_eq hbn fun _ _ => rfl, baselineQuantities_eq hbn' fun _ _ => rfl,
    distinctFills_eq hfn, distinctFills_eq hfn']
  exact positionsOf_agree hmoved

theorem totalQuantity_ofValues_perm {fills fills' : List Fill} (hp : fills.Perm fills')
    (hn : (fills.map (·.brokerExecutionId)).Nodup) :
    totalQuantity (Dict.ofValues (·.brokerExecutionId) fills).values =
      totalQuantity (Dict.ofValues (·.brokerExecutionId) fills').values := by
  rw [Dict.values_ofValues _ hn, Dict.values_ofValues _ ((hp.map _).nodup_iff.1 hn)]
  exact totalQuantity_perm hp

theorem persistedFillQuantity_perm {fills fills' : List Fill} (hp : fills.Perm fills')
    (hn : (fills.map (·.brokerExecutionId)).Nodup) (clientOrderId : String) :
    persistedFillQuantity fills clientOrderId = persistedFillQuantity fills' clientOrderId :=
  totalQuantity_ofValues_perm (hp.filter _) (hn.sublist (List.filter_sublist.map _))

section Hashed

variable [ContentHasher]

/-- The short inventory depends on the contents of the maps and on the set of fills. -/
theorem traceableShortInventory_congr {intents intents' : Dict String OrderIntent}
    {orders orders' : Dict String BrokerOrder} {fills fills' : List Fill}
    (hi : Dict.Agree intents intents') (ho : Dict.Agree orders orders') (hp : fills.Perm fills')
    (hn : (fills.map (·.brokerExecutionId)).Nodup) :
    traceableShortInventory intents orders fills =
      traceableShortInventory intents' orders' fills' := by
  have hkeys : (fills.map Fill.replayKey).Nodup := by
    refine List.Nodup.of_map (fun k => (ofLex k).2) ?_
    rw [List.map_map]
    exact hn
  have hstep : inventoryStep intents orders = inventoryStep intents' orders' := by
    funext inventory fill
    unfold inventoryStep fillEvidence
    rw [hi fill.clientOrderId, ho fill.clientOrderId]
  unfold traceableShortInventory
  rw [sortedBy_eq_of_perm hp hkeys, hstep]

end Hashed

/-! ## The differences -/

/-- The client order ID a difference key names. -/
def keyOwner (k : String ×ₗ (String ×ₗ (String ×ₗ (String ×ₗ String)))) : String :=
  (ofLex (ofLex (ofLex k).2).2).1

/-- Blocks marked with the client order IDs of their records can be permuted. -/
theorem fiber_blocks {α : Type} {owner : α → String} {l m : List α} (hp : l.Perm m)
    (hn : (l.map owner).Nodup) {block : α → List ReconciliationDiscrepancy}
    (howner : ∀ a, ∀ d ∈ block a, d.clientOrderId = some (owner a))
    (k : String ×ₗ (String ×ₗ (String ×ₗ (String ×ₗ String)))) :
    (l.flatMap block).filter (fun d => d.differenceKey = k) =
      (m.flatMap block).filter fun d => d.differenceKey = k := by
  apply @filter_flatMap_of_perm _ _ _ _ owner l m hp hn block _ (keyOwner k)
  intro a d hd hkey
  rw [← of_decide_eq_true hkey]
  show owner a = d.clientOrderId.getD ""
  rw [howner a d hd]
  rfl

theorem firstWins_agree_of_perm {α : Type} {key : α → String} {l m : List α} (hp : l.Perm m)
    (hn : (l.map key).Nodup) : Dict.Agree (Dict.firstWins key l) (Dict.firstWins key m) := by
  rw [Dict.firstWins_eq_ofValues _ hn, Dict.firstWins_eq_ofValues _ ((hp.map key).nodup_iff.1 hn)]
  exact Dict.ofValues_agree_of_perm hp hn

theorem values_firstWins {α : Type} {key : α → String} {l : List α} (hn : (l.map key).Nodup) :
    (Dict.firstWins key l).values = l := by
  rw [Dict.firstWins_eq_ofValues _ hn, Dict.values_ofValues _ hn]

section Differences

variable {r r' : ReconciliationRequest}
  (h : r.toReconciliationRequestFields.Permuted r'.toReconciliationRequestFields)
  (hd : r.toReconciliationRequestFields.Distinct)

include h hd

theorem observedMap_agree : Dict.Agree (observedMap r) (observedMap r') := by
  obtain ⟨fields, _⟩ := r'
  obtain ⟨_, _, _, _, _, _, hpositions⟩ := h
  exact firstWins_agree_of_perm hpositions hd.brokerPositions

theorem intentMap_agree : Dict.Agree (intentMap r) (intentMap r') := by
  obtain ⟨fields, _⟩ := r'
  obtain ⟨_, _, _, hintents, _, _, _⟩ := h
  exact firstWins_agree_of_perm hintents hd.intents

theorem durableMap_agree : Dict.Agree (durableMap r) (durableMap r') := by
  obtain ⟨fields, _⟩ := r'
  obtain ⟨_, _, _, _, hdurable, _, _⟩ := h
  exact firstWins_agree_of_perm hdurable hd.durableOrders

theorem observedOrderMap_agree : Dict.Agree (observedOrderMap r) (observedOrderMap r') := by
  obtain ⟨fields, _⟩ := r'
  obtain ⟨_, _, _, _, _, hbroker, _⟩ := h
  exact firstWins_agree_of_perm hbroker hd.brokerOrders

/-- The observed positions in symbol order. -/
theorem sortedBy_observedMap_values :
    sortedBy (·.symbol) (observedMap r).values = sortedBy (·.symbol) (observedMap r').values := by
  apply sortedBy_eq_of_perm (observedMap_agree h hd).values_perm
  rw [observedMap, values_firstWins hd.brokerPositions]
  exact hd.brokerPositions

theorem identityDifferences_eq : identityDifferences r = identityDifferences r' := by
  have hrepeats : ∀ r : ReconciliationRequest, r.toReconciliationRequestFields.Distinct →
      identityDifferences r =
        (if r.liveEndpointDetected then [{ code := .liveEndpointDetected }] else []) ++
          (if r.paperFalseDetected then [{ code := .paperFalseDetected }] else []) := by
    intro r hd
    have hfills : Dict.repeats id (r.fills.map (·.brokerExecutionId)) = [] :=
      (Dict.repeats_eq_nil_iff _ _).2 (by simpa using hd.fills)
    have horderFills : Dict.repeats id (r.orderFills.map (·.brokerExecutionId)) = [] :=
      (Dict.repeats_eq_nil_iff _ _).2 (by simpa using hd.orderFills)
    have hintents : Dict.repeats id (r.intents.map (·.clientOrderId)) = [] :=
      (Dict.repeats_eq_nil_iff _ _).2 (by simpa using hd.intents)
    simp only [identityDifferences, hfills, horderFills, hintents]
    simp [sortedSet]
  rw [hrepeats r hd, hrepeats r' (h.distinct hd)]
  obtain ⟨fields, _⟩ := r'
  obtain ⟨_, _, _, _, _, _, _⟩ := h
  rfl

theorem positionDifferences_eq (expectedPositions : List Position) :
    positionDifferences r expectedPositions = positionDifferences r' expectedPositions := by
  have hrepeats : ∀ r : ReconciliationRequest, r.toReconciliationRequestFields.Distinct →
      Dict.repeats (·.symbol) r.brokerPositions = [] := fun r hd =>
    (Dict.repeats_eq_nil_iff _ _).2 hd.brokerPositions
  have hobserved := observedMap_agree h hd
  have hactive : r'.activeSymbols = r.activeSymbols := by
    obtain ⟨fields, _⟩ := r'
    obtain ⟨_, _, _, _, _, _, _⟩ := h
    rfl
  have hsymbols : sortedSet ((expectedMap expectedPositions).keys ++ (observedMap r).keys) =
      sortedSet ((expectedMap expectedPositions).keys ++ (observedMap r').keys) := by
    apply sortedSet_congr
    intro symbol
    rw [List.mem_append, List.mem_append, hobserved.mem_keys]
  have hquantity : quantityIn (observedMap r) = quantityIn (observedMap r') := by
    funext symbol
    rw [quantityIn, quantityIn, hobserved symbol]
  unfold positionDifferences
  rw [hrepeats r hd, hrepeats r' (h.distinct hd), hsymbols, hquantity, hactive]

theorem requiredFlatDifferences_eq : requiredFlatDifferences r = requiredFlatDifferences r' := by
  have hpositions : sortedBy (·.symbol) ((observedMap r).values.filter fun p =>
        quantityTolerance < |p.quantity|) =
      sortedBy (·.symbol) ((observedMap r').values.filter fun p =>
        quantityTolerance < |p.quantity|) := by
    apply sortedBy_eq_of_perm ((observedMap_agree h hd).values_perm.filter _)
    rw [observedMap, values_firstWins hd.brokerPositions]
    exact hd.brokerPositions.sublist (List.filter_sublist.map _)
  unfold requiredFlatDifferences
  rw [hpositions]
  obtain ⟨fields, _⟩ := r'
  obtain ⟨_, _, _, _, _, _, _⟩ := h
  rfl

omit h in
theorem duplicateOrderDifferences_eq_nil :
    duplicateOrderDifferences r.durableOrders = [] ∧
      duplicateOrderDifferences r.brokerOrders = [] := by
  unfold duplicateOrderDifferences
  rw [(Dict.repeats_eq_nil_iff _ _).2 hd.durableOrders,
    (Dict.repeats_eq_nil_iff _ _).2 hd.brokerOrders]
  exact ⟨rfl, rfl⟩

theorem shortDifferences_eq [ContentHasher] (expectedPositions : List Position) :
    shortDifferences r expectedPositions = shortDifferences r' expectedPositions := by
  have htraceable : traceableShortInventory (intentMap r) (durableMap r) r.orderFills =
      traceableShortInventory (intentMap r') (durableMap r') r'.orderFills := by
    have horderFills : r.orderFills.Perm r'.orderFills := by
      obtain ⟨fields, _⟩ := r'
      obtain ⟨_, _, horderFills, _, _, _, _⟩ := h
      exact horderFills
    exact traceableShortInventory_congr (intentMap_agree h hd) (durableMap_agree h hd) horderFills
      hd.orderFills
  have hobserved : (observedMap r).get? = (observedMap r').get? := funext (observedMap_agree h hd)
  unfold shortDifferences
  rw [htraceable, hobserved]

theorem intentDifferences_fiber
    (k : String ×ₗ (String ×ₗ (String ×ₗ (String ×ₗ String)))) :
    (intentDifferences r).filter (fun d => d.differenceKey = k) =
      (intentDifferences r').filter fun d => d.differenceKey = k := by
  obtain ⟨fields, _⟩ := r'
  obtain ⟨_, _, _, hintents, _, _, _⟩ := h
  apply fiber_blocks hintents hd.intents
  intro i d hmem
  rcases List.mem_append.1 hmem with hone | hone
  · split at hone
    · rw [List.mem_singleton.1 hone]
    · cases hone
  · split at hone
    · rw [List.mem_singleton.1 hone]
    · cases hone

theorem openOrderDifferences_fiber
    (k : String ×ₗ (String ×ₗ (String ×ₗ (String ×ₗ String)))) :
    (openOrderDifferences r).filter (fun d => d.differenceKey = k) =
      (openOrderDifferences r').filter fun d => d.differenceKey = k := by
  have hintents : (intentMap r).get? = (intentMap r').get? := funext (intentMap_agree h hd)
  have hflat : r'.requireFlat = r.requireFlat := by
    obtain ⟨fields, _⟩ := r'
    obtain ⟨_, _, _, _, _, _, _⟩ := h
    rfl
  have hvalues := (durableMap_agree h hd).values_perm
  have hnodup : ((durableMap r).values.map (·.clientOrderId)).Nodup := by
    rw [durableMap, values_firstWins hd.durableOrders]
    exact hd.durableOrders
  unfold openOrderDifferences
  rw [hflat]
  split
  · rw [hintents]
    apply fiber_blocks hvalues hnodup
    intro o d hmem
    split at hmem
    · split at hmem
      · rw [List.mem_singleton.1 hmem]
      · cases hmem
    · cases hmem
  · rfl

theorem unknownOrderDifferences_fiber
    (k : String ×ₗ (String ×ₗ (String ×ₗ (String ×ₗ String)))) :
    (unknownOrderDifferences r).filter (fun d => d.differenceKey = k) =
      (unknownOrderDifferences r').filter fun d => d.differenceKey = k := by
  have hintents : (intentMap r).contains = (intentMap r').contains :=
    funext (intentMap_agree h hd).contains_eq
  have hvalues := (observedOrderMap_agree h hd).values_perm
  have hnodup : ((observedOrderMap r).values.map (·.clientOrderId)).Nodup := by
    rw [observedOrderMap, values_firstWins hd.brokerOrders]
    exact hd.brokerOrders
  unfold unknownOrderDifferences
  rw [hintents]
  apply fiber_blocks hvalues hnodup
  intro o d hmem
  split at hmem
  · cases hmem
  · rcases List.mem_cons.1 hmem with rfl | hrest
    · rfl
    · split at hrest
      · rw [List.mem_singleton.1 hrest]
      · cases hrest

omit h hd in
/-- The differences of a durable order name it. -/
theorem clientOrderId_of_mem_durableOrderDifferences {intents : Dict String OrderIntent}
    {orders : Dict String BrokerOrder} {o : BrokerOrder} {d : ReconciliationDiscrepancy}
    (hmem : d ∈ durableOrderDifferences r intents orders o) :
    d.clientOrderId = some o.clientOrderId := by
  have hone : ∀ {c : Prop} [Decidable c] {e : ReconciliationDiscrepancy},
      e.clientOrderId = some o.clientOrderId → d ∈ (if c then [e] else []) →
      d.clientOrderId = some o.clientOrderId := by
    intro c _ e he hd
    split at hd
    · rw [List.mem_singleton.1 hd]
      exact he
    · cases hd
  rcases List.mem_append.1 hmem with hfilled | hrest
  · exact hone rfl hfilled
  · cases hobserved : orders.get? o.clientOrderId with
    | none =>
        simp only [hobserved] at hrest
        split_ifs at hrest with hterminal hcommitted hambiguous
        · cases hrest
        · cases hrest
        · rcases List.mem_append.1 hrest with hunknown | hmissing
          · rw [List.mem_singleton.1 hunknown]
          · rw [List.mem_singleton.1 hmissing]
        · rw [List.mem_singleton.1 hrest]
    | some brokerOrder =>
        simp only [hobserved] at hrest
        rcases List.mem_append.1 hrest with hunknown | hmatched
        · exact hone rfl hunknown
        · rcases List.mem_append.1 hmatched with hfront | hbroker
          · rcases List.mem_append.1 hfront with hfilled | hstate
            · exact hone rfl hfilled
            · exact hone rfl hstate
          · exact hone rfl hbroker

theorem durableDifferences_fiber
    (k : String ×ₗ (String ×ₗ (String ×ₗ (String ×ₗ String)))) :
    ((durableMap r).values.flatMap
        (durableOrderDifferences r (intentMap r) (observedOrderMap r))).filter
          (fun d => d.differenceKey = k) =
      ((durableMap r').values.flatMap
        (durableOrderDifferences r' (intentMap r') (observedOrderMap r'))).filter
          fun d => d.differenceKey = k := by
  have hvalues := (durableMap_agree h hd).values_perm
  have hnodup : ((durableMap r).values.map (·.clientOrderId)).Nodup := by
    rw [durableMap, values_firstWins hd.durableOrders]
    exact hd.durableOrders
  have hblock : durableOrderDifferences r (intentMap r) (observedOrderMap r) =
      durableOrderDifferences r' (intentMap r') (observedOrderMap r') := by
    have hpersisted : persistedFillQuantity r.orderFills = persistedFillQuantity r'.orderFills := by
      obtain ⟨fields, _⟩ := r'
      obtain ⟨_, _, horderFills, _, _, _, _⟩ := h
      exact funext (persistedFillQuantity_perm horderFills hd.orderFills)
    have hplan : r'.executionPlanId = r.executionPlanId := by
      obtain ⟨fields, _⟩ := r'
      obtain ⟨_, _, _, _, _, _, _⟩ := h
      rfl
    funext o
    simp only [durableOrderDifferences, hpersisted, hplan, intentMap_agree h hd o.clientOrderId,
      observedOrderMap_agree h hd o.clientOrderId]
  rw [hblock]
  apply fiber_blocks hvalues hnodup
  intro o d hmem
  exact clientOrderId_of_mem_durableOrderDifferences hmem

theorem expectedCash_eq : expectedCash r = expectedCash r' := by
  obtain ⟨fields, _⟩ := r'
  obtain ⟨_, hfills, _, _, _, _, _⟩ := h
  unfold expectedCash
  rw [Dict.values_ofValues _ hd.fills, Dict.values_ofValues _ ((hfills.map _).nodup_iff.1 hd.fills)]
  exact congrArg _ (hfills.map _).sum_eq

theorem expectedEquity_eq (expectedPositions : List Position) :
    expectedEquity r expectedPositions = expectedEquity r' expectedPositions := by
  unfold expectedEquity
  rw [expectedCash_eq h hd]
  obtain ⟨fields, _⟩ := r'
  obtain ⟨_, _, _, _, _, _, _⟩ := h
  rfl

theorem accountDifferences_eq [ContentHasher] (expectedPositions : List Position) :
    accountDifferences r expectedPositions = accountDifferences r' expectedPositions := by
  unfold accountDifferences
  rw [expectedCash_eq h hd, expectedEquity_eq h hd]
  obtain ⟨fields, _⟩ := r'
  obtain ⟨_, _, _, _, _, _, _⟩ := h
  rfl

/-- The differences of a permuted request have the same fibers. -/
theorem fiber_allDifferences [ContentHasher] (expectedPositions : List Position)
    (k : String ×ₗ (String ×ₗ (String ×ₗ (String ×ₗ String)))) :
    (allDifferences r expectedPositions).filter (fun d => d.differenceKey = k) =
      (allDifferences r' expectedPositions).filter fun d => d.differenceKey = k := by
  obtain ⟨hdurable, hbroker⟩ := duplicateOrderDifferences_eq_nil hd
  obtain ⟨hdurable', hbroker'⟩ := duplicateOrderDifferences_eq_nil (h.distinct hd)
  simp only [allDifferences, List.filter_append, identityDifferences_eq h hd,
    positionDifferences_eq h hd, requiredFlatDifferences_eq h hd, hdurable, hdurable', hbroker,
    hbroker', shortDifferences_eq h hd, intentDifferences_fiber h hd,
    openOrderDifferences_fiber h hd, unknownOrderDifferences_fiber h hd,
    durableDifferences_fiber h hd, accountDifferences_eq h hd]

/-- The sorted set of differences is the same. -/
theorem sorted_allDifferences [ContentHasher] (expectedPositions : List Position) :
    sortedBy (·.differenceKey) (allDifferences r expectedPositions).dedup =
      sortedBy (·.differenceKey) (allDifferences r' expectedPositions).dedup := by
  apply sortedBy_eq_of_fibers
  intro k
  rw [filter_dedup, filter_dedup, fiber_allDifferences h hd]

end Differences

/-! ## The receipt -/

/-- A request whose collections repeat no identity can be permuted: the permuted request is valid
and yields the same receipt. -/
theorem reconcile_order_independent [ContentHasher] (r : ReconciliationRequest)
    (hd : r.toReconciliationRequestFields.Distinct) {fields : ReconciliationRequestFields}
    (h : r.toReconciliationRequestFields.Permuted fields) :
    ∃ r', ReconciliationRequest.create fields = .ok r' ∧ reconcile r' = reconcile r := by
  have hcheck := h.check r.checked
  obtain ⟨r', hr'⟩ : ∃ r' : ReconciliationRequest, r' = ⟨fields, hcheck⟩ := ⟨_, rfl⟩
  have hpermuted : r.toReconciliationRequestFields.Permuted r'.toReconciliationRequestFields := by
    rw [hr']
    exact h
  refine ⟨r', ?_, ?_⟩
  · rw [hr']
    exact validated_of_ok hcheck
  -- Each argument of the receipt agrees; only the collections differ.
  have hpositions : reconstructSignedPositions r'.baselinePositions r'.fills =
      reconstructSignedPositions r.baselinePositions r.fills := by
    rw [hr']
    obtain ⟨hbaseline, hfills, _, _, _, _, _⟩ := h
    exact (reconstructSignedPositions_perm hbaseline hfills hd.baselinePositions hd.fills).symm
  have hfillHashes : sortedSet ((r'.fills ++ r'.orderFills).map (·.contentHash)) =
      sortedSet ((r.fills ++ r.orderFills).map (·.contentHash)) := by
    rw [hr']
    obtain ⟨_, hfills, horderFills, _, _, _, _⟩ := h
    exact sortedSet_congr fun _ => ((hfills.append horderFills).map _).mem_iff.symm
  have horderHashes : sortedSet ((r'.durableOrders ++ r'.brokerOrders).map (·.contentHash)) =
      sortedSet ((r.durableOrders ++ r.brokerOrders).map (·.contentHash)) := by
    rw [hr']
    obtain ⟨_, _, _, _, hdurable, hbroker, _⟩ := h
    exact sortedSet_congr fun _ => ((hdurable.append hbroker).map _).mem_iff.symm
  unfold reconcile
  rw [hpositions, ← sortedBy_observedMap_values hpermuted hd, hfillHashes, horderHashes]
  simp only [← expectedCash_eq hpermuted hd, ← expectedEquity_eq hpermuted hd,
    ← sorted_allDifferences hpermuted hd]
  rw [hr']
  obtain ⟨_, _, _, _, _, _, _⟩ := h
  rfl

section Sample

local instance reconciliationHasher : ContentHasher := polynomialHasher

/-- An account of one thousand that holds two symbols. -/
def sampleHoldings : ReconciliationRequest :=
  ⟨{ experimentHash := String.ofList (List.replicate 64 'a'), slotId := none
     executionPlanId := none, correlationId := "correlation"
     activeSymbols := ["QQQ", "SPY"], shortEligibleSymbols := []
     baselinePositions := [⟨"QQQ", 1, by decide⟩, ⟨"SPY", 2, by decide⟩], baselineCash := 700
     fills := [], orderFills := [], intents := [], durableOrders := [], brokerOrders := []
     brokerPositions := [⟨"QQQ", 1, by decide⟩, ⟨"SPY", 2, by decide⟩]
     brokerAccount :=
       ⟨{ accountId := "account", cash := 700, equity := 1000, buyingPower := 700,
          restrictedShortProceeds := 0, observedAt := 0 }, by decide +kernel⟩
     expectedAccountIdHash := String.ofList (List.replicate 64 'a')
     markPrices := [("QQQ", 100), ("SPY", 100)], startedAt := 0, completedAt := 1 },
    by decide +kernel⟩

/-- The holdings can be listed the other way. -/
theorem sampleHoldings_order_independent :
    ∃ r', ReconciliationRequest.create { sampleHoldings.toReconciliationRequestFields with
        baselinePositions := sampleHoldings.baselinePositions.reverse
        brokerPositions := sampleHoldings.brokerPositions.reverse } = .ok r' ∧
      reconcile r' = reconcile sampleHoldings :=
  reconcile_order_independent sampleHoldings
    ⟨by decide, by decide, by decide, by decide, by decide, by decide, by decide⟩
    ⟨(List.reverse_perm _).symm, List.Perm.refl _, List.Perm.refl _, List.Perm.refl _,
      List.Perm.refl _, List.Perm.refl _, (List.reverse_perm _).symm⟩

end Sample

end AdaptiveTrader
