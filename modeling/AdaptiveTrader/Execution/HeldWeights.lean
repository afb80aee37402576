import AdaptiveTrader.Execution.FinalTargets
import AdaptiveTrader.Risk.Convergence
import AdaptiveTrader.Risk.RebalanceBand

/-!
# Planning a weight the band has retained

The band turns a quantity into a weight with one quotient of 50 digits, planning turns the weight into
a quantity with a product and a quotient of 28 digits and cuts it to whole units. A retained symbol is
left alone exactly when the quantity survives the way there and back (`banded_symbol_idle_iff`). It
does when the quantity and its notional have at most 28 digits (`survivesRounding_of_digits`); with a
price of 30 digits a position of one share can lose its last digit, and with it the share
(`retained_short_closed`).
-/

set_option autoImplicit false

namespace AdaptiveTrader

open Foundation

/-! ## There and back -/

/-- The unit of a quantity: millionths of a share, for a short position whole shares. -/
def quantityUnit (quantity : ℚ) : ℚ := if quantity < 0 then shortQuantum else longQuantum

/-- The weight of a quantity in the risk context. -/
def heldWeight (quantity price equity : ℚ) : ℚ :=
  significant riskPrecision
    (significant riskPrecision (significant riskPrecision quantity * price) / equity)

/-- Rounded to a weight of 50 digits and back to a quantity of 28, a quantity is not less, and less
than one unit more. -/
def SurvivesRounding (quantity price equity : ℚ) : Prop :=
  |quantity| ≤ rawQuantity (heldWeight |quantity| price equity) equity price ∧
    rawQuantity (heldWeight |quantity| price equity) equity price <
      |quantity| + quantityUnit quantity

instance (quantity price equity : ℚ) : Decidable (SurvivesRounding quantity price equity) :=
  inferInstanceAs (Decidable (_ ∧ _))

theorem longQuantum_pos : 0 < longQuantum := by norm_num [longQuantum]

theorem shortQuantum_pos : 0 < shortQuantum := by norm_num [shortQuantum]

/-- Multiples of the quantum are cut to themselves exactly from what is less than a quantum above. -/
theorem quantizeDecimal_eq_iff {value quantum : ℚ} (hvalue : 0 ≤ value) (hquantum : 0 < quantum)
    (n : ℤ) : quantizeDecimal value quantum = n * quantum ↔
      n * quantum ≤ value ∧ value < n * quantum + quantum := by
  constructor
  · intro h
    rw [← h]
    exact ⟨quantizeDecimal_le hvalue hquantum, lt_quantizeDecimal_add hvalue hquantum⟩
  · rintro ⟨hle, hlt⟩
    have hfloor : ⌊value / quantum⌋ = n := by
      rw [Int.floor_eq_iff, le_div_iff₀ hquantum, div_lt_iff₀ hquantum, add_mul, one_mul]
      exact ⟨hle, hlt⟩
    rw [quantizeDecimal, roundDown, if_pos (div_nonneg hvalue hquantum.le), hfloor]

section Trip

variable {quantity price equity : ℚ}

theorem heldWeight_neg (quantity price equity : ℚ) :
    heldWeight (-quantity) price equity = -heldWeight quantity price equity := by
  simp only [heldWeight, significant_neg, neg_mul, neg_div]

theorem rawQuantity_neg (weight equity price : ℚ) :
    rawQuantity (-weight) equity price = -rawQuantity weight equity price := by
  simp only [rawQuantity, significant_neg, neg_mul, neg_div]

@[simp] theorem heldWeight_zero (price equity : ℚ) : heldWeight 0 price equity = 0 := by
  simp [heldWeight]

@[simp] theorem rawQuantity_zero (equity price : ℚ) : rawQuantity 0 equity price = 0 := by
  simp [rawQuantity]

theorem survivesRounding_zero (price equity : ℚ) : SurvivesRounding 0 price equity := by
  rw [SurvivesRounding, abs_zero, heldWeight_zero, rawQuantity_zero, zero_add, quantityUnit,
    if_neg (lt_irrefl 0)]
  exact ⟨le_rfl, longQuantum_pos⟩

variable (hprice : 0 < price) (hequity : 0 < equity)
include hprice hequity

theorem heldWeight_pos (hquantity : 0 < quantity) : 0 < heldWeight quantity price equity := by
  have hprecision : 0 < riskPrecision := by decide
  apply significant_pos hprecision
  apply div_pos _ hequity
  apply significant_pos hprecision
  exact mul_pos (significant_pos hprecision hquantity) hprice

theorem rawQuantity_pos {weight : ℚ} (hweight : 0 < weight) :
    0 < rawQuantity weight equity price := by
  have hprecision : 0 < contextPrecision := by decide
  apply significant_pos hprecision
  exact div_pos (significant_pos hprecision (mul_pos hweight hequity)) hprice

theorem heldWeight_eq_zero_iff : heldWeight quantity price equity = 0 ↔ quantity = 0 := by
  constructor
  · intro hzero
    rcases lt_trichotomy quantity 0 with hneg | heq | hpos
    · have hopposite := heldWeight_pos hprice hequity (neg_pos.2 hneg)
      rw [heldWeight_neg, hzero, neg_zero] at hopposite
      exact absurd hopposite (lt_irrefl 0)
    · exact heq
    · exact absurd hzero (heldWeight_pos hprice hequity hpos).ne'
  · rintro rfl
    exact heldWeight_zero price equity

/-- Planning returns to a quantity of whole units exactly when the quantity survives. -/
theorem targetQuantity_heldWeight_iff (hunit : ∃ n : ℤ, quantity = n * quantityUnit quantity) :
    targetQuantity (heldWeight quantity price equity) equity price = quantity ↔
      SurvivesRounding quantity price equity := by
  obtain ⟨n, hn⟩ := hunit
  unfold SurvivesRounding
  rcases lt_trichotomy quantity 0 with hneg | rfl | hpos
  · have hflip : heldWeight quantity price equity = -heldWeight |quantity| price equity := by
      rw [abs_of_neg hneg, heldWeight_neg, neg_neg]
    have hraw := rawQuantity_pos hprice hequity (heldWeight_pos hprice hequity (abs_pos.2 hneg.ne))
    rw [quantityUnit, if_pos hneg] at hn ⊢
    rw [targetQuantity, hflip, rawQuantity_neg, if_neg (neg_ne_zero.2 hraw.ne'),
      if_neg (not_lt.2 (neg_nonpos.2 hraw.le)), abs_neg, abs_of_pos hraw, neg_eq_iff_eq_neg,
      ← abs_of_neg hneg]
    have hcount : |quantity| = ((-n : ℤ) : ℚ) * shortQuantum := by
      rw [abs_of_neg hneg]
      push_cast
      linarith
    have hcut := quantizeDecimal_eq_iff hraw.le shortQuantum_pos (-n)
    rw [← hcount] at hcut
    exact hcut
  · have hzero := survivesRounding_zero price equity
    rw [SurvivesRounding] at hzero
    rw [heldWeight_zero, targetQuantity, rawQuantity_zero, if_pos rfl]
    exact ⟨fun _ => hzero, fun _ => rfl⟩
  · have hraw := rawQuantity_pos hprice hequity (heldWeight_pos hprice hequity hpos)
    rw [quantityUnit, if_neg (not_lt.2 hpos.le)] at hn ⊢
    rw [targetQuantity, abs_of_pos hpos, if_neg hraw.ne', if_pos hraw, abs_of_pos hraw]
    have hcut := quantizeDecimal_eq_iff hraw.le longQuantum_pos n
    rw [← hn] at hcut
    exact hcut

/-- A quantity and a notional of at most 28 digits come back unchanged. -/
theorem survivesRounding_of_digits (hquantity : HasDigits contextPrecision |quantity|)
    (hnotional : HasDigits contextPrecision (|quantity| * price)) :
    SurvivesRounding quantity price equity := by
  by_cases hzero : quantity = 0
  · rw [hzero]
    exact survivesRounding_zero price equity
  · have hpos : 0 < |quantity| := abs_pos.2 hzero
    have hx : 0 < |quantity| * price := mul_pos hpos hprice
    have hle : contextPrecision ≤ riskPrecision := by decide
    have hweight : heldWeight |quantity| price equity =
        significant riskPrecision (|quantity| * price / equity) := by
      rw [heldWeight, significant_eq_self (hquantity.mono hle),
        significant_eq_self (hnotional.mono hle)]
    -- The weight is so close that its product with the equity is rounded to the notional.
    have herror := abs_significant_sub_le_roundoff (p := riskPrecision) (by decide)
      (|quantity| * price / equity)
    have hproduct : significant contextPrecision (heldWeight |quantity| price equity * equity) =
        |quantity| * price := by
      apply significant_eq_of_near (by decide) hnotional
      have hsplit : heldWeight |quantity| price equity * equity - |quantity| * price =
          (significant riskPrecision (|quantity| * price / equity) - |quantity| * price / equity) *
            equity := by
        rw [hweight, sub_mul, div_mul_cancel₀ _ hequity.ne']
      rw [hsplit, abs_mul, abs_of_pos hequity, abs_of_pos hx]
      calc _ ≤ Decimal.roundoff riskPrecision * |(|quantity| * price / equity)| * equity :=
            mul_le_mul_of_nonneg_right herror hequity.le
        _ = Decimal.roundoff riskPrecision * (|quantity| * price) := by
            rw [abs_of_pos (div_pos hx hequity), mul_assoc, div_mul_cancel₀ _ hequity.ne']
        _ < |quantity| * price / (2 * 10 ^ contextPrecision) := by
            rw [Decimal.roundoff, one_div_mul_eq_div]
            apply div_lt_div_of_pos_left hx (by positivity)
            norm_num [riskPrecision, contextPrecision]
    have hback : rawQuantity (heldWeight |quantity| price equity) equity price = |quantity| := by
      rw [rawQuantity, hproduct, mul_div_assoc, div_self hprice.ne', mul_one,
        significant_eq_self hquantity]
    unfold SurvivesRounding
    rw [hback]
    refine ⟨le_rfl, lt_add_of_pos_right _ ?_⟩
    unfold quantityUnit
    split
    · exact shortQuantum_pos
    · exact longQuantum_pos

end Trip

/-! ## Plans -/

section Plans

variable {r : ExecutionPlanningRequest}

/-- What a planning request takes over from its decision. -/
theorem ExecutionPlanningRequest.snapshot (r : ExecutionPlanningRequest) :
    positionPairs r.currentPositions =
        r.riskDecision.planningPositions.map (fun p => (p.symbol, p.quantity)) ∧
      r.referencePrices = r.riskDecision.planningPrices.map (fun p => (p.symbol, p.price)) ∧
      r.equity = r.riskDecision.accountSnapshot.equity ∧
      (r.forcedFlat = true → ∀ t ∈ r.riskDecision.finalTargets, t.2 = 0) := by
  have h := r.checked
  simp only [ExecutionPlanningRequestFields.check, rejectIf_bind_eq_ok, rejectIf_eq_ok, not_not] at h
  obtain ⟨-, -, -, -, hpositions, hprices, hequity, -, -, -, hflat⟩ := h
  refine ⟨hpositions, hprices, hequity, fun hforced t ht => ?_⟩
  by_contra hne
  exact hflat ⟨hforced, List.any_eq_true.2 ⟨t, ht, by simpa using hne⟩⟩

variable [ContentHasher] {result : ExecutionPlanningResult}

/-- A plan has an intent for a symbol exactly when its target is not what is held. -/
theorem Planned.idle_iff (h : Planned r result) {symbol : String}
    (hsymbol : symbol ∈ r.riskDecision.symbols) :
    (∀ i ∈ result.intents, i.symbol ≠ symbol) ↔
      r.currentOf symbol = if r.forcedFlat then 0 else r.targetOf symbol := by
  obtain ⟨t, d, htd, rfl⟩ := h.exists_target hsymbol
  rw [← h.quantity_of_target (List.of_mem_zip htd).1]
  constructor
  · intro hidle
    rcases h.settles htd with ⟨-, -, hcurrent⟩ | ⟨draft, hkept, -⟩
    · exact hcurrent
    · -- A draft of the symbol becomes an intent.
      obtain ⟨p, hp⟩ := List.exists_mem_of_ne_nil _ hkept.nonempty
      have hdraft : p ∈ h.transitions.flatMap Prod.fst :=
        List.mem_flatMap.2 ⟨d, (List.of_mem_zip htd).2, hp⟩
      obtain ⟨i, hi, hmove⟩ :=
        List.mem_map.1 (h.moves_perm.mem_iff.2 (List.mem_map_of_mem (f := IntentDraft.move) hdraft))
      have hnamed : i.symbol = p.symbol := congrArg Prod.fst hmove
      have howner := (List.forall₂_iff_zip.1 h.symbols_drafts).2 htd p hp
      exact absurd (hnamed.trans howner) (hidle i hi)
  · intro hcurrent i hi hnamed
    obtain ⟨t', d', htd', hsame, p, hp, -⟩ := h.exists_move hi
    cases h.target_unique htd' htd (hsame.trans hnamed)
    have hok : targetDrafts r t = .ok d := (List.forall₂_iff_zip.1 h.transitions_eq).2 htd
    have hheld : pairValue (positionPairs r.currentPositions) t.symbol = t.quantity := hcurrent
    simp only [targetDrafts, transitionDraft, if_pos hheld, bind_eq_ok, Except.ok.injEq,
      exists_eq_left', pure_eq_ok] at hok
    rw [← hok] at hp
    exact List.not_mem_nil hp

end Plans

section Evaluations

variable {e : FullEvaluation}

/-- Without reservations the projected quantity is the held one, rounded. -/
theorem weightOf_projectedQuantities {request : RiskEvaluationRequest} {symbol : String}
    (hreserved : ∀ v ∈ request.reservedSignedNotional, v.2 = 0)
    (hsymbol : symbol ∈ request.projectedQuantities.map Prod.fst) :
    weightOf request.projectedQuantities symbol =
      significant riskPrecision (weightOf request.quantityPairs symbol) := by
  have hzero : weightOf request.reservedSignedNotional symbol = 0 := by
    unfold weightOf
    cases hlookup : Dict.lookup symbol request.reservedSignedNotional with
    | none => rfl
    | some v => exact hreserved _ (Dict.mem_of_lookup hlookup)
  unfold RiskEvaluationRequest.projectedQuantities at hsymbol ⊢
  rw [weightOf]
  cases hlookup :
    Dict.lookup symbol (request.signal.activeSymbols.map fun symbol =>
      (symbol, significant riskPrecision (weightOf request.quantityPairs symbol +
        significant riskPrecision
          (weightOf request.reservedSignedNotional symbol / weightOf request.pricePairs symbol))))
  with
  | none => exact absurd hsymbol (Dict.lookup_eq_none_iff.1 hlookup)
  | some v =>
    obtain ⟨name, -, hname⟩ := List.mem_map.1 (Dict.mem_of_lookup hlookup)
    obtain ⟨rfl, rfl⟩ := Prod.mk.inj hname
    rw [Option.getD_some, hzero, zero_div, significant_zero, add_zero]

variable [ContentHasher] {d : RiskDecision}

/-- The final target of a retained symbol is the weight of its position. -/
theorem finalTarget_retained (hd : e.fullDecision = .ok d)
    (hreserved : ∀ v ∈ e.request.reservedSignedNotional, v.2 = 0) {symbol : String}
    (hretained : e.Retains symbol) : symbol ∈ d.symbols ∧
      pairValue d.finalTargets symbol = heldWeight (weightOf e.request.quantityPairs symbol)
        (weightOf e.request.pricePairs symbol) e.request.account.equity := by
  obtain ⟨banded, hbanded, htargets, -⟩ := FullEvaluation.fullDecision_spec hd
  obtain ⟨banded', hbanded', c, hc, hscope⟩ := hretained
  rw [hbanded] at hbanded'
  cases hbanded'
  obtain ⟨hsymbols, -, hweights⟩ := retained_weight hbanded
  obtain ⟨hin, hweight⟩ := hweights symbol c hc hscope
  have hquantity : weightOf e.bandInput.currentQuantities symbol =
      significant riskPrecision (weightOf e.request.quantityPairs symbol) :=
    weightOf_projectedQuantities hreserved (mem_currentQuantities hbanded hin)
  refine ⟨?_, ?_⟩
  · rw [RiskDecision.symbols, htargets, hsymbols]
    exact hin
  · have hvalue : pairValue d.finalTargets symbol = weightOf banded.weights symbol := by
      rw [htargets]
      rfl
    rw [hvalue, hweight, BandInput.currentWeight, hquantity]
    rfl

/-- A plan leaves a symbol alone that the band has retained exactly when its position survives the
rounding to a weight and back, so in particular when the position and its notional have at most 28
digits. -/
theorem banded_symbol_idle_iff {symbol : String} {r : ExecutionPlanningRequest}
    {result : ExecutionPlanningResult} (hd : e.fullDecision = .ok r.riskDecision)
    (hreserved : ∀ v ∈ e.request.reservedSignedNotional, v.2 = 0)
    (hretained : e.Retains symbol)
    (hunit : ∃ n : ℤ, weightOf e.request.quantityPairs symbol =
      n * quantityUnit (weightOf e.request.quantityPairs symbol))
    (hplan : planSignedOrders r = .ok result) :
    ((∀ i ∈ result.intents, i.symbol ≠ symbol) ↔
      SurvivesRounding (weightOf e.request.quantityPairs symbol)
        (weightOf e.request.pricePairs symbol) e.request.account.equity) ∧
    (HasDigits contextPrecision |weightOf e.request.quantityPairs symbol| →
      HasDigits contextPrecision
        (|weightOf e.request.quantityPairs symbol| * weightOf e.request.pricePairs symbol) →
      ∀ i ∈ result.intents, i.symbol ≠ symbol) := by
  obtain ⟨banded, -, -, hpositions, hprices, haccount⟩ := FullEvaluation.fullDecision_spec hd
  obtain ⟨hsymbol, htarget⟩ := finalTarget_retained hd hreserved hretained
  obtain ⟨hheld, hreference, hequity, hforced⟩ := r.snapshot
  obtain ⟨h⟩ := planSignedOrders_planned hplan
  have hcurrent : r.currentOf symbol = weightOf e.request.quantityPairs symbol := by
    rw [ExecutionPlanningRequest.currentOf, hheld, hpositions]
    rfl
  have hpriceEq : r.referencePrice symbol = weightOf e.request.pricePairs symbol := by
    rw [ExecutionPlanningRequest.referencePrice, hreference, hprices]
    rfl
  have hequityEq : r.equity = e.request.account.equity := by rw [hequity, haccount]
  have hprice := r.referencePrice_pos hsymbol
  have hequityPos : 0 < r.equity := r.wellFormed.2.2.2.1
  rw [hpriceEq] at hprice
  rw [hequityEq] at hequityPos
  have hsurvives : (∀ i ∈ result.intents, i.symbol ≠ symbol) ↔
      SurvivesRounding (weightOf e.request.quantityPairs symbol)
        (weightOf e.request.pricePairs symbol) e.request.account.equity := by
    rw [h.idle_iff hsymbol, hcurrent, ← targetQuantity_heldWeight_iff hprice hequityPos hunit]
    cases hflat : r.forcedFlat with
    | true =>
      -- All targets are zero, so nothing is held.
      have hzero : pairValue r.riskDecision.finalTargets symbol = 0 := by
        unfold pairValue
        cases hlookup : Dict.lookup symbol r.riskDecision.finalTargets with
        | none => rfl
        | some v => exact hforced hflat _ (Dict.mem_of_lookup hlookup)
      rw [htarget, heldWeight_eq_zero_iff hprice hequityPos] at hzero
      rw [if_pos rfl, hzero, heldWeight_zero, targetQuantity, rawQuantity_zero, if_pos rfl]
    | false =>
      rw [if_neg Bool.false_ne_true, ExecutionPlanningRequest.targetOf, htarget, hpriceEq, hequityEq]
      exact eq_comm
  refine ⟨hsurvives, fun hquantity hnotional => hsurvives.2 ?_⟩
  exact survivesRounding_of_digits hprice hequityPos hquantity hnotional

end Evaluations

/-! ## One share held short -/

section Sample

local instance heldHasher : ContentHasher := polynomialHasher

def heldSignal : SignalEnvelope :=
  ⟨{ contractVersion := 1, slotId := "slot_" ++ repeatedDigest 'a'
     correlationId := "correlation_" ++ repeatedDigest 'a', providerId := "provider"
     providerVersion := "1.0.0", providerSourceMode := .builtin, experimentId := "experiment"
     experimentVersion := 1, experimentHash := repeatedDigest 'a'
     dataContractHash := repeatedDigest 'a', policyHash := repeatedDigest 'a', sourceBarEnd := 0
     createdAt := 0, expiresAt := 1000, activeSymbols := ["SPY"], availabilityMask := [true]
     actions := [.short], expectedEdgeBps := [none], proposedSignedTargetInputs := [none]
     artifactId := none, artifactHash := none, promotable := false
     paperSubmissionEligible := false }, by decide +kernel⟩

def heldExposure : ExposureSnapshot :=
  ⟨{ gross := 7 / 200, net := -7 / 200, positive := 0, shortAbs := 7 / 200
     groupGross := [("equities", 7 / 200)], clusterGross := [("SPY", 7 / 200)] },
    by decide +kernel⟩

/-- Constrained targets of three and a half percent short. -/
def heldConstraints : ConstraintResult :=
  ⟨{ originalTargets := [("SPY", -7 / 200)], finalTargets := [("SPY", -7 / 200)]
     beforeExposure := heldExposure, afterExposure := heldExposure, controls := []
     correlationComponents := [["SPY"]], converged := true, reasonCode := none },
    by decide +kernel⟩

theorem heldAccount_check : AccountSnapshotFields.check
    { accountIdHash := repeatedDigest 'a', equity := 1000, cash := 1000, buyingPower := 1000
      observedAt := 0 } = .ok () := by
  decide +kernel

/-- One share is held short in an account of one thousand. -/
def heldEvaluation (price : ℚ) (hprice : 0 < price) : FullEvaluation where
  request :=
    ⟨{ signal := heldSignal, positions := [⟨"SPY", -1, isSymbol_spy⟩]
       reservedSignedNotional := [("SPY", 0)]
       account := ⟨{ accountIdHash := repeatedDigest 'a', equity := 1000, cash := 1000
                     buyingPower := 1000, observedAt := 0 }, heldAccount_check⟩
       prices := [⟨"SPY", price, 0, true, isSymbol_spy, hprice⟩]
       securityMetadata := [⟨"SPY", true, true, true, true, true, true, 0, isSymbol_spy⟩]
       statistics := sampleStatistics ["SPY"]
       latchState := { experimentHash := repeatedDigest 'a', active := [], lastSequences := []
                       eventCount := 0, sourceHash := repeatedDigest 'a' }
       evaluatedAt := 0 }, by
      simp [RiskEvaluationRequestFields.check, heldSignal, checkCompleteSymbols]⟩
  policy := samplePolicy
  groups := [sampleGroup ["SPY"]]
  experimentHash := repeatedDigest 'a'
  policyDigest := repeatedDigest 'a'
  inputHash := repeatedDigest 'a'
  originalProposal := [("SPY", .short, none, none)]
  initialTargets := [("SPY", -7 / 200)]
  allScoresZero := false
  constrained := heldConstraints
  sourceTimestamps := []
  activeLatches := []
  requiredLatchEvents := []

/-- The intents of a plan for the held share. -/
def heldPlan (price : ℚ) (hprice : 0 < price) :
    Except PlatformError (List (String × PositionEffect)) := do
  let decision ← (heldEvaluation price hprice).fullDecision
  let request ← ExecutionPlanningRequest.create
    { riskDecision := decision, currentPositions := [⟨"SPY", -1, isSymbol_spy⟩]
      referencePrices := [("SPY", price)], equity := 1000, targetVersion := 1, createdAt := 0
      deadlineAt := 1000, forcedFlat := false }
  let result ← planSignedOrders request
  pure (result.intents.map fun i => (i.symbol, i.positionEffect))

/-- The scopes of the controls the band applies to the held share. -/
def heldScopes (price : ℚ) (hprice : 0 < price) : Except PlatformError (List String) :=
  (applyRebalanceBand (heldEvaluation price hprice).bandInput).map fun s => s.controls.map (·.scope)

theorem retains_of_scopes {price : ℚ} {hprice : 0 < price}
    (h : heldScopes price hprice = .ok [symbolScope "SPY"]) :
    (heldEvaluation price hprice).Retains "SPY" := by
  obtain ⟨banded, hbanded, hscopes⟩ := map_eq_ok.1 h
  have hmem : symbolScope "SPY" ∈ banded.controls.map (·.scope) := by
    rw [hscopes]
    exact List.mem_singleton_self _
  obtain ⟨c, hc, hscope⟩ := List.mem_map.1 hmem
  exact ⟨banded, hbanded, c, hc, hscope⟩

/-- A price of 30 digits. -/
def finePrice : ℚ := 333333333333333333333333333333 / 10000000000000000000000000000

theorem finePrice_pos : 0 < finePrice := by norm_num [finePrice]

def coarsePrice : ℚ := 3333 / 100

theorem coarsePrice_pos : 0 < coarsePrice := by norm_num [coarsePrice]

/-- At a price of 30 digits the retained short position is closed. -/
theorem retained_short_closed : ¬ ∀ (e : FullEvaluation) (symbol : String)
    (r : ExecutionPlanningRequest) (result : ExecutionPlanningResult),
    e.fullDecision = .ok r.riskDecision → (∀ v ∈ e.request.reservedSignedNotional, v.2 = 0) →
    e.Retains symbol →
    (∃ n : ℤ, weightOf e.request.quantityPairs symbol =
      n * quantityUnit (weightOf e.request.quantityPairs symbol)) →
    planSignedOrders r = .ok result → ∀ i ∈ result.intents, i.symbol ≠ symbol := by
  intro hclaim
  have hscopes : heldScopes _ finePrice_pos = .ok [symbolScope "SPY"] := by decide +kernel
  have hplanned : heldPlan _ finePrice_pos = .ok [("SPY", .closeShort)] := by decide +kernel
  simp only [heldPlan, bind_eq_ok, pure_eq_ok, ExecutionPlanningRequest.create_eq_ok] at hplanned
  obtain ⟨decision, hdecision, r, hr, result, hresult, hintents⟩ := hplanned
  have hmem : ("SPY", PositionEffect.closeShort) ∈
      result.intents.map fun i => (i.symbol, i.positionEffect) := by
    rw [hintents]
    exact List.mem_singleton_self _
  obtain ⟨i, hi, hnamed⟩ := List.mem_map.1 hmem
  have hsame : r.riskDecision = decision := by rw [hr]
  refine hclaim _ "SPY" r result (hsame ▸ hdecision) ?_ (retains_of_scopes hscopes)
    ⟨-1, by decide +kernel⟩ hresult i hi (congrArg Prod.fst hnamed)
  intro v hv
  rw [List.mem_singleton.1 hv]

/-- At a price of four digits it is left alone. -/
theorem retained_short_idle : ∃ r result,
    (heldEvaluation coarsePrice coarsePrice_pos).fullDecision = .ok r.riskDecision ∧
      planSignedOrders r = .ok result ∧ ∀ i ∈ result.intents, i.symbol ≠ "SPY" := by
  have hscopes : heldScopes _ coarsePrice_pos = .ok [symbolScope "SPY"] := by decide +kernel
  have hplanned : heldPlan _ coarsePrice_pos = .ok [] := by decide +kernel
  simp only [heldPlan, bind_eq_ok, pure_eq_ok, ExecutionPlanningRequest.create_eq_ok] at hplanned
  obtain ⟨decision, hdecision, r, hr, result, hresult, -⟩ := hplanned
  have hsame : r.riskDecision = decision := by rw [hr]
  refine ⟨r, result, hsame ▸ hdecision, hresult, ?_⟩
  refine (banded_symbol_idle_iff (hsame ▸ hdecision) ?_ (retains_of_scopes hscopes)
    ⟨-1, by decide +kernel⟩ hresult).1.2 (by decide +kernel)
  intro v hv
  rw [List.mem_singleton.1 hv]

end Sample

end AdaptiveTrader
