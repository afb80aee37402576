import AdaptiveTrader.Foundation.Significant
import AdaptiveTrader.Risk.Policy

/-!
# The rebalance band and the full decision

`applyRebalanceBand` keeps the current weight of a symbol whose target is less than the band away and
whose hard constraints stay satisfied; `fullDecision` is the last stretch of the evaluation, from the
constrained targets to a decision of full scope. The arithmetic is that of a context of 50 digits:
every result is rounded to them.

What the band retains is the current weight (`retained_weight`), and the decision carries the
positions, the prices and the account the band was computed from (`fullDecision_spec`).
-/

set_option autoImplicit false

namespace AdaptiveTrader

open Foundation

/-- `_ARITHMETIC`. -/
def riskPrecision : Nat := 50

/-! ## Hard constraints in the risk context -/

/-- The gross of a scope in the risk context. -/
def roundedGross (weights : List (String × ℚ)) (scope : List String) : ℚ :=
  runningSum riskPrecision (scope.map fun s => significant riskPrecision |weightOf weights s|)

/-- The limits on symbols, portfolio and groups, as `_constraints_satisfied_in_context` tests them. -/
def meetsPortfolioLimits (weights : List (String × ℚ)) (policy : RiskPolicySpec)
    (groups : List RiskGroupSpec) : Bool :=
  let values := weights.map Prod.snd
  let positive := runningSum riskPrecision (values.filter fun v => 0 < v)
  let shortAbs := runningSum riskPrecision
    ((values.filter fun v => v < 0).map fun v => significant riskPrecision (-v))
  let net := significant riskPrecision (positive - shortAbs)
  values.all (fun v => significant riskPrecision |v| ≤ policy.maxAbsoluteSymbolWeight) &&
    decide (significant riskPrecision (positive + shortAbs) ≤ policy.maxGrossWeight) &&
    decide (net ≤ policy.maxNetWeight ∧ policy.minNetWeight ≤ net) &&
    groups.all fun g => roundedGross weights g.symbols ≤ g.maxGrossWeight

/-- `_constraints_satisfied_in_context`, with the rounding of its context. -/
def constraintsSatisfiedRounded (weights : List (String × ℚ)) (statistics : RiskStatistics)
    (policy : RiskPolicySpec) (groups : List RiskGroupSpec) : Except PlatformError Bool := do
  checkWeights weights
  rejectIf (statistics.symbols ≠ weights.map Prod.fst)
    (.signedRiskPolicy "constraint statistics must match target symbols")
  checkPolicy policy
  checkRiskGroups groups (some (weights.map Prod.fst))
  if meetsPortfolioLimits weights policy groups = false then pure false
  else do
    let components ← correlationComponents statistics policy.correlationEdgeThreshold
    pure (components.all fun c => roundedGross weights c ≤ policy.maxClusterGrossWeight)

/-! ## The band -/

/-- The arguments of `apply_rebalance_band`. -/
structure BandInput where
  targets : List (String × ℚ)
  currentQuantities : List (String × ℚ)
  prices : List (String × ℚ)
  equity : ℚ
  statistics : RiskStatistics
  policy : RiskPolicySpec
  groups : List RiskGroupSpec
  forceReduction : Bool

/-- `_exact_decimal_mapping`. -/
def checkMapping (values : List (String × ℚ)) (symbols : List String) (fieldName : String)
    (positive : Bool) : Except PlatformError Unit := do
  rejectIf (sortedSet (values.map Prod.fst) ≠ sortedSet symbols)
    (.signedRiskPolicy (fieldName ++ " mapping must contain exactly active symbols"))
  rejectIf (positive = true ∧ ∃ v ∈ values, v.2 ≤ 0)
    (.signedRiskPolicy (fieldName ++ " must be positive"))

namespace BandInput

variable (input : BandInput)

def symbols : List String := input.targets.map Prod.fst

/-- The current weight of a symbol. -/
def currentWeight (symbol : String) : ℚ :=
  significant riskPrecision (significant riskPrecision
    (weightOf input.currentQuantities symbol * weightOf input.prices symbol) / input.equity)

/-- The dollars below which a change is not made. -/
def threshold : ℚ :=
  significant riskPrecision (input.policy.minimumRebalanceEquityFraction * input.equity)

/-- The dollars a symbol is away from its target. -/
def changeDollars (symbol : String) (target : ℚ) : ℚ :=
  |significant riskPrecision
    (significant riskPrecision (target - input.currentWeight symbol) * input.equity)|

end BandInput

/-- `_band_factor`. -/
def bandFactor (target retained : ℚ) : ℚ :=
  if target = 0 ∨ retained = target then 1
  else if |retained| ≤ |target| ∧ 0 ≤ significant riskPrecision (retained * target) then
    |significant riskPrecision (retained / target)|
  else 1

/-- The control that names a symbol. -/
def symbolScope (symbol : String) : String := "symbol:" ++ symbol

/-- One round of the loop over the targets. -/
def bandRound (input : BandInput) (s : ConstraintState) (target : String × ℚ) :
    Except PlatformError ConstraintState :=
  if target.2 = 0 ∨ input.threshold ≤ input.changeDollars target.1 target.2 then .ok s
  else do
    let candidate := setWeight s.weights target.1 (input.currentWeight target.1)
    let satisfied ← constraintsSatisfiedRounded candidate input.statistics input.policy input.groups
    if satisfied then
      recordControl s candidate 1 .rebalanceBand (symbolScope target.1)
        (bandFactor target.2 (input.currentWeight target.1))
    else pure s

/-- `_apply_rebalance_band_in_context`. -/
def applyRebalanceBand (input : BandInput) : Except PlatformError ConstraintState := do
  checkWeights input.targets
  checkMapping input.currentQuantities input.symbols "current quantity" false
  checkMapping input.prices input.symbols "planning price" true
  rejectIf (input.equity ≤ 0) (.signedRiskPolicy "equity must be positive")
  checkRiskGroups input.groups (some input.symbols)
  if input.forceReduction then pure ⟨input.targets, []⟩
  else input.targets.foldlM (bandRound input) ⟨input.targets, []⟩

/-! ## What the band retains -/

theorem symbolScope_injective {s t : String} (h : symbolScope s = symbolScope t) : s = t := by
  have hchars := congrArg String.toList h
  rw [symbolScope, symbolScope, String.toList_append, String.toList_append] at hchars
  exact String.toList_inj.1 (List.append_cancel_left hchars)

/-- Every control of the band names a symbol visited before, which has its current weight. -/
structure Banded (input : BandInput) (visited : List String) (s : ConstraintState) : Prop where
  symbols_eq : s.weights.map Prod.fst = input.symbols
  retained : ∀ c ∈ s.controls, ∃ symbol ∈ visited, c.scope = symbolScope symbol ∧
    symbol ∈ input.symbols ∧ weightOf s.weights symbol = input.currentWeight symbol

theorem recordControl_eq_ok {s s' : ConstraintState} {weights : List (String × ℚ)}
    {passNumber : Nat} {control : RiskControl} {scope : String} {factor : ℚ}
    (h : recordControl s weights passNumber control scope factor = .ok s') :
    s'.weights = weights ∧ ∃ c, c.scope = scope ∧ s'.controls = s.controls ++ [c] := by
  obtain ⟨hcheck, rfl⟩ := validated_eq_ok.1 h
  exact ⟨rfl, _, rfl, rfl⟩

theorem bandRound_banded {input : BandInput} {visited : List String} {s s' : ConstraintState}
    {target : String × ℚ} (h : Banded input visited s) (hsymbol : target.1 ∈ input.symbols)
    (hnew : target.1 ∉ visited) (hround : bandRound input s target = .ok s') :
    Banded input (visited ++ [target.1]) s' := by
  have hkept : Banded input (visited ++ [target.1]) s := by
    refine ⟨h.symbols_eq, fun c hc => ?_⟩
    obtain ⟨symbol, hvisited, hrest⟩ := h.retained c hc
    exact ⟨symbol, List.mem_append_left _ hvisited, hrest⟩
  unfold bandRound at hround
  split at hround
  · cases hround
    exact hkept
  simp only [bind_eq_ok] at hround
  obtain ⟨satisfied, -, hround⟩ := hround
  split at hround
  · obtain ⟨hweights, control, hscope, hcontrols⟩ := recordControl_eq_ok hround
    have hmem : target.1 ∈ s.weights.map Prod.fst := by
      rw [h.symbols_eq]
      exact hsymbol
    refine ⟨?_, fun c hc => ?_⟩
    · rw [hweights, setWeight, map_fst_mapWeights]
      exact h.symbols_eq
    · rw [hcontrols] at hc
      rw [hweights]
      rcases List.mem_append.1 hc with hold | hadded
      · obtain ⟨symbol, hvisited, hc, hin, hweight⟩ := h.retained c hold
        have hne : symbol ≠ target.1 := by
          rintro rfl
          exact hnew hvisited
        refine ⟨symbol, List.mem_append_left _ hvisited, hc, hin, ?_⟩
        rw [weightOf_setWeight hmem, if_neg hne]
        exact hweight
      · rw [List.mem_singleton.1 hadded]
        refine ⟨target.1, by simp, hscope, hsymbol, ?_⟩
        rw [weightOf_setWeight hmem, if_pos rfl]
  · cases hround
    exact hkept

theorem foldlM_banded {input : BandInput} {rest : List (String × ℚ)} :
    ∀ {visited : List String} {s s' : ConstraintState}, Banded input visited s →
      (∀ e ∈ rest, e.1 ∈ input.symbols) → (visited ++ rest.map Prod.fst).Nodup →
        rest.foldlM (bandRound input) s = .ok s' →
          Banded input (visited ++ rest.map Prod.fst) s' := by
  induction rest with
  | nil =>
    intro visited s s' h _ _ hfold
    cases hfold
    simpa using h
  | cons target rest ih =>
    intro visited s s' h hsymbols hnodup hfold
    rw [List.foldlM_cons, bind_eq_ok] at hfold
    obtain ⟨middle, hround, hrest⟩ := hfold
    have hnew : target.1 ∉ visited := by
      intro hvisited
      exact (List.disjoint_of_nodup_append hnodup) hvisited (by simp)
    have hsplit : visited ++ (target :: rest).map Prod.fst =
        (visited ++ [target.1]) ++ rest.map Prod.fst := by simp
    rw [hsplit] at hnodup ⊢
    apply ih (bandRound_banded h (hsymbols _ List.mem_cons_self) hnew hround)
      (fun e he => hsymbols e (List.mem_cons_of_mem _ he)) hnodup hrest

theorem nodup_symbols {input : BandInput} (h : checkWeights input.targets = .ok ()) :
    input.symbols.Nodup := by
  simp only [checkWeights, rejectIf_bind_eq_ok, rejectIf_eq_ok, not_not] at h
  rw [BandInput.symbols, h.2.2]
  exact nodup_sortedSet _

theorem mem_currentQuantities {input : BandInput} {s : ConstraintState}
    (h : applyRebalanceBand input = .ok s) {symbol : String} (hsymbol : symbol ∈ input.symbols) :
    symbol ∈ input.currentQuantities.map Prod.fst := by
  simp only [applyRebalanceBand, unit_bind_eq_ok, checkMapping, rejectIf_eq_ok, not_not] at h
  rw [← mem_sortedSet, h.2.1.1, mem_sortedSet]
  exact hsymbol

/-- A symbol with a control of the band ends with its current weight. -/
theorem retained_weight {input : BandInput} {s : ConstraintState}
    (h : applyRebalanceBand input = .ok s) :
    s.weights.map Prod.fst = input.symbols ∧ 0 < input.equity ∧ ∀ symbol, ∀ c ∈ s.controls,
      c.scope = symbolScope symbol →
        symbol ∈ input.symbols ∧ weightOf s.weights symbol = input.currentWeight symbol := by
  simp only [applyRebalanceBand, unit_bind_eq_ok, rejectIf_eq_ok, not_le] at h
  obtain ⟨hweights, -, -, hequity, -, h⟩ := h
  have hstart : Banded input [] ⟨input.targets, []⟩ := ⟨rfl, fun c hc => (List.not_mem_nil hc).elim⟩
  have hbanded : ∃ visited, Banded input visited s := by
    split at h
    · cases h
      exact ⟨_, hstart⟩
    · have hnodup : ([] ++ input.targets.map Prod.fst).Nodup := nodup_symbols hweights
      exact ⟨_, foldlM_banded hstart (fun e he => List.mem_map_of_mem he) hnodup h⟩
  obtain ⟨visited, hbanded⟩ := hbanded
  refine ⟨hbanded.symbols_eq, hequity, fun symbol c hc hscope => ?_⟩
  obtain ⟨named, -, hnamed, hin, hweight⟩ := hbanded.retained c hc
  rw [hscope] at hnamed
  rw [symbolScope_injective hnamed]
  exact ⟨hin, hweight⟩

/-! ## Evaluation requests -/

/-- What the full path reads of an evaluation request. -/
structure RiskEvaluationRequestFields where
  signal : SignalEnvelope
  positions : List SignedPosition
  reservedSignedNotional : List (String × ℚ)
  account : AccountSnapshot
  prices : List PlanningPrice
  securityMetadata : List SecurityMetadataSnapshot
  statistics : RiskStatistics
  latchState : RiskLatchState
  evaluatedAt : Instant

def RiskEvaluationRequestFields.check (r : RiskEvaluationRequestFields) :
    Except PlatformError Unit := do
  checkCompleteSymbols (r.positions.map (·.symbol)) r.signal.activeSymbols "positions"
  checkCompleteSymbols (r.prices.map (·.symbol)) r.signal.activeSymbols "prices"
  checkCompleteSymbols (r.securityMetadata.map (·.symbol)) r.signal.activeSymbols
    "security metadata"
  rejectIf (r.reservedSignedNotional.map Prod.fst ≠ r.signal.activeSymbols)
    (.signedRiskValidation "open orders must contain exactly active symbols")

/-- A complete evaluation request. -/
structure RiskEvaluationRequest extends RiskEvaluationRequestFields where
  checked : toRiskEvaluationRequestFields.check = .ok ()

namespace RiskEvaluationRequest

variable (r : RiskEvaluationRequest)

/-- Symbol and quantity of each position. -/
def quantityPairs : List (String × ℚ) := r.positions.map fun p => (p.symbol, p.quantity)

/-- Symbol and price of each planning price. -/
def pricePairs : List (String × ℚ) := r.prices.map fun p => (p.symbol, p.price)

/-- `_projected_quantities`. -/
def projectedQuantities : List (String × ℚ) :=
  r.signal.activeSymbols.map fun symbol =>
    (symbol, significant riskPrecision (weightOf r.quantityPairs symbol +
      significant riskPrecision
        (weightOf r.reservedSignedNotional symbol / weightOf r.pricePairs symbol)))

end RiskEvaluationRequest

/-- `_append_controls`: the controls of the band are numbered behind the hard ones. -/
def appendControls (hard band : List AppliedRiskControl) :
    Except PlatformError (List AppliedRiskControl) := do
  let numbered ← collect (fun c : AppliedRiskControl × Nat =>
    validated AppliedRiskControlFields.check
      { c.1.toAppliedRiskControlFields with ordinal := hard.length + c.2 + 1 } fun h =>
        (⟨_, h⟩ : AppliedRiskControl)) band.zipIdx
  pure (hard ++ numbered)

/-- An evaluation without a reason to block, behind `apply_signed_constraints`: the request, the
experiment and what the stages before have computed. -/
structure FullEvaluation where
  request : RiskEvaluationRequest
  policy : RiskPolicySpec
  groups : List RiskGroupSpec
  experimentHash : String
  policyDigest : String
  inputHash : String
  originalProposal : List (String × SignalAction × Option ℚ × Option ℚ)
  initialTargets : List (String × ℚ)
  allScoresZero : Bool
  constrained : ConstraintResult
  sourceTimestamps : List (String × Instant)
  activeLatches : List RiskLatchKind
  requiredLatchEvents : List RiskLatchEvent

namespace FullEvaluation

variable (e : FullEvaluation)

/-- The arguments of the call of the band. -/
def bandInput : BandInput where
  targets := e.constrained.finalTargets
  currentQuantities := e.request.projectedQuantities
  prices := e.request.pricePairs
  equity := e.request.account.equity
  statistics := e.request.statistics
  policy := e.policy
  groups := e.groups
  forceReduction := false

section Hashed

variable [ContentHasher]

/-- `_decision` for final targets of full scope. -/
def decisionFields (final : List (String × ℚ)) (after : ExposureSnapshot)
    (controls : List AppliedRiskControl) : RiskDecisionFields where
  slotId := e.request.signal.slotId
  signalId := e.request.signal.signalId
  signalHash := e.request.signal.contentHash
  experimentHash := e.experimentHash
  policyId := e.policy.id
  policyVersion := e.policy.version
  policyHash := e.policyDigest
  correlationId := e.request.signal.correlationId
  decidedAt := e.request.evaluatedAt
  inputHash := e.inputHash
  statisticsHash := e.request.statistics.outputHash
  accountSnapshot := e.request.account
  planningPositions := e.request.positions
  planningPrices := e.request.prices
  securityMetadata := e.request.securityMetadata
  originalProposal := e.originalProposal
  proposedTargets := e.initialTargets
  finalTargets := final
  beforeExposure := e.constrained.beforeExposure
  afterExposure := after
  orderedControls := controls
  blockReasons := []
  flattenReasons := if e.allScoresZero then ["all_scores_zero"] else []
  sourceTimestamps := e.sourceTimestamps
  latchStateHash := e.request.latchState.contentHash
  activeLatches := e.activeLatches
  requiredLatchEvents := e.requiredLatchEvents
  executionScope := .full

/-- The full path of `evaluate_signed_risk`; an error ends it. -/
def fullDecision : Except PlatformError RiskDecision := do
  let banded ← applyRebalanceBand e.bandInput
  let after ← exposureSnapshot banded.weights e.groups e.constrained.correlationComponents
  let controls ← appendControls e.constrained.controls banded.controls
  RiskDecision.create (e.decisionFields banded.weights after controls)

/-- The band has retained the current weight of a symbol. -/
def Retains (symbol : String) : Prop :=
  ∃ banded, applyRebalanceBand e.bandInput = .ok banded ∧
    ∃ c ∈ banded.controls, c.scope = symbolScope symbol

variable {e}

/-- The decision carries what the band was computed from. -/
theorem fullDecision_spec {d : RiskDecision} (h : e.fullDecision = .ok d) :
    ∃ banded, applyRebalanceBand e.bandInput = .ok banded ∧ d.finalTargets = banded.weights ∧
      d.planningPositions = e.request.positions ∧ d.planningPrices = e.request.prices ∧
      d.accountSnapshot = e.request.account := by
  simp only [fullDecision, bind_eq_ok] at h
  obtain ⟨banded, hbanded, after, -, controls, -, hcreate⟩ := h
  obtain ⟨hcheck, rfl⟩ := validated_eq_ok.1 hcreate
  exact ⟨banded, hbanded, rfl, rfl, rfl, rfl⟩

end Hashed

end FullEvaluation

end AdaptiveTrader
