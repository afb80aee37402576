import AdaptiveTrader.Foundation.Checks
import AdaptiveTrader.Foundation.Quadratic
import AdaptiveTrader.Foundation.Sorted

/-!
# The long-only risk engine

`RiskEngine.evaluate` reviews a proposed portfolio of risky-asset weights; cash is the rest to one.
Unusable inputs and a halt end in a rejection, a hard stop in cash. Otherwise the controls run once,
in a fixed order: negative weights, position cap, gross limit, cash buffer, volatility target, soft
drawdown, daily loss, turnover.

Arithmetic is exact, over an ordered field with square roots, and the tolerance of the source is
zero. A weight that is no finite number is `none`. The sample covariance is a parameter.
`RiskDecision` leaves out the decision ID and the evaluation context, which are handed through.
-/

set_option autoImplicit false

namespace AdaptiveTrader.Research

open Foundation

/-- `RiskConfig`, with the ranges its constructor enforces. -/
structure RiskConfig (K : Type) [Field K] [LinearOrder K] where
  maxPositionWeight : K
  maxGrossExposure : K
  targetAnnualVolatility : K
  maxTurnoverPerRebalance : K
  drawdownSoftLimit : K
  softLimitMaxGrossExposure : K
  drawdownHardLimit : K
  dailyLossLimit : K
  requiredCashBuffer : K
  position_range : 0 < maxPositionWeight ∧ maxPositionWeight ≤ 1
  gross_range : 0 ≤ maxGrossExposure ∧ maxGrossExposure ≤ 1
  volatility_pos : 0 < targetAnnualVolatility
  turnover_range : 0 ≤ maxTurnoverPerRebalance ∧ maxTurnoverPerRebalance ≤ 1
  soft_range : 0 ≤ drawdownSoftLimit ∧ drawdownSoftLimit < drawdownHardLimit
  hard_range : drawdownHardLimit ≤ 1
  soft_gross_range : 0 ≤ softLimitMaxGrossExposure ∧ softLimitMaxGrossExposure ≤ maxGrossExposure
  daily_range : 0 ≤ dailyLossLimit ∧ dailyLossLimit ≤ 1
  buffer_range : 0 ≤ requiredCashBuffer ∧ requiredCashBuffer ≤ 1

/-- A covariance matrix and the order of its columns. -/
structure CovarianceEstimate (K : Type) where
  assets : List String
  matrix : Matrix (Fin assets.length) (Fin assets.length) K

/-- What `evaluate` reads of the operational context. -/
structure RiskContext (K : Type) where
  accountEquity : Option (Option K)
  accountCash : Option (Option K)
  positionWeights : Option (Dict String (Option K))
  assetEligibility : Dict String Bool
  openOrderSymbols : List String
  dataFreshnessState : String
  marketState : String
  haltState : String

/-- Why inputs are unusable; the source formats each as a sentence. -/
inductive RejectionReason
  | proposedNotFinite (asset : String)
  | currentNotFinite (asset : String)
  | drawdownNotFinite
  | dailyLossNotFinite
  | accountEquityNotFinite
  | accountCashNotFinite
  | positionNotFinite (asset : String)
  | positionDisagrees (asset : String)
  | ineligibleAssets (assets : List String)
  | conflictingOrders (assets : List String)
  | untrustedData (state : String)
  | marketState (state : String)
  | negativeCash
  | negativeWeight
  | covariance (message : String)
  | halted
  deriving DecidableEq

/-- An effective control and its details. -/
inductive RiskAction (K : Type)
  | dataValidation (reasons : List RejectionReason) (holdingsPreserved : Bool)
  | systemHalt
  | longOnly (weightsBefore : List (String × K))
  | maxPositionWeight (limit : K) (weightsBefore : List (String × K))
  | maxGrossExposure (grossBefore grossAfter limit scale : K)
  | requiredCashBuffer (cashBuffer grossBefore grossAfter scale : K)
  | volatilityTarget (before after target scale : K)
  | softDrawdown (drawdown grossBefore grossAfter limit : K)
  | hardDrawdown (drawdown limit : K) (newlyLatched : Bool)
  | dailyLoss (loss limit : K) (alreadyLatched : Bool) (weightsBefore weightsAfter : List (String × K))
  | turnoverLimit (before limit interpolationFraction : K)

def RiskAction.control {K : Type} : RiskAction K → String
  | dataValidation _ _ => "data_validation"
  | systemHalt => "system_halt"
  | longOnly _ => "long_only"
  | maxPositionWeight _ _ => "max_position_weight"
  | maxGrossExposure _ _ _ _ => "max_gross_exposure"
  | requiredCashBuffer _ _ _ _ => "required_cash_buffer"
  | volatilityTarget _ _ _ _ => "volatility_target"
  | softDrawdown _ _ _ _ => "soft_drawdown"
  | hardDrawdown _ _ _ => "hard_drawdown"
  | dailyLoss _ _ _ _ _ => "daily_loss"
  | turnoverLimit _ _ _ => "turnover_limit"

inductive RiskStatus
  | approved
  | modified
  | rejected
  | stopped
  deriving DecidableEq

/-- The record of a review. -/
structure RiskDecision (K : Type) where
  proposedWeights : List (String × K)
  finalWeights : List (String × K)
  proposedCash : K
  finalCash : K
  estimatedVolatility : Option K
  proposedTurnover : K
  finalTurnover : K
  currentDrawdown : K
  hardStopLatched : Bool
  actions : List (RiskAction K)
  status : RiskStatus
  finalEstimatedVolatility : Option K
  currentDailyLoss : K
  dailyLossLatched : Bool
  haltState : String
  dataFreshnessState : String
  marketState : String
  liquidationAuthorized : Bool
  rejectionReasons : List RejectionReason

section Engine

variable {K : Type} [Field K] [LinearOrder K] [SquareRoot K]

/-! ## Portfolios -/

/-- `_stable_sum` over the assets. -/
def stableSum (assets : List String) (w : String → K) : K := (assets.map w).sum

/-- `_cash_weight`. -/
def cashWeight (assets : List String) (w : String → K) : K := max 0 (1 - stableSum assets w)

/-- `calculate_turnover`: half the absolute changes of the assets and of cash. -/
def calculateTurnover (assets : List String) (target current : String → K) : K :=
  (stableSum assets (fun a => |target a - current a|) +
    |cashWeight assets target - cashWeight assets current|) / 2

/-- `_scale_weights`. -/
def scaleWeights (w : String → K) (scale : K) (asset : String) : K := w asset * scale

/-- The weights in the order of the estimate. -/
def vectorOf (c : CovarianceEstimate K) (w : String → K) (i : Fin c.assets.length) : K :=
  w (c.assets.get i)

/-- `_portfolio_volatility`. -/
def portfolioVolatility (w : String → K) (c : CovarianceEstimate K) : Except String K := do
  rejectIf (quadratic c.matrix (vectorOf c w) < 0) "estimated portfolio variance is invalid"
  pure (rootQuadratic c.matrix (vectorOf c w))

/-- The weights a mapping names. -/
def weightsOf (weights : Dict String (Option K)) (asset : String) : K :=
  ((weights.get? asset).getD none).getD 0

/-- `_coerce_weights`: the assets whose weight is no finite number. -/
def invalidAssets (weights : Dict String (Option K)) : List String :=
  sortedSet ((weights.entries.filter fun e => e.2 = none).map Prod.fst)

/-- The weights as a record lists them. -/
def listed (assets : List String) (w : String → K) : List (String × K) := assets.map fun a => (a, w a)

/-! ## Inputs -/

/-- The arguments of `evaluate`. -/
structure RiskInputs (K : Type) where
  proposedWeights : Dict String (Option K)
  currentWeights : Dict String (Option K)
  trailingCovariance : List String → Except String (CovarianceEstimate K)
  currentDrawdown : Option K
  hardStopLatched : Bool
  currentDailyLoss : Option K
  dailyLossLatched : Bool
  haltLatched : Bool
  preserveCurrentOnRejection : Bool
  context : Option (RiskContext K)

namespace RiskInputs

def allAssets (i : RiskInputs K) : List String :=
  sortedSet (i.proposedWeights.keys ++ i.currentWeights.keys)

def proposed (i : RiskInputs K) : String → K := weightsOf i.proposedWeights

def current (i : RiskInputs K) : String → K := weightsOf i.currentWeights

def safeDrawdown (i : RiskInputs K) : K := i.currentDrawdown.getD 0

def safeDailyLoss (i : RiskInputs K) : K := i.currentDailyLoss.getD 0

def dataFreshnessState (i : RiskInputs K) : String :=
  (i.context.map (·.dataFreshnessState)).getD "not_evaluated"

def marketState (i : RiskInputs K) : String := (i.context.map (·.marketState)).getD "not_evaluated"

def isHalted (i : RiskInputs K) : Bool :=
  i.haltLatched || (i.context.map (·.haltState)).getD "clear" ≠ "clear"

/-- The reasons an operational context adds. -/
def contextReasons (i : RiskInputs K) (c : RiskContext K) : List RejectionReason :=
  let positions := c.positionWeights.getD .empty
  let disagreeing := (sortedSet (positions.keys ++ i.allAssets)).filter fun a =>
    1 / 100000000 < |weightsOf positions a - i.current a|
  let ineligible := sortedBy id ((c.assetEligibility.entries.filter fun e =>
    e.2 = false ∧ 0 < i.proposed e.1).map Prod.fst)
  let conflicts := (sortedSet c.openOrderSymbols).filter fun a => i.current a < i.proposed a
  (if c.accountEquity = some none then [.accountEquityNotFinite] else []) ++
    (if c.accountCash = some none then [.accountCashNotFinite] else []) ++
    (if invalidAssets positions ≠ [] then (invalidAssets positions).map .positionNotFinite
      else if c.positionWeights.isSome then disagreeing.map .positionDisagrees else []) ++
    (if ineligible ≠ [] then [.ineligibleAssets ineligible] else []) ++
    (if conflicts ≠ [] then [.conflictingOrders conflicts] else []) ++
    (if c.dataFreshnessState ∈
        ["fresh", "completed_daily_history", "completed_t_minus_1_history"] then []
      else [.untrustedData c.dataFreshnessState]) ++
    if c.marketState ∈ ["open", "historical_session", "submission_gate_pending"] then []
    else [.marketState c.marketState]

/-- Everything that makes the inputs unusable. -/
def invalidReasons (i : RiskInputs K) : List RejectionReason :=
  (invalidAssets i.proposedWeights).map .proposedNotFinite ++
    (invalidAssets i.currentWeights).map .currentNotFinite ++
    (if i.currentDrawdown = none then [.drawdownNotFinite] else []) ++
    (if i.currentDailyLoss = none then [.dailyLossNotFinite] else []) ++
    (i.context.map i.contextReasons).getD [] ++
    (if 1 < stableSum i.allAssets i.current then [.negativeCash] else []) ++
    if ∃ a ∈ i.allAssets, i.current a < 0 then [.negativeWeight] else []

end RiskInputs

/-! ## Controls -/

/-- Weights under review and the controls that changed them. -/
structure Working (K : Type) where
  weights : String → K
  actions : List (RiskAction K)

namespace Working

variable (assets : List String)

/-- Negative weights are set to zero. -/
def longOnly (s : Working K) : Working K :=
  let negative := assets.filter fun a => s.weights a < 0
  if negative = [] then s
  else
    { weights := fun a => if s.weights a < 0 then 0 else s.weights a
      actions := s.actions ++ [.longOnly (listed negative s.weights)] }

/-- Weights are clipped to the cap; what is clipped is not redistributed. -/
def capPositions (limit : K) (s : Working K) : Working K :=
  let clipped := assets.filter fun a => limit < s.weights a
  if clipped = [] then s
  else
    { weights := fun a => if limit < s.weights a then limit else s.weights a
      actions := s.actions ++ [.maxPositionWeight limit (listed clipped s.weights)] }

/-- The scale that brings a gross down to a limit. -/
def grossScale (limit gross : K) : K := if 0 < gross then limit / gross else 0

/-- Scale all weights when their sum exceeds a limit. -/
def scaleGross (limit : K) (action : K → K → K → RiskAction K) (s : Working K) : Working K :=
  let before := stableSum assets s.weights
  let scaled := scaleWeights s.weights (grossScale limit before)
  if limit < before then
    { weights := scaled
      actions := s.actions ++ [action before (stableSum assets scaled) (grossScale limit before)] }
  else s

def limitGross (config : RiskConfig K) : Working K → Working K :=
  scaleGross assets config.maxGrossExposure fun before after scale =>
    .maxGrossExposure before after config.maxGrossExposure scale

def bufferCash (config : RiskConfig K) : Working K → Working K :=
  scaleGross assets (max 0 (1 - config.requiredCashBuffer)) fun before after scale =>
    .requiredCashBuffer config.requiredCashBuffer before after scale

/-- The volatility before scaling, and the weights scaled to the target. -/
def targetVolatility (config : RiskConfig K) (covariance : Option (CovarianceEstimate K))
    (s : Working K) : Except String (K × Working K) :=
  match covariance with
  | none => .ok (0, s)
  | some c =>
      if ∃ a ∈ assets, 0 < s.weights a then do
        let volatility ← portfolioVolatility s.weights c
        let scale := config.targetAnnualVolatility / volatility
        if config.targetAnnualVolatility < volatility then
          pure (volatility,
            { weights := scaleWeights s.weights scale
              actions := s.actions ++
                [.volatilityTarget volatility (volatility * scale) config.targetAnnualVolatility scale] })
        else pure (volatility, s)
      else .ok (0, s)

def softDrawdown (config : RiskConfig K) (drawdown : K) (s : Working K) : Working K :=
  if drawdown ≤ -config.drawdownSoftLimit then
    scaleGross assets config.softLimitMaxGrossExposure (fun before after _ =>
      .softDrawdown drawdown before after config.softLimitMaxGrossExposure) s
  else s

/-- Only reductions of the current weights. -/
def reduceOnly (w current : String → K) (asset : String) : K :=
  min (max 0 (w asset)) (max 0 (current asset))

def dailyLoss (config : RiskConfig K) (required alreadyLatched : Bool) (loss : K)
    (current : String → K) (s : Working K) : Working K :=
  if required then
    { weights := reduceOnly s.weights current
      actions := s.actions ++ [.dailyLoss loss config.dailyLossLimit alreadyLatched
        (listed assets s.weights) (listed assets (reduceOnly s.weights current))] }
  else s

/-- The point between two portfolios. -/
def interpolate (current w : String → K) (scale : K) (asset : String) : K :=
  current asset + scale * (w asset - current asset)

/-- Interpolate the trade to the turnover limit. -/
def limitTurnover (config : RiskConfig K) (current : String → K) (s : Working K) : Working K :=
  let turnover := calculateTurnover assets s.weights current
  let scale := if 0 < turnover then config.maxTurnoverPerRebalance / turnover else 0
  if config.maxTurnoverPerRebalance < turnover then
    { weights := interpolate current s.weights scale
      actions := s.actions ++ [.turnoverLimit turnover config.maxTurnoverPerRebalance scale] }
  else s

end Working

/-! ## Decisions -/

namespace RiskInputs

/-- The weights of the proposal, not yet controlled. -/
def start (i : RiskInputs K) : Working K := ⟨i.proposed, []⟩

/-- `hard_stop_required`. -/
def hardStopRequired (config : RiskConfig K) (i : RiskInputs K) : Bool :=
  i.hardStopLatched || decide (i.safeDrawdown ≤ -config.drawdownHardLimit)

/-- `daily_loss_required`. -/
def dailyLossRequired (config : RiskConfig K) (i : RiskInputs K) : Bool :=
  i.dailyLossLatched || decide (i.safeDailyLoss ≤ -config.dailyLossLimit)

/-- The assets whose covariance the review needs. -/
def covarianceAssets (i : RiskInputs K) : List String := i.allAssets.filter fun a => 0 < i.proposed a

/-- The covariance of the review: none for a hard stop or without a positive proposal. -/
def covariance (config : RiskConfig K) (i : RiskInputs K) :
    Except String (Option (CovarianceEstimate K)) :=
  if i.covarianceAssets ≠ [] ∧ i.hardStopRequired config = false then
    (i.trailingCovariance i.covarianceAssets).map some
  else .ok none

/-- The controls on the size of positions and of the portfolio. -/
def sized (config : RiskConfig K) (i : RiskInputs K) : Working K :=
  Working.bufferCash i.allAssets config (Working.limitGross i.allAssets config
    (Working.capPositions i.allAssets config.maxPositionWeight
      (Working.longOnly i.allAssets i.start)))

/-- The controls up to the soft drawdown: the estimated volatility and the weights. -/
def limited (config : RiskConfig K) (i : RiskInputs K) (c : Option (CovarianceEstimate K)) :
    Except String (K × Working K) := do
  let targeted ← Working.targetVolatility i.allAssets config c (i.sized config)
  pure (targeted.1, Working.softDrawdown i.allAssets config i.safeDrawdown targeted.2)

/-- The weights in front of the turnover limit. -/
def reduced (config : RiskConfig K) (i : RiskInputs K) (s : Working K) : Working K :=
  Working.dailyLoss i.allAssets config (i.dailyLossRequired config) i.dailyLossLatched
    i.safeDailyLoss i.current s

/-- `_safe_cash_decision`. -/
def safeCashDecision (i : RiskInputs K) (reasons : List RejectionReason) : RiskDecision K :=
  let preserve := i.preserveCurrentOnRejection ∧ (∀ a ∈ i.allAssets, 0 ≤ i.current a) ∧
    stableSum i.allAssets i.current ≤ 1 ∧ i.hardStopLatched = false
  let final := if preserve then i.current else fun _ => 0
  let turnover := calculateTurnover i.allAssets final i.current
  { proposedWeights := listed i.allAssets i.proposed
    finalWeights := listed i.allAssets final
    proposedCash := cashWeight i.allAssets i.proposed
    finalCash := cashWeight i.allAssets final
    estimatedVolatility := some 0
    proposedTurnover := turnover
    finalTurnover := turnover
    currentDrawdown := i.safeDrawdown
    hardStopLatched := i.hardStopLatched
    actions := [.dataValidation reasons (decide preserve)]
    status := if preserve then .rejected else .stopped
    finalEstimatedVolatility := none
    currentDailyLoss := i.safeDailyLoss
    dailyLossLatched := i.dailyLossLatched
    haltState := "data_rejection"
    dataFreshnessState := i.dataFreshnessState
    marketState := i.marketState
    liquidationAuthorized := false
    rejectionReasons := reasons }

/-- `_hold_rejection_decision` of a halt. -/
def holdRejectionDecision (i : RiskInputs K) : RiskDecision K where
  proposedWeights := listed i.allAssets i.proposed
  finalWeights := listed i.allAssets i.current
  proposedCash := cashWeight i.allAssets i.proposed
  finalCash := cashWeight i.allAssets i.current
  estimatedVolatility := none
  proposedTurnover := calculateTurnover i.allAssets i.proposed i.current
  finalTurnover := 0
  currentDrawdown := i.safeDrawdown
  hardStopLatched := false
  actions := [.systemHalt]
  status := .rejected
  finalEstimatedVolatility := none
  currentDailyLoss := i.safeDailyLoss
  dailyLossLatched := i.dailyLossLatched
  haltState := "system_halt"
  dataFreshnessState := i.dataFreshnessState
  marketState := i.marketState
  liquidationAuthorized := false
  rejectionReasons := [.halted]

/-- The decision of a hard stop. -/
def stoppedDecision (config : RiskConfig K) (i : RiskInputs K) (volatility : K) (s : Working K) :
    RiskDecision K where
  proposedWeights := listed i.allAssets i.proposed
  finalWeights := listed i.allAssets fun _ => 0
  proposedCash := cashWeight i.allAssets i.proposed
  finalCash := 1
  estimatedVolatility := some volatility
  proposedTurnover := calculateTurnover i.allAssets i.proposed i.current
  finalTurnover := calculateTurnover i.allAssets (fun _ => 0) i.current
  currentDrawdown := i.safeDrawdown
  hardStopLatched := true
  actions := s.actions ++
    [.hardDrawdown i.safeDrawdown config.drawdownHardLimit (!i.hardStopLatched)]
  status := .stopped
  finalEstimatedVolatility := some 0
  currentDailyLoss := i.safeDailyLoss
  dailyLossLatched := i.dailyLossLatched
  haltState := "hard_stop"
  dataFreshnessState := i.dataFreshnessState
  marketState := i.marketState
  liquidationAuthorized := true
  rejectionReasons := []

/-- The volatility of the final weights. -/
def finalVolatility (i : RiskInputs K) (c : Option (CovarianceEstimate K)) (w : String → K) :
    Except String K :=
  match c with
  | none => .ok 0
  | some c => if ∃ a ∈ i.allAssets, 0 < w a then portfolioVolatility w c else .ok 0

/-- The decision of a review that ran through all controls. -/
def reviewedDecision (config : RiskConfig K) (i : RiskInputs K) (volatility finalVolatility : K)
    (s : Working K) : RiskDecision K where
  proposedWeights := listed i.allAssets i.proposed
  finalWeights := listed i.allAssets s.weights
  proposedCash := cashWeight i.allAssets i.proposed
  finalCash := cashWeight i.allAssets s.weights
  estimatedVolatility := some volatility
  proposedTurnover := calculateTurnover i.allAssets i.proposed i.current
  finalTurnover := calculateTurnover i.allAssets s.weights i.current
  currentDrawdown := i.safeDrawdown
  hardStopLatched := false
  actions := s.actions
  status := if s.actions.isEmpty then .approved else .modified
  finalEstimatedVolatility := some finalVolatility
  currentDailyLoss := i.safeDailyLoss
  dailyLossLatched := i.dailyLossRequired config
  haltState := if i.dailyLossRequired config then "daily_loss" else "clear"
  dataFreshnessState := i.dataFreshnessState
  marketState := i.marketState
  liquidationAuthorized := false
  rejectionReasons := []

/-- The review behind the checks of the inputs. -/
def review (config : RiskConfig K) (i : RiskInputs K) (c : Option (CovarianceEstimate K)) :
    Except String (RiskDecision K) := do
  let limited ← i.limited config c
  if i.hardStopRequired config then pure (i.stoppedDecision config limited.1 limited.2)
  else do
    let final := Working.limitTurnover i.allAssets config i.current (i.reduced config limited.2)
    let volatility ← i.finalVolatility c final.weights
    pure (i.reviewedDecision config limited.1 volatility final)

end RiskInputs

/-- `RiskEngine.evaluate`. -/
def evaluate (config : RiskConfig K) (i : RiskInputs K) : Except String (RiskDecision K) :=
  if i.invalidReasons ≠ [] then .ok (i.safeCashDecision i.invalidReasons)
  else if i.isHalted ∧ i.hardStopLatched = false then .ok i.holdRejectionDecision
  else
    match i.covariance config with
    | .error message => .ok (i.safeCashDecision [.covariance message])
    | .ok c => i.review config c

end Engine

end AdaptiveTrader.Research
