import AdaptiveTrader.Execution.Models
import AdaptiveTrader.Foundation.Significant
import AdaptiveTrader.Risk.Models
import Mathlib.Data.Prod.Lex

/-!
# Signed order planning

`planSignedOrders` turns the target weights of a risk decision into signed target quantities and
the intents that move the current positions toward them. Every sign reversal stops at zero, exits
precede entries, and a transition above the notional limit is split into parts.

A weight becomes a quantity by a product and a quotient of the default decimal context, each rounded
to its 28 digits. Differences and notionals of quantities are exact.
-/

set_option autoImplicit false

namespace AdaptiveTrader

open Foundation

def longQuantum : ℚ := 1 / 1000000
def shortQuantum : ℚ := 1
def minimumOrderNotional : ℚ := 25
def maximumSingleIntentEquityFraction : ℚ := 15 / 100
def maximumIntentsPerPlan : Nat := 16

/-! ## Requests and results -/

structure ExecutionPlanningRequestFields where
  riskDecision : RiskDecision
  currentPositions : List Position
  referencePrices : List (String × ℚ)
  equity : ℚ
  targetVersion : Nat
  createdAt : Instant
  deadlineAt : Instant
  forcedFlat : Bool
  deriving DecidableEq

/-- The symbols a decision has targets for. -/
def RiskDecision.symbols (d : RiskDecision) : List String := d.finalTargets.map Prod.fst

def ExecutionPlanningRequestFields.check (r : ExecutionPlanningRequestFields) :
    Except PlatformError Unit := do
  rejectIf (r.currentPositions.map (·.symbol) ≠ r.riskDecision.symbols)
    (.executionValidation "current positions must contain exactly risk symbols")
  rejectIf (r.referencePrices.map Prod.fst ≠ r.riskDecision.symbols)
    (.executionValidation "reference prices must contain exactly risk symbols")
  rejectIf (r.referencePrices.any fun p => p.2 ≤ 0)
    (.executionValidation "reference prices must be positive finite Decimals")
  rejectIf (r.equity ≤ 0)
    (.executionValidation "planning equity must be a positive finite Decimal")
  rejectIf (positionPairs r.currentPositions ≠
      r.riskDecision.planningPositions.map fun p => (p.symbol, p.quantity))
    (.executionValidation "planning positions do not match the signed risk snapshot")
  rejectIf (r.referencePrices ≠ r.riskDecision.planningPrices.map fun p => (p.symbol, p.price))
    (.executionValidation "planning prices do not match the signed risk snapshot")
  rejectIf (r.equity ≠ r.riskDecision.accountSnapshot.equity)
    (.executionValidation "planning equity does not match the signed risk snapshot")
  rejectIf (r.riskDecision.planningPrices.any fun p => !p.isValidated)
    (.executionValidation "planning prices are not validated for execution")
  rejectIf (¬ (1 ≤ r.targetVersion ∧ r.targetVersion ≤ 999999))
    (.executionValidation "target version must be between one and 999999")
  rejectIf (r.deadlineAt ≤ r.createdAt)
    (.executionValidation "planning deadline must follow creation time")
  rejectIf (r.forcedFlat = true ∧ r.riskDecision.finalTargets.any fun t => t.2 ≠ 0)
    (.executionValidation "forced-flat planning requires exact zero risk targets")

/-- Complete input of one planning pass. -/
structure ExecutionPlanningRequest extends ExecutionPlanningRequestFields where
  checked : toExecutionPlanningRequestFields.check = .ok ()
  deriving DecidableEq

def ExecutionPlanningRequest.create (fields : ExecutionPlanningRequestFields) :
    Except PlatformError ExecutionPlanningRequest :=
  validated ExecutionPlanningRequestFields.check fields fun h => ⟨fields, h⟩

@[simp] theorem ExecutionPlanningRequest.create_eq_ok {fields : ExecutionPlanningRequestFields}
    {r : ExecutionPlanningRequest} :
    ExecutionPlanningRequest.create fields = .ok r ↔
      r.toExecutionPlanningRequestFields = fields := by
  constructor
  · intro h
    obtain ⟨_, rfl⟩ := validated_eq_ok.1 h
    rfl
  · rintro rfl
    exact validated_eq_ok.2 ⟨r.checked, rfl⟩

structure ExecutionPlanningResultFields where
  riskDecision : RiskDecision
  plan : ExecutionPlan
  intents : List OrderIntent
  reversalSymbols : List String
  deriving DecidableEq

def ExecutionPlanningResultFields.check [ContentHasher] (r : ExecutionPlanningResultFields) :
    Except PlatformError Unit := do
  rejectIf (r.plan.riskDecisionId ≠ r.riskDecision.riskDecisionId ∨
      r.plan.riskDecisionHash ≠ r.riskDecision.contentHash ∨
      r.plan.experimentHash ≠ r.riskDecision.experimentHash ∨
      r.plan.correlationId ≠ r.riskDecision.correlationId)
    (.executionValidation "planning result is not bound to its risk decision")
  rejectIf (r.intents.any fun i => i.executionPlanId ≠ r.plan.executionPlanId)
    (.executionValidation "planning result contains an intent from another plan")

/-- A plan and its persistable intents. -/
structure ExecutionPlanningResult [ContentHasher] extends ExecutionPlanningResultFields where
  checked : toExecutionPlanningResultFields.check = .ok ()

/-! ## Target quantities -/

/-- The quantity of a signed weight before it is cut to whole units. -/
def rawQuantity (weight equity price : ℚ) : ℚ :=
  significant contextPrecision (significant contextPrecision (weight * equity) / price)

/-- The quantity of a signed weight: longs in millionths, shorts in whole shares, both rounded
toward zero. -/
def targetQuantity (weight equity price : ℚ) : ℚ :=
  let raw := rawQuantity weight equity price
  if raw = 0 then 0
  else if 0 < raw then quantizeDecimal |raw| longQuantum
  else -quantizeDecimal |raw| shortQuantum

/-- `signed_target_quantity`. -/
def signedTargetQuantity (weight equity price : ℚ) : Except PlatformError ℚ := do
  rejectIf (equity ≤ 0 ∨ price ≤ 0)
    (.executionValidation "quantity equity and price must be positive")
  pure (targetQuantity weight equity price)

/-! ## Transitions -/

/-- An intent before it has a plan and a sequence number. -/
structure IntentDraft where
  symbol : String
  side : OrderSide
  effect : PositionEffect
  phase : IntentPhase
  quantity : ℚ
  stageTarget : ℚ
  part : Nat := 0
  deriving DecidableEq

/-- Reductions come before increases. -/
def IntentPhase.order : IntentPhase → Nat
  | exit => 0
  | flatten => 0
  | entry => 1

/-- `_entry`. -/
def entryDraft (symbol : String) (quantity : ℚ) (long increase : Bool) : IntentDraft :=
  if long then
    { symbol, side := .buy, effect := if increase then .increaseLong else .openLong,
      phase := .entry, quantity, stageTarget := quantity }
  else
    { symbol, side := .sell, effect := if increase then .increaseShort else .openShort,
      phase := .entry, quantity, stageTarget := -quantity }

/-- `_exit`. -/
def exitDraft (symbol : String) (quantity : ℚ) (effect : PositionEffect) (stageTarget : ℚ) :
    IntentDraft :=
  { symbol, side := if effect = .reduceLong ∨ effect = .closeLong then .sell else .buy, effect,
    phase := .exit, quantity, stageTarget }

/-- `_transition_draft`: the draft, and whether the transition is a reversal that stops at zero. -/
def transitionDraft (symbol : String) (current target : ℚ) (forcedFlat : Bool) :
    Except PlatformError (Option IntentDraft × Bool) :=
  if current = target then .ok (none, false)
  else if forcedFlat then
    if target ≠ 0 then .error (.executionValidation "forced-flat target must be exact zero")
    else if 0 < current then
      .ok (some { symbol, side := .sell, effect := .forcedFlatLong, phase := .flatten,
                  quantity := current, stageTarget := 0 }, false)
    else if current < 0 then
      .ok (some { symbol, side := .buy, effect := .forcedFlatShort, phase := .flatten,
                  quantity := |current|, stageTarget := 0 }, false)
    else .ok (none, false)
  else if current = 0 ∧ 0 < target then .ok (some (entryDraft symbol target true false), false)
  else if current = 0 ∧ target < 0 then .ok (some (entryDraft symbol |target| false false), false)
  else if 0 < current ∧ 0 ≤ target then
    if current < target then
      .ok (some (entryDraft symbol (target - current) true true), false)
    else
      .ok (some (exitDraft symbol (current - target)
        (if target = 0 then .closeLong else .reduceLong) target), false)
  else if current < 0 ∧ target ≤ 0 then
    if target < current then
      .ok (some (entryDraft symbol |target - current| false true), false)
    else
      .ok (some (exitDraft symbol (target - current)
        (if target = 0 then .closeShort else .reduceShort) target), false)
  else if 0 < current ∧ target < 0 then .ok (some (exitDraft symbol current .closeLong 0), true)
  else if current < 0 ∧ 0 < target then
    .ok (some (exitDraft symbol |current| .closeShort 0), true)
  else .error (.executionValidation "signed transition could not be classified")

/-! ## Splitting -/

/-- The effects that trade a long position. -/
def PositionEffect.isLong : PositionEffect → Bool
  | openLong | increaseLong | reduceLong | closeLong | forcedFlatLong => true
  | _ => false

/-- `_split_effect`. -/
def splitEffect (effect : PositionEffect) (first last : Bool) : PositionEffect :=
  match effect with
  | .openLong => if first then .openLong else .increaseLong
  | .openShort => if first then .openShort else .increaseShort
  | .closeLong => if last then .closeLong else .reduceLong
  | .closeShort => if last then .closeShort else .reduceShort
  | effect => effect

/-- The loop of `_split_draft`: full parts until the rest fits. The first argument is the number of
parts the limit still allows. -/
def splitQuantities (maximum : ℚ) : Nat → ℚ → Except PlatformError (List ℚ)
  | 0, remaining =>
      if remaining ≤ 0 then .ok []
      else .error (.executionValidation "one transition exceeds the 16-intent limit")
  | allowed + 1, remaining =>
      if remaining ≤ 0 then .ok []
      else do
        let rest ← splitQuantities maximum allowed (remaining - min remaining maximum)
        pure (min remaining maximum :: rest)

/-- The parts of a draft from the given quantities, numbered from `part` on. -/
def partsFrom (draft : IntentDraft) (part : Nat) : List ℚ → List IntentDraft
  | [] => []
  | quantity :: rest =>
      { draft with
        effect := splitEffect draft.effect (part = 0) (rest = [])
        quantity := quantity
        part := part } :: partsFrom draft (part + 1) rest

/-- `_split_draft`. -/
def splitDraft (draft : IntentDraft) (price maximumNotional : ℚ) :
    Except PlatformError (List IntentDraft) :=
  if draft.quantity * price ≤ maximumNotional then .ok [draft]
  else do
    let quantum := if draft.effect.isLong then longQuantum else shortQuantum
    let maximumQuantity := quantizeDecimal (maximumNotional / price) quantum
    rejectIf (maximumQuantity ≤ 0)
      (.executionValidation "maximum intent notional cannot support one quantity unit")
    let quantities ← splitQuantities maximumQuantity maximumIntentsPerPlan draft.quantity
    pure (partsFrom draft 0 quantities)

/-! ## Planning -/

/-- The plan's target for one symbol. -/
def planTarget (r : ExecutionPlanningRequest) (symbol : String) : Except PlatformError Position := do
  let quantity ← (if r.forcedFlat then pure 0
    else signedTargetQuantity (pairValue r.riskDecision.finalTargets symbol) r.equity
      (pairValue r.referencePrices symbol))
  Position.create symbol quantity

/-- The drafts of one target, and whether it is a reversal. -/
def targetDrafts (r : ExecutionPlanningRequest) (target : Position) :
    Except PlatformError (List IntentDraft × Bool) := do
  let (draft, reversal) ← transitionDraft target.symbol
    (pairValue (positionPairs r.currentPositions) target.symbol) target.quantity r.forcedFlat
  match draft with
  | none => pure ([], reversal)
  | some draft => do
      let parts ← splitDraft draft (pairValue r.referencePrices target.symbol)
        (r.equity * maximumSingleIntentEquityFraction)
      pure (parts, reversal)

/-- The order in which drafts are submitted: by phase, symbol and part. -/
def IntentDraft.sortKey (d : IntentDraft) : Nat ×ₗ (String ×ₗ Nat) :=
  toLex (d.phase.order, toLex (d.symbol, d.part))

section Hashed

variable [ContentHasher]

/-- The hash of the plan's targets. -/
def targetsHash (targets : List Position) : String :=
  sha256Hex (.seq [.text "signed-quantity-target-v1", .pairs (positionPairs targets)])

/-- The plan for the given targets. -/
def planFields (r : ExecutionPlanningRequest) (targets : List Position) : ExecutionPlanFields where
  riskDecisionId := r.riskDecision.riskDecisionId
  riskDecisionHash := r.riskDecision.contentHash
  experimentHash := r.riskDecision.experimentHash
  correlationId := r.riskDecision.correlationId
  targetVersion := r.targetVersion
  forcedFlat := r.forcedFlat
  targetQuantities := targets
  currentPositions := r.currentPositions
  referencePrices := r.referencePrices
  equity := r.equity
  createdAt := r.createdAt
  deadlineAt := r.deadlineAt

/-- The intent of a draft at its place in the plan. -/
def draftIntent (r : ExecutionPlanningRequest) (plan : ExecutionPlan) (targetHash : String)
    (draft : IntentDraft × Nat) : Except PlatformError OrderIntent :=
  OrderIntent.create {
    executionPlanId := plan.executionPlanId
    riskDecisionId := plan.riskDecisionId
    experimentHash := plan.experimentHash
    correlationId := plan.correlationId
    symbol := draft.1.symbol
    side := draft.1.side
    positionEffect := draft.1.effect
    phase := draft.1.phase
    sequence := draft.2
    targetVersion := plan.targetVersion
    quantity := draft.1.quantity
    referencePrice := pairValue r.referencePrices draft.1.symbol
    finalTargetQuantity := draft.1.stageTarget
    forcedFlat := r.forcedFlat
    createdAt := r.createdAt
    deadlineAt := r.deadlineAt
    targetHash := targetHash }

/-- `plan_signed_orders`. -/
def planSignedOrders (r : ExecutionPlanningRequest) :
    Except PlatformError ExecutionPlanningResult := do
  let decision := r.riskDecision
  rejectIf (decision.executionScope = .none)
    (.executionValidation "risk decision grants no execution authority")
  rejectIf (r.createdAt < decision.decidedAt)
    (.executionValidation "risk decision cannot postdate the execution plan")
  rejectIf (decision.executionScope = .riskReducingOnly ∧
      decision.finalTargets.any fun t => t.2 ≠ 0)
    (.executionValidation "risk-reducing scope cannot authorize nonzero targets")
  let targets ← collect (planTarget r) (sortedSet decision.symbols)
  let plan ← ExecutionPlan.create (planFields r targets)
  let transitions ← collect (targetDrafts r) targets
  let ordered := sortedBy IntentDraft.sortKey (transitions.flatMap Prod.fst)
  rejectIf (maximumIntentsPerPlan < ordered.length)
    (.executionValidation "execution plan exceeds the 16-intent limit")
  let intents ← collect (draftIntent r plan (targetsHash targets)) ordered.zipIdx
  rejectIf (r.forcedFlat = false ∧ intents.any fun i => i.notional < minimumOrderNotional)
    (.executionValidation "non-flattening intent is below minimum notional")
  let reversals := ((targets.zip transitions).filter fun t => t.2.2).map fun t => t.1.symbol
  let fields : ExecutionPlanningResultFields := ⟨decision, plan, intents, sortedBy id reversals⟩
  validated ExecutionPlanningResultFields.check fields fun h => ⟨fields, h⟩

/-! ## What planning determines -/

/-- The stages of a successful planning pass. -/
structure Planned (r : ExecutionPlanningRequest) (result : ExecutionPlanningResult) where
  targets : List Position
  transitions : List (List IntentDraft × Bool)
  targets_eq : List.Forall₂ (fun s t => planTarget r s = .ok t) (sortedSet r.riskDecision.symbols)
    targets
  plan_eq : result.plan.toExecutionPlanFields = planFields r targets
  transitions_eq : List.Forall₂ (fun t d => targetDrafts r t = .ok d) targets transitions
  count_le : (transitions.flatMap Prod.fst).length ≤ maximumIntentsPerPlan
  intents_eq : List.Forall₂ (fun d i => draftIntent r result.plan (targetsHash targets) d = .ok i)
    (sortedBy IntentDraft.sortKey (transitions.flatMap Prod.fst)).zipIdx result.intents
  reversals_eq : result.reversalSymbols =
    sortedBy id (((targets.zip transitions).filter fun t => t.2.2).map fun t => t.1.symbol)
  decision_eq : result.riskDecision = r.riskDecision

theorem planSignedOrders_planned {r : ExecutionPlanningRequest} {result : ExecutionPlanningResult}
    (h : planSignedOrders r = .ok result) : Nonempty (Planned r result) := by
  simp only [planSignedOrders, bind_eq_ok, rejectIf_eq_ok, exists_const, collect_eq_ok_iff,
    ExecutionPlan.create_eq_ok, not_lt] at h
  obtain ⟨-, -, -, targets, htargets, plan, hplan, transitions, htrans, hcount, intents, hintents,
    -, hv⟩ := h
  obtain ⟨_, rfl⟩ := validated_eq_ok.1 hv
  have hlen := (sortedBy_perm IntentDraft.sortKey (transitions.flatMap Prod.fst)).length_eq
  exact ⟨⟨targets, transitions, htargets, hplan, htrans, hlen ▸ hcount, hintents, rfl, rfl⟩⟩

namespace Planned

variable {r : ExecutionPlanningRequest} {result : ExecutionPlanningResult}

/-- Every planned intent is the intent of one draft. -/
theorem exists_draft (h : Planned r result) {i : OrderIntent} (hi : i ∈ result.intents) :
    ∃ d ∈ (sortedBy IntentDraft.sortKey (h.transitions.flatMap Prod.fst)).zipIdx,
      draftIntent r result.plan (targetsHash h.targets) d = .ok i := by
  obtain ⟨n, hn, rfl⟩ := List.mem_iff_getElem.1 hi
  have hd := h.intents_eq.length_eq ▸ hn
  exact ⟨_, List.getElem_mem hd, h.intents_eq.get hd hn⟩

/-- A planned intent belongs to its plan and to the plan's experiment. -/
theorem intent_plan (h : Planned r result) {i : OrderIntent} (hi : i ∈ result.intents) :
    i.executionPlanId = result.plan.executionPlanId ∧
      i.experimentHash = result.plan.experimentHash := by
  obtain ⟨d, -, hd⟩ := h.exists_draft hi
  have hbase := (OrderIntent.create_eq_ok hd).1
  exact ⟨congrArg OrderIntentBase.executionPlanId hbase,
    congrArg OrderIntentBase.experimentHash hbase⟩

/-- Planned intents with the same client order ID have the same place in the plan. -/
theorem sequence_of_clientOrderId (h : Planned r result) {i j : OrderIntent}
    (hi : i ∈ result.intents) (hj : j ∈ result.intents)
    (hid : i.clientOrderId = j.clientOrderId) : i.sequence = j.sequence := by
  obtain ⟨d, -, hd⟩ := h.exists_draft hi
  obtain ⟨e, -, he⟩ := h.exists_draft hj
  obtain ⟨hibase, hiid⟩ := OrderIntent.create_eq_ok hd
  obtain ⟨hjbase, hjid⟩ := OrderIntent.create_eq_ok he
  rw [hiid, hjid, ← hibase, ← hjbase] at hid
  refine OrderIntent.deriveClientOrderId_sequence i.sequence_lt j.sequence_lt ?_ ?_ hid
  · rw [hibase, hjbase]
  · rw [hibase, hjbase]

/-- Planned intents are numbered in order. -/
theorem sequences (h : Planned r result) :
    result.intents.map (·.sequence) = List.range result.intents.length := by
  have hnumbers : List.Forall₂ (fun d i => d.2 = i.sequence)
      (sortedBy IntentDraft.sortKey (h.transitions.flatMap Prod.fst)).zipIdx result.intents :=
    h.intents_eq.imp fun _ _ hd =>
      (congrArg OrderIntentBase.sequence (OrderIntent.create_eq_ok hd).1).symm
  have hmap : (sortedBy IntentDraft.sortKey (h.transitions.flatMap Prod.fst)).zipIdx.map Prod.snd =
      result.intents.map (·.sequence) := by
    rw [← List.forall₂_eq_eq_eq, List.forall₂_map_left_iff, List.forall₂_map_right_iff]
    exact hnumbers
  have hlen := h.intents_eq.length_eq
  rw [← hmap, List.zipIdx_map_snd, List.range_eq_range', ← hlen, List.length_zipIdx]

theorem length_intents_le (h : Planned r result) :
    result.intents.length ≤ maximumIntentsPerPlan := by
  have hlen := h.intents_eq.length_eq
  rw [List.length_zipIdx, (sortedBy_perm IntentDraft.sortKey _).length_eq] at hlen
  exact hlen ▸ h.count_le

end Planned

end Hashed

end AdaptiveTrader
