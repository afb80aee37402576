import AdaptiveTrader.Execution.Repository
import AdaptiveTrader.Foundation.Programs

/-!
# The execution service

The service as programs over a repository and a broker that are interfaces: each of their methods is
one atomic call. The sequential meaning of these programs describes one worker, the interleaved one
any number of them.
-/

set_option autoImplicit false

namespace AdaptiveTrader

open Foundation

/-! ## Interfaces -/

/-- The repository capability of the execution service. -/
structure ExecutionRepository (σ : Type) where
  persistPlanAndIntents : ExecutionPlan → List OrderIntent → RiskDecision →
    Exec σ PlatformError Unit
  getOrder : String → Exec σ PlatformError BrokerOrder
  getPlan : String → Exec σ PlatformError ExecutionPlan
  getRiskDecision : String → Exec σ PlatformError RiskDecision
  getIntent : String → Exec σ PlatformError OrderIntent
  allIntents : Exec σ PlatformError (List OrderIntent)
  intentsForPlan : String → Exec σ PlatformError (List OrderIntent)
  allOrders : Exec σ PlatformError (List BrokerOrder)
  fills : Exec σ PlatformError (List Fill)
  submissionLedgerSnapshot : String → Exec σ PlatformError SubmissionLedgerSnapshot
  recordSubmissionStarted : String → Instant → SubmissionAuthoritySnapshot →
    Exec σ PlatformError BrokerOrder
  recordSubmissionUnknown : String → Instant → String → Exec σ PlatformError BrokerOrder
  recordReconciliationRequired : String → Instant → String → Exec σ PlatformError BrokerOrder
  recordCancelRequested : String → Instant → Exec σ PlatformError BrokerOrder
  applyBrokerUpdate : Option BrokerUpdate → Exec σ PlatformError BrokerOrder
  recordReconciliationBundle : ReconciliationReceipt → ReconciliationRequest →
    Option RiskLatchEvent → Option Incident → Exec σ PlatformError Unit
  recordIncident : Incident → Exec σ PlatformError Incident

/-- The adapter classes the service distinguishes. -/
inductive BrokerAdapter
  | deterministicFakePaper
  | alpacaPaper
  | other
  deriving DecidableEq

/-- The broker capability; a response that is no broker update is `none`. -/
structure Broker (σ : Type) where
  adapter : BrokerAdapter
  paperOnly : Bool
  factoryCreated : Bool
  submit : OrderIntent → Instant → Exec σ PlatformError (Option BrokerUpdate)
  lookup : String → Instant → Exec σ PlatformError (Option BrokerUpdate)
  cancel : String → Instant → Exec σ PlatformError (Option BrokerUpdate)
  account : Instant → Exec σ PlatformError AccountState
  positions : Exec σ PlatformError (List Position)
  openClientOrderIds : Exec σ PlatformError (List String)

/-- The outcome of one submission attempt. -/
structure SubmissionResult where
  clientOrderId : String
  state : OrderState
  submitted : Bool
  reasonCodes : List String
  deriving DecidableEq

/-- `ExecutionService.__init__`: the broker adapters the service accepts. -/
def Broker.check {σ : Type} (broker : Broker σ) : Except PlatformError Unit := do
  rejectIf (broker.adapter = .other)
    (.executionValidation "broker adapter is not in the closed allowlist")
  rejectIf (broker.paperOnly = false)
    (.executionValidation "broker adapter must be permanently paper-only")
  rejectIf (broker.adapter = .alpacaPaper ∧ broker.factoryCreated = false)
    (.executionValidation "paper adapter lacks factory-owned authority")

/-- A repository and an accepted broker. -/
structure ExecutionService (σ : Type) where
  repository : ExecutionRepository σ
  broker : Broker σ
  checked : broker.check = .ok ()

/-! ## Broker and ledger observations -/

/-- `_normalized_positions` of the service: nonzero positions by symbol. -/
def nonzeroPositions (values : List Position) : Except PlatformError (List Position) := do
  let positions := sortedBy (·.symbol) (values.filter fun p => p.quantity ≠ 0)
  rejectIf (¬ (positions.map (·.symbol)).Nodup)
    (.executionValidation "broker positions contain a duplicate symbol")
  pure positions

/-- `_ordered_ids`. -/
def orderedIds (values : List String) : Except PlatformError (List String) := do
  rejectIf ("" ∈ values ∨ values ≠ sortedSet values)
    (.executionValidation "broker open-order IDs are invalid")
  pure values

/-- The quantities after some fills; every fill trades a symbol of the baseline. -/
def quantitiesAfterFills : Dict String ℚ → List Fill → Except PlatformError (Dict String ℚ)
  | quantities, [] => .ok quantities
  | quantities, fill :: rest =>
      match quantities.get? fill.symbol with
      | none => .error (.executionValidation "durable fill does not match plan symbols")
      | some quantity =>
          quantitiesAfterFills (quantities.set fill.symbol (quantity + fill.signedQuantity)) rest

/-- The quantities of some positions. -/
def positionQuantities (positions : List Position) : Dict String ℚ :=
  positions.foldl (fun quantities p => quantities.set p.symbol p.quantity) Dict.empty

/-- `_positions_after_fills`. -/
def positionsAfterFills (baseline : List Position) (fills : List Fill) :
    Except PlatformError (List Position) := do
  let quantities ← quantitiesAfterFills (positionQuantities baseline) fills
  collect (fun item => Position.create item.1 item.2)
    ((sortedBy Prod.fst quantities.entries).filter fun item => item.2 ≠ 0)

/-- `_cash_after_fills`. -/
def cashAfterFills (baseline : ℚ) (fills : List Fill) : ℚ :=
  fills.foldl (fun cash fill => cash - fill.signedQuantity * fill.price - fill.fee) baseline

/-- `min(values)`; the minimum of no values is an error. -/
def minimumInstant : List Instant → Except PlatformError Instant
  | [] => .error (.external "min() iterable argument is empty")
  | first :: rest => .ok (rest.foldl min first)

/-- The value of some positions at the given prices. -/
def positionsValue (prices : List (String × ℚ)) : List Position → Except PlatformError ℚ
  | [] => .ok 0
  | position :: rest => do
      let price ← require (Dict.lookup position.symbol prices) (.external "KeyError")
      let value ← positionsValue prices rest
      pure (position.quantity * price + value)

/-- What the broker reports just before a submission. -/
structure BrokerObservation where
  account : AccountState
  positions : List Position
  openClientOrderIds : List String

/-- What the repository implies about the broker's state just before a submission. -/
structure LedgerObservation where
  ledger : SubmissionLedgerSnapshot
  plan : ExecutionPlan
  decision : RiskDecision
  priceTime : Instant
  securityTime : Instant
  expectedPositions : List Position
  expectedCash : ℚ
  expectedEquity : ℚ
  experimentOrders : List BrokerOrder

/-- An order whose outcome is not known locally. -/
def BrokerOrder.isUnresolved (o : BrokerOrder) : Bool :=
  o.state.ambiguous || decide (o.state = .submissionStarted)

/-- The client order IDs the broker should report open. -/
def LedgerObservation.expectedOpenOrders (seen : LedgerObservation) : List String :=
  sortedBy id ((seen.experimentOrders.filter fun o =>
    o.state.terminal = false ∧ o.brokerOrderId ≠ none).map (·.clientOrderId))

/-- The reasons of `_submission_authority` against the observed state. -/
def authorityReasons [ContentHasher] (intent : OrderIntent) (safety : SubmissionSafetySnapshot)
    (broker : BrokerObservation) (seen : LedgerObservation) : List String :=
  let ledger := seen.ledger
  let decision := seen.decision
  reasonIf (ledger.intentHash ≠ intent.contentHash ∨
    ledger.executionPlanId ≠ seen.plan.executionPlanId ∨
    ledger.riskDecisionHash ≠ decision.contentHash) "signed_authority_mismatch" ++
  reasonIf (safety.accountObservedAt ≠ broker.account.observedAt) "account_snapshot_mismatch" ++
  reasonIf (safety.priceObservedAt ≠ seen.priceTime) "planning_price_snapshot_mismatch" ++
  reasonIf (safety.securityObservedAt ≠ seen.securityTime) "security_snapshot_mismatch" ++
  reasonIf (Dict.lookup "reconciliation" decision.sourceTimestamps ≠
    some safety.reconciliationObservedAt) "reconciliation_snapshot_mismatch" ++
  reasonIf (safety.activeSymbols ≠ decision.symbols) "active_symbols_changed" ++
  reasonIf (safety.shortableSymbols ≠ shortEligibleSymbols decision.securityMetadata)
    "security_eligibility_changed" ++
  reasonIf (safety.ambiguousOrderExists ≠ seen.experimentOrders.any (·.isUnresolved))
    "ambiguous_order_snapshot_mismatch" ++
  reasonIf (safety.blockingLatchExists ≠ decide (ledger.activeLatches ≠ []))
    "latch_snapshot_mismatch" ++
  reasonIf (broker.account.accountIdHash ≠ decision.accountSnapshot.accountIdHash)
    "account_id_mismatch" ++
  reasonIf (1 / 100 < abs (broker.account.cash - seen.expectedCash)) "account_cash_changed" ++
  reasonIf (1 / 100 < abs (broker.account.equity - seen.expectedEquity)) "account_equity_changed" ++
  reasonIf (broker.positions ≠ seen.expectedPositions) "positions_changed" ++
  reasonIf (broker.openClientOrderIds ≠ seen.expectedOpenOrders) "open_orders_changed"

/-- `_denied`. -/
def deniedAuthorization (reason : String) : SubmissionAuthorization where
  approved := false
  reasons := [reason]
  reasonsOrdered := eq_sortedSet_iff.2 (List.pairwise_singleton _ _)
  agrees := rfl

/-! ## Submission -/

/-- The message of a ledger snapshot that is no longer current. -/
def staleAuthority : PlatformError := .executionValidation "submission authority became stale"

namespace ExecutionService

open Program

variable {σ : Type} [ContentHasher] (service : ExecutionService σ)

/-- `persist`. -/
def persist (result : ExecutionPlanningResult) : Program σ PlatformError Unit :=
  atomically (service.repository.persistPlanAndIntents result.plan result.intents
    result.riskDecision)

/-- `_authorize`. -/
def authorize (intent : OrderIntent) (safety : SubmissionSafetySnapshot)
    (paperContext : Option PaperGateContext) : SubmissionAuthorization :=
  match service.broker.adapter with
  | .alpacaPaper =>
      if service.broker.paperOnly = false then deniedAuthorization "broker_not_paper_only"
      else
        match paperContext with
        | none => deniedAuthorization "paper_gate_context_missing"
        | some context =>
            if context.adapterPaperOnly ≠ service.broker.paperOnly then
              deniedAuthorization "paper_adapter_identity_mismatch"
            else if context.safety ≠ safety then
              deniedAuthorization "paper_safety_snapshot_mismatch"
            else authorizePaperIntent intent context
  | .other => deniedAuthorization "broker_adapter_not_allowed"
  | .deterministicFakePaper =>
      if service.broker.paperOnly = false then deniedAuthorization "broker_not_paper_only"
      else if paperContext.isSome then deniedAuthorization "paper_context_with_nonpaper_adapter"
      else authorizeIntent intent safety

/-- The broker's account, positions and open orders. -/
def observeBroker (safety : SubmissionSafetySnapshot) :
    Program σ PlatformError BrokerObservation := do
  let account ← atomically (service.broker.account safety.evaluatedAt)
  let reported ← atomically service.broker.positions
  let positions ← pureExcept (nonzeroPositions reported)
  let reportedIds ← atomically service.broker.openClientOrderIds
  let openIds ← pureExcept (orderedIds reportedIds)
  pure ⟨account, positions, openIds⟩

/-- What the plan's fills and the experiment's orders imply. -/
def observeLedger (ledger : SubmissionLedgerSnapshot) (plan : ExecutionPlan)
    (decision : RiskDecision) : Program σ PlatformError LedgerObservation := do
  let priceTime ← pureExcept (minimumInstant (decision.planningPrices.map (·.observedAt)))
  let securityTime ← pureExcept (minimumInstant (decision.securityMetadata.map (·.observedAt)))
  let planIntents ← atomically (service.repository.intentsForPlan plan.executionPlanId)
  let fills ← atomically service.repository.fills
  let planFills := fills.filter fun f => f.clientOrderId ∈ planIntents.map (·.clientOrderId)
  let expectedPositions ← pureExcept (positionsAfterFills plan.currentPositions planFills)
  let expectedCash := cashAfterFills decision.accountSnapshot.cash planFills
  let positionValue ← pureExcept (positionsValue plan.referencePrices expectedPositions)
  let orders ← atomically service.repository.allOrders
  let intents ← forEach (fun (o : BrokerOrder) =>
    atomically (service.repository.getIntent o.clientOrderId)) orders
  pure {
    ledger, plan, decision, priceTime, securityTime, expectedPositions, expectedCash
    expectedEquity := expectedCash + positionValue
    experimentOrders := ((orders.zip intents).filter fun o =>
      o.2.experimentHash = plan.experimentHash).map Prod.fst }

/-- `_submission_authority`: the authority, or the reasons against it. -/
def submissionAuthority (intent : OrderIntent) (safety : SubmissionSafetySnapshot) :
    Program σ PlatformError (Except (List String) SubmissionAuthoritySnapshot) := do
  let ledger ← atomically (service.repository.submissionLedgerSnapshot intent.clientOrderId)
  let plan ← atomically (service.repository.getPlan intent.executionPlanId)
  let decision ← atomically (service.repository.getRiskDecision plan.riskDecisionId)
  let observed ← attempt (service.observeBroker safety)
  match observed with
  | .error _ => pure (.error ["broker_state_unavailable"])
  | .ok broker => do
      let seen ← service.observeLedger ledger plan decision
      let reasons := authorityReasons intent safety broker seen
      if reasons ≠ [] then pure (.error (sortedSet reasons))
      else do
        let authority ← pureExcept (SubmissionAuthoritySnapshot.create ledger safety
          broker.account broker.positions broker.openClientOrderIds)
        pure (.ok authority)

/-- The rest of `submit_one` once the submission is recorded: call the broker and record its
answer. An uncertain call or any other exception makes the outcome unknown. -/
def submitStarted (intent : OrderIntent) (clientOrderId : String)
    (safety : SubmissionSafetySnapshot) : Program σ PlatformError SubmissionResult := do
  let answer ← attempt (atomically (service.broker.submit intent safety.evaluatedAt))
  match answer with
  | .ok update => do
      let current ← atomically (service.repository.applyBrokerUpdate update)
      pure ⟨clientOrderId, current.state, true, []⟩
  | .error (.brokerSubmissionUncertain reasonCode _) => do
      let unknown ← atomically (service.repository.recordSubmissionUnknown clientOrderId
        safety.evaluatedAt reasonCode)
      pure ⟨clientOrderId, unknown.state, true, ["submission_unknown"]⟩
  | .error _ => do
      let unknown ← atomically (service.repository.recordSubmissionUnknown clientOrderId
        safety.evaluatedAt "broker_submission_exception")
      pure ⟨clientOrderId, unknown.state, true, ["submission_unknown"]⟩

/-- The rest of `submit_one` once an authority is granted: record the start of the submission, then
submit. A stale authority ends the attempt without a submission. -/
def startAndSubmit (intent : OrderIntent) (clientOrderId : String)
    (safety : SubmissionSafetySnapshot) (authority : SubmissionAuthoritySnapshot) :
    Program σ PlatformError SubmissionResult := do
  let started ← attempt (atomically (service.repository.recordSubmissionStarted clientOrderId
    safety.evaluatedAt authority))
  match started with
  | .ok _ => service.submitStarted intent clientOrderId safety
  | .error e =>
      if e = staleAuthority then do
        let current ← atomically (service.repository.getOrder clientOrderId)
        pure ⟨clientOrderId, current.state, false, ["submission_authority_stale"]⟩
      else pureExcept (.error e)

/-- `submit_one`. -/
def submitOne (clientOrderId : String) (safety : SubmissionSafetySnapshot)
    (paperContext : Option PaperGateContext) : Program σ PlatformError SubmissionResult := do
  let intent ← atomically (service.repository.getIntent clientOrderId)
  let order ← atomically (service.repository.getOrder clientOrderId)
  if order.state.terminal = true then
    pure ⟨clientOrderId, order.state, false, ["already_terminal"]⟩
  else if order.isUnresolved = true then
    pure ⟨clientOrderId, order.state, false, ["reconciliation_required"]⟩
  else if order.state ≠ .intentCommitted then
    pure ⟨clientOrderId, order.state, false, ["order_already_submitted"]⟩
  else if (service.authorize intent safety paperContext).approved = false then
    pure ⟨clientOrderId, order.state, false, (service.authorize intent safety paperContext).reasons⟩
  else do
    let granted ← service.submissionAuthority intent safety
    match granted with
    | .error reasons => pure ⟨clientOrderId, order.state, false, reasons⟩
    | .ok authority => service.startAndSubmit intent clientOrderId safety authority

/-- The phases that must be filled before an entry may be submitted. -/
def reducingPhases : List IntentPhase := [.exit, .flatten]

/-- The loop of `submit_plan`; the flag says whether every reduction so far is filled. -/
def submitIntents (safetyProvider : OrderIntent → Exec σ PlatformError SubmissionSafetySnapshot)
    (paperContextProvider : OrderIntent → Exec σ PlatformError (Option PaperGateContext)) :
    Bool → List OrderIntent → Program σ PlatformError (List SubmissionResult)
  | _, [] => pure []
  | exitsComplete, intent :: rest =>
      if intent.phase = .entry ∧ exitsComplete = false then do
        let order ← atomically (service.repository.getOrder intent.clientOrderId)
        let results ← submitIntents safetyProvider paperContextProvider exitsComplete rest
        pure (⟨intent.clientOrderId, order.state, false, ["close_phase_incomplete"]⟩ :: results)
      else do
        let safety ← atomically (safetyProvider intent)
        let paperContext ← atomically (paperContextProvider intent)
        let outcome ← service.submitOne intent.clientOrderId safety paperContext
        let results ← submitIntents safetyProvider paperContextProvider
          (exitsComplete && !decide (intent.phase ∈ reducingPhases ∧ outcome.state ≠ .filled)) rest
        pure (outcome :: results)

/-- `submit_plan`; a missing context provider is one that always answers `none`. -/
def submitPlan (result : ExecutionPlanningResult)
    (safetyProvider : OrderIntent → Exec σ PlatformError SubmissionSafetySnapshot)
    (paperContextProvider : OrderIntent → Exec σ PlatformError (Option PaperGateContext)) :
    Program σ PlatformError (List SubmissionResult) := do
  service.persist result
  service.submitIntents safetyProvider paperContextProvider true result.intents

/-! ## Recovery -/

/-- Look an order up and record the answer; an unknown order requires reconciliation. -/
def lookupAndRecord (clientOrderId : String) (observedAt : Instant) :
    Program σ PlatformError BrokerOrder := do
  let update ← atomically (service.broker.lookup clientOrderId observedAt)
  match update with
  | none => atomically (service.repository.recordReconciliationRequired clientOrderId observedAt
      "broker_order_not_found")
  | some update => atomically (service.repository.applyBrokerUpdate (some update))

/-- The states `resolve_ambiguous` resolves. -/
def ambiguousSubmissionStates : List OrderState :=
  [.submissionStarted, .submissionUnknown, .reconciliationRequired]

/-- `resolve_ambiguous`. -/
def resolveAmbiguous (clientOrderId : String) (observedAt : Instant) :
    Program σ PlatformError BrokerOrder := do
  let current ← atomically (service.repository.getOrder clientOrderId)
  pureExcept (rejectIf (current.state ∉ ambiguousSubmissionStates)
    (.executionValidation "order does not require ambiguous-submission recovery"))
  service.lookupAndRecord clientOrderId observedAt

/-- `refresh_nonterminal`. -/
def refreshNonterminal (clientOrderId : String) (observedAt : Instant) :
    Program σ PlatformError BrokerOrder := do
  let current ← atomically (service.repository.getOrder clientOrderId)
  if current.state.terminal = true then pure current
  else do
    pureExcept (rejectIf (current.state ∈ OrderState.intentCommitted :: ambiguousSubmissionStates)
      (.executionValidation "order requires submission or ambiguity recovery"))
    service.lookupAndRecord clientOrderId observedAt

/-- `cancel_one`. -/
def cancelOne (clientOrderId : String) (requestedAt : Instant) :
    Program σ PlatformError BrokerOrder := do
  let _ ← atomically (service.repository.recordCancelRequested clientOrderId requestedAt)
  let answer ← attempt (atomically (service.broker.cancel clientOrderId requestedAt))
  match answer with
  | .error _ => atomically (service.repository.recordReconciliationRequired clientOrderId
      requestedAt "cancellation_outcome_unknown")
  | .ok update => atomically (service.repository.applyBrokerUpdate update)

/-! ## The calls of a program -/

section Calls

variable {service} {P : ∀ {γ : Type}, Exec σ PlatformError γ → Prop}

omit [ContentHasher] in
theorem calls_observeBroker (safety : SubmissionSafetySnapshot)
    (haccount : ∀ t, P (service.broker.account t)) (hpositions : P service.broker.positions)
    (hopen : P service.broker.openClientOrderIds) : (service.observeBroker safety).Calls P := by
  refine (Calls.atomically (haccount _)).andThen fun account => ?_
  refine (Calls.atomically hpositions).andThen fun reported => ?_
  refine Calls.andThen (by trivial) fun positions => ?_
  refine (Calls.atomically hopen).andThen fun reportedIds => ?_
  exact Calls.andThen (by trivial) fun openIds => by trivial

omit [ContentHasher] in
/-- Behind the call of the broker only the repository is called. -/
theorem calls_submitStarted (intent : OrderIntent) (clientOrderId : String)
    (safety : SubmissionSafetySnapshot) (hsubmit : ∀ t, P (service.broker.submit intent t))
    (happly : ∀ update, P (service.repository.applyBrokerUpdate update))
    (hunknown : ∀ t reasonCode,
      P (service.repository.recordSubmissionUnknown clientOrderId t reasonCode)) :
    (service.submitStarted intent clientOrderId safety).Calls P := by
  refine (Calls.atomically (hsubmit _)).attempt.andThen fun answer => ?_
  cases answer with
  | ok update => exact (Calls.atomically (happly update)).andThen fun _ => by trivial
  | error e =>
      cases e <;> exact (Calls.atomically (hunknown _ _)).andThen fun _ => by trivial

end Calls

end ExecutionService

end AdaptiveTrader
