import AdaptiveTrader.Execution.Orders
import AdaptiveTrader.Execution.Receipts

/-!
# Reconciliation

`reconcile` compares durable plans, orders and fills with the broker's account, positions and
orders. Each rule contributes a list of differences; the receipt collects them, and it is clean when
no rule found any.
-/

set_option autoImplicit false

namespace AdaptiveTrader

open Foundation

def quantityTolerance : ℚ := 1 / 1000000
def cashTolerance : ℚ := 1 / 100
def equityTolerance : ℚ := 1 / 100

/-! ## Requests -/

/-- Trusted local and sanitized broker state for one comparison. -/
structure ReconciliationRequestFields where
  experimentHash : String
  slotId : Option String
  executionPlanId : Option String
  correlationId : String
  activeSymbols : List String
  shortEligibleSymbols : List String
  baselinePositions : List Position
  baselineCash : ℚ
  fills : List Fill
  orderFills : List Fill
  intents : List OrderIntent
  durableOrders : List BrokerOrder
  brokerOrders : List BrokerOrder
  brokerPositions : List Position
  brokerAccount : AccountState
  expectedAccountIdHash : String
  markPrices : List (String × ℚ)
  startedAt : Instant
  completedAt : Instant
  liveEndpointDetected : Bool := false
  paperFalseDetected : Bool := false
  requireFlat : Bool := false
  requiredFlatAt : Option Instant := none
  deriving DecidableEq

def ReconciliationRequestFields.check (r : ReconciliationRequestFields) :
    Except PlatformError Unit := do
  rejectIf (r.activeSymbols ≠ sortedSet r.activeSymbols)
    (.executionValidation "active reconciliation symbols must be ordered")
  rejectIf (r.shortEligibleSymbols ≠ sortedSet r.shortEligibleSymbols)
    (.executionValidation "short eligibility symbols must be ordered")
  rejectIf (¬ r.shortEligibleSymbols ⊆ r.activeSymbols)
    (.executionValidation "short eligibility must be a subset of active symbols")
  rejectIf (r.markPrices.map Prod.fst ≠ sortedSet (r.markPrices.map Prod.fst))
    (.executionValidation "mark prices must be unique and ordered")
  rejectIf (r.markPrices.any fun p => p.2 ≤ 0)
    (.executionValidation "mark prices must be positive finite Decimals")
  rejectIf (sortedSet (r.markPrices.map Prod.fst) ≠ sortedSet r.activeSymbols)
    (.executionValidation "mark prices must contain exactly active symbols")
  rejectIf (isSha256 r.expectedAccountIdHash = false)
    (.executionValidation "expected account ID hash is invalid")
  rejectIf (r.completedAt < r.startedAt)
    (.executionValidation "reconciliation completion precedes start")
  rejectIf (¬ (r.startedAt ≤ r.brokerAccount.observedAt ∧
      r.brokerAccount.observedAt ≤ r.completedAt))
    (.executionValidation "broker account observation must occur during reconciliation")
  rejectIf ((r.fills ++ r.orderFills).any fun f => r.completedAt < f.occurredAt)
    (.executionValidation "reconciliation cannot include a future fill")
  rejectIf (r.intents.any fun i => r.completedAt < i.createdAt)
    (.executionValidation "reconciliation cannot include a future intent")
  rejectIf ((r.durableOrders ++ r.brokerOrders).any fun o => r.completedAt < o.updatedAt)
    (.executionValidation "reconciliation cannot include a future order state")
  rejectIf (r.requireFlat ≠ r.requiredFlatAt.isSome)
    (.executionValidation "required-flat deadline and flag disagree")

structure ReconciliationRequest extends ReconciliationRequestFields where
  checked : toReconciliationRequestFields.check = .ok ()
  deriving DecidableEq

def ReconciliationRequest.create (fields : ReconciliationRequestFields) :
    Except PlatformError ReconciliationRequest :=
  validated ReconciliationRequestFields.check fields fun h => ⟨fields, h⟩

theorem ReconciliationRequest.create_eq_ok {fields : ReconciliationRequestFields}
    {r : ReconciliationRequest} (h : ReconciliationRequest.create fields = .ok r) :
    r.toReconciliationRequestFields = fields := by
  obtain ⟨_, rfl⟩ := validated_eq_ok.1 h
  rfl

/-! ## Rebuilt quantities -/

/-- Add a quantity to a symbol's entry. -/
def addQuantity (quantities : Dict String ℚ) (symbol : String) (delta : ℚ) : Dict String ℚ :=
  quantities.set symbol ((quantities.get? symbol).getD 0 + delta)

/-- The nonzero entries as positions, ordered by symbol. -/
def positionsOf (quantities : Dict String ℚ) : Except PlatformError (List Position) :=
  collect (fun e => Position.create e.1 e.2)
    ((sortedBy Prod.fst quantities.entries).filter fun e => e.2 ≠ 0)

/-- The baseline quantities; a repeated symbol is refused. -/
def baselineQuantities : Dict String ℚ → List Position → Except PlatformError (Dict String ℚ)
  | quantities, [] => .ok quantities
  | quantities, position :: rest => do
      rejectIf (quantities.contains position.symbol = true)
        (.executionValidation "baseline contains a duplicate position")
      baselineQuantities (quantities.set position.symbol position.quantity) rest

/-- The first fill of each execution ID. -/
def distinctFills (fills : List Fill) : List Fill :=
  (Dict.firstWins (·.brokerExecutionId) fills).values

/-- `reconstruct_signed_positions`. -/
def reconstructSignedPositions (baselinePositions : List Position) (fills : List Fill) :
    Except PlatformError (List Position) := do
  let baseline ← baselineQuantities Dict.empty baselinePositions
  positionsOf ((distinctFills fills).foldl
    (fun quantities fill => addQuantity quantities fill.symbol fill.signedQuantity) baseline)

/-- A symbol's quantity in a position table. -/
def quantityIn (table : Dict String Position) (symbol : String) : ℚ :=
  ((table.get? symbol).map (·.quantity)).getD 0

/-! ## Short inventory -/

/-- The effects that add to a short. -/
def PositionEffect.opensShort : PositionEffect → Bool
  | openShort | increaseShort => true
  | _ => false

/-- The effects that cover a short. -/
def PositionEffect.coversShort : PositionEffect → Bool
  | reduceShort | closeShort | forcedFlatShort => true
  | _ => false

/-- A fill counts when its intent and order are known and agree with it. -/
def fillEvidence [ContentHasher] (intents : Dict String OrderIntent)
    (orders : Dict String BrokerOrder) (fill : Fill) : Option OrderIntent :=
  match intents.get? fill.clientOrderId, orders.get? fill.clientOrderId with
  | some intent, some order =>
      if order.orderIntentId = intent.orderIntentId ∧ fill.symbol = intent.symbol ∧
          fill.side = intent.side then some intent
      else none
  | _, _ => none

/-- The change one fill makes to the short inventory. -/
def inventoryStep [ContentHasher] (intents : Dict String OrderIntent)
    (orders : Dict String BrokerOrder) (inventory : Dict String ℚ) (fill : Fill) :
    Dict String ℚ :=
  match fillEvidence intents orders fill with
  | none => inventory
  | some intent =>
      if intent.positionEffect.opensShort then addQuantity inventory fill.symbol fill.quantity
      else if intent.positionEffect.coversShort then
        inventory.set fill.symbol (max 0 ((inventory.get? fill.symbol).getD 0 - fill.quantity))
      else inventory

/-- The order in which fills are replayed. -/
def Fill.replayKey (f : Fill) : Int ×ₗ String := toLex (f.occurredAt, f.brokerExecutionId)

/-- `_traceable_short_inventory`. -/
def traceableShortInventory [ContentHasher] (intents : Dict String OrderIntent)
    (orders : Dict String BrokerOrder) (fills : List Fill) : Dict String ℚ :=
  (Dict.ofValues (·.brokerExecutionId) (sortedBy Fill.replayKey fills)).values.foldl
    (inventoryStep intents orders) Dict.empty

/-! ## The rules -/

/-- The difference one symbol's positions show. -/
def positionDifference (activeSymbols : List String) (symbol : String) (expected observed : ℚ) :
    List ReconciliationDiscrepancy :=
  let difference (code : DiscrepancyCode) : List ReconciliationDiscrepancy :=
    [{ code, symbol := some symbol, expected := some expected, observed := some observed }]
  if symbol ∉ activeSymbols ∧ (expected ≠ 0 ∨ observed ≠ 0) then
    difference .nonActiveSymbolPosition
  else if expected = 0 ∧ observed ≠ 0 then difference .unexpectedPosition
  else if expected * observed < 0 then difference .positionSignMismatch
  else if quantityTolerance < |expected - observed| then difference .positionQuantityMismatch
  else []

/-- Every order whose client order ID occurred before. -/
def duplicateOrderDifferences (orders : List BrokerOrder) : List ReconciliationDiscrepancy :=
  (Dict.repeats (·.clientOrderId) orders).map fun o =>
    { code := .duplicateClientOrderId, clientOrderId := some o.clientOrderId }

/-- The persisted fill quantity of one order. -/
def persistedFillQuantity (orderFills : List Fill) (clientOrderId : String) : ℚ :=
  totalQuantity (Dict.ofValues (·.brokerExecutionId)
    (orderFills.filter fun f => f.clientOrderId = clientOrderId)).values

/-- The differences between a local order and the broker's order with the same client ID. -/
def matchedOrderDifferences (localOrder brokerOrder : BrokerOrder) :
    List ReconciliationDiscrepancy :=
  (if localOrder.cumulativeFilledQuantity ≠ brokerOrder.cumulativeFilledQuantity then
    [{ code := .filledQuantityMismatch, clientOrderId := some localOrder.clientOrderId,
       expected := some localOrder.cumulativeFilledQuantity,
       observed := some brokerOrder.cumulativeFilledQuantity }] else []) ++
  (if localOrder.state ≠ brokerOrder.state then
    [{ code := .orderStateMismatch, clientOrderId := some localOrder.clientOrderId }] else []) ++
  (if localOrder.brokerOrderId ≠ brokerOrder.brokerOrderId then
    [{ code := .orderStateMismatch, clientOrderId := some localOrder.clientOrderId }] else [])

/-- The body of the loop over the durable orders. -/
def durableOrderDifferences (r : ReconciliationRequest) (intentMap : Dict String OrderIntent)
    (observedOrders : Dict String BrokerOrder) (localOrder : BrokerOrder) :
    List ReconciliationDiscrepancy :=
  let clientId := localOrder.clientOrderId
  let persisted := persistedFillQuantity r.orderFills clientId
  let isCurrentPlan := match intentMap.get? clientId with
    | some intent => decide (some intent.executionPlanId = r.executionPlanId)
    | none => false
  (if localOrder.cumulativeFilledQuantity ≠ persisted then
    [{ code := .filledQuantityMismatch, clientOrderId := some clientId,
       expected := some localOrder.cumulativeFilledQuantity, observed := some persisted }]
  else []) ++
  match observedOrders.get? clientId with
  | none =>
      if localOrder.state.terminal ∧ isCurrentPlan = false then []
      else if localOrder.state = .intentCommitted then []
      else
        (if localOrder.state.ambiguous then
          [{ code := .submissionUnknown, clientOrderId := some clientId }] else []) ++
        [{ code := .missingBrokerOrder, clientOrderId := some clientId }]
  | some brokerOrder =>
      (if localOrder.state.ambiguous then
        [{ code := .submissionUnknown, clientOrderId := some clientId }] else []) ++
      matchedOrderDifferences localOrder brokerOrder

/-- The change of cash a fill causes. -/
def Fill.cashDelta (f : Fill) : ℚ :=
  if f.side = .sell then f.quantity * f.price - f.fee else -(f.quantity * f.price + f.fee)

/-- Cash after the distinct fills of the plan. -/
def expectedCash (r : ReconciliationRequest) : ℚ :=
  r.baselineCash + ((Dict.ofValues (·.brokerExecutionId) r.fills).values.map Fill.cashDelta).sum

/-- Cash and the marked value of the expected positions. -/
def expectedEquity (r : ReconciliationRequest) (expectedPositions : List Position) : ℚ :=
  expectedCash r +
    (expectedPositions.map fun p => p.quantity * pairValue r.markPrices p.symbol).sum

section Rules

variable (r : ReconciliationRequest) (expectedPositions : List Position)

/-- The endpoint flags and the repeated identities. -/
def identityDifferences : List ReconciliationDiscrepancy :=
  (if r.liveEndpointDetected then [{ code := .liveEndpointDetected }] else []) ++
  (if r.paperFalseDetected then [{ code := .paperFalseDetected }] else []) ++
  (sortedSet (((Dict.repeats id (r.fills.map (·.brokerExecutionId))) ++
    Dict.repeats id (r.orderFills.map (·.brokerExecutionId))))).map
      (fun _ => { code := .duplicateExecutionId }) ++
  (sortedSet (Dict.repeats id (r.intents.map (·.clientOrderId)))).map
    fun clientId => { code := .duplicateClientOrderId, clientOrderId := some clientId }

/-- `_position_map`: the broker's positions, first one first. -/
def observedMap : Dict String Position := Dict.firstWins (·.symbol) r.brokerPositions

def expectedMap : Dict String Position := Dict.ofValues (·.symbol) expectedPositions

/-- The repeated broker positions and the loop over all symbols. -/
def positionDifferences : List ReconciliationDiscrepancy :=
  (Dict.repeats (·.symbol) r.brokerPositions).map (fun p =>
    { code := .unexpectedPosition, symbol := some p.symbol,
      expected := some (quantityIn (observedMap r) p.symbol), observed := some p.quantity }) ++
  (sortedSet ((expectedMap expectedPositions).keys ++ (observedMap r).keys)).flatMap fun symbol =>
    positionDifference r.activeSymbols symbol (quantityIn (expectedMap expectedPositions) symbol)
      (quantityIn (observedMap r) symbol)

/-- What a required flat account must show: no observed position, and the deadline met. -/
def requiredFlatDifferences : List ReconciliationDiscrepancy :=
  if r.requireFlat then
    (sortedBy (·.symbol) ((observedMap r).values.filter fun p =>
      quantityTolerance < |p.quantity|)).map (fun p =>
        { code := .requiredFlatNotProven, symbol := some p.symbol, expected := some 0,
          observed := some p.quantity }) ++
    (if ∃ deadline ∈ r.requiredFlatAt, deadline < r.completedAt then
      [{ code := .forcedFlatDeadlineMissed }] else [])
  else []

/-- The intents, first one first. -/
def intentMap : Dict String OrderIntent := Dict.firstWins (·.clientOrderId) r.intents

/-- The durable orders, first one first. -/
def durableMap : Dict String BrokerOrder := Dict.firstWins (·.clientOrderId) r.durableOrders

/-- The broker's orders, first one first. -/
def observedOrderMap : Dict String BrokerOrder :=
  Dict.firstWins (·.clientOrderId) r.brokerOrders

/-- Short positions that the owned fills do not explain. -/
def shortDifferences [ContentHasher] : List ReconciliationDiscrepancy :=
  let traceable := traceableShortInventory (intentMap r) (durableMap r) r.orderFills
  (sortedBy (·.symbol) (expectedMap expectedPositions).values).flatMap fun p =>
    if p.quantity < 0 ∧
        quantityTolerance < abs ((traceable.get? p.symbol).getD 0 - |p.quantity|) then
      [{ code := .untraceableShortPosition, symbol := some p.symbol,
         expected := some p.quantity,
         observed := ((observedMap r).get? p.symbol).map (·.quantity) }]
    else []

/-- Intents outside the active symbols, and short increases that are not eligible. -/
def intentDifferences : List ReconciliationDiscrepancy :=
  r.intents.flatMap fun i =>
    (if i.symbol ∉ r.activeSymbols then
      [{ code := .nonActiveSymbolOrder, symbol := some i.symbol,
         clientOrderId := some i.clientOrderId }] else []) ++
    (if i.positionEffect.opensShort ∧ i.symbol ∉ r.shortEligibleSymbols then
      [{ code := .ineligibleShortIncrease, symbol := some i.symbol,
         clientOrderId := some i.clientOrderId }] else [])

/-- When a flat account is required, no order that opens exposure may still be alive. -/
def openOrderDifferences : List ReconciliationDiscrepancy :=
  if r.requireFlat then
    (durableMap r).values.flatMap fun o =>
      match (intentMap r).get? o.clientOrderId with
      | some i =>
          if i.positionEffect.opensExposure ∧ o.state.terminal = false then
            [{ code := .requiredFlatNotProven, clientOrderId := some o.clientOrderId }]
          else []
      | none => []
  else []

/-- Broker orders without a local intent. -/
def unknownOrderDifferences : List ReconciliationDiscrepancy :=
  (observedOrderMap r).values.flatMap fun o =>
    if (intentMap r).contains o.clientOrderId then []
    else
      { code := .unknownBrokerOrder, clientOrderId := some o.clientOrderId } ::
      (if o.state.ambiguous then
        [{ code := .submissionUnknown, clientOrderId := some o.clientOrderId }] else [])

/-- The account identity, cash and equity. -/
def accountDifferences [ContentHasher] : List ReconciliationDiscrepancy :=
  (if r.brokerAccount.accountIdHash ≠ r.expectedAccountIdHash then
    [{ code := .accountIdMismatch }] else []) ++
  (if cashTolerance < |expectedCash r - r.brokerAccount.cash| then
    [{ code := .cashMismatch, expected := some (expectedCash r),
       observed := some r.brokerAccount.cash }] else []) ++
  (if equityTolerance < |expectedEquity r expectedPositions - r.brokerAccount.equity| then
    [{ code := .equityMismatch, expected := some (expectedEquity r expectedPositions),
       observed := some r.brokerAccount.equity }] else [])

/-- Every difference, in the order of the rules. -/
def allDifferences [ContentHasher] : List ReconciliationDiscrepancy :=
  identityDifferences r ++ positionDifferences r expectedPositions ++ requiredFlatDifferences r ++
    duplicateOrderDifferences r.durableOrders ++ shortDifferences r expectedPositions ++
    intentDifferences r ++ duplicateOrderDifferences r.brokerOrders ++ openOrderDifferences r ++
    unknownOrderDifferences r ++
    (durableMap r).values.flatMap (durableOrderDifferences r (intentMap r) (observedOrderMap r)) ++
    accountDifferences r expectedPositions

end Rules

/-! ## Receipts -/

/-- The decimal places of a number; the domain's decimals have at most 64. -/
def decimalPlaces (q : ℚ) : Nat :=
  ((List.range 65).find? fun k => (q * 10 ^ k).den = 1).getD 64

/-- Fixed-point notation. -/
def decimalText (q : ℚ) : String :=
  let places := decimalPlaces q
  let scaled := (|q| * 10 ^ places).num.natAbs
  let fraction := Nat.toDigits 10 (scaled % 10 ^ places)
  let padded := List.replicate (places - fraction.length) '0' ++ fraction
  String.ofList ((if q < 0 then ['-'] else []) ++ Nat.toDigits 10 (scaled / 10 ^ places) ++
    if places = 0 then [] else '.' :: padded)

/-- `_difference_key`. -/
def ReconciliationDiscrepancy.differenceKey (d : ReconciliationDiscrepancy) :
    String ×ₗ (String ×ₗ (String ×ₗ (String ×ₗ String))) :=
  toLex (d.code.value, toLex (d.symbol.getD "", toLex (d.clientOrderId.getD "",
    toLex ((d.expected.map decimalText).getD "", (d.observed.map decimalText).getD ""))))

/-- `reconcile`. -/
def reconcile [ContentHasher] (r : ReconciliationRequest) :
    Except PlatformError ReconciliationReceipt := do
  let expectedPositions ← reconstructSignedPositions r.baselinePositions r.fills
  let observedPositions ← collect (fun p => Position.create p.symbol p.quantity)
    ((sortedBy (·.symbol) (observedMap r).values).filter fun p => p.quantity ≠ 0)
  ReconciliationReceipt.create {
    experimentHash := r.experimentHash
    slotId := r.slotId
    executionPlanId := r.executionPlanId
    correlationId := r.correlationId
    accountIdHash := r.brokerAccount.accountIdHash
    accountObservedAt := r.brokerAccount.observedAt
    startedAt := r.startedAt
    completedAt := r.completedAt
    status := .clean
    expectedPositions := expectedPositions
    observedPositions := observedPositions
    expectedCash := expectedCash r
    observedCash := r.brokerAccount.cash
    expectedEquity := expectedEquity r expectedPositions
    observedEquity := r.brokerAccount.equity
    markPrices := r.markPrices
    fillHashes := sortedSet ((r.fills ++ r.orderFills).map (·.contentHash))
    orderHashes := sortedSet ((r.durableOrders ++ r.brokerOrders).map (·.contentHash))
    requireFlat := r.requireFlat
    requiredFlatAt := r.requiredFlatAt
    discrepancies := sortedBy (·.differenceKey) (allDifferences r expectedPositions).dedup }

end AdaptiveTrader
