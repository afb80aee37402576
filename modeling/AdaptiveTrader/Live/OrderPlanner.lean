import AdaptiveTrader.Foundation.RoundingError
import AdaptiveTrader.Foundation.Sorted
import AdaptiveTrader.Live.Ledger

/-!
# The order planner of the paper service

`plan` turns target weights into sells and then buys. A buy takes at most what is left of the cash
after the buffer and the open buys; a sell takes at most what is held; both take at most a fraction of
the equity.

Decimals are computed to 28 digits, so the amounts follow the exact ones up to rounding. What is
compared exactly holds exactly; what is computed holds up to a fraction of 10^-27 for every rounding
(`plan_sound`). The budget itself is such a computed amount: a plan can exceed the exact budget by a
rounding (`plan_exceeds_budget`).

The digest of a decision ID enters as `hexdigest`.
-/

set_option autoImplicit false

namespace AdaptiveTrader.Live

open Foundation

/-- The exceptions of planning. `invalidOperation` is that of a decimal with too many digits. -/
inductive PlanningError
  | safetyViolation (message : String)
  | valueError (message : String)
  | invalidOperation

/-! ## Symbols -/

/-- The characters `str.upper` returns for one character; of the others outside ASCII none returns
letters of a symbol only. -/
def upperChar (c : Char) : List Char :=
  match c.toNat with
  | 0xDF => ['S', 'S']
  | 0x131 => ['I']
  | 0x17F => ['S']
  | 0xFB00 => ['F', 'F']
  | 0xFB01 => ['F', 'I']
  | 0xFB02 => ['F', 'L']
  | 0xFB03 => ['F', 'F', 'I']
  | 0xFB04 => ['F', 'F', 'L']
  | 0xFB05 => ['S', 'T']
  | 0xFB06 => ['S', 'T']
  | _ => [c.toUpper]

/-- `[A-Z0-9]`. -/
def isSymbolChar (c : Char) : Bool := isUpper c || isDigit c

/-- `normalize_symbol`. -/
def normalizeSymbol (symbol : String) : Except PlanningError String :=
  let stripped := (stripText symbol).toList
  let normalized := stripped.flatMap upperChar
  if stripped = [] then .error (.valueError "symbol must be a nonempty string")
  else if normalized.all (fun c => isSymbolChar c || c = '.' || c = '-') = false then
    .error (.valueError ("Unsupported symbol format: " ++ symbol))
  else .ok (String.ofList normalized)

/-! ## Inputs -/

/-- The checked settings of an `OrderPlanner`. -/
structure OrderPlanner where
  minimumOrderNotional : Decimal
  maxSingleOrderFraction : Decimal
  requiredCashBuffer : Decimal
  maximumOrders : Nat
  staleAfterSeconds : Nat
  minimum_nonneg : 0 ≤ minimumOrderNotional.value
  fraction_pos : 0 < maxSingleOrderFraction.value
  fraction_le : maxSingleOrderFraction.value ≤ 1
  buffer_nonneg : 0 ≤ requiredCashBuffer.value
  buffer_lt : requiredCashBuffer.value < 1
  maximumOrders_pos : 0 < maximumOrders
  staleAfterSeconds_pos : 0 < staleAfterSeconds

/-- What planning reads of an `AccountState`. -/
structure AccountState where
  equity : Decimal
  cash : Decimal
  equity_nonneg : 0 ≤ equity.value
  cash_nonneg : 0 ≤ cash.value

/-- What planning reads of a `PositionState`. -/
structure PositionState where
  symbol : String
  quantity : Decimal
  marketValue : Decimal

/-- An order of the broker with the notional it was requested for. -/
structure OpenOrder extends BrokerOrderState where
  requestedNotional : Option Decimal
  requested_nonneg : ∀ notional, requestedNotional = some notional → 0 ≤ notional.value

/-- `state_for_broker_status(order.status) not in TERMINAL_STATES`. -/
def OpenOrder.nonterminal (o : OpenOrder) : Bool := !(stateForBrokerStatus o.status).terminal

/-- The latest price of a symbol and the start of its bar, if it comes with one. -/
structure PriceReading where
  price : Decimal
  time : Option Instant

/-- A calendar date. -/
structure SessionDate where
  year : Nat
  month : Nat
  day : Nat
  year_lt : year < 10000
  month_le : month ≤ 12
  day_le : day ≤ 31

/-- `f"{date:%Y%m%d}"`. -/
def SessionDate.chars (d : SessionDate) : List Char :=
  padded 4 d.year ++ padded 2 d.month ++ padded 2 d.day

/-- The arguments of `plan`. A weight that is not finite is `none`. -/
structure PlanRequest where
  decisionId : String
  sessionDate : SessionDate
  createdAt : Instant
  targetWeights : List (String × Option Decimal)
  account : AccountState
  positions : List PositionState
  latestPrices : Dict String PriceReading
  universeSymbols : List String
  openOrders : List OpenOrder

/-! ## Intents -/

/-- Exactly one of a notional and a quantity. -/
inductive OrderAmount
  | notional (value : Decimal)
  | quantity (value : Decimal)

def OrderAmount.decimal : OrderAmount → Decimal
  | notional value => value
  | quantity value => value

/-- `OrderIntent`; the reason is always that of a rebalance. -/
structure OrderIntent where
  decisionId : String
  clientOrderId : String
  sessionDate : SessionDate
  symbol : String
  side : Side
  sequence : Nat
  referencePrice : Decimal
  createdAt : Instant
  amount : OrderAmount
  decisionId_ne : decisionId ≠ ""
  reference_pos : 0 < referencePrice.value
  amount_pos : 0 < amount.decimal.value

/-- What an intent is worth at its reference price. -/
def OrderIntent.worth (i : OrderIntent) : ℚ :=
  match i.amount with
  | .notional value => value.value
  | .quantity value => value.value * i.referencePrice.value

def Side.letter : Side → Char
  | .buy => 'b'
  | .sell => 's'

theorem OrderIntent.worth_pos (i : OrderIntent) : 0 < i.worth := by
  have hamount := i.amount_pos
  unfold OrderIntent.worth
  cases h : i.amount with
  | notional value =>
    rw [h] at hamount
    exact hamount
  | quantity value =>
    rw [h] at hamount
    exact mul_pos hamount i.reference_pos

/-- The part of a client order ID before the dash and the sequence number. -/
def clientOrderIdPrefix (hexdigest : String → String) (sessionDate : SessionDate)
    (decisionId symbol : String) (side : Side) : List Char :=
  let letters := (symbol.toList.filter isSymbolChar).take 10
  ['a', 'p', 'a', '-'] ++ sessionDate.chars ++ ['-'] ++
    (hexdigest decisionId).toList.take 10 ++ ['-'] ++
    (if letters = [] then ['A', 'S', 'S', 'E', 'T'] else letters) ++ ['-', side.letter]

/-- `deterministic_client_order_id`, for a symbol in normal form. -/
def deterministicClientOrderId (hexdigest : String → String) (sessionDate : SessionDate)
    (decisionId symbol : String) (side : Side) (sequence : Nat) : String :=
  String.ofList ((clientOrderIdPrefix hexdigest sessionDate decisionId symbol side ++
    '-' :: padded 2 sequence).take 48)

/-! ## Planning -/

/-- A skipped symbol, or the scaling of the weights. -/
abbrev Skip := List (String × String)

def skip (symbol reason : String) : Skip := [("symbol", symbol), ("reason", reason)]

/-- `finite_weight_map`. -/
def finiteWeightMap : List (String × Option Decimal) → Dict String Decimal →
    Except PlanningError (Dict String Decimal)
  | [], weights => .ok weights
  | (symbol, raw) :: rest, weights => do
      let weight ← require (raw.filter fun w => decide (0 ≤ w.value))
        (.safetyViolation ("Weight for " ++ symbol ++ " must be finite and nonnegative"))
      let normalized ← normalizeSymbol symbol
      finiteWeightMap rest (weights.set normalized weight)

/-- `sum(values, Decimal("0"))`. -/
def sumDecimals (values : List Decimal) : Decimal :=
  Decimal.total contextPrecision (.ofInt 0) values

/-- The smaller of two decimals. -/
def minDecimal (x y : Decimal) : Decimal := if y.value < x.value then y else x

/-- The larger of two decimals. -/
def maxDecimal (x y : Decimal) : Decimal := if x.value < y.value then y else x

/-- The absolute value of a decimal. -/
def absDecimal (x : Decimal) : Decimal := ⟨x.coefficient.natAbs, x.exponent⟩

/-- Every weight times a factor. -/
def scaleValues (weights : Dict String Decimal) (scale : Decimal) : Dict String Decimal :=
  ⟨weights.entries.map fun e => (e.1, Decimal.mul contextPrecision e.2 scale), by
    simpa [Function.comp_def] using weights.nodupKeys⟩

/-- Weights that leave less cash than the buffer are scaled. -/
def OrderPlanner.scaledWeights (c : OrderPlanner) (weights : Dict String Decimal) :
    Dict String Decimal × List Skip :=
  let maxGross := Decimal.sub contextPrecision (.ofInt 1) c.requiredCashBuffer
  let gross := sumDecimals weights.values
  if maxGross.value < gross.value ∧ 0 < gross.value then
    let scaled := scaleValues weights (Decimal.div contextPrecision maxGross gross)
    (scaled, [[("reason", "cash_buffer_scaled"), ("gross_before", gross.text),
      ("gross_after", (sumDecimals scaled.values).text)]])
  else (weights, [])

/-- Positions are not negative and lie in the universe. -/
def checkPositions (allowed : List String) : List PositionState → Except PlanningError Unit
  | [] => .ok ()
  | p :: rest => do
      rejectIf (p.quantity.value < 0)
        (.safetyViolation ("Negative broker position detected for " ++ p.symbol))
      rejectIf (p.symbol ∉ allowed)
        (.safetyViolation ("Unexpected broker position detected: " ++ p.symbol))
      checkPositions allowed rest

/-- The target of a symbol that is worth an order. -/
structure Delta where
  side : Side
  symbol : String
  notional : Decimal
  price : Decimal

namespace PlanRequest

/-- `positions_by_symbol`. -/
def positionsBySymbol (r : PlanRequest) : Dict String PositionState :=
  Dict.ofValues (·.symbol) r.positions

/-- `conflicting_symbols`. -/
def conflictingSymbols (r : PlanRequest) : List String :=
  (r.openOrders.filter OpenOrder.nonterminal).map (·.symbol)

def currentValue (r : PlanRequest) (symbol : String) : Decimal :=
  match r.positionsBySymbol.get? symbol with
  | none => .ofInt 0
  | some position => position.marketValue

/-- The value a weight stands for. -/
def targetValue (r : PlanRequest) (weights : Dict String Decimal) (symbol : String) : Decimal :=
  Decimal.mul contextPrecision ((weights.get? symbol).getD (.ofInt 0)) r.account.equity

/-- The open buys that are not terminal. -/
def openBuys (r : PlanRequest) : List OpenOrder :=
  r.openOrders.filter fun o => o.side = .buy && o.nonterminal

def reservedOpenBuys (r : PlanRequest) : Decimal :=
  sumDecimals (r.openBuys.map fun o => o.requestedNotional.getD (.ofInt 0))

end PlanRequest

namespace OrderPlanner

variable (c : OrderPlanner) (r : PlanRequest)

def maxOrderNotional : Decimal :=
  Decimal.mul contextPrecision r.account.equity c.maxSingleOrderFraction

/-- What the loop over the symbols finds for one of them: an order to plan or what is skipped. -/
def deltaOf (weights : Dict String Decimal) (symbol : String) :
    Except PlanningError (Option Delta × List Skip) :=
  match r.latestPrices.get? symbol with
  | none => .ok (none, [skip symbol "missing_price"])
  | some reading =>
      if reading.price.value < 0 then .error (.valueError "price cannot be negative")
      else if reading.price.value ≤ 0 then
        .error (.safetyViolation ("Price for " ++ symbol ++ " must be positive"))
      else if reading.time.any (fun t => decide (c.staleAfterSeconds * 1000000 < r.createdAt - t)) then
        .ok (none, [skip symbol "stale_price"])
      else
        let delta := Decimal.sub contextPrecision (r.targetValue weights symbol)
          (r.currentValue symbol)
        if (absDecimal delta).value < c.minimumOrderNotional.value then
          .ok (none, if delta.value = 0 then []
            else [skip symbol "below_minimum_notional" ++ [("delta", delta.text)]])
        else if symbol ∈ r.conflictingSymbols then
          .ok (none, [skip symbol "conflicting_open_order"])
        else
          .ok (some
            { side := if 0 < delta.value then .buy else .sell
              symbol
              notional := minDecimal (absDecimal delta) (c.maxOrderNotional r)
              price := reading.price }, [])

/-- `buy_budget`. -/
def buyBudget : Decimal :=
  maxDecimal (.ofInt 0) (Decimal.sub contextPrecision
    (Decimal.sub contextPrecision r.account.cash
      (Decimal.mul contextPrecision r.account.equity c.requiredCashBuffer)) r.reservedOpenBuys)

/-- The intent of a row, as the constructor checks it. -/
def intentOf (hexdigest : String → String) (sequence : Nat) (d : Delta) (amount : OrderAmount) :
    Except PlanningError OrderIntent :=
  if hdecision : r.decisionId ≠ "" then
    if hreference : 0 < d.price.value then
      if hamount : 0 < amount.decimal.value then
        .ok
          { decisionId := r.decisionId
            clientOrderId := deterministicClientOrderId hexdigest r.sessionDate r.decisionId d.symbol
              d.side sequence
            sessionDate := r.sessionDate
            symbol := d.symbol
            side := d.side
            sequence
            referencePrice := d.price
            createdAt := r.createdAt
            amount
            decisionId_ne := hdecision
            reference_pos := hreference
            amount_pos := hamount }
      else
        .error (.valueError (match amount with
          | .notional _ => "OrderIntent.notional must be positive"
          | .quantity _ => "OrderIntent.quantity must be positive"))
    else .error (.valueError "OrderIntent.reference_price must be positive")
  else .error (.valueError "OrderIntent.decision_id is required")

/-- What is sold of a position, in whole units of 10^-9. -/
def sellQuantity (position : PositionState) (d : Delta) : Except PlanningError Decimal :=
  require (Decimal.quantizeDown contextPrecision (-9)
    (minDecimal position.quantity (Decimal.div contextPrecision d.notional d.price))) .invalidOperation

/-- The loop over the ordered rows, from the number of intents and the budget that is left. -/
def place (hexdigest : String → String) :
    Nat → Decimal → List Delta → Except PlanningError (List OrderIntent × List Skip)
  | _, _, [] => .ok ([], [])
  | sequence, budget, d :: rest =>
      if c.maximumOrders ≤ sequence then do
        let later ← place hexdigest sequence budget rest
        pure (later.1, skip d.symbol "maximum_order_count" :: later.2)
      else
        match d.side with
        | .buy =>
            let permitted := minDecimal d.notional budget
            if permitted.value < c.minimumOrderNotional.value then do
              let later ← place hexdigest sequence budget rest
              pure (later.1, skip d.symbol "insufficient_cash" :: later.2)
            else do
              let intent ← intentOf r hexdigest sequence d (.notional permitted)
              let later ← place hexdigest (sequence + 1)
                (Decimal.sub contextPrecision budget permitted) rest
              pure (intent :: later.1, later.2)
        | .sell =>
            match (r.positionsBySymbol.get? d.symbol).filter fun p => decide (0 < p.quantity.value) with
            | none => do
                let later ← place hexdigest sequence budget rest
                pure (later.1, skip d.symbol "no_long_position_to_sell" :: later.2)
            | some position => do
                let quantity ← sellQuantity position d
                if quantity.value ≤ 0 then do
                  let later ← place hexdigest sequence budget rest
                  pure (later.1, skip d.symbol "sell_rounds_to_zero" :: later.2)
                else do
                  let intent ← intentOf r hexdigest sequence d (.quantity quantity)
                  let later ← place hexdigest (sequence + 1) budget rest
                  pure (intent :: later.1, later.2)

/-- `f"{symbols}"` of a list of symbols. -/
def listText (symbols : List String) : String :=
  "[" ++ String.intercalate ", " (symbols.map fun s => "'" ++ s ++ "'") ++ "]"

/-- The weights by symbol and the symbols in order, when the weights stay in the universe. -/
def checkedTargets : Except PlanningError (Dict String Decimal × List String) := do
  let weights ← finiteWeightMap r.targetWeights Dict.empty
  let allowed ← collect normalizeSymbol r.universeSymbols
  let unsupported := sortedSet (weights.keys.filter fun symbol => symbol ∉ allowed)
  rejectIf (unsupported ≠ [])
    (.safetyViolation ("Target contains symbols outside the universe: " ++ listText unsupported))
  pure (weights, sortedSet allowed)

/-- Sells before buys, each by symbol. -/
def orderedDeltas (deltas : List Delta) : List Delta :=
  sortedBy (fun d => toLex (decide (d.side = .buy), d.symbol)) deltas

/-- `plan`: the intents and what is skipped. -/
def plan (hexdigest : String → String) : Except PlanningError (List OrderIntent × List Skip) := do
  let (weights, allowed) ← checkedTargets r
  let scaled := c.scaledWeights weights
  checkPositions allowed r.positions
  let rows ← collect (c.deltaOf r scaled.1) allowed
  let placed ← c.place r hexdigest 0 (c.buyBudget r)
    (orderedDeltas (rows.filterMap Prod.fst))
  pure (placed.1, scaled.2 ++ rows.flatMap Prod.snd ++ placed.2)

/-! ## What the loops do -/

@[simp] theorem absDecimal_value (x : Decimal) : (absDecimal x).value = |x.value| := by
  have hpos : (0 : ℚ) < (10 : ℚ) ^ x.exponent := by positivity
  simp only [absDecimal, Decimal.value]
  rw [abs_mul, abs_of_pos hpos]
  push_cast
  rfl

theorem minDecimal_le_left (x y : Decimal) : (minDecimal x y).value ≤ x.value := by
  unfold minDecimal
  split
  · next hlt => exact hlt.le
  · exact le_rfl

theorem minDecimal_le_right (x y : Decimal) : (minDecimal x y).value ≤ y.value := by
  unfold minDecimal
  split
  · exact le_rfl
  · next hle => exact not_lt.1 hle

/-- What the row of a symbol says when an order is worth planning. -/
structure Due (weights : Dict String Decimal) (d : Delta) : Prop where
  price_pos : 0 < d.price.value
  reading : ∃ reading, r.latestPrices.get? d.symbol = some reading ∧ d.price = reading.price
  uncontested : d.symbol ∉ r.conflictingSymbols
  side_eq : d.side = if 0 < (Decimal.sub contextPrecision (r.targetValue weights d.symbol)
    (r.currentValue d.symbol)).value then .buy else .sell
  notional_eq : d.notional = minDecimal (absDecimal (Decimal.sub contextPrecision
    (r.targetValue weights d.symbol) (r.currentValue d.symbol))) (c.maxOrderNotional r)

variable {c r}

theorem deltaOf_spec {weights : Dict String Decimal} {symbol : String} {d : Delta}
    {skips : List Skip} (h : c.deltaOf r weights symbol = .ok (some d, skips)) :
    d.symbol = symbol ∧ Due c r weights d := by
  unfold deltaOf at h
  cases hreading : r.latestPrices.get? symbol with
  | none =>
    rw [hreading] at h
    cases h
  | some reading =>
    simp only [hreading] at h
    by_cases hnegative : reading.price.value < 0
    · rw [if_pos hnegative] at h
      cases h
    rw [if_neg hnegative] at h
    by_cases hzero : reading.price.value ≤ 0
    · rw [if_pos hzero] at h
      cases h
    rw [if_neg hzero] at h
    by_cases hstale : reading.time.any
        (fun t => decide (c.staleAfterSeconds * 1000000 < r.createdAt - t)) = true
    · rw [if_pos hstale] at h
      cases h
    rw [if_neg hstale] at h
    by_cases hsmall : (absDecimal (Decimal.sub contextPrecision (r.targetValue weights symbol)
        (r.currentValue symbol))).value < c.minimumOrderNotional.value
    · simp only [if_pos hsmall] at h
      cases h
    simp only [if_neg hsmall] at h
    by_cases hconflict : symbol ∈ r.conflictingSymbols
    · rw [if_pos hconflict] at h
      cases h
    rw [if_neg hconflict] at h
    cases h
    exact ⟨rfl, not_le.1 hzero, ⟨reading, hreading, rfl⟩, hconflict, rfl, rfl⟩

/-- The intent of a row. -/
structure IsIntent (r : PlanRequest) (hexdigest : String → String) (sequence : Nat) (d : Delta)
    (amount : OrderAmount) (i : OrderIntent) : Prop where
  symbol_eq : i.symbol = d.symbol
  side_eq : i.side = d.side
  sequence_eq : i.sequence = sequence
  reference_eq : i.referencePrice = d.price
  amount_eq : i.amount = amount
  clientOrderId_eq : i.clientOrderId =
    deterministicClientOrderId hexdigest r.sessionDate r.decisionId i.symbol i.side i.sequence

theorem intentOf_spec {hexdigest : String → String} {sequence : Nat} {d : Delta}
    {amount : OrderAmount} {i : OrderIntent} (h : intentOf r hexdigest sequence d amount = .ok i) :
    IsIntent r hexdigest sequence d amount i := by
  unfold intentOf at h
  split at h
  · split at h
    · split at h
      · cases h
        exact ⟨rfl, rfl, rfl, rfl, rfl, rfl⟩
      · cases h
    · cases h
  · cases h

/-- What the loop over the ordered rows plans, row by row. -/
inductive Placed (c : OrderPlanner) (r : PlanRequest) (hexdigest : String → String) :
    Nat → Decimal → List Delta → List OrderIntent → Prop
  | nil (sequence : Nat) (budget : Decimal) : Placed c r hexdigest sequence budget [] []
  | skip {sequence : Nat} {budget : Decimal} {d : Delta} {rest : List Delta}
      {intents : List OrderIntent} (hrest : Placed c r hexdigest sequence budget rest intents) :
      Placed c r hexdigest sequence budget (d :: rest) intents
  | buy {sequence : Nat} {budget : Decimal} {d : Delta} {rest : List Delta} {i : OrderIntent}
      {intents : List OrderIntent} (hside : d.side = .buy) (hroom : sequence < c.maximumOrders)
      (hminimum : c.minimumOrderNotional.value ≤ (minDecimal d.notional budget).value)
      (hintent : IsIntent r hexdigest sequence d (.notional (minDecimal d.notional budget)) i)
      (hrest : Placed c r hexdigest (sequence + 1)
        (Decimal.sub contextPrecision budget (minDecimal d.notional budget)) rest intents) :
      Placed c r hexdigest sequence budget (d :: rest) (i :: intents)
  | sell {sequence : Nat} {budget : Decimal} {d : Delta} {rest : List Delta} {i : OrderIntent}
      {intents : List OrderIntent} {position : PositionState} {quantity : Decimal}
      (hside : d.side = .sell) (hroom : sequence < c.maximumOrders)
      (hposition : r.positionsBySymbol.get? d.symbol = some position)
      (hheld : 0 < position.quantity.value) (hquantity : sellQuantity position d = .ok quantity)
      (hintent : IsIntent r hexdigest sequence d (.quantity quantity) i)
      (hrest : Placed c r hexdigest (sequence + 1) budget rest intents) :
      Placed c r hexdigest sequence budget (d :: rest) (i :: intents)

theorem place_spec {hexdigest : String → String} {deltas : List Delta} : ∀ {sequence : Nat}
    {budget : Decimal} {intents : List OrderIntent} {skips : List Skip},
    c.place r hexdigest sequence budget deltas = .ok (intents, skips) →
      Placed c r hexdigest sequence budget deltas intents := by
  induction deltas with
  | nil =>
    intro sequence budget intents skips h
    cases h
    exact .nil _ _
  | cons d rest ih =>
    intro sequence budget intents skips h
    rw [place] at h
    by_cases hfull : c.maximumOrders ≤ sequence
    · rw [if_pos hfull, bind_eq_ok] at h
      obtain ⟨later, hlater, hdone⟩ := h
      cases hdone
      exact .skip (ih hlater)
    rw [if_neg hfull] at h
    cases hside : d.side with
    | buy =>
      simp only [hside] at h
      by_cases hsmall : (minDecimal d.notional budget).value < c.minimumOrderNotional.value
      · rw [if_pos hsmall, bind_eq_ok] at h
        obtain ⟨later, hlater, hdone⟩ := h
        cases hdone
        exact .skip (ih hlater)
      · rw [if_neg hsmall, bind_eq_ok] at h
        obtain ⟨i, hintent, h⟩ := h
        rw [bind_eq_ok] at h
        obtain ⟨later, hlater, hdone⟩ := h
        cases hdone
        exact .buy hside (not_le.1 hfull) (not_lt.1 hsmall) (intentOf_spec hintent) (ih hlater)
    | sell =>
      simp only [hside] at h
      cases hposition : (r.positionsBySymbol.get? d.symbol).filter
          fun p => decide (0 < p.quantity.value) with
      | none =>
        rw [hposition, bind_eq_ok] at h
        obtain ⟨later, hlater, hdone⟩ := h
        cases hdone
        exact .skip (ih hlater)
      | some position =>
        obtain ⟨hget, hheld⟩ := Option.filter_eq_some_iff.1 hposition
        rw [hposition, bind_eq_ok] at h
        obtain ⟨quantity, hquantity, h⟩ := h
        by_cases hzero : quantity.value ≤ 0
        · rw [if_pos hzero, bind_eq_ok] at h
          obtain ⟨later, hlater, hdone⟩ := h
          cases hdone
          exact .skip (ih hlater)
        · rw [if_neg hzero, bind_eq_ok] at h
          obtain ⟨i, hintent, h⟩ := h
          rw [bind_eq_ok] at h
          obtain ⟨later, hlater, hdone⟩ := h
          cases hdone
          exact .sell hside (not_le.1 hfull) hget (of_decide_eq_true hheld) hquantity
            (intentOf_spec hintent) (ih hlater)

/-! ## What a plan keeps -/

namespace Placed

variable {hexdigest : String → String} {sequence : Nat} {budget : Decimal} {deltas : List Delta}
  {intents : List OrderIntent}

theorem rows (h : Placed c r hexdigest sequence budget deltas intents) :
    (intents.map fun i => (i.side, i.symbol)).Sublist (deltas.map fun d => (d.side, d.symbol)) := by
  induction h with
  | nil => exact List.Sublist.refl _
  | skip _ ih => exact ih.cons _
  | buy _ _ _ hintent _ ih =>
    rw [List.map_cons, List.map_cons, hintent.side_eq, hintent.symbol_eq]
    exact ih.cons_cons _
  | sell _ _ _ _ _ hintent _ ih =>
    rw [List.map_cons, List.map_cons, hintent.side_eq, hintent.symbol_eq]
    exact ih.cons_cons _

theorem sequences (h : Placed c r hexdigest sequence budget deltas intents) :
    intents.map (·.sequence) = List.range' sequence intents.length := by
  induction h with
  | nil => rfl
  | skip _ ih => exact ih
  | buy _ _ _ hintent _ ih =>
    rw [List.map_cons, ih, hintent.sequence_eq, List.length_cons, List.range'_succ]
  | sell _ _ _ _ _ hintent _ ih =>
    rw [List.map_cons, ih, hintent.sequence_eq, List.length_cons, List.range'_succ]

theorem length_le (h : Placed c r hexdigest sequence budget deltas intents)
    (hsequence : sequence ≤ c.maximumOrders) : sequence + intents.length ≤ c.maximumOrders := by
  induction h with
  | nil => simpa using hsequence
  | skip _ ih => exact ih hsequence
  | buy _ hroom _ _ _ ih =>
    have hrest := ih hroom
    rw [List.length_cons]
    omega
  | sell _ hroom _ _ _ _ _ ih =>
    have hrest := ih hroom
    rw [List.length_cons]
    omega

/-- Every intent comes from a row: a buy of what the budget permits, or a sell out of a position. -/
theorem origin (h : Placed c r hexdigest sequence budget deltas intents) {i : OrderIntent}
    (hi : i ∈ intents) : ∃ d ∈ deltas, ∃ n amount, IsIntent r hexdigest n d amount i ∧
      ((d.side = .buy ∧ ∃ b : Decimal, amount = .notional (minDecimal d.notional b) ∧
          c.minimumOrderNotional.value ≤ (minDecimal d.notional b).value) ∨
        (d.side = .sell ∧ ∃ position quantity, amount = .quantity quantity ∧
          r.positionsBySymbol.get? d.symbol = some position ∧ 0 < position.quantity.value ∧
          sellQuantity position d = .ok quantity)) := by
  induction h with
  | nil => cases hi
  | skip _ ih =>
    obtain ⟨d, hd, horigin⟩ := ih hi
    exact ⟨d, List.mem_cons_of_mem _ hd, horigin⟩
  | buy hside _ hminimum hintent _ ih =>
    rcases List.mem_cons.1 hi with rfl | hi
    · exact ⟨_, List.mem_cons_self, _, _, hintent, Or.inl ⟨hside, _, rfl, hminimum⟩⟩
    · obtain ⟨d, hd, horigin⟩ := ih hi
      exact ⟨d, List.mem_cons_of_mem _ hd, horigin⟩
  | sell hside _ hposition hheld hquantity hintent _ ih =>
    rcases List.mem_cons.1 hi with rfl | hi
    · exact ⟨_, List.mem_cons_self, _, _, hintent,
        Or.inr ⟨hside, _, _, rfl, hposition, hheld, hquantity⟩⟩
    · obtain ⟨d, hd, horigin⟩ := ih hi
      exact ⟨d, List.mem_cons_of_mem _ hd, horigin⟩

end Placed

/-- The fraction by which one rounding changes a number at most. -/
def unitRoundoff : ℚ := Decimal.roundoff contextPrecision

theorem unitRoundoff_nonneg : 0 ≤ unitRoundoff := Decimal.roundoff_nonneg _

theorem unitRoundoff_le_one : unitRoundoff ≤ 1 := Decimal.roundoff_le_one _

theorem precision_pos : 0 < contextPrecision := by decide

def buys (intents : List OrderIntent) : List OrderIntent := intents.filter fun i => i.side = .buy

/-- What the buys of a plan are worth. -/
def buyTotal (intents : List OrderIntent) : ℚ := ((buys intents).map (·.worth)).sum

/-- The buys take the budget, up to one rounding for each of them. -/
theorem Placed.buyTotal_le {hexdigest : String → String} {sequence : Nat} {budget : Decimal}
    {deltas : List Delta} {intents : List OrderIntent}
    (h : Placed c r hexdigest sequence budget deltas intents) (hbudget : 0 ≤ budget.value) :
    buyTotal intents ≤ budget.value * (1 + unitRoundoff) ^ (buys intents).length := by
  have hu := unitRoundoff_nonneg
  induction h with
  | nil => simpa [buyTotal, buys] using hbudget
  | skip _ ih => exact ih hbudget
  | @buy sequence budget d rest i intents hside _ _ hintent _ ih =>
    set permitted := minDecimal d.notional budget
    have hpositive : 0 < permitted.value := by
      have hpos := i.amount_pos
      rw [hintent.amount_eq] at hpos
      exact hpos
    have hworth : i.worth = permitted.value := by
      unfold OrderIntent.worth
      rw [hintent.amount_eq]
    have hle : permitted.value ≤ budget.value := minDecimal_le_right _ _
    have hleft := Approximates.sub_of_le precision_pos hle
    have hnonneg := hleft.nonneg unitRoundoff_le_one (sub_nonneg.2 hle)
    have hbuys : buys (i :: intents) = i :: buys intents := by
      unfold buys
      rw [List.filter_cons_of_pos]
      rw [hintent.side_eq, hside]
      rfl
    have hpow : 1 ≤ (1 + unitRoundoff) ^ ((buys intents).length + 1) := one_le_pow₀ (by linarith)
    unfold buyTotal
    rw [hbuys, List.map_cons, List.sum_cons, List.length_cons, hworth]
    have hrest := ih hnonneg
    calc permitted.value + buyTotal intents
        ≤ permitted.value + (Decimal.sub contextPrecision budget permitted).value *
            (1 + unitRoundoff) ^ (buys intents).length := by linarith
      _ ≤ permitted.value + (budget.value - permitted.value) * (1 + unitRoundoff) ^ 1 *
            (1 + unitRoundoff) ^ (buys intents).length := by
          have hup := mul_le_mul_of_nonneg_right hleft.2
            (pow_nonneg (show 0 ≤ 1 + unitRoundoff by linarith) (buys intents).length)
          exact add_le_add le_rfl hup
      _ = permitted.value + (budget.value - permitted.value) *
            (1 + unitRoundoff) ^ ((buys intents).length + 1) := by ring
      _ ≤ permitted.value * (1 + unitRoundoff) ^ ((buys intents).length + 1) +
            (budget.value - permitted.value) *
              (1 + unitRoundoff) ^ ((buys intents).length + 1) := by
          have hgrown := mul_le_mul_of_nonneg_left hpow hpositive.le
          rw [mul_one] at hgrown
          exact add_le_add hgrown le_rfl
      _ = budget.value * (1 + unitRoundoff) ^ ((buys intents).length + 1) := by ring
  | @sell sequence budget d rest i intents position quantity hside _ _ _ _ hintent _ ih =>
    have hbuys : buys (i :: intents) = buys intents := by
      unfold buys
      rw [List.filter_cons_of_neg]
      rw [hintent.side_eq, hside]
      simp
    unfold buyTotal
    rw [hbuys]
    exact ih hbudget

/-! ## Client order IDs -/

theorem length_padded {width n : Nat} (hwidth : 0 < width) (h : n < 10 ^ width) :
    (padded width n).length = width := by
  have hdigits : (Nat.toDigits 10 n).length ≤ width :=
    (Nat.length_toDigits_le_iff (by decide) hwidth).2 h
  rw [padded, List.length_append, List.length_replicate]
  omega

theorem length_clientOrderIdPrefix_le (hexdigest : String → String) (date : SessionDate)
    (decisionId symbol : String) (side : Side) :
    (clientOrderIdPrefix hexdigest date decisionId symbol side).length ≤ 36 := by
  have hdate : date.chars.length = 8 := by
    have hyear := length_padded (n := date.year) (show 0 < 4 by decide) date.year_lt
    have hmonth := length_padded (n := date.month) (show 0 < 2 by decide)
      (date.month_le.trans_lt (by decide))
    have hday := length_padded (n := date.day) (show 0 < 2 by decide)
      (date.day_le.trans_lt (by decide))
    rw [SessionDate.chars, List.length_append, List.length_append, hyear, hmonth, hday]
  have hletters : (if (symbol.toList.filter isSymbolChar).take 10 = [] then ['A', 'S', 'S', 'E', 'T']
      else (symbol.toList.filter isSymbolChar).take 10).length ≤ 10 := by
    split
    · decide
    · exact List.length_take_le _ _
  have hdigest := List.length_take_le 10 (hexdigest decisionId).toList
  simp only [clientOrderIdPrefix, List.length_append, List.length_cons, List.length_nil, hdate]
  omega

/-- Up to 11 digits the sequence number is not cut. -/
theorem length_padded_le {n : Nat} (h : n < 10 ^ 11) : (padded 2 n).length ≤ 11 := by
  have hdigits : (Nat.toDigits 10 n).length ≤ 11 :=
    (Nat.length_toDigits_le_iff (by decide) (by decide)).2 h
  rw [padded, List.length_append, List.length_replicate]
  omega

/-- The last dash separates the sequence number. -/
theorem padded_eq_of_append_eq {p q : List Char} {m n : Nat}
    (h : p ++ '-' :: padded 2 m = q ++ '-' :: padded 2 n) : m = n := by
  have hreverse (p : List Char) (m : Nat) :
      ((p ++ '-' :: padded 2 m).reverse.takeWhile Char.isDigit).reverse = padded 2 m := by
    have hdigits : ∀ c ∈ (padded 2 m).reverse, c.isDigit = true := fun c hc =>
      isDigit_of_mem_padded (List.mem_reverse.1 hc)
    rw [List.reverse_append, List.reverse_cons, List.append_assoc, List.singleton_append,
      List.takeWhile_append_of_pos hdigits, List.takeWhile_cons_of_neg (by decide), List.append_nil,
      List.reverse_reverse]
  have htext : padded 2 m = padded 2 n := by rw [← hreverse p m, h, hreverse q n]
  rw [← ofDigitChars_padded 2 m, htext, ofDigitChars_padded]

theorem deterministicClientOrderId_injective {hexdigest : String → String} {date : SessionDate}
    {decisionId symbol symbol' : String} {side side' : Side} {m n : Nat} (hm : m < 10 ^ 11)
    (hn : n < 10 ^ 11)
    (h : deterministicClientOrderId hexdigest date decisionId symbol side m =
      deterministicClientOrderId hexdigest date decisionId symbol' side' n) : m = n := by
  have huncut (symbol : String) (side : Side) {k : Nat} (hk : k < 10 ^ 11) :
      (clientOrderIdPrefix hexdigest date decisionId symbol side ++ '-' :: padded 2 k).take 48 =
        clientOrderIdPrefix hexdigest date decisionId symbol side ++ '-' :: padded 2 k := by
    apply List.take_of_length_le
    have hprefix := length_clientOrderIdPrefix_le hexdigest date decisionId symbol side
    have hsequence := length_padded_le hk
    rw [List.length_append, List.length_cons]
    omega
  have hchars := String.ofList_injective h
  rw [huncut symbol side hm, huncut symbol' side' hn] at hchars
  exact padded_eq_of_append_eq hchars

/-! ## The budget -/

/-- The exact notional of the open buys. -/
def reservedNotional (r : PlanRequest) : ℚ :=
  (r.openBuys.map fun o => (o.requestedNotional.getD (.ofInt 0)).value).sum

theorem requested_value_nonneg (o : OpenOrder) :
    0 ≤ (o.requestedNotional.getD (.ofInt 0)).value := by
  cases hrequested : o.requestedNotional with
  | none => simp
  | some notional => exact o.requested_nonneg notional hrequested

theorem reservedNotional_nonneg (r : PlanRequest) : 0 ≤ reservedNotional r := by
  apply List.sum_nonneg
  intro x hx
  obtain ⟨o, -, rfl⟩ := List.mem_map.1 hx
  exact requested_value_nonneg o

theorem reservedOpenBuys_approximates (r : PlanRequest) :
    Approximates unitRoundoff r.openBuys.length r.reservedOpenBuys.value (reservedNotional r) := by
  have hitems : List.Forall₂
      (fun (d : Decimal) (y : ℚ) => 0 ≤ y ∧ Approximates (Decimal.roundoff contextPrecision) 0 d.value y)
      (r.openBuys.map fun o => o.requestedNotional.getD (.ofInt 0))
      (r.openBuys.map fun o => (o.requestedNotional.getD (.ofInt 0)).value) := by
    rw [List.forall₂_map_left_iff, List.forall₂_map_right_iff, List.forall₂_same]
    exact fun o _ => ⟨requested_value_nonneg o, Approximates.refl _⟩
  have hstart : Approximates (Decimal.roundoff contextPrecision) 0 (Decimal.ofInt 0).value 0 := by
    rw [Decimal.value_ofInt, Int.cast_zero]
    exact Approximates.refl 0
  have htotal := Approximates.total precision_pos hitems le_rfl hstart
  rw [zero_add, zero_add, List.length_map] at htotal
  exact htotal

/-- The cash a plan may spend, in exact arithmetic. -/
def spendable (c : OrderPlanner) (r : PlanRequest) : ℚ :=
  r.account.cash.value - r.account.equity.value * c.requiredCashBuffer.value - reservedNotional r

/-- What `roundings` roundings change in the amounts the budget is computed from. -/
def budgetSlack (c : OrderPlanner) (r : PlanRequest) (roundings : Nat) : ℚ :=
  ((1 + unitRoundoff) ^ roundings - 1) *
    (r.account.cash.value + r.account.equity.value * c.requiredCashBuffer.value +
      reservedNotional r)

theorem buyBudget_nonneg (c : OrderPlanner) (r : PlanRequest) : 0 ≤ (c.buyBudget r).value := by
  unfold buyBudget maxDecimal
  split
  · next hpos => simpa using hpos.le
  · simp

/-- A budget that is not zero is the spendable cash up to roundings. -/
theorem buyBudget_le (hpos : 0 < (c.buyBudget r).value) (n : Nat) :
    (c.buyBudget r).value * (1 + unitRoundoff) ^ n ≤
      spendable c r + budgetSlack c r (n + r.openBuys.length + 2) := by
  set cash := r.account.cash.value
  set buffer := r.account.equity.value * c.requiredCashBuffer.value
  set bufferText := Decimal.mul contextPrecision r.account.equity c.requiredCashBuffer
  set first := Decimal.sub contextPrecision r.account.cash bufferText
  have hu := unitRoundoff_nonneg
  have hu1 := unitRoundoff_le_one
  have hbuffer : 0 ≤ buffer := mul_nonneg r.account.equity_nonneg c.buffer_nonneg
  have hmul : Approximates unitRoundoff 1 bufferText.value buffer :=
    Approximates.mul_of_nonneg precision_pos r.account.equity_nonneg c.buffer_nonneg
  have hreserved := reservedOpenBuys_approximates r
  have hreservedNonneg := hreserved.nonneg hu1 (reservedNotional_nonneg r)
  have hbufferNonneg := hmul.nonneg hu1 hbuffer
  -- The budget is positive, so both differences are.
  have hbudget : c.buyBudget r = Decimal.sub contextPrecision first r.reservedOpenBuys := by
    unfold buyBudget maxDecimal at hpos ⊢
    split at hpos
    · next hleft => exact if_pos hleft
    · simp at hpos
  rw [hbudget] at hpos ⊢
  have hsecondLt := Decimal.lt_of_sub_pos precision_pos _ _ hpos
  have hfirstLt := Decimal.lt_of_sub_pos precision_pos _ _ (hreservedNonneg.trans_lt hsecondLt)
  have hsecond := (Approximates.sub_of_le precision_pos hsecondLt.le).2
  have hfirst := (Approximates.sub_of_le precision_pos hfirstLt.le).2
  have hbase : 1 ≤ 1 + unitRoundoff := by linarith
  have hone (k : Nat) : 1 ≤ (1 + unitRoundoff) ^ k := one_le_pow₀ hbase
  have hpowNonneg (k : Nat) : 0 ≤ (1 + unitRoundoff) ^ k := zero_le_one.trans (hone k)
  have hgrow {j k : Nat} (hjk : j ≤ k) : (1 + unitRoundoff) ^ j ≤ (1 + unitRoundoff) ^ k :=
    pow_le_pow_right₀ hbase hjk
  -- Each of the three amounts is exact up to its own roundings.
  have hspent : (Decimal.sub contextPrecision first r.reservedOpenBuys).value *
      (1 + unitRoundoff) ^ n ≤
        cash * (1 + unitRoundoff) ^ (n + 2) - bufferText.value - r.reservedOpenBuys.value := by
    calc _ ≤ (first.value - r.reservedOpenBuys.value) * (1 + unitRoundoff) ^ 1 *
          (1 + unitRoundoff) ^ n := mul_le_mul_of_nonneg_right hsecond (hpowNonneg n)
      _ = first.value * (1 + unitRoundoff) ^ (n + 1) -
          r.reservedOpenBuys.value * (1 + unitRoundoff) ^ (n + 1) := by ring
      _ ≤ (cash - bufferText.value) * (1 + unitRoundoff) ^ 1 * (1 + unitRoundoff) ^ (n + 1) -
          r.reservedOpenBuys.value * 1 := by
          exact sub_le_sub (mul_le_mul_of_nonneg_right hfirst (hpowNonneg _))
            (mul_le_mul_of_nonneg_left (hone _) hreservedNonneg)
      _ = cash * (1 + unitRoundoff) ^ (n + 2) - bufferText.value * (1 + unitRoundoff) ^ (n + 2) -
          r.reservedOpenBuys.value := by ring
      _ ≤ cash * (1 + unitRoundoff) ^ (n + 2) - bufferText.value * 1 -
          r.reservedOpenBuys.value := by
          have hbufferGrown := mul_le_mul_of_nonneg_left (hone (n + 2)) hbufferNonneg
          linarith
      _ = _ := by ring
  have hcashGrown := mul_le_mul_of_nonneg_left
    (hgrow (show n + 2 ≤ n + r.openBuys.length + 2 by omega)) r.account.cash_nonneg
  have hbufferLow := (abs_le.1 (hmul.abs_sub_le hu hu1 hbuffer)).1
  have hbufferGrown := mul_le_mul_of_nonneg_right
    (hgrow (show 1 ≤ n + r.openBuys.length + 2 by omega)) hbuffer
  have hreservedLow :=
    (abs_le.1 (hreserved.abs_sub_le hu hu1 (reservedNotional_nonneg r))).1
  have hreservedGrown := mul_le_mul_of_nonneg_right
    (hgrow (show r.openBuys.length ≤ n + r.openBuys.length + 2 by omega)) (reservedNotional_nonneg r)
  unfold spendable budgetSlack
  change _ ≤ cash - buffer - reservedNotional r +
    ((1 + unitRoundoff) ^ (n + r.openBuys.length + 2) - 1) * (cash + buffer + reservedNotional r)
  change cash * _ ≤ cash * _ at hcashGrown
  linarith

/-! ## Caps and targets -/

/-- What the account allows for one order, in exact arithmetic. -/
def orderCap (c : OrderPlanner) (r : PlanRequest) : ℚ :=
  r.account.equity.value * c.maxSingleOrderFraction.value

theorem maxOrderNotional_bounds (c : OrderPlanner) (r : PlanRequest) :
    0 ≤ (c.maxOrderNotional r).value ∧
      (c.maxOrderNotional r).value ≤ orderCap c r * (1 + unitRoundoff) := by
  have hproduct := Approximates.mul_of_nonneg precision_pos r.account.equity_nonneg c.fraction_pos.le
  have hcap : 0 ≤ orderCap c r := mul_nonneg r.account.equity_nonneg c.fraction_pos.le
  refine ⟨hproduct.nonneg unitRoundoff_le_one hcap, ?_⟩
  have hup := hproduct.2
  rw [pow_one] at hup
  exact hup

/-- A sell takes no more than is held, and is worth no more than was asked for, up to a rounding. -/
theorem sellQuantity_spec {position : PositionState} {d : Delta} {quantity : Decimal}
    (h : sellQuantity position d = .ok quantity) (hheld : 0 < position.quantity.value)
    (hnotional : 0 ≤ d.notional.value) (hprice : 0 < d.price.value) :
    quantity.value ≤ position.quantity.value ∧
      quantity.value * d.price.value ≤ d.notional.value * (1 + unitRoundoff) := by
  have hquotient := Approximates.div_of_pos precision_pos hnotional hprice
  have hquotientNonneg := hquotient.nonneg unitRoundoff_le_one (div_nonneg hnotional hprice.le)
  have hsmaller : 0 ≤ (minDecimal position.quantity
      (Decimal.div contextPrecision d.notional d.price)).value := by
    unfold minDecimal
    split
    · exact hquotientNonneg
    · exact hheld.le
  have hdown := Decimal.quantizeDown_le hsmaller (require_eq_ok.1 h)
  refine ⟨hdown.trans (minDecimal_le_left _ _), ?_⟩
  have hle : quantity.value ≤ d.notional.value / d.price.value * (1 + unitRoundoff) := by
    have hup := hquotient.2
    rw [pow_one] at hup
    exact (hdown.trans (minDecimal_le_right _ _)).trans hup
  calc quantity.value * d.price.value
      ≤ d.notional.value / d.price.value * (1 + unitRoundoff) * d.price.value :=
        mul_le_mul_of_nonneg_right hle hprice.le
    _ = d.notional.value * (1 + unitRoundoff) := by
        field_simp

/-- The value moves towards the target, and past it by at most the slack. -/
def MovesToward (slack target current value : ℚ) : Prop :=
  (current < target ∧ current < value ∧ value ≤ target + slack) ∨
    (target < current ∧ value < current ∧ target - slack ≤ value)

/-- The slack of an order for the distance between a value and its target. -/
def orderSlack (target current : ℚ) : ℚ := ((1 + unitRoundoff) ^ 2 - 1) * |target - current|

section Rows

variable {weights : Dict String Decimal} {d : Delta} (hdue : Due c r weights d)
include hdue

theorem Due.notional_bounds : 0 ≤ d.notional.value ∧
    d.notional.value ≤ orderCap c r * (1 + unitRoundoff) := by
  have hcap := maxOrderNotional_bounds c r
  rw [hdue.notional_eq]
  refine ⟨?_, (minDecimal_le_right _ _).trans hcap.2⟩
  unfold minDecimal
  split
  · exact hcap.1
  · rw [absDecimal_value]
    exact abs_nonneg _

theorem Due.notional_le_abs : d.notional.value ≤ |(Decimal.sub contextPrecision
    (r.targetValue weights d.symbol) (r.currentValue d.symbol)).value| := by
  rw [hdue.notional_eq, ← absDecimal_value]
  exact minDecimal_le_left _ _

/-- A buy moves the value up to the target. -/
theorem Due.moves_buy {worth : ℚ} (hside : d.side = .buy) (hpos : 0 < worth)
    (hle : worth ≤ d.notional.value) :
    MovesToward (orderSlack (r.targetValue weights d.symbol).value (r.currentValue d.symbol).value)
      (r.targetValue weights d.symbol).value (r.currentValue d.symbol).value
      ((r.currentValue d.symbol).value + worth) := by
  set target := r.targetValue weights d.symbol
  set current := r.currentValue d.symbol
  have hdelta : 0 < (Decimal.sub contextPrecision target current).value := by
    by_contra hnot
    have hsell := hdue.side_eq
    rw [if_neg hnot, hside] at hsell
    cases hsell
  have hlt := Decimal.lt_of_sub_pos precision_pos _ _ hdelta
  have hup := (Approximates.sub_of_le precision_pos hlt.le).2
  have hworth : worth ≤ (target.value - current.value) * (1 + unitRoundoff) := by
    calc worth ≤ d.notional.value := hle
      _ ≤ |(Decimal.sub contextPrecision target current).value| := hdue.notional_le_abs
      _ = (Decimal.sub contextPrecision target current).value := abs_of_pos hdelta
      _ ≤ (target.value - current.value) * (1 + unitRoundoff) ^ 1 := hup
      _ = _ := by rw [pow_one]
  have hdistance : 0 < target.value - current.value := sub_pos.2 hlt
  left
  refine ⟨hlt, by linarith, ?_⟩
  have hone := mul_nonneg unitRoundoff_nonneg hdistance.le
  have htwo := mul_nonneg unitRoundoff_nonneg hone
  unfold orderSlack
  rw [abs_of_pos hdistance]
  calc current.value + worth
      ≤ current.value + (target.value - current.value) * (1 + unitRoundoff) := by linarith
    _ = target.value + unitRoundoff * (target.value - current.value) := by ring
    _ ≤ target.value + (2 * (unitRoundoff * (target.value - current.value)) +
          unitRoundoff * (unitRoundoff * (target.value - current.value))) := by linarith
    _ = target.value + ((1 + unitRoundoff) ^ 2 - 1) * (target.value - current.value) := by ring

/-- A sell moves the value down to the target. -/
theorem Due.moves_sell {worth : ℚ} (hside : d.side = .sell) (hpos : 0 < worth)
    (hle : worth ≤ d.notional.value * (1 + unitRoundoff)) :
    MovesToward (orderSlack (r.targetValue weights d.symbol).value (r.currentValue d.symbol).value)
      (r.targetValue weights d.symbol).value (r.currentValue d.symbol).value
      ((r.currentValue d.symbol).value - worth) := by
  set target := r.targetValue weights d.symbol
  set current := r.currentValue d.symbol
  have hu := unitRoundoff_nonneg
  have hnotpos : ¬ 0 < (Decimal.sub contextPrecision target current).value := by
    intro hdelta
    have hbuy := hdue.side_eq
    rw [if_pos hdelta, hside] at hbuy
    cases hbuy
  have hasked : 0 < d.notional.value := by
    have hproduct : 0 < d.notional.value * (1 + unitRoundoff) := hpos.trans_le hle
    exact (mul_pos_iff_of_pos_right (by linarith)).1 hproduct
  have hdelta : (Decimal.sub contextPrecision target current).value < 0 := by
    have habs := hasked.trans_le hdue.notional_le_abs
    exact lt_of_le_of_ne (not_lt.1 hnotpos) (abs_pos.1 habs)
  have hlt := Decimal.lt_of_sub_neg precision_pos _ _ hdelta
  have hdistance : 0 < current.value - target.value := sub_pos.2 hlt
  have herror := Decimal.abs_sub_sub_le precision_pos target current
  have hmagnitude : -(Decimal.sub contextPrecision target current).value ≤
      (current.value - target.value) * (1 + unitRoundoff) := by
    rw [abs_sub_comm target.value, abs_of_pos hdistance] at herror
    have hlow := (abs_le.1 herror).1
    change -(unitRoundoff * (current.value - target.value)) ≤ _ at hlow
    linarith
  have hworth : worth ≤ (current.value - target.value) * (1 + unitRoundoff) ^ 2 := by
    calc worth ≤ d.notional.value * (1 + unitRoundoff) := hle
      _ ≤ -(Decimal.sub contextPrecision target current).value * (1 + unitRoundoff) := by
          apply mul_le_mul_of_nonneg_right _ (by linarith)
          rw [← abs_of_neg hdelta]
          exact hdue.notional_le_abs
      _ ≤ (current.value - target.value) * (1 + unitRoundoff) * (1 + unitRoundoff) :=
          mul_le_mul_of_nonneg_right hmagnitude (by linarith)
      _ = _ := by ring
  right
  refine ⟨hlt, by linarith, ?_⟩
  unfold orderSlack
  rw [abs_sub_comm, abs_of_pos hdistance]
  linarith

end Rows

/-! ## The plan -/

/-- The quantity held of a symbol. -/
def heldQuantity (r : PlanRequest) (symbol : String) : ℚ :=
  match r.positionsBySymbol.get? symbol with
  | none => 0
  | some position => position.quantity.value

/-- What is held of a symbol at the reference price of an intent. -/
def heldValue (r : PlanRequest) (i : OrderIntent) : ℚ :=
  heldQuantity r i.symbol * i.referencePrice.value

/-- The same after the intent is filled at its reference price. -/
def filledValue (r : PlanRequest) (i : OrderIntent) : ℚ :=
  heldValue r i + match i.side with
    | .buy => i.worth
    | .sell => -i.worth

/-- The value the planner moves a symbol to. -/
def plannedTarget (c : OrderPlanner) (r : PlanRequest) (symbol : String) : ℚ :=
  match checkedTargets r with
  | .error _ => 0
  | .ok (weights, _) => (r.targetValue (c.scaledWeights weights).1 symbol).value

/-- Market values are those of the given prices. -/
def Valued (r : PlanRequest) : Prop :=
  ∀ p ∈ r.positions, ∀ reading, r.latestPrices.get? p.symbol = some reading →
    p.marketValue.value = p.quantity.value * reading.price.value

/-- A plan is affordable, sells what is held and moves every symbol towards its target. -/
structure SoundPlan (c : OrderPlanner) (r : PlanRequest) (intents : List OrderIntent) : Prop where
  affordable : buys intents ≠ [] → buyTotal intents + reservedNotional r ≤
    r.account.cash.value - r.account.equity.value * c.requiredCashBuffer.value +
      budgetSlack c r ((buys intents).length + r.openBuys.length + 2)
  minimum : ∀ i ∈ intents, i.side = .buy → c.minimumOrderNotional.value ≤ i.worth
  held : ∀ i ∈ intents, i.side = .sell →
    ∃ quantity, i.amount = .quantity quantity ∧ quantity.value ≤ heldQuantity r i.symbol
  capped : ∀ i ∈ intents, i.worth ≤ orderCap c r * (1 + unitRoundoff) ^ 2
  uncontested : ∀ i ∈ intents, ∀ o ∈ r.openOrders, o.nonterminal = true → o.symbol ≠ i.symbol
  symbols_nodup : (intents.map (·.symbol)).Nodup
  sells_first : intents.Pairwise fun i j => i.side = .buy → j.side = .buy
  ids_nodup : intents.length ≤ 10 ^ 11 → (intents.map (·.clientOrderId)).Nodup
  count : intents.length ≤ c.maximumOrders
  moves : ∀ i ∈ intents,
    MovesToward (orderSlack (plannedTarget c r i.symbol) (heldValue r i))
      (plannedTarget c r i.symbol) (heldValue r i) (filledValue r i)

/-- The rows of the symbols are found symbol by symbol. -/
theorem rows_symbols_sublist {weights : Dict String Decimal} {allowed : List String}
    {rows : List (Option Delta × List Skip)}
    (h : List.Forall₂ (fun symbol row => c.deltaOf r weights symbol = .ok row) allowed rows) :
    ((rows.filterMap Prod.fst).map (·.symbol)).Sublist allowed := by
  induction h with
  | nil => exact List.Sublist.refl _
  | @cons symbol row allowed rows hhead _ ih =>
    obtain ⟨delta, skips⟩ := row
    cases delta with
    | none => exact ih.cons _
    | some d =>
      show (d.symbol :: (rows.filterMap Prod.fst).map (·.symbol)).Sublist (symbol :: allowed)
      rw [(deltaOf_spec hhead).1]
      exact ih.cons_cons _

theorem nodup_of_checkedTargets {weights : Dict String Decimal} {allowed : List String}
    (h : checkedTargets r = .ok (weights, allowed)) : allowed.Nodup := by
  unfold checkedTargets at h
  obtain ⟨_, -, h⟩ := bind_eq_ok.1 h
  obtain ⟨_, -, h⟩ := bind_eq_ok.1 h
  obtain ⟨-, h⟩ := rejectIf_bind_eq_ok.1 h
  cases h
  exact nodup_sortedSet _

/-- The rows a returned plan is placed from. -/
structure Planned (c : OrderPlanner) (r : PlanRequest) (hexdigest : String → String)
    (weights : Dict String Decimal) (deltas : List Delta) (intents : List OrderIntent) : Prop where
  target_eq : ∀ symbol, plannedTarget c r symbol = (r.targetValue weights symbol).value
  due : ∀ d ∈ deltas, Due c r weights d
  nodup : (deltas.map (·.symbol)).Nodup
  sells_first : deltas.Pairwise fun d e => d.side = .buy → e.side = .buy
  placed : Placed c r hexdigest 0 (c.buyBudget r) deltas intents

theorem plan_spec {hexdigest : String → String} {intents : List OrderIntent} {skips : List Skip}
    (h : c.plan r hexdigest = .ok (intents, skips)) :
    ∃ weights deltas, Planned c r hexdigest weights deltas intents := by
  unfold plan at h
  obtain ⟨⟨weights, allowed⟩, htargets, h⟩ := bind_eq_ok.1 h
  obtain ⟨-, h⟩ := unit_bind_eq_ok.1 h
  obtain ⟨rows, hrows, h⟩ := bind_eq_ok.1 h
  obtain ⟨placed, hplaced, hdone⟩ := bind_eq_ok.1 h
  cases hdone
  have hsublist := rows_symbols_sublist (collect_eq_ok_iff.1 hrows)
  have hsorted := sortedBy_pairwise (fun d : Delta => toLex (decide (d.side = .buy), d.symbol))
    (rows.filterMap Prod.fst)
  have hperm := sortedBy_perm (fun d : Delta => toLex (decide (d.side = .buy), d.symbol))
    (rows.filterMap Prod.fst)
  refine ⟨(c.scaledWeights weights).1, orderedDeltas (rows.filterMap Prod.fst), ?_, ?_, ?_, ?_,
    place_spec hplaced⟩
  · intro symbol
    unfold plannedTarget
    rw [htargets]
  · intro d hd
    obtain ⟨⟨delta, skips⟩, hrow, rfl⟩ := List.mem_filterMap.1 (hperm.mem_iff.1 hd)
    obtain ⟨symbol, -, hof⟩ := mem_of_collect hrows hrow
    exact (deltaOf_spec hof).2
  · exact ((hperm.map _).nodup_iff).2 (hsublist.nodup (nodup_of_checkedTargets htargets))
  · apply hsorted.imp
    intro d e hle hbuy
    rcases Prod.Lex.le_iff.1 hle with hlt | ⟨heq, -⟩
    · have htrue : true < decide (e.side = .buy) := by simpa [hbuy] using hlt
      exact absurd htrue (not_lt.2 (Bool.le_true _))
    · simpa [hbuy] using heq

namespace Planned

variable {hexdigest : String → String} {weights : Dict String Decimal} {deltas : List Delta}
  {intents : List OrderIntent} (h : Planned c r hexdigest weights deltas intents)
include h

theorem affordable (hbuys : buys intents ≠ []) : buyTotal intents + reservedNotional r ≤
    r.account.cash.value - r.account.equity.value * c.requiredCashBuffer.value +
      budgetSlack c r ((buys intents).length + r.openBuys.length + 2) := by
  have htotal := h.placed.buyTotal_le (buyBudget_nonneg c r)
  have hspent : 0 < buyTotal intents := by
    apply List.sum_pos
    · intro x hx
      obtain ⟨i, -, rfl⟩ := List.mem_map.1 hx
      exact i.worth_pos
    · simpa using hbuys
  have hpositive : 0 < (c.buyBudget r).value := by
    rcases (buyBudget_nonneg c r).lt_or_eq with hpos | hzero
    · exact hpos
    · rw [← hzero, zero_mul] at htotal
      exact absurd (hspent.trans_le htotal) (lt_irrefl _)
  have hbudget := buyBudget_le hpositive (buys intents).length
  unfold spendable at hbudget
  linarith

/-- Every intent is a buy of at most the notional of its row, or a sell out of a position. -/
theorem intent_cases {i : OrderIntent} (hi : i ∈ intents) :
    ∃ d, Due c r weights d ∧ i.symbol = d.symbol ∧ i.side = d.side ∧ i.referencePrice = d.price ∧
      ((d.side = .buy ∧ c.minimumOrderNotional.value ≤ i.worth ∧ i.worth ≤ d.notional.value) ∨
        (d.side = .sell ∧ i.worth ≤ d.notional.value * (1 + unitRoundoff) ∧
          ∃ quantity, i.amount = .quantity quantity ∧
            quantity.value ≤ heldQuantity r i.symbol)) := by
  obtain ⟨d, hd, n, amount, hintent, horigin⟩ := h.placed.origin hi
  have hdue := h.due d hd
  refine ⟨d, hdue, hintent.symbol_eq, hintent.side_eq, hintent.reference_eq, ?_⟩
  rcases horigin with ⟨hside, b, rfl, hminimum⟩ | ⟨hside, position, quantity, rfl, hposition, hheld,
    hquantity⟩
  · left
    have hworth : i.worth = (minDecimal d.notional b).value := by
      unfold OrderIntent.worth
      rw [hintent.amount_eq]
    rw [hworth]
    exact ⟨hside, hminimum, minDecimal_le_left _ _⟩
  · right
    obtain ⟨hle, hworth⟩ := sellQuantity_spec hquantity hheld hdue.notional_bounds.1 hdue.price_pos
    refine ⟨hside, ?_, quantity, hintent.amount_eq, ?_⟩
    · unfold OrderIntent.worth
      rw [hintent.amount_eq, hintent.reference_eq]
      exact hworth
    · unfold heldQuantity
      rw [hintent.symbol_eq, hposition]
      exact hle

theorem minimum {i : OrderIntent} (hi : i ∈ intents) (hbuy : i.side = .buy) :
    c.minimumOrderNotional.value ≤ i.worth := by
  obtain ⟨d, -, -, hside, -, ⟨-, hminimum, -⟩ | ⟨hsell, -⟩⟩ := h.intent_cases hi
  · exact hminimum
  · rw [hside, hsell] at hbuy
    cases hbuy

theorem held {i : OrderIntent} (hi : i ∈ intents) (hsell : i.side = .sell) :
    ∃ quantity, i.amount = .quantity quantity ∧ quantity.value ≤ heldQuantity r i.symbol := by
  obtain ⟨d, -, -, hside, -, ⟨hbuy, -⟩ | ⟨-, -, hheld⟩⟩ := h.intent_cases hi
  · rw [hside, hbuy] at hsell
    cases hsell
  · exact hheld

theorem capped {i : OrderIntent} (hi : i ∈ intents) :
    i.worth ≤ orderCap c r * (1 + unitRoundoff) ^ 2 := by
  have hu := unitRoundoff_nonneg
  obtain ⟨d, hdue, -, -, -, hcases⟩ := h.intent_cases hi
  obtain ⟨hnonneg, hcap⟩ := hdue.notional_bounds
  have hgrown : d.notional.value ≤ d.notional.value * (1 + unitRoundoff) :=
    le_mul_of_one_le_right hnonneg (by linarith)
  have hworth : i.worth ≤ d.notional.value * (1 + unitRoundoff) := by
    rcases hcases with ⟨-, -, hle⟩ | ⟨-, hle, -⟩
    · exact hle.trans hgrown
    · exact hle
  calc i.worth ≤ d.notional.value * (1 + unitRoundoff) := hworth
    _ ≤ orderCap c r * (1 + unitRoundoff) * (1 + unitRoundoff) :=
        mul_le_mul_of_nonneg_right hcap (by linarith)
    _ = _ := by ring

theorem uncontested {i : OrderIntent} (hi : i ∈ intents) {o : OpenOrder} (ho : o ∈ r.openOrders)
    (hopen : o.nonterminal = true) : o.symbol ≠ i.symbol := by
  intro heq
  obtain ⟨d, hdue, hsymbol, -⟩ := h.intent_cases hi
  apply hdue.uncontested
  rw [← hsymbol, ← heq]
  exact List.mem_map_of_mem (List.mem_filter.2 ⟨ho, hopen⟩)

theorem symbols_nodup : (intents.map (·.symbol)).Nodup := by
  have hmapped := h.placed.rows.map Prod.snd
  simp only [List.map_map, Function.comp_def] at hmapped
  exact hmapped.nodup h.nodup

theorem intents_sells_first : intents.Pairwise fun i j => i.side = .buy → j.side = .buy := by
  have hdeltas : (deltas.map fun d => (d.side, d.symbol)).Pairwise
      fun x y => x.1 = .buy → y.1 = .buy := List.pairwise_map.2 h.sells_first
  exact List.pairwise_map.1 (hdeltas.sublist h.placed.rows)

/-- Sequence numbers count from zero, so they differ. -/
theorem ids_nodup (hlength : intents.length ≤ 10 ^ 11) :
    (intents.map (·.clientOrderId)).Nodup := by
  have hsequences := h.placed.sequences
  have hnodup : (intents.map (·.sequence)).Nodup := by
    rw [hsequences]
    exact List.nodup_range'
  have hbound : ∀ i ∈ intents, i.sequence < 10 ^ 11 := by
    intro i hi
    have hmem : i.sequence ∈ List.range' 0 intents.length :=
      hsequences ▸ List.mem_map_of_mem (f := (·.sequence)) hi
    have hlt := (List.mem_range'_1.1 hmem).2
    omega
  apply List.Nodup.map_on _ (List.Nodup.of_map _ hnodup)
  intro i hi j hj heq
  obtain ⟨d, -, n, amount, hi', -⟩ := h.placed.origin hi
  obtain ⟨e, -, m, amount', hj', -⟩ := h.placed.origin hj
  rw [hi'.clientOrderId_eq, hj'.clientOrderId_eq] at heq
  have hsequence := deterministicClientOrderId_injective (hbound i hi) (hbound j hj) heq
  exact List.inj_on_of_nodup_map hnodup hi hj hsequence

theorem moves (hvalued : Valued r) {i : OrderIntent} (hi : i ∈ intents) :
    MovesToward (orderSlack (plannedTarget c r i.symbol) (heldValue r i))
      (plannedTarget c r i.symbol) (heldValue r i) (filledValue r i) := by
  obtain ⟨d, hdue, hsymbol, hside, hreference, hcases⟩ := h.intent_cases hi
  have hvalue : heldValue r i = (r.currentValue d.symbol).value := by
    obtain ⟨reading, hreading, hprice⟩ := hdue.reading
    unfold heldValue heldQuantity PlanRequest.currentValue
    rw [hsymbol]
    cases hposition : r.positionsBySymbol.get? d.symbol with
    | none => simp
    | some position =>
      obtain ⟨hmem, hkey⟩ := Dict.mem_of_get?_ofValues hposition
      rw [hreference, hprice]
      apply (hvalued position hmem reading _).symm
      rw [hkey]
      exact hreading
  unfold filledValue
  rw [hvalue, hsymbol, h.target_eq]
  rcases hcases with ⟨hbuy, -, hle⟩ | ⟨hsell, hle, -⟩
  · rw [hside, hbuy]
    exact hdue.moves_buy hbuy i.worth_pos hle
  · rw [hside, hsell]
    show MovesToward _ _ _ (_ + -i.worth)
    rw [← sub_eq_add_neg]
    exact hdue.moves_sell hsell i.worth_pos hle

end Planned

/-- A returned plan is sound, whatever the targets, positions, prices and open orders are. -/
theorem plan_sound (c : OrderPlanner) (r : PlanRequest) (hexdigest : String → String)
    (hvalued : Valued r) (intents : List OrderIntent) (skips : List Skip)
    (h : c.plan r hexdigest = .ok (intents, skips)) : SoundPlan c r intents := by
  obtain ⟨weights, deltas, hplanned⟩ := plan_spec h
  have hcount := hplanned.placed.length_le (Nat.zero_le _)
  rw [zero_add] at hcount
  exact
    { affordable := hplanned.affordable
      minimum := fun i hi => hplanned.minimum hi
      held := fun i hi => hplanned.held hi
      capped := fun i hi => hplanned.capped hi
      uncontested := fun i hi o ho => hplanned.uncontested hi ho
      symbols_nodup := hplanned.symbols_nodup
      sells_first := hplanned.intents_sells_first
      ids_nodup := hplanned.ids_nodup
      count := hcount
      moves := fun i hi => hplanned.moves hvalued hi }

/-! ## A budget exceeded by a rounding -/

def standardPlanner : OrderPlanner where
  minimumOrderNotional := ⟨25, 0⟩
  maxSingleOrderFraction := ⟨20, -2⟩
  requiredCashBuffer := ⟨2, -2⟩
  maximumOrders := 20
  staleAfterSeconds := 180
  minimum_nonneg := by decide +kernel
  fraction_pos := by decide +kernel
  fraction_le := by decide +kernel
  buffer_nonneg := by decide +kernel
  buffer_lt := by decide +kernel
  maximumOrders_pos := by decide
  staleAfterSeconds_pos := by decide

/-- Three targets that are scaled to the buffer, more than the cash allows, and one position to sell. -/
def scaledRequest : PlanRequest where
  decisionId := "decision-1"
  sessionDate := ⟨2026, 1, 2, by decide, by decide, by decide⟩
  createdAt := 0
  targetWeights := [("AGG", some ⟨1, -2⟩), ("QQQ", some ⟨1, -1⟩), ("SPY", some ⟨9, -1⟩)]
  account := ⟨⟨1000000, 0⟩, ⟨300000, 0⟩, by decide +kernel, by decide +kernel⟩
  positions := [⟨"TLT", ⟨7000, 0⟩, ⟨700000, 0⟩⟩]
  latestPrices := ⟨["AGG", "QQQ", "SPY", "TLT"].map fun symbol => (symbol, ⟨⟨100, 0⟩, some 0⟩), by
    decide⟩
  universeSymbols := ["AGG", "QQQ", "SPY", "TLT"]
  openOrders := []

/-- The digest of `decision-1`. -/
def decisionDigest (_ : String) : String :=
  "e031d461072b6d47eb45e7cd0f15f0a65e717da62363d564c234d7f7e8713208"

theorem scaledRequest_valued : Valued scaledRequest := by
  intro p hp reading hreading
  obtain rfl := List.mem_singleton.1 hp
  have hprice : scaledRequest.latestPrices.get? "TLT" = some ⟨⟨100, 0⟩, some 0⟩ := rfl
  obtain rfl := Option.some.inj (hprice.symm.trans hreading)
  norm_num [Decimal.value]

theorem scaledRequest_planned :
    ∃ result, standardPlanner.plan scaledRequest decisionDigest = .ok result ∧
      (buys result.1).length = 3 ∧
      buyTotal result.1 + reservedNotional scaledRequest = 280000 + 33 / 10 ^ 24 := by
  have htotal : (standardPlanner.plan scaledRequest decisionDigest).toOption.map
      (fun result => ((buys result.1).length, buyTotal result.1 + reservedNotional scaledRequest)) =
      some (3, 280000 + 33 / 10 ^ 24) := by decide +kernel
  cases hresult : standardPlanner.plan scaledRequest decisionDigest with
  | error e =>
    rw [hresult] at htotal
    cases htotal
  | ok result =>
    rw [hresult] at htotal
    have hpair := Option.some.inj htotal
    exact ⟨result, rfl, congrArg Prod.fst hpair, congrArg Prod.snd hpair⟩

/-- Two positions with more digits than the context keeps: a quantity and a price. -/
def longDigitsRequest : PlanRequest where
  decisionId := "decision-1"
  sessionDate := ⟨2026, 1, 2, by decide, by decide, by decide⟩
  createdAt := 0
  targetWeights := [("VTI", some ⟨8, -1⟩)]
  account := ⟨⟨1000000, 0⟩, ⟨300000, 0⟩, by decide +kernel, by decide +kernel⟩
  positions :=
    [⟨"TLT", ⟨7000, 0⟩, ⟨70000000000000000000000000007, -23⟩⟩,
      ⟨"VTI", ⟨700000000000000000000000000001, -26⟩, ⟨700000000000000000000000000001, -24⟩⟩]
  latestPrices := ⟨[("TLT", ⟨⟨10000000000000000000000000001, -26⟩, some 0⟩), ("VTI", ⟨⟨100, 0⟩, some 0⟩)],
    by decide⟩
  universeSymbols := ["TLT", "VTI"]
  openOrders := []

theorem longDigitsRequest_valued : Valued longDigitsRequest := by
  intro p hp reading hreading
  simp only [longDigitsRequest, List.mem_cons, List.not_mem_nil, or_false] at hp
  rcases hp with rfl | rfl
  · have hprice : longDigitsRequest.latestPrices.get? "TLT" =
        some ⟨⟨10000000000000000000000000001, -26⟩, some 0⟩ := rfl
    obtain rfl := Option.some.inj (hprice.symm.trans hreading)
    norm_num [Decimal.value]
  · have hprice : longDigitsRequest.latestPrices.get? "VTI" = some ⟨⟨100, 0⟩, some 0⟩ := rfl
    obtain rfl := Option.some.inj (hprice.symm.trans hreading)
    norm_num [Decimal.value]

/-- The buys exceed the cash above the buffer by a fraction of 10^-22; with more digits than the
context keeps a sell exceeds the cap and a buy its target; and the sequence numbers of client order
IDs are cut behind eleven digits. -/
theorem plan_exceeds_budget :
    (∃ result, standardPlanner.plan scaledRequest decisionDigest = .ok result ∧
      Valued scaledRequest ∧ buys result.1 ≠ [] ∧
      scaledRequest.account.cash.value -
          scaledRequest.account.equity.value * standardPlanner.requiredCashBuffer.value <
        buyTotal result.1 + reservedNotional scaledRequest) ∧
      (∃ result, standardPlanner.plan longDigitsRequest decisionDigest = .ok result ∧
        Valued longDigitsRequest ∧
        (∃ i ∈ result.1, i.symbol = "TLT" ∧ orderCap standardPlanner longDigitsRequest < i.worth) ∧
        ∃ i ∈ result.1, i.symbol = "VTI" ∧ heldValue longDigitsRequest i <
          plannedTarget standardPlanner longDigitsRequest "VTI" ∧
          plannedTarget standardPlanner longDigitsRequest "VTI" < filledValue longDigitsRequest i) ∧
      deterministicClientOrderId decisionDigest scaledRequest.sessionDate "decision-1" "ABCDEFGHIJK"
          .buy 100000000000 =
        deterministicClientOrderId decisionDigest scaledRequest.sessionDate "decision-1"
          "ABCDEFGHIJL" .buy 100000000001 := by
  refine ⟨?_, ?_, by decide +kernel⟩
  · obtain ⟨result, hresult, hlength, htotal⟩ := scaledRequest_planned
    refine ⟨result, hresult, scaledRequest_valued, ?_, ?_⟩
    · intro hnone
      rw [hnone] at hlength
      cases hlength
    · rw [htotal]
      norm_num [scaledRequest, standardPlanner, Decimal.value]
  · have hplanned : (standardPlanner.plan longDigitsRequest decisionDigest).toOption.any
        (fun result => decide (
          (∃ i ∈ result.1, i.symbol = "TLT" ∧ orderCap standardPlanner longDigitsRequest < i.worth) ∧
          ∃ i ∈ result.1, i.symbol = "VTI" ∧ heldValue longDigitsRequest i <
            plannedTarget standardPlanner longDigitsRequest "VTI" ∧
            plannedTarget standardPlanner longDigitsRequest "VTI" <
              filledValue longDigitsRequest i)) = true := by decide +kernel
    cases hresult : standardPlanner.plan longDigitsRequest decisionDigest with
    | error e =>
      rw [hresult] at hplanned
      cases hplanned
    | ok result =>
      rw [hresult] at hplanned
      exact ⟨result, rfl, longDigitsRequest_valued, of_decide_eq_true hplanned⟩

theorem plan_sound_scaled :
    ∃ result, standardPlanner.plan scaledRequest decisionDigest = .ok result ∧
      SoundPlan standardPlanner scaledRequest result.1 := by
  obtain ⟨result, hresult, -⟩ := scaledRequest_planned
  exact ⟨result, hresult,
    plan_sound standardPlanner scaledRequest decisionDigest scaledRequest_valued _ _ hresult⟩

end OrderPlanner

end AdaptiveTrader.Live
