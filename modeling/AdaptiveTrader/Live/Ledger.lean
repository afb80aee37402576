import AdaptiveTrader.Foundation.Calendar
import AdaptiveTrader.Foundation.Decimal
import AdaptiveTrader.Foundation.Tables
import AdaptiveTrader.Live.OrderStates
import AdaptiveTrader.Platform.Domain

/-!
# The order ledger of the paper service

An order has one mutable row, its projection, and two append-only tables: its events, unique by
event key, and its fills, unique by fill ID. `transitionOrder` appends an event and overwrites the
projection in one transaction, provided the row still is in a state the caller allows; `recordFill`
appends a fill or finds that its ID is taken. No constraint connects the quantity of the projection
with the quantities of the fills.

Rows leave out what no operation here reads: generated row IDs, the writing run, the requested
amounts and the time an incident is written.
-/

set_option autoImplicit false

namespace AdaptiveTrader.Live

open Foundation

/-- The precision of the default decimal context. -/
def contextPrecision : Nat := 28

inductive Side
  | buy
  | sell
  deriving DecidableEq

/-- An order as the broker reports it. -/
structure BrokerOrderState where
  clientOrderId : String
  brokerOrderId : String
  symbol : String
  side : Side
  status : String
  updatedAt : Instant
  filledQuantity : Decimal
  averageFillPrice : Option Decimal
  filled_nonneg : 0 ≤ filledQuantity.value
  average_nonneg : ∀ price, averageFillPrice = some price → 0 ≤ price.value

/-- `TradeUpdate`; the event is in lower case. -/
structure TradeUpdate where
  event : String
  order : BrokerOrderState
  timestamp : Instant
  eventId : Option String
  executionId : Option String
  fillQuantity : Option Decimal
  fillPrice : Option Decimal

/-- `instant.isoformat()`: the microseconds are shown unless they are zero. -/
def isoformat (t : Instant) : String :=
  let chars := (isoChars t).dropLast
  String.ofList ((if t % 1000000 = 0 then chars.take (chars.length - 7) else chars) ++
    ['+', '0', '0', ':', '0', '0'])

/-- A text that is neither absent nor empty. -/
def nonempty (text : Option String) : Option String := text.filter fun t => decide (t ≠ "")

/-- `str` of an optional decimal. -/
def optionalText : Option Decimal → String
  | none => "None"
  | some d => d.text

namespace TradeUpdate

variable [ContentHasher]

/-- `TradeUpdate.fingerprint`. -/
def fingerprint (u : TradeUpdate) : String :=
  match nonempty u.eventId, nonempty u.executionId with
  | some eventId, _ => "event:" ++ eventId
  | none, some executionId => "execution:" ++ executionId ++ ":" ++ u.event
  | none, none => "hash:" ++ sha256Hex (.mapping [
      ("average_fill_price", .text (optionalText u.order.averageFillPrice)),
      ("broker_order_id", .text u.order.brokerOrderId),
      ("client_order_id", .text u.order.clientOrderId),
      ("event", .text u.event),
      ("filled_quantity", .text u.order.filledQuantity.text),
      ("timestamp", .text (isoformat u.timestamp))])

/-- The ID under which a fill is recorded. -/
def fillId (u : TradeUpdate) : String := (nonempty u.executionId).getD u.fingerprint

/-- The local state an update stands for. -/
def target (u : TradeUpdate) : LocalOrderState :=
  stateForBrokerStatus (if u.event = "" then u.order.status else u.event)

/-- The three forms of a fingerprint begin with a letter of their own. -/
theorem fingerprint_head (u : TradeUpdate) :
    u.fingerprint.toList.head? = some 'e' ∨ u.fingerprint.toList.head? = some 'h' := by
  unfold fingerprint
  split <;> simp [String.toList_append]

end TradeUpdate

/-! ## Tables -/

/-- A row of `broker_orders`. -/
structure BrokerOrderRow where
  brokerOrderId : Option String
  decisionId : String
  symbol : String
  state : LocalOrderState
  rawStatus : Option String
  filledQuantity : Decimal
  averageFillPrice : Option Decimal
  submissionStartedAt : Option Instant
  submittedAt : Option Instant
  lastUpdateAt : Instant
  errorCode : Option String
  errorMessage : Option String
  deriving DecidableEq

/-- A row of `order_events`. -/
structure OrderEventRow where
  clientOrderId : String
  brokerOrderId : Option String
  decisionId : String
  createdAt : Instant
  fromState : LocalOrderState
  toState : LocalOrderState
  eventType : String
  payload : List (String × Option String)
  deriving DecidableEq

/-- A row of `fill_events`. -/
structure FillEventRow where
  clientOrderId : String
  brokerOrderId : String
  decisionId : String
  createdAt : Instant
  symbol : String
  side : Side
  quantity : Decimal
  price : Decimal
  payload : List (String × Option String)
  deriving DecidableEq

/-- A row of `system_incidents`. -/
structure IncidentRow where
  runId : Option String
  incidentType : String
  severity : String
  message : String
  details : List (String × Option String)
  deriving DecidableEq

/-- The tables of orders by client order ID, events by event key and fills by fill ID, and the
incidents. -/
structure OrderTables where
  brokerOrders : Dict String BrokerOrderRow
  orderEvents : Dict String OrderEventRow
  fillEvents : Dict String FillEventRow
  systemIncidents : List IncidentRow

namespace OrderTables

/-- `AuditRepository.get_order`. -/
def getOrder (db : OrderTables) (clientOrderId : String) : Option BrokerOrderRow :=
  db.brokerOrders.get? clientOrderId

/-- `AuditRepository.has_order_event`. -/
def hasOrderEvent (db : OrderTables) (eventKey : String) : Bool := db.orderEvents.contains eventKey

/-- The fills of an order in the order they were inserted. -/
def fillsOf (db : OrderTables) (clientOrderId : String) : List FillEventRow :=
  db.fillEvents.values.filter fun fill => decide (fill.clientOrderId = clientOrderId)

/-- `AuditRepository.fill_ledger_totals`. -/
def fillLedgerTotals (db : OrderTables) (clientOrderId : String) : Decimal × Decimal :=
  let fills := db.fillsOf clientOrderId
  (Decimal.total contextPrecision (.ofInt 0) (fills.map (·.quantity)),
    Decimal.total contextPrecision (.ofInt 0)
      (fills.map fun fill => Decimal.mul contextPrecision fill.quantity fill.price))

/-- `AuditRepository.record_incident`. -/
def recordIncident (db : OrderTables) (incident : IncidentRow) : OrderTables :=
  { db with systemIncidents := db.systemIncidents ++ [incident] }

/-- The rows of other orders that carry a broker order ID. -/
def brokerOrderIdTaken (db : OrderTables) (clientOrderId : String) (brokerOrderId : Option String) :
    Bool :=
  brokerOrderId.isSome && db.brokerOrders.entries.any fun entry =>
    decide (entry.1 ≠ clientOrderId ∧ entry.2.brokerOrderId = brokerOrderId)

/-- No other order carries the broker order ID. -/
def BrokerIdFree (db : OrderTables) (clientOrderId brokerOrderId : String) : Prop :=
  ∀ id, id ≠ clientOrderId → ∀ row, db.getOrder id = some row →
    row.brokerOrderId ≠ some brokerOrderId

theorem brokerOrderIdTaken_eq_false {db : OrderTables} {clientOrderId brokerOrderId : String} :
    db.brokerOrderIdTaken clientOrderId (some brokerOrderId) = false ↔
      db.BrokerIdFree clientOrderId brokerOrderId := by
  simp only [brokerOrderIdTaken, Option.isSome_some, Bool.true_and, List.any_eq_false,
    decide_eq_true_eq, not_and]
  constructor
  · intro h id hne row hrow
    exact h (id, row) (Dict.mem_entries_iff.2 hrow) hne
  · intro h entry hentry hne
    exact h entry.1 hne entry.2 (Dict.mem_entries_iff.1 hentry)

end OrderTables

/-! ## Transitions -/

/-- The arguments of `transition_order` except the states it allows. -/
structure OrderTransition where
  clientOrderId : String
  toState : LocalOrderState
  eventType : String
  eventKey : String
  createdAt : Instant
  brokerOrderId : Option String := none
  rawStatus : Option String := none
  filledQuantity : Option Decimal := none
  averageFillPrice : Option Decimal := none
  payload : List (String × Option String) := []
  errorCode : Option String := none
  errorMessage : Option String := none

/-- The states in which the broker has an order. -/
def LocalOrderState.atBroker : LocalOrderState → Bool
  | .submitted | .accepted | .pending | .partiallyFilled | .filled => true
  | _ => false

/-- The projection after a transition: an absent broker ID, quantity or price keeps the stored one,
an absent status or error overwrites it. -/
def BrokerOrderRow.advance (row : BrokerOrderRow) (t : OrderTransition) : BrokerOrderRow where
  brokerOrderId := t.brokerOrderId <|> row.brokerOrderId
  decisionId := row.decisionId
  symbol := row.symbol
  state := t.toState
  rawStatus := t.rawStatus
  filledQuantity := t.filledQuantity.getD row.filledQuantity
  averageFillPrice := t.averageFillPrice <|> row.averageFillPrice
  submissionStartedAt :=
    if t.toState = .submissionStarted then some t.createdAt else row.submissionStartedAt
  submittedAt :=
    if t.toState.atBroker = true ∧ row.submittedAt = none then some t.createdAt else row.submittedAt
  lastUpdateAt := t.createdAt
  errorCode := t.errorCode
  errorMessage := t.errorMessage

/-- The event of a transition; an empty broker ID counts as absent. -/
def OrderTransition.event (t : OrderTransition) (row : BrokerOrderRow) : OrderEventRow where
  clientOrderId := t.clientOrderId
  brokerOrderId := nonempty t.brokerOrderId <|> row.brokerOrderId
  decisionId := row.decisionId
  createdAt := t.createdAt
  fromState := row.state
  toState := t.toState
  eventType := t.eventType
  payload := t.payload

/-- The tables after a transition of the row. -/
def OrderTables.advance (db : OrderTables) (row : BrokerOrderRow) (t : OrderTransition) :
    OrderTables :=
  { db with
    brokerOrders := db.brokerOrders.set t.clientOrderId (row.advance t)
    orderEvents := db.orderEvents.set t.eventKey (t.event row) }

/-- `AuditRepository.transition_order`. -/
def transitionOrder (t : OrderTransition) (allowedFrom : List LocalOrderState) (db : OrderTables) :
    Except LiveError (Bool × OrderTables) :=
  if db.hasOrderEvent t.eventKey = true then .ok (false, db)
  else do
    let row ← require (db.getOrder t.clientOrderId)
      (.persistence ("Unknown local order: " ++ t.clientOrderId))
    rejectIf (row.state ∉ allowedFrom)
      (.persistence ("Concurrent/invalid order transition " ++ row.state.value ++ " -> " ++
        t.toState.value))
    rejectIf (db.brokerOrderIdTaken t.clientOrderId (row.advance t).brokerOrderId = true)
      (.integrity "broker_orders.broker_order_id")
    pure (true, db.advance row t)

/-- `AuditRepository.record_fill`. -/
def recordFill [ContentHasher] (u : TradeUpdate) (source : String) (db : OrderTables) :
    Except LiveError (Bool × OrderTables) :=
  match u.fillQuantity, u.fillPrice with
  | some quantity, some price => do
      let row ← require (db.getOrder u.order.clientOrderId)
        (.persistence ("Cannot attach fill to unknown order " ++ u.order.clientOrderId))
      if db.fillEvents.contains u.fillId = true then pure (false, db)
      else
        pure (true, { db with
          fillEvents := db.fillEvents.set u.fillId {
            clientOrderId := u.order.clientOrderId
            brokerOrderId := u.order.brokerOrderId
            decisionId := row.decisionId
            createdAt := u.timestamp
            symbol := u.order.symbol
            side := u.order.side
            quantity := quantity
            price := price
            payload := [("event", some u.event), ("source", some source)] } })
  | _, _ => .ok (false, db)

/-! ## What the two writes change -/

section Writes

variable {db db' : OrderTables} {t : OrderTransition} {allowedFrom : List LocalOrderState}
  {changed : Bool}

/-- A transition finds its event recorded, or advances a row that is in an allowed state. -/
theorem transitionOrder_eq_ok :
    transitionOrder t allowedFrom db = .ok (changed, db') ↔
      (db.hasOrderEvent t.eventKey = true ∧ changed = false ∧ db' = db) ∨
        (db.hasOrderEvent t.eventKey = false ∧ ∃ row, db.getOrder t.clientOrderId = some row ∧
          row.state ∈ allowedFrom ∧
          db.brokerOrderIdTaken t.clientOrderId (row.advance t).brokerOrderId = false ∧
          changed = true ∧ db' = db.advance row t) := by
  unfold transitionOrder
  by_cases hevent : db.hasOrderEvent t.eventKey = true
  · rw [if_pos hevent]
    constructor
    · intro h
      cases h
      exact Or.inl ⟨hevent, rfl, rfl⟩
    · rintro (⟨-, rfl, rfl⟩ | ⟨hnew, -⟩)
      · rfl
      · rw [hevent] at hnew
        cases hnew
  · rw [if_neg hevent]
    simp only [bind_eq_ok, require_eq_ok, rejectIf_eq_ok, not_not, Bool.not_eq_true, pure_eq_ok,
      Prod.mk.injEq, exists_const]
    constructor
    · rintro ⟨row, hrow, hstate, hid, rfl, rfl⟩
      exact Or.inr ⟨Bool.eq_false_iff.2 hevent, row, hrow, hstate, hid, rfl, rfl⟩
    · rintro (⟨hold, -⟩ | ⟨-, row, hrow, hstate, hid, rfl, rfl⟩)
      · exact absurd hold hevent
      · exact ⟨row, hrow, hstate, hid, rfl, rfl⟩

@[simp] theorem getOrder_advance_self (db : OrderTables) (row : BrokerOrderRow)
    (t : OrderTransition) : (db.advance row t).getOrder t.clientOrderId = some (row.advance t) :=
  Dict.get?_set_self ..

theorem getOrder_advance_of_ne (db : OrderTables) (row : BrokerOrderRow) {t : OrderTransition}
    {id : String} (h : id ≠ t.clientOrderId) : (db.advance row t).getOrder id = db.getOrder id :=
  Dict.get?_set_of_ne _ _ h

theorem hasOrderEvent_advance (db : OrderTables) (row : BrokerOrderRow) (t : OrderTransition)
    (key : String) :
    (db.advance row t).hasOrderEvent key = (decide (key = t.eventKey) || db.hasOrderEvent key) := by
  simp only [OrderTables.hasOrderEvent, OrderTables.advance, Dict.contains, Dict.get?_set]
  by_cases h : key = t.eventKey <;> simp [h]

/-- A new transition of the state that was read succeeds while no other order has the broker ID. -/
theorem transitionOrder_fresh {row : BrokerOrderRow} {brokerOrderId : String}
    (hnew : db.hasOrderEvent t.eventKey = false) (hrow : db.getOrder t.clientOrderId = some row)
    (hid : t.brokerOrderId = some brokerOrderId)
    (hfree : db.BrokerIdFree t.clientOrderId brokerOrderId) :
    transitionOrder t [row.state] db = .ok (true, db.advance row t) := by
  have hbroker : (row.advance t).brokerOrderId = some brokerOrderId := by
    simp [BrokerOrderRow.advance, hid]
  refine transitionOrder_eq_ok.2 (Or.inr ⟨hnew, row, hrow, List.mem_singleton_self _, ?_, rfl, rfl⟩)
  rw [hbroker]
  exact OrderTables.brokerOrderIdTaken_eq_false.2 hfree

/-- A new transition of a row that no longer has the state that was read raises. -/
theorem transitionOrder_stale {row : BrokerOrderRow} {current : LocalOrderState}
    (hnew : db.hasOrderEvent t.eventKey = false) (hrow : db.getOrder t.clientOrderId = some row)
    (hstate : row.state ≠ current) (result : Bool × OrderTables) :
    transitionOrder t [current] db ≠ .ok result := by
  intro hok
  obtain ⟨changed, db'⟩ := result
  rcases transitionOrder_eq_ok.1 hok with ⟨hold, -⟩ | ⟨-, row', hrow', hmem, -⟩
  · exact absurd (hold.symm.trans hnew) (by decide)
  · obtain rfl : row = row' := Option.some.inj (hrow.symm.trans hrow')
    exact hstate (List.mem_singleton.1 hmem)

/-- A transition of the order leaves the broker ID to it alone. -/
theorem OrderTables.BrokerIdFree.advance {brokerOrderId : String}
    (hfree : db.BrokerIdFree t.clientOrderId brokerOrderId) (row : BrokerOrderRow) :
    (db.advance row t).BrokerIdFree t.clientOrderId brokerOrderId := by
  intro id hne other hget
  rw [getOrder_advance_of_ne db row hne] at hget
  exact hfree id hne other hget

/-- A recorded fill changes the fills only. -/
theorem recordFill_tables [ContentHasher] {u : TradeUpdate} {source : String}
    {result : Bool × OrderTables} (h : recordFill u source db = .ok result) :
    ∃ fills, result.2 = { db with fillEvents := fills } := by
  unfold recordFill at h
  split at h
  · simp only [bind_eq_ok] at h
    obtain ⟨row, -, hwritten⟩ := h
    split at hwritten
    · cases hwritten
      exact ⟨db.fillEvents, rfl⟩
    · cases hwritten
      exact ⟨_, rfl⟩
  · cases h
    exact ⟨db.fillEvents, rfl⟩

@[simp] theorem fillEvents_advance (db : OrderTables) (row : BrokerOrderRow) (t : OrderTransition) :
    (db.advance row t).fillEvents = db.fillEvents := rfl

end Writes

end AdaptiveTrader.Live
