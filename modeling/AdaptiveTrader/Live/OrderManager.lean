import AdaptiveTrader.Foundation.Exec
import AdaptiveTrader.Live.Ledger

/-!
# The order manager

The response of a submission and the trade updates of the stream both end in `transitionOrder`. Each
first reads the state of the row, validates its transition against that state, and then writes on
the condition that the row still has it. Between the read and the write other transactions may run,
so the parts of a call are definitions of their own and a whole call is their sequence.

A trade update is looked up by its fingerprint before anything else. The response has no such test:
it is validated against whatever state the stream has left.

`processTradeUpdate_ends` says what a whole call does to the tables.
-/

set_option autoImplicit false

namespace AdaptiveTrader.Live

open Foundation

section

/-! ## Submission responses -/

/-- The read of `_transition`. -/
def readForTransition (clientOrderId : String) (target : LocalOrderState) (db : OrderTables) :
    Except LiveError LocalOrderState := do
  let row ← require (db.getOrder clientOrderId)
    (.safetyViolation ("Unknown local order: " ++ clientOrderId))
  row.state.validate target
  pure row.state

/-- The transition with which `submit_intent` records the order the broker returned. -/
def submissionResponse (clientOrderId : String) (order : BrokerOrderState) : OrderTransition where
  clientOrderId := clientOrderId
  toState := stateForBrokerStatus order.status
  eventType := "broker_submission_response"
  eventKey := "submission-response:" ++ order.brokerOrderId ++ ":" ++ order.status ++ ":" ++
    order.filledQuantity.text
  createdAt := order.updatedAt
  brokerOrderId := some order.brokerOrderId
  rawStatus := some order.status
  filledQuantity := some order.filledQuantity
  averageFillPrice := order.averageFillPrice

@[simp] theorem state_advance_submissionResponse (row : BrokerOrderRow) (clientOrderId : String)
    (order : BrokerOrderState) : (row.advance (submissionResponse clientOrderId order)).state =
      stateForBrokerStatus order.status := by
  simp only [BrokerOrderRow.advance, submissionResponse]

@[simp] theorem filledQuantity_advance_submissionResponse (row : BrokerOrderRow)
    (clientOrderId : String) (order : BrokerOrderState) :
    (row.advance (submissionResponse clientOrderId order)).filledQuantity = order.filledQuantity := by
  simp only [BrokerOrderRow.advance, submissionResponse, Option.getD_some]

/-- The write of `_transition`: it allows the one state that was read. -/
def writeResponse (clientOrderId : String) (order : BrokerOrderState) (current : LocalOrderState)
    (db : OrderTables) : Except LiveError (Bool × OrderTables) :=
  transitionOrder (submissionResponse clientOrderId order) [current] db

/-! ## Trade updates -/

variable [ContentHasher]

/-- What a call has read of its order: the state and the quantity filled so far. -/
structure OrderReading where
  current : LocalOrderState
  priorFilled : Decimal

/-- The read of `process_trade_update`; nothing is read of an order that is not known. -/
def readForUpdate (u : TradeUpdate) (db : OrderTables) : Except LiveError (Option OrderReading) :=
  match db.getOrder u.order.clientOrderId with
  | none => .ok none
  | some row => do
      row.state.validate u.target
      pure (some ⟨row.state, row.filledQuantity⟩)

/-- The transition of a trade update. -/
def tradeUpdateTransition (u : TradeUpdate) : OrderTransition where
  clientOrderId := u.order.clientOrderId
  toState := u.target
  eventType := "trade_update"
  eventKey := u.fingerprint
  createdAt := u.timestamp
  brokerOrderId := some u.order.brokerOrderId
  rawStatus := some u.order.status
  filledQuantity := some u.order.filledQuantity
  averageFillPrice := u.order.averageFillPrice
  payload := [("event", some u.event), ("execution_id", u.executionId)]

@[simp] theorem state_advance_tradeUpdate (row : BrokerOrderRow) (u : TradeUpdate) :
    (row.advance (tradeUpdateTransition u)).state = u.target := by
  simp only [BrokerOrderRow.advance, tradeUpdateTransition]

@[simp] theorem filledQuantity_advance_tradeUpdate (row : BrokerOrderRow) (u : TradeUpdate) :
    (row.advance (tradeUpdateTransition u)).filledQuantity = u.order.filledQuantity := by
  simp only [BrokerOrderRow.advance, tradeUpdateTransition, Option.getD_some]

/-- The compare-and-set of `process_trade_update`. -/
def writeUpdate (u : TradeUpdate) (reading : OrderReading) (db : OrderTables) :
    Except LiveError (Bool × OrderTables) :=
  transitionOrder (tradeUpdateTransition u) [reading.current] db

/-- The quantity of the fill: what the cumulative quantity exceeds the prior one by. -/
def fillDelta (u : TradeUpdate) (reading : OrderReading) : Decimal :=
  Decimal.sub contextPrecision u.order.filledQuantity reading.priorFilled

/-- The states a fill is recorded for. -/
def LocalOrderState.fills (s : LocalOrderState) : Bool :=
  decide (s = .partiallyFilled ∨ s = .filled)

/-- The fill of a trade update that changed its order. -/
def writeFill (u : TradeUpdate) (reading : OrderReading) (changed : Bool) (db : OrderTables) :
    Except LiveError (Unit × OrderTables) :=
  if changed = true ∧ u.target.fills = true ∧ 0 < (fillDelta u reading).value ∧
      u.fillPrice.isSome = true then
    (recordFill { u with fillQuantity := some (fillDelta u reading) } "trade_update" db).map
      fun result => ((), result.2)
  else .ok ((), db)

/-- The incident of an update that no order is known for. -/
def unknownOrderIncident (runId : String) (u : TradeUpdate) : IncidentRow where
  runId := some runId
  incidentType := "fill_or_order_update_without_known_order"
  severity := "critical"
  message := "Paper trade update referenced an unknown client order ID"
  details := [("client_order_id", some u.order.clientOrderId),
    ("broker_order_id", some u.order.brokerOrderId), ("event", some u.event)]

/-- A call that has found its event new. -/
def processNewUpdate (runId : String) (u : TradeUpdate) :
    Option OrderReading → Exec OrderTables LiveError Bool
  | none => do
      Exec.modify fun db => db.recordIncident (unknownOrderIncident runId u)
      pure false
  | some reading => do
      let changed ← Exec.transaction (writeUpdate u reading)
      Exec.transaction (writeFill u reading changed)
      pure changed

/-- `OrderManager.process_trade_update`. -/
def processTradeUpdate (runId : String) (u : TradeUpdate) : Exec OrderTables LiveError Bool := do
  let seen ← Exec.read fun db => .ok (db.hasOrderEvent u.fingerprint)
  if seen = true then pure false
  else do
    let reading ← Exec.read (readForUpdate u)
    processNewUpdate runId u reading

/-! ## What a whole call does -/

/-- The tables after an update was applied to its row: the transition, and the fill if one counts. -/
def applyUpdate (u : TradeUpdate) (row : BrokerOrderRow) (db : OrderTables) : OrderTables :=
  let reading : OrderReading := ⟨row.state, row.filledQuantity⟩
  let advanced := db.advance row (tradeUpdateTransition u)
  if u.target.fills = true ∧ 0 < (fillDelta u reading).value ∧ u.fillPrice.isSome = true then
    match recordFill { u with fillQuantity := some (fillDelta u reading) } "trade_update" advanced with
    | .ok result => result.2
    | .error _ => advanced
  else advanced

/-- An update is applied when its event is new, its order known and its transition permitted, and no
other order has its broker ID. -/
structure Applies (u : TradeUpdate) (row : BrokerOrderRow) (db : OrderTables) : Prop where
  isNew : db.hasOrderEvent u.fingerprint = false
  known : db.getOrder u.order.clientOrderId = some row
  permitted : row.state.canTransition u.target = true
  brokerIdFree :
    db.brokerOrderIdTaken u.order.clientOrderId (some u.order.brokerOrderId) = false

omit [ContentHasher] in
theorem readForUpdate_eq_ok {u : TradeUpdate} {db : OrderTables} {reading : OrderReading} :
    readForUpdate u db = .ok (some reading) ↔
      ∃ row, db.getOrder u.order.clientOrderId = some row ∧
        row.state.canTransition u.target = true ∧ reading = ⟨row.state, row.filledQuantity⟩ := by
  unfold readForUpdate
  cases hrow : db.getOrder u.order.clientOrderId with
  | none => simp
  | some row =>
      simp only [bind_eq_ok, LocalOrderState.validate_eq_ok, pure_eq_ok, Option.some.injEq]
      constructor
      · rintro ⟨-, hpermitted, rfl⟩
        exact ⟨row, rfl, hpermitted, rfl⟩
      · rintro ⟨row', rfl, hpermitted, rfl⟩
        exact ⟨(), hpermitted, rfl⟩

/-- A fill of a known order is recorded or found recorded; it never raises. -/
theorem recordFill_ok_of_known {u : TradeUpdate} {source : String} {db : OrderTables}
    {row : BrokerOrderRow} (h : db.getOrder u.order.clientOrderId = some row) :
    ∃ result, recordFill u source db = .ok result := by
  unfold recordFill
  split
  · rw [h]
    by_cases hfill : db.fillEvents.contains u.fillId = true
    · exact ⟨(false, db), by simp [require, hfill, bind, Except.bind, pure, Except.pure]⟩
    · exact ⟨_, by simp only [require, hfill, bind, Except.bind, pure, Except.pure]; rfl⟩
  · exact ⟨_, rfl⟩

/-- The fill of an applied update never raises: the order is known. -/
theorem writeFill_advance (u : TradeUpdate) (row : BrokerOrderRow) (db : OrderTables) :
    writeFill u ⟨row.state, row.filledQuantity⟩ true (db.advance row (tradeUpdateTransition u)) =
      .ok ((), applyUpdate u row db) := by
  have hknown : (db.advance row (tradeUpdateTransition u)).getOrder u.order.clientOrderId =
      some (row.advance (tradeUpdateTransition u)) := getOrder_advance_self db row _
  unfold writeFill applyUpdate
  by_cases hcounts : u.target.fills = true ∧ 0 < (fillDelta u ⟨row.state, row.filledQuantity⟩).value ∧
      u.fillPrice.isSome = true
  · have hrecorded : ∃ result, recordFill
        { u with fillQuantity := some (fillDelta u ⟨row.state, row.filledQuantity⟩) }
        "trade_update" (db.advance row (tradeUpdateTransition u)) = .ok result :=
      recordFill_ok_of_known hknown
    obtain ⟨result, hresult⟩ := hrecorded
    simp only [if_pos hcounts, true_and, hresult, Except.map]
  · simp only [if_neg hcounts, true_and]

/-- A call that has found its event new applies the update or leaves orders, events and fills as
they are. -/
theorem processNewUpdate_ends (runId : String) {u : TradeUpdate} {db : OrderTables}
    {reading : Option OrderReading} (hnew : db.hasOrderEvent u.fingerprint = false)
    (hreading : readForUpdate u db = .ok reading) :
    (∃ row, Applies u row db ∧ (processNewUpdate runId u reading db).2 = applyUpdate u row db) ∨
      ∃ incidents, (processNewUpdate runId u reading db).2 =
        { db with systemIncidents := incidents } := by
  cases reading with
  | none => exact Or.inr ⟨_, rfl⟩
  | some reading =>
      obtain ⟨row, hrow, hpermitted, rfl⟩ := readForUpdate_eq_ok.1 hreading
      have hsplit : processNewUpdate runId u (some ⟨row.state, row.filledQuantity⟩) =
          Exec.andThen (Exec.transaction (writeUpdate u ⟨row.state, row.filledQuantity⟩))
            fun changed => Exec.andThen
              (Exec.transaction (writeFill u ⟨row.state, row.filledQuantity⟩ changed))
              fun _ => Exec.ret changed := rfl
      rw [hsplit]
      cases hwrite : Exec.transaction (writeUpdate u ⟨row.state, row.filledQuantity⟩) db with
      | mk outcome db' =>
          cases outcome with
          | error e =>
              refine Or.inr ⟨db.systemIncidents, ?_⟩
              rw [Exec.andThen_of_error hwrite, Exec.transaction_error hwrite]
          | ok changed =>
              rw [Exec.andThen_of_ok hwrite]
              -- The event is new, so the write advanced the row that was read.
              have hok := transitionOrder_eq_ok.1 (Exec.transaction_eq_ok_iff.1 hwrite)
              rcases hok with ⟨hold, -⟩ | ⟨-, row', hrow', -, hid, rfl, rfl⟩
              · exact absurd (hold.symm.trans hnew) (by decide)
              · obtain rfl : row = row' := Option.some.inj (hrow.symm.trans hrow')
                have hfree : db.brokerOrderIdTaken u.order.clientOrderId
                    (some u.order.brokerOrderId) = false := by
                  simpa [BrokerOrderRow.advance, tradeUpdateTransition] using hid
                have hfill := Exec.transaction_eq_ok_iff.2 (writeFill_advance u row db)
                refine Or.inl ⟨row, ⟨hnew, hrow, hpermitted, hfree⟩, ?_⟩
                have hend := Exec.andThen_of_ok (f := fun _ => Exec.ret true) hfill
                rw [hend]
                simp only [Exec.ret]

/-- A call applies the update or leaves orders, events and fills as they are. -/
theorem processTradeUpdate_ends (runId : String) (u : TradeUpdate) (db : OrderTables) :
    (∃ row, Applies u row db ∧ (processTradeUpdate runId u db).2 = applyUpdate u row db) ∨
      ∃ incidents, (processTradeUpdate runId u db).2 = { db with systemIncidents := incidents } := by
  have hsame : db = { db with systemIncidents := db.systemIncidents } := rfl
  cases hseen : db.hasOrderEvent u.fingerprint with
  | true =>
      have hend : processTradeUpdate runId u db = (.ok false, db) := by
        show (if db.hasOrderEvent u.fingerprint = true then _ else _ : Exec OrderTables LiveError Bool)
          db = _
        rw [if_pos hseen]
        rfl
      exact Or.inr ⟨db.systemIncidents, by rw [hend]⟩
  | false =>
      have hend : processTradeUpdate runId u db =
          Exec.andThen (Exec.read (readForUpdate u)) (processNewUpdate runId u) db := by
        show (if db.hasOrderEvent u.fingerprint = true then _ else _ : Exec OrderTables LiveError Bool)
          db = _
        rw [if_neg (by simp [hseen])]
        rfl
      rw [hend]
      cases hread : readForUpdate u db with
      | error e =>
          refine Or.inr ⟨db.systemIncidents, ?_⟩
          simp [Exec.andThen, Exec.read, hread]
      | ok reading =>
          simpa [Exec.andThen, Exec.read, hread] using processNewUpdate_ends runId hseen hread

end

end AdaptiveTrader.Live
