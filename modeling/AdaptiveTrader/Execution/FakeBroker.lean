import AdaptiveTrader.Execution.Orders
import AdaptiveTrader.Foundation.Exec
import AdaptiveTrader.Foundation.Transition

/-!
# The fake paper broker

`DeterministicFakePaperBroker` answers a submission by the scenario selected for its client order ID.
The position effect of an intent is checked when it is submitted, but an order with a delayed update
stays pending and is filled by a later lookup, against the position of that moment. Quantities and
cash are exact rationals.

`Write` says once what an operation can do to the positions: it leaves each of them as it is, or it
applies one fill, of the intent it submits or of the pending order it looks up
(`FakeBrokerOperation.write`). The orders keep the terms of the intents they were accepted for
(`FakeBrokerOperation.wellFormed`).
-/

set_option autoImplicit false

namespace AdaptiveTrader

open Foundation

/-- The deterministic responses of the broker. -/
inductive FakeBrokerScenario
  | fullFill
  | partialFill
  | rejection
  | cancellation
  | expiration
  | timeoutBeforeAcceptance
  | timeoutAfterAcceptance
  | delayedUpdate
  | duplicateExecutionUpdate
  | disconnect
  | staleAccountState
  | staleSecurityMetadata
  | shortabilityChange
  deriving DecidableEq

/-- One order as the broker keeps it. -/
structure FakeOrder where
  intentHash : String
  symbol : String
  side : OrderSide
  effect : PositionEffect
  requestedQuantity : ℚ
  referencePrice : ℚ
  brokerOrderId : String
  brokerEventId : String
  state : OrderState
  cumulativeFilledQuantity : ℚ
  averageFillPrice : Option ℚ
  safeErrorCode : Option String
  createdSequence : Nat
  lastEventSequence : Nat
  createdAt : Instant
  updatedAt : Instant
  deriving DecidableEq

/-- Cash, positions, marks, orders and fills. -/
structure DeterministicFakePaperBroker where
  cash : ℚ
  initialCash : ℚ
  initialTime : Instant
  restrictedBySymbol : Dict String ℚ
  positionTable : Dict String ℚ
  marks : Dict String ℚ
  orders : Dict String FakeOrder
  fillTable : Dict String Fill
  fillSequences : Dict String Nat
  scenarios : Dict String FakeBrokerScenario
  defaultScenario : FakeBrokerScenario
  eventSequence : Nat
  observedAt : Instant

/-- `_partial_quantity`. -/
def partialQuantity (quantity : ℚ) : ℚ := if 0 < quantity / 2 then quantity / 2 else quantity

/-- The table of `_validate_effect`: whether an effect fits the position it meets. -/
def PositionEffect.fits (effect : PositionEffect) (quantity current : ℚ) : Bool :=
  match effect with
  | .openLong => current = 0
  | .increaseLong => 0 < current
  | .reduceLong => 0 < current ∧ quantity < current
  | .closeLong => 0 < current ∧ quantity = current
  | .openShort => current = 0
  | .increaseShort => current < 0
  | .reduceShort => current < 0 ∧ quantity < |current|
  | .closeShort => current < 0 ∧ quantity = |current|
  | .forcedFlatLong => 0 < current ∧ quantity ≤ current
  | .forcedFlatShort => current < 0 ∧ quantity ≤ |current|

namespace DeterministicFakePaperBroker

/-- `__init__`. -/
def create (initialTime : Instant) (initialCash : ℚ) (defaultScenario : FakeBrokerScenario) :
    Except PlatformError DeterministicFakePaperBroker := do
  rejectIf (initialCash ≤ 0)
    (.executionValidation "fake broker initial cash must be positive and finite")
  .ok { cash := initialCash, initialCash := initialCash, initialTime := initialTime,
        restrictedBySymbol := .empty, positionTable := .empty, marks := .empty, orders := .empty,
        fillTable := .empty, fillSequences := .empty, scenarios := .empty,
        defaultScenario := defaultScenario, eventSequence := 0, observedAt := initialTime }

/-- The signed position of a symbol; zero without an entry. -/
def position (b : DeterministicFakePaperBroker) (symbol : String) : ℚ :=
  (b.positionTable.get? symbol).getD 0

/-- The short proceeds restricted for a symbol. -/
def restricted (b : DeterministicFakePaperBroker) (symbol : String) : ℚ :=
  (b.restrictedBySymbol.get? symbol).getD 0

/-- The scenario selected for a client order ID. -/
def scenarioOf (b : DeterministicFakePaperBroker) (clientOrderId : String) : FakeBrokerScenario :=
  (b.scenarios.get? clientOrderId).getD b.defaultScenario

/-- `set_scenario`. -/
def setScenario (b : DeterministicFakePaperBroker) (clientOrderId : String)
    (scenario : FakeBrokerScenario) : DeterministicFakePaperBroker :=
  { b with scenarios := b.scenarios.set clientOrderId scenario }

/-- `set_mark_prices`. -/
def setMarkPrices (b : DeterministicFakePaperBroker) (prices : List (String × ℚ)) :
    Except PlatformError DeterministicFakePaperBroker := do
  rejectIf (prices.map Prod.fst ≠ sortedSet (prices.map Prod.fst))
    (.executionValidation "fake broker marks must be unique and ordered")
  rejectIf (∃ entry ∈ prices, entry.2 ≤ 0)
    (.executionValidation "fake broker marks must be positive finite Decimals")
  .ok { b with marks := prices.foldl (fun d entry => d.set entry.1 entry.2) .empty }

/-! ## Fills -/

/-- `_validate_effect`. -/
def validateEffect (b : DeterministicFakePaperBroker) (intent : OrderIntent) :
    Except PlatformError Unit :=
  rejectIf (intent.positionEffect.fits intent.quantity (b.position intent.symbol) = false)
    (.executionValidation "intent effect does not match fake broker position")

/-- Write a position. A position of zero is forgotten, with its restricted proceeds. -/
def settle (b : DeterministicFakePaperBroker) (symbol : String) (updated : ℚ) :
    DeterministicFakePaperBroker :=
  if updated = 0 then
    { b with
      positionTable := b.positionTable.erase symbol
      restrictedBySymbol := b.restrictedBySymbol.erase symbol }
  else { b with positionTable := b.positionTable.set symbol updated }

/-- A sale that does not reduce a long position restricts its proceeds. -/
def restrictedAfterSell (b : DeterministicFakePaperBroker) (fill : Fill) : Dict String ℚ :=
  if b.position fill.symbol ≤ 0 then
    b.restrictedBySymbol.set fill.symbol (b.restricted fill.symbol + fill.quantity * fill.price)
  else b.restrictedBySymbol

/-- A purchase that covers a short position releases its share of the restricted proceeds. -/
def restrictedAfterBuy (b : DeterministicFakePaperBroker) (fill : Fill) : Dict String ℚ :=
  if b.position fill.symbol < 0 then
    let released := b.restricted fill.symbol * (fill.quantity / |b.position fill.symbol|)
    let remainder := max 0 (b.restricted fill.symbol - released)
    if remainder = 0 then b.restrictedBySymbol.erase fill.symbol
    else b.restrictedBySymbol.set fill.symbol remainder
  else b.restrictedBySymbol

/-- `_apply_fill`. -/
def applyFill (b : DeterministicFakePaperBroker) (fill : Fill) :
    Except PlatformError DeterministicFakePaperBroker :=
  match fill.side with
  | .sell => do
      rejectIf (0 < b.position fill.symbol ∧ b.position fill.symbol < fill.quantity)
        (.executionValidation "one fake sell cannot cross through zero")
      .ok (({ b with
        cash := b.cash + (fill.quantity * fill.price - fill.fee)
        restrictedBySymbol := b.restrictedAfterSell fill }).settle fill.symbol
          (b.position fill.symbol - fill.quantity))
  | .buy => do
      rejectIf (b.position fill.symbol < 0 ∧ |b.position fill.symbol| < fill.quantity)
        (.executionValidation "one fake buy cannot cross through zero")
      .ok (({ b with
        cash := b.cash - (fill.quantity * fill.price + fill.fee)
        restrictedBySymbol := b.restrictedAfterBuy fill }).settle fill.symbol
          (b.position fill.symbol + fill.quantity))

/-- Keep the evidence of a fill; an execution ID that exists keeps its evidence. -/
def recordFill (b : DeterministicFakePaperBroker) (fill : Fill) (eventSequence : Nat) :
    DeterministicFakePaperBroker :=
  { b with
    fillTable := b.fillTable.setdefault fill.brokerExecutionId fill
    fillSequences := b.fillSequences.setdefault fill.brokerExecutionId eventSequence }

section Hashed

variable [ContentHasher]

/-- `_derived_id`. -/
def derivedId (pre clientOrderId : String) (sequence : Nat) : String :=
  deterministicId pre (sha256Hex (.seq [.text pre, .text clientOrderId, .int sequence]))

/-- The fill of an order: the one execution its client order ID has. -/
def fillFields (clientOrderId symbol : String) (side : OrderSide) (quantity price : ℚ)
    (occurredAt : Instant) : FillFields where
  clientOrderId := clientOrderId
  brokerExecutionId := derivedId "fake_execution" clientOrderId 1
  symbol := symbol
  side := side
  quantity := quantity
  price := price
  fee := 0
  occurredAt := occurredAt

/-- `_fill`, as `submit` and `lookup` perform it: create the fill, apply it and keep it. -/
def fill (b : DeterministicFakePaperBroker) (fields : FillFields) (eventSequence : Nat) :
    Except PlatformError (Fill × DeterministicFakePaperBroker) := do
  let fill ← Fill.create fields
  let applied ← b.applyFill fill
  pure (fill, applied.recordFill fill eventSequence)

/-! ## Operations -/

/-- `_update_from_record`: the update and its duplicate flag. -/
def updateFromRecord (clientOrderId : String) (record : FakeOrder) (observedAt : Instant)
    (fills : List Fill) (duplicate : Bool) : Except PlatformError (BrokerUpdate × Bool) :=
  validated BrokerUpdateFields.check
    { clientOrderId := clientOrderId
      brokerOrderId := record.brokerOrderId
      brokerEventId := record.brokerEventId
      state := record.state
      occurredAt := observedAt
      cumulativeFilledQuantity := record.cumulativeFilledQuantity
      averageFillPrice := record.averageFillPrice
      fills := fills
      safeErrorCode := record.safeErrorCode }
    fun h => (⟨_, h⟩, duplicate)

/-- The record of an accepted intent. -/
def acceptedOrder (b : DeterministicFakePaperBroker) (intent : OrderIntent) (submittedAt : Instant) :
    FakeOrder where
  intentHash := intent.contentHash
  symbol := intent.symbol
  side := intent.side
  effect := intent.positionEffect
  requestedQuantity := intent.quantity
  referencePrice := intent.referencePrice
  brokerOrderId := derivedId "fake_order" intent.clientOrderId (b.eventSequence + 1)
  brokerEventId := derivedId "fake_event" intent.clientOrderId (b.eventSequence + 1)
  state := .accepted
  cumulativeFilledQuantity := 0
  averageFillPrice := none
  safeErrorCode := none
  createdSequence := b.eventSequence + 1
  lastEventSequence := b.eventSequence + 1
  createdAt := submittedAt
  updatedAt := submittedAt

/-- The broker that has accepted an intent. -/
def accept (b : DeterministicFakePaperBroker) (intent : OrderIntent) (submittedAt : Instant) :
    DeterministicFakePaperBroker :=
  { b with
    eventSequence := b.eventSequence + 1
    orders := b.orders.set intent.clientOrderId (b.acceptedOrder intent submittedAt)
    marks := b.marks.set intent.symbol intent.referencePrice
    observedAt := submittedAt }

/-- Write an order back and answer with its update. -/
def respond (clientOrderId : String) (record : FakeOrder) (observedAt : Instant) (fills : List Fill)
    (duplicate : Bool) : Exec DeterministicFakePaperBroker PlatformError (BrokerUpdate × Bool) :=
  fun b => (updateFromRecord clientOrderId record observedAt fills duplicate,
    { b with orders := b.orders.set clientOrderId record })

/-- The part of `submit` behind the scenarios that refuse: validate the effect, accept, go on. -/
def accepting (intent : OrderIntent) (submittedAt : Instant)
    (next : FakeOrder → Exec DeterministicFakePaperBroker PlatformError (BrokerUpdate × Bool)) :
    Exec DeterministicFakePaperBroker PlatformError (BrokerUpdate × Bool) := fun b =>
  match b.validateEffect intent with
  | .error e => (.error e, b)
  | .ok () => next (b.acceptedOrder intent submittedAt) (b.accept intent submittedAt)

/-- The part of `submit` that fills an accepted intent; a duplicate execution is reported twice. -/
def filling (intent : OrderIntent) (submittedAt : Instant) (quantity : ℚ) (twice : Bool)
    (record : FakeOrder) : Exec DeterministicFakePaperBroker PlatformError (BrokerUpdate × Bool) :=
  fun b =>
    match b.fill (fillFields intent.clientOrderId intent.symbol intent.side quantity
        intent.referencePrice submittedAt) b.eventSequence with
    | .error e => (.error e, b)
    | .ok (fill, filled) =>
        respond intent.clientOrderId
          { record with
            cumulativeFilledQuantity := quantity
            averageFillPrice := some intent.referencePrice
            state := if quantity = intent.quantity then .filled else .partiallyFilled }
          submittedAt (if twice then [fill, fill] else [fill]) false filled

/-- A first submission, by scenario. -/
def submitNew (intent : OrderIntent) (submittedAt : Instant) :
    FakeBrokerScenario → Exec DeterministicFakePaperBroker PlatformError (BrokerUpdate × Bool)
  | .disconnect => Exec.raise (.brokerSubmissionUncertain "broker_disconnected" true)
  | .timeoutBeforeAcceptance => Exec.raise (.brokerSubmissionUncertain "submission_timeout" true)
  | .staleAccountState | .staleSecurityMetadata | .shortabilityChange =>
      Exec.raise (.executionValidation "broker safety state changed before submission")
  | .timeoutAfterAcceptance => accepting intent submittedAt fun _ =>
      Exec.raise (.brokerSubmissionUncertain "submission_timeout" true)
  | .rejection => accepting intent submittedAt fun record =>
      respond intent.clientOrderId
        { record with state := .rejected, safeErrorCode := some "fake_rejection" } submittedAt [] false
  | .cancellation => accepting intent submittedAt fun record =>
      respond intent.clientOrderId
        { record with state := .canceled, safeErrorCode := some "fake_cancellation" } submittedAt []
        false
  | .expiration => accepting intent submittedAt fun record =>
      respond intent.clientOrderId
        { record with state := .expired, safeErrorCode := some "fake_expiration" } submittedAt [] false
  | .delayedUpdate => accepting intent submittedAt fun record =>
      respond intent.clientOrderId { record with state := .pending } submittedAt [] false
  | .fullFill => accepting intent submittedAt (filling intent submittedAt intent.quantity false)
  | .duplicateExecutionUpdate =>
      accepting intent submittedAt (filling intent submittedAt intent.quantity true)
  | .partialFill =>
      accepting intent submittedAt (filling intent submittedAt (partialQuantity intent.quantity) false)

/-- `submit`. -/
def submit (intent : OrderIntent) (submittedAt : Instant) :
    Exec DeterministicFakePaperBroker PlatformError (BrokerUpdate × Bool) := fun b =>
  match b.orders.get? intent.clientOrderId with
  | some existing =>
      if existing.intentHash ≠ intent.contentHash then
        (.error (.duplicateClientOrderId "client order ID was reused"), b)
      else (updateFromRecord intent.clientOrderId existing submittedAt [] true, b)
  | none => submitNew intent submittedAt (b.scenarioOf intent.clientOrderId) b

/-- `fills`, ordered by execution ID. -/
def fills (b : DeterministicFakePaperBroker) : List Fill := b.fillTable.valuesByKey

/-- The fills `lookup` reports. -/
def fillsOf (b : DeterministicFakePaperBroker) (clientOrderId : String) : List Fill :=
  b.fills.filter fun fill => fill.clientOrderId = clientOrderId

/-- The record of a pending order after its delayed fill. -/
def filledOrder (b : DeterministicFakePaperBroker) (clientOrderId : String) (record : FakeOrder)
    (observedAt : Instant) : FakeOrder :=
  { record with
    cumulativeFilledQuantity := record.requestedQuantity
    averageFillPrice := some record.referencePrice
    state := .filled
    brokerEventId := derivedId "fake_event" clientOrderId (b.eventSequence + 1)
    lastEventSequence := b.eventSequence + 1
    updatedAt := observedAt }

/-- A pending order whose update is delayed: the next lookup fills it. -/
def IsDelayed (b : DeterministicFakePaperBroker) (clientOrderId : String) (record : FakeOrder) :
    Prop :=
  record.state = .pending ∧ b.scenarioOf clientOrderId = .delayedUpdate

instance (b : DeterministicFakePaperBroker) (clientOrderId : String) (record : FakeOrder) :
    Decidable (b.IsDelayed clientOrderId record) :=
  inferInstanceAs (Decidable (_ ∧ _))

/-- The fields of the delayed fill of an order. -/
def delayedFillFields (clientOrderId : String) (record : FakeOrder) (observedAt : Instant) :
    FillFields :=
  fillFields clientOrderId record.symbol record.side record.requestedQuantity record.referencePrice
    observedAt

/-- `lookup`. The event sequence moves on even when the delayed fill is refused. -/
def lookup (clientOrderId : String) (observedAt : Instant) :
    Exec DeterministicFakePaperBroker PlatformError (Option (BrokerUpdate × Bool)) := fun b =>
  match b.orders.get? clientOrderId with
  | none => (.ok none, b)
  | some record =>
      if b.IsDelayed clientOrderId record then
        let started := { b with eventSequence := b.eventSequence + 1 }
        match started.fill (delayedFillFields clientOrderId record observedAt)
            started.eventSequence with
        | .error e => (.error e, started)
        | .ok (_, filled) =>
            let order := b.filledOrder clientOrderId record observedAt
            let stored := { filled with
              orders := filled.orders.set clientOrderId order
              observedAt := observedAt }
            ((updateFromRecord clientOrderId order observedAt (stored.fillsOf clientOrderId) true).map
              some, stored)
      else
        ((updateFromRecord clientOrderId record observedAt (b.fillsOf clientOrderId) true).map some, b)

/-- `cancel`. -/
def cancel (clientOrderId : String) (canceledAt : Instant) :
    Exec DeterministicFakePaperBroker PlatformError (BrokerUpdate × Bool) := fun b =>
  match b.orders.get? clientOrderId with
  | none => (.error (.executionValidation "cannot cancel an unknown fake order"), b)
  | some record =>
      if record.state.terminal then
        (updateFromRecord clientOrderId record canceledAt [] true, b)
      else
        let canceled := { record with
          state := .canceled
          safeErrorCode := some "cancel_confirmed"
          brokerEventId := derivedId "fake_event" clientOrderId (b.eventSequence + 1)
          lastEventSequence := b.eventSequence + 1
          updatedAt := canceledAt }
        respond clientOrderId canceled canceledAt [] false
          { b with eventSequence := b.eventSequence + 1, observedAt := canceledAt }

end Hashed

/-! ## What the parts do -/

variable {b b' : DeterministicFakePaperBroker}

@[simp] theorem position_settle (symbol : String) (updated : ℚ) (s : String) :
    (b.settle symbol updated).position s = if s = symbol then updated else b.position s := by
  unfold settle position
  split_ifs with hzero hs hs
  · simp [Dict.get?_erase, hs, hzero]
  · simp [Dict.get?_erase, hs]
  · simp [hs]
  · simp [Dict.get?_set_of_ne _ _ hs]

@[simp] theorem orders_settle (symbol : String) (updated : ℚ) :
    (b.settle symbol updated).orders = b.orders := by
  unfold settle
  split_ifs <;> rfl

/-- The fill would carry a position from one side of zero to the other. -/
def Crosses (current : ℚ) (fill : FillFields) : Prop :=
  match fill.side with
  | .sell => 0 < current ∧ current < fill.quantity
  | .buy => current < 0 ∧ |current| < fill.quantity

/-- The positions of `b'` are those of `b` after one fill, which does not cross zero. -/
structure Moves (b : DeterministicFakePaperBroker) (fill : Fill) (b' : DeterministicFakePaperBroker) :
    Prop where
  position_eq : ∀ s, b'.position s =
    if s = fill.symbol then b.position s + fill.signedQuantity else b.position s
  not_crosses : ¬ Crosses (b.position fill.symbol) fill.toFillFields

theorem Moves.position_symbol {fill : Fill} (h : Moves b fill b') :
    b'.position fill.symbol = b.position fill.symbol + fill.signedQuantity := by
  rw [h.position_eq, if_pos rfl]

/-- A fill is refused exactly when it crosses zero. -/
theorem applyFill_isOk_iff {fill : Fill} :
    (∃ b', b.applyFill fill = .ok b') ↔ ¬ Crosses (b.position fill.symbol) fill.toFillFields := by
  unfold applyFill Crosses
  cases fill.side with
  | sell => simp only [rejectIf_bind_eq_ok, Except.ok.injEq, exists_and_left, exists_eq', and_true]
  | buy => simp only [rejectIf_bind_eq_ok, Except.ok.injEq, exists_and_left, exists_eq', and_true]

theorem applyFill_spec {fill : Fill} (h : b.applyFill fill = .ok b') :
    Moves b fill b' ∧ b'.orders = b.orders := by
  have hcrosses := applyFill_isOk_iff.1 ⟨b', h⟩
  unfold applyFill at h
  cases hside : fill.side with
  | sell =>
      simp only [hside, rejectIf_bind_eq_ok, Except.ok.injEq] at h
      obtain ⟨-, rfl⟩ := h
      refine ⟨⟨fun s => ?_, hcrosses⟩, orders_settle _ _⟩
      rw [position_settle]
      split_ifs with hs
      · rw [hs, Fill.signedQuantity, hside, if_neg (by decide), ← sub_eq_add_neg]
      · rfl
  | buy =>
      simp only [hside, rejectIf_bind_eq_ok, Except.ok.injEq] at h
      obtain ⟨-, rfl⟩ := h
      refine ⟨⟨fun s => ?_, hcrosses⟩, orders_settle _ _⟩
      rw [position_settle]
      split_ifs with hs
      · rw [hs, Fill.signedQuantity, if_pos hside]
      · rfl

theorem fill_spec {fields : FillFields} {n : Nat} {f : Fill} (h : b.fill fields n = .ok (f, b')) :
    f.toFillFields = fields ∧ Moves b f b' ∧ b'.orders = b.orders := by
  simp only [fill, bind_eq_ok, pure_eq_ok, Prod.mk.injEq] at h
  obtain ⟨f', hcreate, applied, happlied, rfl, rfl⟩ := h
  obtain ⟨⟨hposition, hcrosses⟩, horders⟩ := applyFill_spec happlied
  exact ⟨Fill.create_eq_ok hcreate, ⟨hposition, hcrosses⟩, horders⟩

/-- A valid fill that does not cross zero is applied. -/
theorem exists_fill {fields : FillFields} (hcheck : fields.check = .ok ())
    (hcrosses : ¬ Crosses (b.position fields.symbol) fields) (n : Nat) :
    ∃ w, b.fill fields n = .ok w := by
  obtain ⟨applied, happlied⟩ := (@applyFill_isOk_iff b ⟨fields, hcheck⟩).2 hcrosses
  refine ⟨(⟨fields, hcheck⟩, applied.recordFill ⟨fields, hcheck⟩ n), ?_⟩
  simp only [fill, bind_eq_ok, pure_eq_ok]
  exact ⟨_, validated_of_ok hcheck, _, happlied, rfl⟩

end DeterministicFakePaperBroker

/-! ## Orders and their terms -/

/-- What an order takes over from a validated intent. -/
structure ValidTerms (clientOrderId symbol : String) (side : OrderSide) (effect : PositionEffect)
    (quantity price : ℚ) : Prop where
  isClientOrderId : isClientOrderId clientOrderId = true
  isSymbol : isSymbol symbol = true
  quantity_pos : 0 < quantity
  price_pos : 0 < price
  side_eq : side = effect.sideAndPhase.1

def FakeOrder.Valid (clientOrderId : String) (order : FakeOrder) : Prop :=
  ValidTerms clientOrderId order.symbol order.side order.effect order.requestedQuantity
    order.referencePrice

theorem OrderIntent.validTerms (i : OrderIntent) :
    ValidTerms i.clientOrderId i.symbol i.side i.positionEffect i.quantity i.referencePrice :=
  ⟨i.isClientOrderId_clientOrderId, i.isSymbol_symbol, i.quantity_pos, i.wellFormed.2.2.2.2.2.1,
    congrArg Prod.fst i.side_phase_eq⟩

theorem partialQuantity_le {quantity : ℚ} (h : 0 < quantity) : partialQuantity quantity ≤ quantity := by
  unfold partialQuantity
  split_ifs <;> linarith

namespace DeterministicFakePaperBroker

variable [ContentHasher]

/-- Every order has valid terms. -/
def WellFormed (b : DeterministicFakePaperBroker) : Prop :=
  ∀ clientOrderId order, b.orders.get? clientOrderId = some order → order.Valid clientOrderId

omit [ContentHasher] in
theorem WellFormed.set {b b' : DeterministicFakePaperBroker} (h : WellFormed b) {id : String}
    {order : FakeOrder} (horders : b'.orders = b.orders.set id order) (hvalid : order.Valid id) :
    WellFormed b' := by
  intro k o hget
  rw [horders, Dict.get?_set] at hget
  split_ifs at hget with hk
  · obtain rfl := Option.some.inj hget
    rw [hk]
    exact hvalid
  · exact h k o hget

omit [ContentHasher] in
theorem WellFormed.of_orders_eq {b b' : DeterministicFakePaperBroker} (h : WellFormed b)
    (horders : b'.orders = b.orders) : WellFormed b' := by
  intro k o hget
  rw [horders] at hget
  exact h k o hget

/-- The fill of a pending order with valid terms is valid. -/
theorem check_delayedFillFields {clientOrderId : String} {record : FakeOrder}
    (h : record.Valid clientOrderId) (observedAt : Instant) :
    (delayedFillFields clientOrderId record observedAt).check = .ok () := by
  have hexecution : isIdentifier (derivedId "fake_execution" clientOrderId 1) = true :=
    isIdentifier_deterministicId (by decide) (isSha256_sha256Hex _)
  simp only [FillFields.check, rejectIf_bind_eq_ok, rejectIf_eq_ok, Bool.not_eq_false, not_le, not_lt]
  exact ⟨h.isClientOrderId, hexecution, h.isSymbol, h.quantity_pos, h.price_pos, le_refl _⟩

end DeterministicFakePaperBroker

/-! ## Runs -/

/-- One call on the broker. -/
inductive FakeBrokerOperation
  | setScenario (clientOrderId : String) (scenario : FakeBrokerScenario)
  | setMarkPrices (prices : List (String × ℚ))
  | submit (intent : OrderIntent) (submittedAt : Instant)
  | lookup (clientOrderId : String) (observedAt : Instant)
  | cancel (clientOrderId : String) (canceledAt : Instant)

namespace FakeBrokerOperation

open DeterministicFakePaperBroker

variable [ContentHasher]

/-- The order an operation is about. -/
def orderId : FakeBrokerOperation → Option String
  | setScenario _ _ | setMarkPrices _ => none
  | submit intent _ => some intent.clientOrderId
  | lookup id _ | cancel id _ => some id

/-- The broker after a call, which may have raised. -/
def after (b : DeterministicFakePaperBroker) : FakeBrokerOperation → DeterministicFakePaperBroker
  | setScenario id scenario => b.setScenario id scenario
  | setMarkPrices prices =>
      match b.setMarkPrices prices with
      | .ok b' => b'
      | .error _ => b
  | submit intent submittedAt => (DeterministicFakePaperBroker.submit intent submittedAt b).2
  | lookup id observedAt => (DeterministicFakePaperBroker.lookup id observedAt b).2
  | cancel id canceledAt => (DeterministicFakePaperBroker.cancel id canceledAt b).2

end FakeBrokerOperation

namespace DeterministicFakePaperBroker

variable [ContentHasher] {b b' : DeterministicFakePaperBroker}

/-- What an operation does to the positions. -/
inductive Write (b : DeterministicFakePaperBroker) :
    FakeBrokerOperation → DeterministicFakePaperBroker → Prop
  | keeps {operation : FakeBrokerOperation} {b' : DeterministicFakePaperBroker}
      (position_eq : ∀ s, b'.position s = b.position s) : Write b operation b'
  | submits {intent : OrderIntent} {submittedAt : Instant} {b' : DeterministicFakePaperBroker}
      {fill : Fill} {quantity : ℚ} {order : FakeOrder}
      (fits : intent.positionEffect.fits intent.quantity (b.position intent.symbol) = true)
      (fields : fill.toFillFields = fillFields intent.clientOrderId intent.symbol intent.side quantity
        intent.referencePrice submittedAt)
      (moves : Moves b fill b') (order_found : b'.orders.get? intent.clientOrderId = some order)
      (symbol_eq : order.symbol = intent.symbol) (effect_eq : order.effect = intent.positionEffect) :
      Write b (.submit intent submittedAt) b'
  | delivers {id : String} {observedAt : Instant} {b' : DeterministicFakePaperBroker} {fill : Fill}
      {record : FakeOrder} (record_found : b.orders.get? id = some record)
      (delayed : b.IsDelayed id record)
      (fields : fill.toFillFields = delayedFillFields id record observedAt) (moves : Moves b fill b')
      (order_found : b'.orders.get? id = some (b.filledOrder id record observedAt)) :
      Write b (.lookup id observedAt) b'

/-- The invariant of the orders and the effect on the positions, for one operation. -/
structure Ends (b : DeterministicFakePaperBroker) (operation : FakeBrokerOperation)
    (b' : DeterministicFakePaperBroker) : Prop where
  wellFormed : WellFormed b'
  write : Write b operation b'

theorem Ends.refl (hw : WellFormed b) (operation : FakeBrokerOperation) : Ends b operation b :=
  ⟨hw, .keeps fun _ => rfl⟩

/-- An operation that only writes an order back. -/
theorem Ends.of_set (hw : WellFormed b) {operation : FakeBrokerOperation} {id : String}
    {order : FakeOrder} (horders : b'.orders = b.orders.set id order)
    (hpositions : b'.positionTable = b.positionTable) (hvalid : order.Valid id) :
    Ends b operation b' :=
  ⟨hw.set horders hvalid, .keeps fun s => by rw [position, position, hpositions]⟩

theorem accepting_ends {P : DeterministicFakePaperBroker → Prop} {intent : OrderIntent}
    {submittedAt : Instant}
    {next : FakeOrder → Exec DeterministicFakePaperBroker PlatformError (BrokerUpdate × Bool)}
    (hrefused : P b)
    (hnext : intent.positionEffect.fits intent.quantity (b.position intent.symbol) = true →
      P (next (b.acceptedOrder intent submittedAt) (b.accept intent submittedAt)).2) :
    P (accepting intent submittedAt next b).2 := by
  unfold accepting
  split
  · exact hrefused
  · next hvalidate =>
      apply hnext
      simpa [validateEffect] using hvalidate

/-- An accepted intent is filled, or the fill is refused and the order stays accepted. -/
theorem filling_ends (hw : WellFormed b) {intent : OrderIntent} {submittedAt : Instant}
    (hfits : intent.positionEffect.fits intent.quantity (b.position intent.symbol) = true)
    (quantity : ℚ) (twice : Bool) :
    Ends b (.submit intent submittedAt)
      (filling intent submittedAt quantity twice (b.acceptedOrder intent submittedAt)
        (b.accept intent submittedAt)).2 := by
  have hvalid := intent.validTerms
  have haccept : WellFormed (b.accept intent submittedAt) := hw.set rfl hvalid
  unfold filling
  split
  · exact ⟨haccept, .keeps fun _ => rfl⟩
  · next fill filled hfill =>
      obtain ⟨hfields, ⟨hposition, hcrosses⟩, horders⟩ := fill_spec hfill
      refine ⟨(haccept.of_orders_eq horders).set rfl hvalid, ?_⟩
      exact .submits hfits hfields ⟨hposition, hcrosses⟩ (Dict.get?_set_self _ _ _) rfl rfl

theorem submitNew_ends (hw : WellFormed b) (intent : OrderIntent) (submittedAt : Instant)
    (scenario : FakeBrokerScenario) :
    Ends b (.submit intent submittedAt) (submitNew intent submittedAt scenario b).2 := by
  have hvalid := intent.validTerms
  have haccept : WellFormed (b.accept intent submittedAt) := hw.set rfl hvalid
  have hkept : ∀ (order : FakeOrder) (fills : List Fill) (duplicate : Bool),
      order.Valid intent.clientOrderId → Ends b (.submit intent submittedAt)
        (respond intent.clientOrderId order submittedAt fills duplicate
          (b.accept intent submittedAt)).2 := fun _ _ _ horder =>
    ⟨haccept.set rfl horder, .keeps fun _ => rfl⟩
  have hrefused := Ends.refl hw (.submit intent submittedAt)
  cases scenario with
  | disconnect => exact hrefused
  | timeoutBeforeAcceptance => exact hrefused
  | staleAccountState => exact hrefused
  | staleSecurityMetadata => exact hrefused
  | shortabilityChange => exact hrefused
  | timeoutAfterAcceptance =>
      exact accepting_ends hrefused fun _ => ⟨haccept, .keeps fun _ => rfl⟩
  | rejection => exact accepting_ends hrefused fun _ => hkept _ _ _ hvalid
  | cancellation => exact accepting_ends hrefused fun _ => hkept _ _ _ hvalid
  | expiration => exact accepting_ends hrefused fun _ => hkept _ _ _ hvalid
  | delayedUpdate => exact accepting_ends hrefused fun _ => hkept _ _ _ hvalid
  | fullFill => exact accepting_ends hrefused fun hfits => filling_ends hw hfits _ _
  | duplicateExecutionUpdate => exact accepting_ends hrefused fun hfits => filling_ends hw hfits _ _
  | partialFill => exact accepting_ends hrefused fun hfits => filling_ends hw hfits _ _

theorem submit_ends (hw : WellFormed b) (intent : OrderIntent) (submittedAt : Instant) :
    Ends b (.submit intent submittedAt) (submit intent submittedAt b).2 := by
  unfold submit
  split
  · split_ifs
    · exact Ends.refl hw _
    · exact Ends.refl hw _
  · exact submitNew_ends hw intent submittedAt _

theorem lookup_ends (hw : WellFormed b) (id : String) (observedAt : Instant) :
    Ends b (.lookup id observedAt) (lookup id observedAt b).2 := by
  unfold lookup
  split
  · exact Ends.refl hw _
  · next record hrecord =>
      have hvalid := hw id record hrecord
      split_ifs with hdelayed
      · dsimp only
        split
        · exact ⟨hw.of_orders_eq rfl, .keeps fun _ => rfl⟩
        · next fill filled hfill =>
            obtain ⟨hfields, ⟨hposition, hcrosses⟩, horders⟩ := fill_spec hfill
            refine ⟨(hw.of_orders_eq horders).set rfl hvalid, ?_⟩
            exact .delivers hrecord hdelayed hfields ⟨hposition, hcrosses⟩ (Dict.get?_set_self _ _ _)
      · exact Ends.refl hw _

theorem cancel_ends (hw : WellFormed b) (id : String) (canceledAt : Instant) :
    Ends b (.cancel id canceledAt) (cancel id canceledAt b).2 := by
  unfold cancel
  split
  · exact Ends.refl hw _
  · next record hrecord =>
      split_ifs
      · exact Ends.refl hw _
      · exact Ends.of_set hw rfl rfl (hw id record hrecord)

/-- The delayed fill of a well-formed broker is applied unless it crosses zero. -/
theorem lookup_delivers (hw : WellFormed b) {id : String} {record : FakeOrder}
    (hrecord : b.orders.get? id = some record) (hdelayed : b.IsDelayed id record)
    (observedAt : Instant)
    (hcrosses : ¬ Crosses (b.position record.symbol) (delayedFillFields id record observedAt)) :
    ∃ fill : Fill, fill.toFillFields = delayedFillFields id record observedAt ∧
      Moves b fill (lookup id observedAt b).2 ∧
      (lookup id observedAt b).2.orders.get? id = some (b.filledOrder id record observedAt) := by
  obtain ⟨⟨fill, filled⟩, hfill⟩ :=
    exists_fill (b := { b with eventSequence := b.eventSequence + 1 })
      (check_delayedFillFields (hw id record hrecord) observedAt) hcrosses (b.eventSequence + 1)
  obtain ⟨hfields, ⟨hposition, hnot⟩, -⟩ := fill_spec hfill
  refine ⟨fill, hfields, ?_⟩
  simp only [lookup, hrecord, if_pos hdelayed, hfill]
  exact ⟨⟨hposition, hnot⟩, Dict.get?_set_self _ _ _⟩

end DeterministicFakePaperBroker

namespace FakeBrokerOperation

open DeterministicFakePaperBroker

variable [ContentHasher] {b : DeterministicFakePaperBroker}

theorem after_ends (hw : WellFormed b) (operation : FakeBrokerOperation) :
    Ends b operation (operation.after b) := by
  cases operation with
  | setScenario id scenario => exact ⟨hw, .keeps fun _ => rfl⟩
  | setMarkPrices prices =>
      rw [after]
      cases hset : b.setMarkPrices prices with
      | error e => exact Ends.refl hw _
      | ok b' =>
          simp only [DeterministicFakePaperBroker.setMarkPrices, rejectIf_bind_eq_ok,
            Except.ok.injEq] at hset
          obtain ⟨-, -, rfl⟩ := hset
          exact ⟨hw, .keeps fun _ => rfl⟩
  | submit intent submittedAt => exact submit_ends hw intent submittedAt
  | lookup id observedAt => exact lookup_ends hw id observedAt
  | cancel id canceledAt => exact cancel_ends hw id canceledAt

end FakeBrokerOperation

end AdaptiveTrader
