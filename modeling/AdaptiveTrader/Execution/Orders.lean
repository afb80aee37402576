import AdaptiveTrader.Execution.Models
import AdaptiveTrader.Execution.StateMachine

/-!
# Orders, order events, fills and broker updates

A `BrokerOrder` is the versioned projection of one intent. `BrokerOrder.evolve` is the only way to
change it: it follows a permitted transition, never moves its time or its cumulative fill backward
and never replaces a broker order ID (`BrokerOrder.evolve_spec`).
-/

set_option autoImplicit false

namespace AdaptiveTrader

open Foundation

/-! ## Broker orders -/

/-- The fields of an order projection. -/
structure BrokerOrderFields where
  clientOrderId : String
  orderIntentId : String
  brokerOrderId : Option String
  state : OrderState
  submittedAt : Option Instant
  acceptedAt : Option Instant
  updatedAt : Instant
  cumulativeFilledQuantity : ℚ
  averageFillPrice : Option ℚ
  lastEventSequence : Nat
  safeErrorCode : Option String
  version : Nat
  deriving DecidableEq

/-- A filled order has a positive average price, an unfilled one has none. -/
def checkAveragePrice (filled : ℚ) : Option ℚ → Except PlatformError Unit
  | some price => do
      rejectIf (price ≤ 0) (.executionValidation "average fill price must be positive")
      rejectIf (filled = 0)
        (.executionValidation "zero-filled order cannot have an average price")
  | none => rejectIf (filled ≠ 0) (.executionValidation "filled order must have an average price")

/-- An absent value needs no check. -/
def checkOptional {α : Type} (check : α → Except PlatformError Unit) :
    Option α → Except PlatformError Unit
  | none => .ok ()
  | some a => check a

def BrokerOrderFields.check (o : BrokerOrderFields) : Except PlatformError Unit := do
  rejectIf (isClientOrderId o.clientOrderId = false)
    (.executionValidation "client order ID is invalid")
  rejectIf (isContentIdOf "intent" o.orderIntentId = false)
    (.executionValidation "intent ID is invalid")
  checkOptional (fun id => rejectIf (isIdentifier id = false)
    (.executionValidation "broker order ID is invalid")) o.brokerOrderId
  rejectIf (o.cumulativeFilledQuantity < 0)
    (.executionValidation "cumulative filled quantity cannot be negative")
  checkAveragePrice o.cumulativeFilledQuantity o.averageFillPrice
  checkOptional (fun code => rejectIf (isSafeCode code = false)
    (.executionValidation "safe error or reason code is invalid")) o.safeErrorCode
  rejectIf (o.version < 1) (.executionValidation "broker order version must be positive")
  rejectIf (o.state = .intentCommitted ∧ (o.brokerOrderId ≠ none ∨ o.submittedAt ≠ none))
    (.executionValidation "committed intent cannot already contain broker state")
  rejectIf (o.acceptedAt ≠ none ∧ o.submittedAt = none)
    (.executionValidation "accepted order requires submission time")
  rejectIf (∃ a ∈ o.acceptedAt, ∃ s ∈ o.submittedAt, a < s)
    (.executionValidation "acceptance time cannot precede submission time")
  rejectIf (∃ s ∈ o.submittedAt, o.updatedAt < s)
    (.executionValidation "submission time cannot follow update time")
  rejectIf (∃ a ∈ o.acceptedAt, o.updatedAt < a)
    (.executionValidation "acceptance time cannot follow update time")

/-- Versioned durable projection of one intent's broker state. -/
structure BrokerOrder extends BrokerOrderFields where
  checked : toBrokerOrderFields.check = .ok ()
  deriving DecidableEq

/-- The arguments of a transition; an absent argument keeps the order's own value. -/
structure OrderChange where
  state : OrderState
  updatedAt : Instant
  brokerOrderId : Option String := none
  submittedAt : Option Instant := none
  acceptedAt : Option Instant := none
  cumulativeFilledQuantity : Option ℚ := none
  averageFillPrice : Option ℚ := none
  safeErrorCode : Option String := none

namespace BrokerOrder

/-- The fields of the initial projection. -/
def committedFields [ContentHasher] (intent : OrderIntent) : BrokerOrderFields where
  clientOrderId := intent.clientOrderId
  orderIntentId := intent.orderIntentId
  brokerOrderId := none
  state := .intentCommitted
  submittedAt := none
  acceptedAt := none
  updatedAt := intent.createdAt
  cumulativeFilledQuantity := 0
  averageFillPrice := none
  lastEventSequence := 0
  safeErrorCode := none
  version := 1

/-- The initial projection of an intent passes its validation. -/
theorem check_committedFields [ContentHasher] (intent : OrderIntent) :
    (committedFields intent).check = .ok () := by
  have hid : isContentIdOf "intent" intent.orderIntentId = true := by
    have hcontent : isContentId intent.orderIntentId = true :=
      isContentId_deterministicId (by decide) (isSha256_sha256Hex _)
    have hchars : intent.orderIntentId.toList =
        ("intent".toList ++ ['_']) ++ intent.contentHash.toList := by
      simp [OrderIntent.orderIntentId, deterministicId, String.toList_append]
    rw [isContentIdOf, hcontent, hchars]
    simp only [Bool.true_and, List.isPrefixOf_iff_prefix]
    exact List.prefix_append _ _
  simp [BrokerOrderFields.check, committedFields, checkAveragePrice, checkOptional, hid,
    intent.isClientOrderId_clientOrderId]

/-- `BrokerOrder.committed`. -/
def committed [ContentHasher] (intent : OrderIntent) : BrokerOrder :=
  ⟨committedFields intent, check_committedFields intent⟩

/-- The fields a transition leads to. -/
def evolvedFields (o : BrokerOrder) (change : OrderChange) : BrokerOrderFields :=
  { o.toBrokerOrderFields with
    brokerOrderId := change.brokerOrderId.or o.brokerOrderId
    state := change.state
    submittedAt := change.submittedAt.or o.submittedAt
    acceptedAt := change.acceptedAt.or o.acceptedAt
    updatedAt := change.updatedAt
    cumulativeFilledQuantity := change.cumulativeFilledQuantity.getD o.cumulativeFilledQuantity
    averageFillPrice := change.averageFillPrice.or o.averageFillPrice
    lastEventSequence := o.lastEventSequence + 1
    safeErrorCode := change.safeErrorCode
    version := o.version + 1 }

/-- `BrokerOrder.evolve`. -/
def evolve (o : BrokerOrder) (change : OrderChange) : Except PlatformError BrokerOrder := do
  validateOrderTransition o.state change.state
  rejectIf (change.updatedAt < o.updatedAt)
    (.executionValidation "order update time cannot move backward")
  rejectIf (∃ old ∈ o.brokerOrderId, ∃ new ∈ change.brokerOrderId, new ≠ old)
    (.executionValidation "broker order ID cannot change once assigned")
  rejectIf ((o.evolvedFields change).cumulativeFilledQuantity < o.cumulativeFilledQuantity)
    (.executionValidation "cumulative fill quantity cannot decrease")
  validated BrokerOrderFields.check (o.evolvedFields change) fun h => ⟨o.evolvedFields change, h⟩

section Hashed

variable [ContentHasher]

/-- The value `_broker_order_digest` hashes. -/
def payload (o : BrokerOrder) : Canonical :=
  .mapping [
    ("accepted_at", .optional .instant o.acceptedAt),
    ("average_fill_price", .optional .decimal o.averageFillPrice),
    ("broker_order_id", .optional .text o.brokerOrderId),
    ("client_order_id", .text o.clientOrderId),
    ("cumulative_filled_quantity", .decimal o.cumulativeFilledQuantity),
    ("last_event_sequence", .int o.lastEventSequence),
    ("order_intent_id", .text o.orderIntentId),
    ("safe_error_code", .optional .text o.safeErrorCode),
    ("schema", .text "broker-order-v1"),
    ("state", .text o.state.value),
    ("submitted_at", .optional .instant o.submittedAt),
    ("updated_at", .instant o.updatedAt),
    ("version", .int o.version)]

def contentHash (o : BrokerOrder) : String := sha256Hex o.payload

end Hashed

/-- Two projections with the same hashed value are equal. -/
theorem payload_injective : Function.Injective BrokerOrder.payload := by
  intro a b h
  simp only [payload, Canonical.mapping.injEq, List.cons.injEq, Prod.mk.injEq, true_and,
    Canonical.text.injEq, Canonical.decimal.injEq, Canonical.int.injEq, Canonical.instant.injEq,
    Nat.cast_inj, and_true, OrderState.value_injective.eq_iff,
    Canonical.optional_text_injective.eq_iff, Canonical.optional_decimal_injective.eq_iff,
    Canonical.optional_instant_injective.eq_iff] at h
  obtain ⟨⟨⟩, _⟩ := a
  obtain ⟨⟨⟩, _⟩ := b
  simp_all

/-- What a transition changes, and what it never does. -/
structure Evolves (o : BrokerOrder) (change : OrderChange) (n : BrokerOrder) : Prop where
  fields : n.toBrokerOrderFields = o.evolvedFields change
  permitted : transitionIsPermitted o.state change.state = true
  updatedAt_le : o.updatedAt ≤ change.updatedAt
  filled_le : o.cumulativeFilledQuantity ≤ n.cumulativeFilledQuantity
  brokerOrderId_keeps : ∀ id, o.brokerOrderId = some id → n.brokerOrderId = some id

theorem evolve_spec {o n : BrokerOrder} {change : OrderChange} (h : o.evolve change = .ok n) :
    Evolves o change n := by
  simp only [evolve, unit_bind_eq_ok, rejectIf_eq_ok, validateOrderTransition_eq_ok, not_lt] at h
  obtain ⟨hperm, htime, hid, hfill, hv⟩ := h
  obtain ⟨_, rfl⟩ := validated_eq_ok.1 hv
  refine ⟨rfl, hperm, htime, hfill, ?_⟩
  intro id hold
  show change.brokerOrderId.or o.brokerOrderId = some id
  cases hnew : change.brokerOrderId with
  | none => simp [hold]
  | some new =>
      have : new = id := by
        by_contra hne
        exact hid ⟨id, hold, new, hnew, hne⟩
      simp [this]

end BrokerOrder

/-! ## Order events -/

structure OrderEventFields where
  clientOrderId : String
  sequence : Nat
  fromState : OrderState
  toState : OrderState
  brokerEventId : Option String
  occurredAt : Instant
  safeErrorCode : Option String
  deriving DecidableEq

def OrderEventFields.check (e : OrderEventFields) : Except PlatformError Unit := do
  rejectIf (isClientOrderId e.clientOrderId = false)
    (.executionValidation "client order ID is invalid")
  rejectIf (e.sequence < 1) (.executionValidation "order event sequence must be positive")
  checkOptional (fun id => rejectIf (isIdentifier id = false)
    (.executionValidation "broker event ID is invalid")) e.brokerEventId
  checkOptional (fun code => rejectIf (isSafeCode code = false)
    (.executionValidation "safe error or reason code is invalid")) e.safeErrorCode

/-- Append-only evidence of one order transition. -/
structure OrderEvent extends OrderEventFields where
  checked : toOrderEventFields.check = .ok ()
  deriving DecidableEq

namespace OrderEvent

/-- The validation is determined by the fields. -/
theorem eq_of_fields {a b : OrderEvent} (h : a.toOrderEventFields = b.toOrderEventFields) :
    a = b := by
  cases a
  cases b
  cases h
  rfl

/-- The event between two adjacent projections. -/
def betweenFields (previous current : BrokerOrder) (brokerEventId : Option String) :
    OrderEventFields where
  clientOrderId := current.clientOrderId
  sequence := current.lastEventSequence
  fromState := previous.state
  toState := current.state
  brokerEventId := brokerEventId
  occurredAt := current.updatedAt
  safeErrorCode := current.safeErrorCode

/-- `OrderEvent.from_orders`. -/
def fromOrders (previous current : BrokerOrder) (brokerEventId : Option String) :
    Except PlatformError OrderEvent := do
  rejectIf (previous.clientOrderId ≠ current.clientOrderId)
    (.executionValidation "order event cannot cross client order IDs")
  rejectIf (current.version ≠ previous.version + 1)
    (.executionValidation "order event requires adjacent order versions")
  validated OrderEventFields.check (betweenFields previous current brokerEventId)
    fun h => ⟨betweenFields previous current brokerEventId, h⟩

section Hashed

variable [ContentHasher]

/-- The value `_order_event_digest` hashes. -/
def payload (e : OrderEvent) : Canonical :=
  .mapping [
    ("broker_event_id", .optional .text e.brokerEventId),
    ("client_order_id", .text e.clientOrderId),
    ("from_state", .text e.fromState.value),
    ("occurred_at", .instant e.occurredAt),
    ("safe_error_code", .optional .text e.safeErrorCode),
    ("schema", .text "order-event-v1"),
    ("sequence", .int e.sequence),
    ("to_state", .text e.toState.value)]

def contentHash (e : OrderEvent) : String := sha256Hex e.payload

def orderEventId (e : OrderEvent) : String := deterministicId "order_event" e.contentHash

end Hashed

theorem fromOrders_eq_ok {previous current : BrokerOrder} {brokerEventId : Option String}
    {e : OrderEvent} (h : fromOrders previous current brokerEventId = .ok e) :
    e.toOrderEventFields = betweenFields previous current brokerEventId := by
  simp only [fromOrders, rejectIf_bind_eq_ok] at h
  obtain ⟨_, rfl⟩ := validated_eq_ok.1 h.2.2
  rfl

end OrderEvent

/-! ## Fills -/

structure FillFields where
  clientOrderId : String
  brokerExecutionId : String
  symbol : String
  side : OrderSide
  quantity : ℚ
  price : ℚ
  fee : ℚ
  occurredAt : Instant
  deriving DecidableEq

def FillFields.check (f : FillFields) : Except PlatformError Unit := do
  rejectIf (isClientOrderId f.clientOrderId = false)
    (.executionValidation "client order ID is invalid")
  rejectIf (isIdentifier f.brokerExecutionId = false)
    (.executionValidation "broker execution ID is invalid")
  rejectIf (isSymbol f.symbol = false) (.executionValidation "symbol is invalid")
  rejectIf (f.quantity ≤ 0) (.executionValidation "fill quantity must be positive")
  rejectIf (f.price ≤ 0) (.executionValidation "fill price must be positive")
  rejectIf (f.fee < 0) (.executionValidation "fill fee cannot be negative")

/-- One broker execution. -/
structure Fill extends FillFields where
  checked : toFillFields.check = .ok ()
  deriving DecidableEq

namespace Fill

/-- `Fill.create`. -/
def create (fields : FillFields) : Except PlatformError Fill :=
  validated FillFields.check fields fun h => ⟨fields, h⟩

section Hashed

variable [ContentHasher]

/-- The value `_fill_digest` hashes. -/
def payload (f : Fill) : Canonical :=
  .mapping [
    ("broker_execution_id", .text f.brokerExecutionId),
    ("client_order_id", .text f.clientOrderId),
    ("fee", .decimal f.fee),
    ("occurred_at", .instant f.occurredAt),
    ("price", .decimal f.price),
    ("quantity", .decimal f.quantity),
    ("schema", .text "fill-v1"),
    ("side", .text f.side.value),
    ("symbol", .text f.symbol)]

def contentHash (f : Fill) : String := sha256Hex f.payload

end Hashed

/-- The signed change of the position: a purchase adds, a sale removes. -/
def signedQuantity (f : Fill) : ℚ := if f.side = .buy then f.quantity else -f.quantity

theorem wellFormed (f : Fill) :
    isSymbol f.symbol = true ∧ 0 < f.quantity ∧ 0 < f.price ∧ 0 ≤ f.fee := by
  have h := f.checked
  simp only [FillFields.check, rejectIf_bind_eq_ok, rejectIf_eq_ok, Bool.not_eq_false, not_le,
    not_lt] at h
  exact ⟨h.2.2.1, h.2.2.2.1, h.2.2.2.2.1, h.2.2.2.2.2⟩

theorem quantity_pos (f : Fill) : 0 < f.quantity := f.wellFormed.2.1

theorem price_pos (f : Fill) : 0 < f.price := f.wellFormed.2.2.1

theorem create_eq_ok {fields : FillFields} {f : Fill} (h : create fields = .ok f) :
    f.toFillFields = fields := by
  obtain ⟨_, rfl⟩ := validated_eq_ok.1 h
  rfl

end Fill

/-- The total quantity of some fills. -/
def totalQuantity (fills : List Fill) : ℚ := (fills.map (·.quantity)).sum

/-- The total notional of some fills. -/
def totalNotional (fills : List Fill) : ℚ := (fills.map fun f => f.quantity * f.price).sum

/-- The fill-weighted mean price; none when nothing is filled. -/
def meanPrice (fills : List Fill) : Option ℚ :=
  if totalQuantity fills = 0 then none else some (totalNotional fills / totalQuantity fills)

theorem totalQuantity_perm {l m : List Fill} (h : l.Perm m) : totalQuantity l = totalQuantity m :=
  (h.map _).sum_eq

theorem totalNotional_perm {l m : List Fill} (h : l.Perm m) : totalNotional l = totalNotional m :=
  (h.map _).sum_eq

theorem meanPrice_perm {l m : List Fill} (h : l.Perm m) : meanPrice l = meanPrice m := by
  rw [meanPrice, meanPrice, totalQuantity_perm h, totalNotional_perm h]

/-! ## Broker updates -/

/-- The states a broker can report. -/
def brokerReportedStates : List OrderState :=
  [.submitted, .accepted, .pending, .partiallyFilled, .filled, .canceled, .rejected, .expired]

structure BrokerUpdateFields where
  clientOrderId : String
  brokerOrderId : String
  brokerEventId : String
  state : OrderState
  occurredAt : Instant
  cumulativeFilledQuantity : ℚ
  averageFillPrice : Option ℚ
  fills : List Fill
  safeErrorCode : Option String
  deriving DecidableEq

def BrokerUpdateFields.check (u : BrokerUpdateFields) : Except PlatformError Unit := do
  rejectIf (u.state ∉ brokerReportedStates)
    (.executionValidation "broker cannot report a local-only order state")
  rejectIf (u.cumulativeFilledQuantity < 0)
    (.executionValidation "broker cumulative fill is invalid")
  rejectIf (∃ price ∈ u.averageFillPrice, price ≤ 0)
    (.executionValidation "broker average fill price is invalid")
  rejectIf (decide (u.cumulativeFilledQuantity ≠ 0) ≠ u.averageFillPrice.isSome)
    (.executionValidation "broker fill quantity and price disagree")

/-- One typed broker response. -/
structure BrokerUpdate extends BrokerUpdateFields where
  checked : toBrokerUpdateFields.check = .ok ()
  deriving DecidableEq

theorem BrokerUpdate.state_mem (u : BrokerUpdate) : u.state ∈ brokerReportedStates := by
  have h := u.checked
  simp only [BrokerUpdateFields.check, rejectIf_bind_eq_ok, not_not] at h
  exact h.1

end AdaptiveTrader
