import AdaptiveTrader.Foundation.Dict
import AdaptiveTrader.Foundation.Sorted
import AdaptiveTrader.Platform.Domain

/-!
# Plans and intents

An execution plan fixes signed target quantities; an order intent is one order of a plan, durable
before the broker is called. Both are validated on construction and keep the validation as a field.
Their IDs are content addressed, and the client order ID of a new intent is derived from its plan,
phase and sequence number: intents of one plan with different sequence numbers have different client
order IDs (`deriveClientOrderId_sequence`).
-/

set_option autoImplicit false

namespace AdaptiveTrader

open Foundation

inductive OrderSide
  | buy
  | sell
  deriving DecidableEq

def OrderSide.value : OrderSide → String
  | buy => "BUY"
  | sell => "SELL"

/-- The signed meaning of an order for the position it meets. -/
inductive PositionEffect
  | openLong
  | increaseLong
  | reduceLong
  | closeLong
  | openShort
  | increaseShort
  | reduceShort
  | closeShort
  | forcedFlatLong
  | forcedFlatShort
  deriving DecidableEq

namespace PositionEffect

def value : PositionEffect → String
  | openLong => "OPEN_LONG"
  | increaseLong => "INCREASE_LONG"
  | reduceLong => "REDUCE_LONG"
  | closeLong => "CLOSE_LONG"
  | openShort => "OPEN_SHORT"
  | increaseShort => "INCREASE_SHORT"
  | reduceShort => "REDUCE_SHORT"
  | closeShort => "CLOSE_SHORT"
  | forcedFlatLong => "FORCED_FLAT_LONG"
  | forcedFlatShort => "FORCED_FLAT_SHORT"

/-- The effects that can increase absolute exposure. -/
def opensExposure : PositionEffect → Bool
  | openLong | increaseLong | openShort | increaseShort => true
  | _ => false

end PositionEffect

inductive IntentPhase
  | exit
  | entry
  | flatten
  deriving DecidableEq

def IntentPhase.value : IntentPhase → String
  | exit => "EXIT"
  | entry => "ENTRY"
  | flatten => "FLATTEN"

/-- The fragment of the phase in a client order ID. -/
def IntentPhase.clientIdCode : IntentPhase → Char
  | exit => 'x'
  | entry => 'e'
  | flatten => 'f'

/-- The side and phase each effect demands. -/
def PositionEffect.sideAndPhase : PositionEffect → OrderSide × IntentPhase
  | openLong => (.buy, .entry)
  | increaseLong => (.buy, .entry)
  | reduceLong => (.sell, .exit)
  | closeLong => (.sell, .exit)
  | openShort => (.sell, .entry)
  | increaseShort => (.sell, .entry)
  | reduceShort => (.buy, .exit)
  | closeShort => (.buy, .exit)
  | forcedFlatLong => (.sell, .flatten)
  | forcedFlatShort => (.buy, .flatten)

/-- The precision of the default decimal context. -/
def contextPrecision : Nat := 28

/-- One exact signed position. -/
structure Position where
  symbol : String
  quantity : ℚ
  symbolValid : isSymbol symbol = true

theorem Position.eq_iff (p q : Position) : p.symbol = q.symbol ∧ p.quantity = q.quantity ↔ p = q := by
  cases p
  cases q
  simp

instance : DecidableEq Position := fun p q => decidable_of_iff _ (Position.eq_iff p q)

/-- `Position(symbol, quantity)`. -/
def Position.create (symbol : String) (quantity : ℚ) : Except PlatformError Position :=
  if h : isSymbol symbol = true then .ok ⟨symbol, quantity, h⟩
  else .error (.executionValidation "symbol is invalid")

/-- Symbol and quantity of each position. -/
def positionPairs (positions : List Position) : List (String × ℚ) :=
  positions.map fun p => (p.symbol, p.quantity)

/-- The value paired with a symbol; zero for a symbol without a pair. -/
def pairValue (pairs : List (String × ℚ)) (symbol : String) : ℚ :=
  (Dict.lookup symbol pairs).getD 0

/-- `_positions`. -/
def checkPositions (positions : List Position) (allowEmpty : Bool) :
    Except PlatformError Unit := do
  rejectIf (positions.map (·.symbol) ≠ sortedSet (positions.map (·.symbol)))
    (.executionValidation "positions must be unique and alphabetically ordered")
  rejectIf (allowEmpty = false ∧ positions = []) (.executionValidation "positions cannot be empty")

/-- Each pair holds a valid symbol and a positive price. -/
def checkPricePairs (fieldName : String) : List (String × ℚ) → Except PlatformError Unit
  | [] => .ok ()
  | (symbol, price) :: rest => do
      rejectIf (isSymbol symbol = false) (.executionValidation "symbol is invalid")
      rejectIf (price ≤ 0) (.executionValidation (fieldName ++ " must be positive"))
      checkPricePairs fieldName rest

/-! ## Execution plans -/

/-- The fields of a plan. -/
structure ExecutionPlanFields where
  riskDecisionId : String
  riskDecisionHash : String
  experimentHash : String
  correlationId : String
  targetVersion : Nat
  forcedFlat : Bool
  targetQuantities : List Position
  currentPositions : List Position
  referencePrices : List (String × ℚ)
  equity : ℚ
  createdAt : Instant
  deadlineAt : Instant
  deriving DecidableEq

def ExecutionPlanFields.check (p : ExecutionPlanFields) : Except PlatformError Unit := do
  rejectIf (isIdentifier p.riskDecisionId = false)
    (.executionValidation "risk decision ID is invalid")
  rejectIf (isSha256 p.riskDecisionHash = false)
    (.executionValidation "risk decision hash is invalid")
  rejectIf (isSha256 p.experimentHash = false) (.executionValidation "experiment hash is invalid")
  rejectIf (isIdentifier p.correlationId = false)
    (.executionValidation "correlation ID is invalid")
  rejectIf (¬ (1 ≤ p.targetVersion ∧ p.targetVersion ≤ 999999))
    (.executionValidation "target version must be between one and 999999")
  checkPositions p.targetQuantities false
  checkPositions p.currentPositions false
  checkPricePairs "reference price" p.referencePrices
  rejectIf (p.referencePrices.map Prod.fst ≠ sortedSet (p.referencePrices.map Prod.fst))
    (.executionValidation "reference prices must be unique and alphabetically ordered")
  rejectIf (p.currentPositions.map (·.symbol) ≠ p.targetQuantities.map (·.symbol))
    (.executionValidation "plan current positions do not match target symbols")
  rejectIf (p.referencePrices.map Prod.fst ≠ p.targetQuantities.map (·.symbol))
    (.executionValidation "plan reference prices do not match target symbols")
  rejectIf (p.equity ≤ 0) (.executionValidation "planning equity must be positive")
  rejectIf (p.deadlineAt ≤ p.createdAt)
    (.executionValidation "execution plan deadline must follow creation")

/-- An execution plan bound to one signed risk receipt. -/
structure ExecutionPlan extends ExecutionPlanFields where
  checked : toExecutionPlanFields.check = .ok ()
  deriving DecidableEq

namespace ExecutionPlan

/-- `ExecutionPlan.create`. -/
def create (fields : ExecutionPlanFields) : Except PlatformError ExecutionPlan :=
  validated ExecutionPlanFields.check fields fun h => ⟨fields, h⟩

section Hashed

variable [ContentHasher]

/-- The value `_execution_plan_digest` hashes. -/
def payload (p : ExecutionPlan) : Canonical :=
  .mapping [
    ("correlation_id", .text p.correlationId),
    ("current_positions", .pairs (positionPairs p.currentPositions)),
    ("created_at", .instant p.createdAt),
    ("deadline_at", .instant p.deadlineAt),
    ("equity", .decimal p.equity),
    ("experiment_hash", .text p.experimentHash),
    ("forced_flat", .bool p.forcedFlat),
    ("risk_decision_hash", .text p.riskDecisionHash),
    ("risk_decision_id", .text p.riskDecisionId),
    ("reference_prices", .pairs p.referencePrices),
    ("schema", .text "execution-plan-v2"),
    ("target_quantities", .pairs (positionPairs p.targetQuantities)),
    ("target_version", .int p.targetVersion)]

def contentHash (p : ExecutionPlan) : String := sha256Hex p.payload

def executionPlanId (p : ExecutionPlan) : String := deterministicId "execution" p.contentHash

end Hashed

@[simp] theorem create_eq_ok {fields : ExecutionPlanFields} {p : ExecutionPlan} :
    create fields = .ok p ↔ p.toExecutionPlanFields = fields := by
  constructor
  · intro h
    obtain ⟨_, rfl⟩ := validated_eq_ok.1 h
    rfl
  · rintro rfl
    exact validated_eq_ok.2 ⟨p.checked, rfl⟩

theorem isSha256_experimentHash (p : ExecutionPlan) : isSha256 p.experimentHash = true := by
  have h := p.checked
  simp only [ExecutionPlanFields.check, rejectIf_bind_eq_ok, Bool.not_eq_false] at h
  exact h.2.2.1

end ExecutionPlan

/-! ## Order intents -/

/-- The arguments from which an intent is created. -/
structure OrderIntentBase where
  executionPlanId : String
  riskDecisionId : String
  experimentHash : String
  correlationId : String
  symbol : String
  side : OrderSide
  positionEffect : PositionEffect
  phase : IntentPhase
  sequence : Nat
  targetVersion : Nat
  quantity : ℚ
  referencePrice : ℚ
  finalTargetQuantity : ℚ
  forcedFlat : Bool
  createdAt : Instant
  deadlineAt : Instant
  targetHash : String
  deriving DecidableEq

/-- The fields of an intent; its notional is the quantity at the reference price. -/
structure OrderIntentFields extends OrderIntentBase where
  clientOrderId : String
  deriving DecidableEq

def OrderIntentBase.notional (i : OrderIntentBase) : ℚ := i.quantity * i.referencePrice

/-- `_validate_effect`. -/
def OrderIntentBase.checkEffect (i : OrderIntentBase) : Except PlatformError Unit := do
  rejectIf ((i.side, i.phase) ≠ i.positionEffect.sideAndPhase)
    (.executionValidation "side or phase disagrees with position effect")
  rejectIf (i.phase = .flatten ∧ i.forcedFlat = false)
    (.executionValidation "flatten intent requires forced-flat authority")
  rejectIf (i.forcedFlat = true ∧ i.phase ≠ .flatten)
    (.executionValidation "forced-flat plan can contain only flatten intents")

def OrderIntentFields.check (i : OrderIntentFields) : Except PlatformError Unit := do
  rejectIf (isContentIdOf "execution" i.executionPlanId = false)
    (.executionValidation "execution ID is invalid")
  rejectIf (isIdentifier i.riskDecisionId = false)
    (.executionValidation "risk decision ID is invalid")
  rejectIf (isSha256 i.experimentHash = false) (.executionValidation "experiment hash is invalid")
  rejectIf (isIdentifier i.correlationId = false)
    (.executionValidation "correlation ID is invalid")
  rejectIf (isClientOrderId i.clientOrderId = false)
    (.executionValidation "client order ID violates the deterministic contract")
  rejectIf (isSymbol i.symbol = false) (.executionValidation "symbol is invalid")
  rejectIf (16 ≤ i.sequence)
    (.executionValidation "intent sequence must be between zero and 15")
  rejectIf (¬ (1 ≤ i.targetVersion ∧ i.targetVersion ≤ 999999))
    (.executionValidation "target version must be between one and 999999")
  rejectIf (i.quantity ≤ 0) (.executionValidation "order quantity must be positive")
  rejectIf (i.notional ≤ 0) (.executionValidation "order notional must be positive")
  rejectIf (i.referencePrice ≤ 0) (.executionValidation "reference price must be positive")
  rejectIf (i.deadlineAt ≤ i.createdAt)
    (.executionValidation "intent deadline must follow creation")
  rejectIf (isSha256 i.targetHash = false) (.executionValidation "target hash is invalid")
  i.checkEffect

/-- A durable broker side effect, persisted before its submission starts. -/
structure OrderIntent extends OrderIntentFields where
  checked : toOrderIntentFields.check = .ok ()
  deriving DecidableEq

/-- The characters behind the last underscore of a text that has one. -/
def afterLastUnderscore (cs : List Char) : Option (List Char) :=
  if '_' ∈ cs then some (cs.reverse.takeWhile (· ≠ '_')).reverse else none

/-- `"{n:02x}"`. -/
def twoDigitHex (n : Nat) : List Char := hexDigits (max 2 (Nat.toDigits 16 n).length) n

namespace OrderIntent

section Hashed

variable [ContentHasher]

/-- `_identifier_digest`: the digest a content-addressed ID ends in, or a digest of the ID. -/
def identifierDigest (value : String) : String :=
  match afterLastUnderscore value.toList with
  | some candidate =>
      if matchesExactly isHexDigit 64 candidate then String.ofList candidate
      else sha256Hex (.seq [.text "execution-identifier-v1", .text value])
  | none => sha256Hex (.seq [.text "execution-identifier-v1", .text value])

/-- The deterministic client order ID of a new intent. -/
def deriveClientOrderId (i : OrderIntentBase) : String :=
  joinDash [
    ['a', 'q', 'a'],
    i.experimentHash.toList.take 5,
    (identifierDigest i.riskDecisionId).toList.take 5,
    i.symbol.toList,
    [i.phase.clientIdCode],
    twoDigitHex i.sequence,
    Nat.toDigits 10 i.targetVersion,
    i.targetHash.toList.take 6]

/-- `OrderIntent.create`. -/
def create (base : OrderIntentBase) : Except PlatformError OrderIntent := do
  rejectIf (isSha256 base.experimentHash = false)
    (.executionValidation "experiment hash is invalid")
  rejectIf (isSha256 base.targetHash = false) (.executionValidation "target hash is invalid")
  rejectIf (isIdentifier base.riskDecisionId = false) (.executionValidation "identity is invalid")
  validated OrderIntentFields.check { base with clientOrderId := deriveClientOrderId base }
    fun h => ⟨{ base with clientOrderId := deriveClientOrderId base }, h⟩

/-- The value `_intent_digest` hashes. -/
def payload (i : OrderIntent) : Canonical :=
  .mapping [
    ("client_order_id", .text i.clientOrderId),
    ("correlation_id", .text i.correlationId),
    ("created_at", .instant i.createdAt),
    ("deadline_at", .instant i.deadlineAt),
    ("execution_plan_id", .text i.executionPlanId),
    ("experiment_hash", .text i.experimentHash),
    ("final_target_quantity", .decimal i.finalTargetQuantity),
    ("forced_flat", .bool i.forcedFlat),
    ("notional", .decimal i.notional),
    ("phase", .text i.phase.value),
    ("position_effect", .text i.positionEffect.value),
    ("quantity", .decimal i.quantity),
    ("reference_price", .decimal i.referencePrice),
    ("risk_decision_id", .text i.riskDecisionId),
    ("schema", .text "order-intent-v1"),
    ("sequence", .int i.sequence),
    ("side", .text i.side.value),
    ("symbol", .text i.symbol),
    ("target_hash", .text i.targetHash),
    ("target_version", .int i.targetVersion)]

def contentHash (i : OrderIntent) : String := sha256Hex i.payload

def orderIntentId (i : OrderIntent) : String := deterministicId "intent" i.contentHash

theorem create_eq_ok {base : OrderIntentBase} {i : OrderIntent} (h : create base = .ok i) :
    i.toOrderIntentBase = base ∧ i.clientOrderId = deriveClientOrderId base := by
  simp only [create, rejectIf_bind_eq_ok] at h
  obtain ⟨_, rfl⟩ := validated_eq_ok.1 h.2.2.2
  exact ⟨rfl, rfl⟩

/-- The sequence number can be read off the client order IDs of one plan. -/
theorem deriveClientOrderId_sequence {a b : OrderIntentBase} (ha : a.sequence < 16)
    (hb : b.sequence < 16) (hversion : a.targetVersion = b.targetVersion)
    (htarget : a.targetHash = b.targetHash)
    (h : deriveClientOrderId a = deriveClientOrderId b) : a.sequence = b.sequence := by
  have hchars := congrArg String.toList h
  have hlen : ∀ n < 16, (twoDigitHex n).length = 2 := by decide
  have hinj : ∀ m < 16, ∀ n < 16, twoDigitHex m = twoDigitHex n → m = n := by decide
  simp only [deriveClientOrderId, joinDash, String.toList_ofList, List.intercalate,
    List.intersperse, List.flatten_cons, List.flatten_nil, ← List.append_assoc, hversion,
    htarget, List.append_cancel_right_eq] at hchars
  exact hinj _ ha _ hb (List.append_inj_right' hchars (by rw [hlen _ ha, hlen _ hb]))

end Hashed

variable (i : OrderIntent)

/-- What the validation of an intent guarantees. -/
theorem wellFormed :
    isSha256 i.experimentHash = true ∧ isClientOrderId i.clientOrderId = true ∧
      isSymbol i.symbol = true ∧ i.sequence < 16 ∧ 0 < i.quantity ∧ 0 < i.referencePrice ∧
      (i.side, i.phase) = i.positionEffect.sideAndPhase := by
  have h := i.checked
  simp only [OrderIntentFields.check, OrderIntentBase.checkEffect, rejectIf_bind_eq_ok,
    rejectIf_eq_ok, Bool.not_eq_false, not_le, not_not] at h
  obtain ⟨-, -, hexp, -, hid, hsym, hseq, -, hq, -, hp, -, -, heff, -⟩ := h
  exact ⟨hexp, hid, hsym, hseq, hq, hp, heff⟩

theorem isSha256_experimentHash : isSha256 i.experimentHash = true := i.wellFormed.1

theorem isClientOrderId_clientOrderId : isClientOrderId i.clientOrderId = true := i.wellFormed.2.1

theorem isSymbol_symbol : isSymbol i.symbol = true := i.wellFormed.2.2.1

theorem sequence_lt : i.sequence < 16 := i.wellFormed.2.2.2.1

theorem quantity_pos : 0 < i.quantity := i.wellFormed.2.2.2.2.1

theorem side_phase_eq : (i.side, i.phase) = i.positionEffect.sideAndPhase :=
  i.wellFormed.2.2.2.2.2.2

end OrderIntent

/-! ## Accounts -/

/-- The broker account as execution and reconciliation see it. -/
structure AccountStateFields where
  accountId : String
  cash : ℚ
  equity : ℚ
  buyingPower : ℚ
  restrictedShortProceeds : ℚ
  observedAt : Instant
  deriving DecidableEq

def AccountStateFields.check (a : AccountStateFields) : Except PlatformError Unit := do
  rejectIf (isAccountId a.accountId = false)
    (.executionValidation "broker account ID is invalid")
  rejectIf (a.buyingPower < 0) (.executionValidation "buying power cannot be negative")
  rejectIf (a.restrictedShortProceeds < 0)
    (.executionValidation "restricted short proceeds cannot be negative")

structure AccountState extends AccountStateFields where
  checked : toAccountStateFields.check = .ok ()
  deriving DecidableEq

/-- The account identity that durable receipts carry. -/
def AccountState.accountIdHash [ContentHasher] (a : AccountState) : String :=
  sha256Hex (.seq [.text "broker-account-v1", .text a.accountId])

end AdaptiveTrader
