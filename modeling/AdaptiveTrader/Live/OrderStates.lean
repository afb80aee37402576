import AdaptiveTrader.Foundation.Checks

/-!
# Local order states

The states of an order of the paper service, the transitions between them, and the state each status
text of the broker stands for. Unlike the states of the platform, most states permit themselves, and
two of them lead back and forth (`ACCEPTED` and `PENDING`). What a transition never does is leave a
terminal state (`eq_of_permitted_terminal`).

No status of the broker stands for a state that only the service itself records
(`stateForBrokerStatus_ne_submissionStarted`).
-/

set_option autoImplicit false

namespace AdaptiveTrader.Live

open Foundation

/-- The exceptions of the paper service, by class, with the text they carry. `integrity` is a
violated constraint of the database. -/
inductive LiveError
  | safetyViolation (message : String)
  | invalidOrderTransition (message : String)
  | persistence (message : String)
  | integrity (constraint : String)
  deriving DecidableEq

inductive LocalOrderState
  | planned
  | locallyReserved
  | submissionStarted
  | submitted
  | accepted
  | pending
  | partiallyFilled
  | filled
  | cancelRequested
  | canceled
  | rejected
  | expired
  | replaced
  | submissionUnknown
  | reconciliationRequired
  deriving DecidableEq

namespace LocalOrderState

def value : LocalOrderState → String
  | planned => "planned"
  | locallyReserved => "locally_reserved"
  | submissionStarted => "submission_started"
  | submitted => "submitted"
  | accepted => "accepted"
  | pending => "pending"
  | partiallyFilled => "partially_filled"
  | filled => "filled"
  | cancelRequested => "cancel_requested"
  | canceled => "canceled"
  | rejected => "rejected"
  | expired => "expired"
  | replaced => "replaced"
  | submissionUnknown => "submission_unknown"
  | reconciliationRequired => "reconciliation_required"

/-- `TERMINAL_STATES`. -/
def terminal : LocalOrderState → Bool
  | filled | canceled | rejected | expired | replaced => true
  | _ => false

/-- `OrderStateMachine._TRANSITIONS`. -/
def transitions : LocalOrderState → List LocalOrderState
  | planned => [locallyReserved]
  | locallyReserved =>
      [submissionStarted, submitted, accepted, pending, partiallyFilled, filled, canceled, rejected,
        expired, reconciliationRequired]
  | submissionStarted =>
      [submitted, accepted, pending, partiallyFilled, filled, canceled, rejected, expired,
        submissionUnknown, reconciliationRequired]
  | submitted =>
      [submitted, accepted, pending, partiallyFilled, filled, cancelRequested, canceled, rejected,
        expired, replaced, reconciliationRequired]
  | accepted =>
      [accepted, pending, partiallyFilled, filled, cancelRequested, canceled, rejected, expired,
        replaced, reconciliationRequired]
  | pending =>
      [pending, accepted, partiallyFilled, filled, cancelRequested, canceled, rejected, expired,
        replaced, reconciliationRequired]
  | partiallyFilled =>
      [partiallyFilled, filled, cancelRequested, canceled, expired, replaced,
        reconciliationRequired]
  | cancelRequested =>
      [cancelRequested, partiallyFilled, filled, canceled, rejected, reconciliationRequired]
  | submissionUnknown =>
      [submitted, accepted, pending, partiallyFilled, filled, canceled, rejected, expired,
        reconciliationRequired]
  | reconciliationRequired =>
      [submitted, accepted, pending, partiallyFilled, filled, canceled, rejected, expired, replaced,
        reconciliationRequired]
  | filled => [filled]
  | canceled => [canceled]
  | rejected => [rejected]
  | expired => [expired]
  | replaced => [replaced]

/-- `OrderStateMachine.can_transition`. -/
def canTransition (current target : LocalOrderState) : Bool := decide (target ∈ current.transitions)

/-- `OrderStateMachine.validate`. -/
def validate (current target : LocalOrderState) : Except LiveError Unit :=
  rejectIf (canTransition current target = false)
    (.invalidOrderTransition ("Invalid local order transition: " ++ current.value ++ " -> " ++
      target.value))

@[simp] theorem validate_eq_ok {current target : LocalOrderState} {u : Unit} :
    validate current target = .ok u ↔ canTransition current target = true := by
  simp [validate]

/-- A terminal state permits nothing but itself. -/
theorem eq_of_permitted_terminal {current target : LocalOrderState} (hterminal : current.terminal = true)
    (h : canTransition current target = true) : target = current := by
  cases current <;> simp [terminal] at hterminal <;> simpa [canTransition, transitions] using h

end LocalOrderState

/-! ## Statuses of the broker -/

/-- The characters `str.strip` removes. -/
def isSpace (c : Char) : Bool :=
  decide ((9 ≤ c.toNat ∧ c.toNat ≤ 13) ∨ (28 ≤ c.toNat ∧ c.toNat ≤ 32) ∨ c.toNat = 133 ∨
    c.toNat = 160 ∨ c.toNat = 5760 ∨ (8192 ≤ c.toNat ∧ c.toNat ≤ 8202) ∨ c.toNat = 8232 ∨
    c.toNat = 8233 ∨ c.toNat = 8239 ∨ c.toNat = 8287 ∨ c.toNat = 12288)

/-- `text.strip()`. -/
def stripText (s : String) : String :=
  String.ofList (((s.toList.dropWhile isSpace).reverse.dropWhile isSpace).reverse)

/-- `text.lower()` on the letters a status is written with. -/
def lowerText (s : String) : String := String.ofList (s.toList.map Char.toLower)

/-- The mapping of `state_for_broker_status`. -/
def brokerStatuses : List (String × LocalOrderState) :=
  [("new", .submitted),
    ("submitted", .submitted),
    ("accepted", .accepted),
    ("pending", .pending),
    ("pending_new", .pending),
    ("pending_cancel", .pending),
    ("pending_replace", .pending),
    ("pending_review", .pending),
    ("accepted_for_bidding", .pending),
    ("held", .pending),
    ("calculated", .pending),
    ("stopped", .pending),
    ("suspended", .pending),
    ("done_for_day", .pending),
    ("partial_fill", .partiallyFilled),
    ("partially_filled", .partiallyFilled),
    ("fill", .filled),
    ("filled", .filled),
    ("canceled", .canceled),
    ("cancelled", .canceled),
    ("rejected", .rejected),
    ("expired", .expired),
    ("replaced", .replaced),
    ("order_replace_rejected", .reconciliationRequired),
    ("order_cancel_rejected", .reconciliationRequired)]

/-- `state_for_broker_status`. -/
def stateForBrokerStatus (status : String) : LocalOrderState :=
  (brokerStatuses.lookup (lowerText (stripText status))).getD .reconciliationRequired

/-- What holds of every listed state and of the fallback holds of every status. -/
theorem stateForBrokerStatus_induction {P : LocalOrderState → Prop}
    (hlisted : ∀ entry ∈ brokerStatuses, P entry.2) (hfallback : P .reconciliationRequired)
    (status : String) : P (stateForBrokerStatus status) := by
  unfold stateForBrokerStatus
  cases h : brokerStatuses.lookup (lowerText (stripText status)) with
  | none => exact hfallback
  | some s =>
      obtain ⟨before, after, hsplit, -⟩ := List.lookup_eq_some_iff.1 h
      have hmem : (lowerText (stripText status), s) ∈ brokerStatuses := by simp [hsplit]
      exact hlisted _ hmem

/-- No status stands for a started submission. -/
theorem stateForBrokerStatus_ne_submissionStarted (status : String) :
    stateForBrokerStatus status ≠ .submissionStarted :=
  stateForBrokerStatus_induction (P := (· ≠ .submissionStarted)) (by decide) (by decide) status

-- Proofs treat the state of a status as it is; unfolding the mapping compares texts.
attribute [irreducible] stateForBrokerStatus

end AdaptiveTrader.Live
