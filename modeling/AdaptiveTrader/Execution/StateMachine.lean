import AdaptiveTrader.Platform.Domain

/-!
# Order states

The durable states of a broker order and the transitions between them. Every transition leads
forward: a terminal state has no successor (`transitions_terminal`), and an order that has left
`INTENT_COMMITTED` cannot return to it (`not_intentCommitted_of_permitted`).
-/

set_option autoImplicit false

namespace AdaptiveTrader

open Foundation

inductive OrderState
  | planned
  | intentCommitted
  | submissionStarted
  | submitted
  | accepted
  | pending
  | partiallyFilled
  | filled
  | cancelRequested
  | canceled
  | rejected
  | expired
  | submissionUnknown
  | reconciliationRequired
  deriving DecidableEq

namespace OrderState

def value : OrderState → String
  | planned => "PLANNED"
  | intentCommitted => "INTENT_COMMITTED"
  | submissionStarted => "SUBMISSION_STARTED"
  | submitted => "SUBMITTED"
  | accepted => "ACCEPTED"
  | pending => "PENDING"
  | partiallyFilled => "PARTIALLY_FILLED"
  | filled => "FILLED"
  | cancelRequested => "CANCEL_REQUESTED"
  | canceled => "CANCELED"
  | rejected => "REJECTED"
  | expired => "EXPIRED"
  | submissionUnknown => "SUBMISSION_UNKNOWN"
  | reconciliationRequired => "RECONCILIATION_REQUIRED"

theorem value_injective : Function.Injective value := by
  intro s t h
  cases s <;> cases t <;> first | rfl | exact absurd h (by decide)

/-- `value.lower()`, the form in audit payloads. -/
def slug : OrderState → String
  | planned => "planned"
  | intentCommitted => "intent_committed"
  | submissionStarted => "submission_started"
  | submitted => "submitted"
  | accepted => "accepted"
  | pending => "pending"
  | partiallyFilled => "partially_filled"
  | filled => "filled"
  | cancelRequested => "cancel_requested"
  | canceled => "canceled"
  | rejected => "rejected"
  | expired => "expired"
  | submissionUnknown => "submission_unknown"
  | reconciliationRequired => "reconciliation_required"

/-- No ordinary broker update may follow. -/
def terminal : OrderState → Bool
  | filled | canceled | rejected | expired => true
  | _ => false

/-- Reconciliation is required before new exposure. -/
def ambiguous : OrderState → Bool
  | submissionUnknown | reconciliationRequired => true
  | _ => false

/-- The permitted successors of a state. -/
def transitions : OrderState → List OrderState
  | planned => [intentCommitted]
  | intentCommitted => [submissionStarted]
  | submissionStarted =>
      [submitted, accepted, pending, partiallyFilled, filled, canceled, rejected, expired,
        submissionUnknown, reconciliationRequired]
  | submitted =>
      [accepted, pending, partiallyFilled, filled, cancelRequested, canceled, rejected, expired,
        reconciliationRequired]
  | accepted =>
      [pending, partiallyFilled, filled, cancelRequested, canceled, rejected, expired,
        reconciliationRequired]
  | pending =>
      [partiallyFilled, filled, cancelRequested, canceled, rejected, expired,
        reconciliationRequired]
  | partiallyFilled =>
      [partiallyFilled, filled, cancelRequested, canceled, expired, reconciliationRequired]
  | cancelRequested => [partiallyFilled, filled, canceled, reconciliationRequired]
  | submissionUnknown =>
      [submitted, accepted, pending, partiallyFilled, filled, canceled, rejected, expired,
        reconciliationRequired]
  | reconciliationRequired =>
      [submitted, accepted, pending, partiallyFilled, filled, canceled, rejected, expired]
  | filled => []
  | canceled => []
  | rejected => []
  | expired => []

end OrderState

/-- `transition_is_permitted`. -/
def transitionIsPermitted (previous current : OrderState) : Bool :=
  decide (current ∈ previous.transitions)

/-- `validate_order_transition`. -/
def validateOrderTransition (previous current : OrderState) : Except PlatformError Unit :=
  rejectIf (current ∉ previous.transitions)
    (.executionValidation ("order transition " ++ previous.value ++ " to " ++ current.value ++
      " is not permitted"))

theorem validateOrderTransition_eq_ok {previous current : OrderState} :
    validateOrderTransition previous current = .ok () ↔
      transitionIsPermitted previous current = true := by
  simp [validateOrderTransition, transitionIsPermitted]

attribute [local simp] OrderState.transitions transitionIsPermitted in
/-- A terminal state has no successor. -/
theorem transitions_terminal {s : OrderState} (h : s.terminal = true) : s.transitions = [] := by
  cases s <;> first | rfl | cases h

theorem not_terminal_of_permitted {s t : OrderState} (h : transitionIsPermitted s t = true) :
    s.terminal = false := by
  cases hs : s.terminal with
  | false => rfl
  | true => simp [transitionIsPermitted, transitions_terminal hs] at h

/-- Only `PLANNED` leads to `INTENT_COMMITTED`. -/
theorem not_intentCommitted_of_permitted {s t : OrderState} (hs : s ≠ .planned)
    (h : transitionIsPermitted s t = true) : t ≠ .intentCommitted := by
  rintro rfl
  cases s <;> simp [transitionIsPermitted, OrderState.transitions] at h hs

theorem not_planned_of_permitted {s t : OrderState} (h : transitionIsPermitted s t = true) :
    t ≠ .planned := by
  rintro rfl
  cases s <;> simp [transitionIsPermitted, OrderState.transitions] at h

/-- A submission starts from a committed intent only. -/
theorem intentCommitted_of_permitted_submissionStarted {s : OrderState}
    (h : transitionIsPermitted s .submissionStarted = true) : s = .intentCommitted := by
  cases s <;> simp [transitionIsPermitted, OrderState.transitions] at h ⊢

end AdaptiveTrader
