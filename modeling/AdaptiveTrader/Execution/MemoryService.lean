import AdaptiveTrader.Execution.Service

/-!
# The service over the in-memory ledger

The in-memory ledger as the repository of the service, next to a broker with a state of its own that
may answer anything. `Observed` adds a record of the submissions: each call of `broker.submit` with
the environment at the time of the call.
-/

set_option autoImplicit false

namespace AdaptiveTrader

open Foundation MemoryExecutionRepository

/-! ## Observed submissions -/

/-- An environment, and the submissions made so far with the environment at each. -/
structure Observed (η : Type) where
  env : η
  submitCalls : List (OrderIntent × η) := []

namespace Observed

variable {η α : Type}

/-- A computation on the environment submits nothing. -/
def lift (x : Exec η PlatformError α) : Exec (Observed η) PlatformError α := fun w =>
  ((x w.env).1, { w with env := (x w.env).2 })

/-- A submission is recorded before the broker answers. -/
def submit (x : OrderIntent → Instant → Exec η PlatformError α) (intent : OrderIntent)
    (submittedAt : Instant) : Exec (Observed η) PlatformError α := fun w =>
  ((x intent submittedAt w.env).1,
    { env := (x intent submittedAt w.env).2, submitCalls := w.submitCalls ++ [(intent, w.env)] })

end Observed

/-- The repository of an environment, observed. -/
def ExecutionRepository.observed {η : Type} (r : ExecutionRepository η) :
    ExecutionRepository (Observed η) where
  persistPlanAndIntents plan intents decision :=
    Observed.lift (r.persistPlanAndIntents plan intents decision)
  getOrder id := Observed.lift (r.getOrder id)
  getPlan id := Observed.lift (r.getPlan id)
  getRiskDecision id := Observed.lift (r.getRiskDecision id)
  getIntent id := Observed.lift (r.getIntent id)
  allIntents := Observed.lift r.allIntents
  intentsForPlan id := Observed.lift (r.intentsForPlan id)
  allOrders := Observed.lift r.allOrders
  fills := Observed.lift r.fills
  submissionLedgerSnapshot id := Observed.lift (r.submissionLedgerSnapshot id)
  recordSubmissionStarted id startedAt authority :=
    Observed.lift (r.recordSubmissionStarted id startedAt authority)
  recordSubmissionUnknown id observedAt reasonCode :=
    Observed.lift (r.recordSubmissionUnknown id observedAt reasonCode)
  recordReconciliationRequired id observedAt reasonCode :=
    Observed.lift (r.recordReconciliationRequired id observedAt reasonCode)
  recordCancelRequested id requestedAt := Observed.lift (r.recordCancelRequested id requestedAt)
  applyBrokerUpdate update := Observed.lift (r.applyBrokerUpdate update)
  recordReconciliationBundle receipt request latchEvent incident :=
    Observed.lift (r.recordReconciliationBundle receipt request latchEvent incident)
  recordIncident incident := Observed.lift (r.recordIncident incident)

/-- The broker of an environment, observed. -/
def Broker.observed {η : Type} (b : Broker η) : Broker (Observed η) where
  adapter := b.adapter
  paperOnly := b.paperOnly
  factoryCreated := b.factoryCreated
  submit := Observed.submit b.submit
  lookup id observedAt := Observed.lift (b.lookup id observedAt)
  cancel id canceledAt := Observed.lift (b.cancel id canceledAt)
  account observedAt := Observed.lift (b.account observedAt)
  positions := Observed.lift b.positions
  openClientOrderIds := Observed.lift b.openClientOrderIds

/-! ## The ledger next to a broker -/

section Beside

variable {β α : Type}

/-- A computation on the ledger leaves the broker alone. -/
def onLedger (x : Exec MemoryExecutionRepository PlatformError α) :
    Exec (MemoryExecutionRepository × β) PlatformError α := fun s =>
  ((x s.1).1, ((x s.1).2, s.2))

/-- A computation on the broker leaves the ledger alone. -/
def onBroker (x : Exec β PlatformError α) :
    Exec (MemoryExecutionRepository × β) PlatformError α := fun s =>
  ((x s.2).1, (s.1, (x s.2).2))

/-- A computation on the broker that may read the ledger. -/
def readingLedger (x : MemoryExecutionRepository → Exec β PlatformError α) :
    Exec (MemoryExecutionRepository × β) PlatformError α := fun s =>
  ((x s.1 s.2).1, (s.1, (x s.1 s.2).2))

/-- The broker beside the ledger. -/
def Broker.besideLedger (b : Broker β) : Broker (MemoryExecutionRepository × β) where
  adapter := b.adapter
  paperOnly := b.paperOnly
  factoryCreated := b.factoryCreated
  submit intent submittedAt := onBroker (b.submit intent submittedAt)
  lookup id observedAt := onBroker (b.lookup id observedAt)
  cancel id canceledAt := onBroker (b.cancel id canceledAt)
  account observedAt := onBroker (b.account observedAt)
  positions := onBroker b.positions
  openClientOrderIds := onBroker b.openClientOrderIds

variable [ContentHasher]

/-- The in-memory ledger as the repository of the service. -/
def memoryRepository (β : Type) : ExecutionRepository (MemoryExecutionRepository × β) where
  persistPlanAndIntents plan intents decision := onLedger <| Exec.transaction fun repo =>
    (repo.persistPlanAndIntents plan intents decision).map fun stored => ((), stored)
  getOrder id := onLedger <| Exec.read fun repo => repo.getOrder id
  getPlan id := onLedger <| Exec.read fun repo => repo.getPlan id
  getRiskDecision id := onLedger <| Exec.read fun repo => repo.getRiskDecision id
  getIntent id := onLedger <| Exec.read fun repo => repo.getIntent id
  allIntents := onLedger <| Exec.read fun repo => .ok repo.allIntents
  intentsForPlan id := onLedger <| Exec.read fun repo => .ok (repo.intentsForPlan id)
  allOrders := onLedger <| Exec.read fun repo => .ok repo.allOrders
  fills := onLedger <| Exec.read fun repo => .ok repo.fills
  submissionLedgerSnapshot id := onLedger <| Exec.read fun repo => repo.submissionLedgerSnapshot id
  recordSubmissionStarted id startedAt authority := onLedger <| Exec.transaction fun repo =>
    repo.recordSubmissionStarted id startedAt authority
  recordSubmissionUnknown id observedAt reasonCode := onLedger <| Exec.transaction fun repo =>
    repo.recordSubmissionUnknown id observedAt reasonCode
  recordReconciliationRequired id observedAt reasonCode := onLedger <| Exec.transaction fun repo =>
    repo.recordReconciliationRequired id observedAt reasonCode
  recordCancelRequested id requestedAt := onLedger <| Exec.transaction fun repo =>
    repo.recordCancelRequested id requestedAt
  applyBrokerUpdate update := onLedger (MemoryExecutionRepository.applyBrokerUpdate update)
  recordReconciliationBundle receipt request latchEvent incident :=
    onLedger <| Exec.transaction fun repo =>
      (repo.recordReconciliationBundle receipt request latchEvent incident).map
        fun stored => ((), stored)
  recordIncident incident := onLedger <| Exec.transaction fun repo => repo.recordIncident incident

end Beside

/-- A broker the service accepts. -/
structure AcceptedBroker (β : Type) extends Broker β where
  checked : toBroker.check = .ok ()

variable [ContentHasher]

/-- The service over the in-memory ledger. -/
def ledgerService {β : Type} (broker : AcceptedBroker β) :
    ExecutionService (MemoryExecutionRepository × β) where
  repository := memoryRepository β
  broker := broker.toBroker.besideLedger
  checked := broker.checked

/-- The service over the in-memory ledger, with observed submissions. -/
def memoryService {β : Type} (broker : AcceptedBroker β) :
    ExecutionService (Observed (MemoryExecutionRepository × β)) where
  repository := (memoryRepository β).observed
  broker := broker.toBroker.besideLedger.observed
  checked := broker.checked

end AdaptiveTrader
