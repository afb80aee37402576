import AdaptiveTrader.Execution.LedgerStructure
import AdaptiveTrader.Execution.MemoryService

/-!
# One submission per intent

The service over the in-memory ledger and a broker that may answer anything. The state records each
call of `broker.submit` together with the ledger at the time of the call. Every operation of the
service extends the record by calls for orders that had not left `INTENT_COMMITTED` and have left it
since (`Extends`), so no order is submitted twice, however the operations follow one another and
wherever they raise.
-/

set_option autoImplicit false

namespace AdaptiveTrader

open Foundation MemoryExecutionRepository

variable [ContentHasher]

/-! ## Service runs -/

/-- The operations of the service. The providers of a plan submission may read the ledger. -/
inductive ServiceOperation (β : Type)
  | persist (result : ExecutionPlanningResult)
  | submitOne (clientOrderId : String) (safety : SubmissionSafetySnapshot)
      (paperContext : Option PaperGateContext)
  | submitPlan (result : ExecutionPlanningResult)
      (safetyProvider : OrderIntent → MemoryExecutionRepository →
        Exec β PlatformError SubmissionSafetySnapshot)
      (paperContextProvider : OrderIntent → MemoryExecutionRepository →
        Exec β PlatformError (Option PaperGateContext))
  | resolveAmbiguous (clientOrderId : String) (observedAt : Instant)
  | refreshNonterminal (clientOrderId : String) (observedAt : Instant)
  | cancelOne (clientOrderId : String) (requestedAt : Instant)

/-- The program of an operation; its return value is dropped. -/
def ServiceOperation.program {β : Type} (broker : AcceptedBroker β) :
    ServiceOperation β → Program (Observed (MemoryExecutionRepository × β)) PlatformError Unit
  | persist result => (memoryService broker).persist result
  | submitOne id safety paperContext => do
      let _ ← (memoryService broker).submitOne id safety paperContext
  | submitPlan result safetyProvider paperContextProvider => do
      let _ ← (memoryService broker).submitPlan result
        (fun intent => Observed.lift (readingLedger (safetyProvider intent)))
        (fun intent => Observed.lift (readingLedger (paperContextProvider intent)))
  | resolveAmbiguous id observedAt => do
      let _ ← (memoryService broker).resolveAmbiguous id observedAt
  | refreshNonterminal id observedAt => do
      let _ ← (memoryService broker).refreshNonterminal id observedAt
  | cancelOne id requestedAt => do
      let _ ← (memoryService broker).cancelOne id requestedAt

/-- Perform operations one after the other; an operation that raises ends where it raised. -/
def performAll {β : Type} (broker : AcceptedBroker β) (operations : List (ServiceOperation β))
    (w : Observed (MemoryExecutionRepository × β)) : Observed (MemoryExecutionRepository × β) :=
  operations.foldl (fun w operation => ((operation.program broker).exec w).2) w

/-! ## What a submission needs -/

/-- The order of the client order ID has left `INTENT_COMMITTED`. -/
def HasLeftCommitted (repo : MemoryExecutionRepository) (clientOrderId : String) : Prop :=
  ∃ o, repo.orderTable.get? clientOrderId = some o ∧ o.state ≠ .intentCommitted

/-- At the call the intent and its plan are durable and the order is `SUBMISSION_STARTED`. -/
def SubmittedWhileStarted (intent : OrderIntent) (repo : MemoryExecutionRepository) : Prop :=
  repo.intentTable.get? intent.clientOrderId = some intent ∧
    (∃ plan, repo.planTable.get? intent.executionPlanId = some plan) ∧
    ∃ o, repo.orderTable.get? intent.clientOrderId = some o ∧ o.state = .submissionStarted

theorem HasLeftCommitted.of_advances {repo repo' : MemoryExecutionRepository} {id : String}
    (hwf : WellFormed repo) (ha : Advances repo repo') (h : HasLeftCommitted repo id) :
    HasLeftCommitted repo' id := by
  obtain ⟨o, ho, hstate⟩ := h
  obtain ⟨n, hn, hprecedes⟩ := ha.orders id o ho
  exact ⟨n, hn, hprecedes.left (hwf.order_not_planned id o ho) hstate⟩

section Extension

variable {β : Type}

/-- The later state of a run: the ledger has advanced, and each new call is for an order that had
not left `INTENT_COMMITTED` before and has left it now. -/
structure Extends (w w' : Observed (MemoryExecutionRepository × β)) : Prop where
  wellFormed : WellFormed w'.env.1
  advances : Advances w.env.1 w'.env.1
  calls : ∃ new, w'.submitCalls = w.submitCalls ++ new ∧
    (new.map fun c => c.1.clientOrderId).Nodup ∧
    ∀ c ∈ new, SubmittedWhileStarted c.1 c.2.1 ∧ ¬ HasLeftCommitted w.env.1 c.1.clientOrderId ∧
      HasLeftCommitted w'.env.1 c.1.clientOrderId

/-- Nothing is submitted while the ledger advances. -/
theorem Extends.of_advances {w w' : Observed (MemoryExecutionRepository × β)}
    (hwf : WellFormed w'.env.1) (ha : Advances w.env.1 w'.env.1)
    (hcalls : w'.submitCalls = w.submitCalls) : Extends w w' :=
  ⟨hwf, ha, [], by simp [hcalls], List.nodup_nil, by simp⟩

theorem Extends.trans {w w' w'' : Observed (MemoryExecutionRepository × β)}
    (hwf : WellFormed w.env.1) (h₁ : Extends w w') (h₂ : Extends w' w'') : Extends w w'' := by
  obtain ⟨new₁, hcalls₁, hnodup₁, hnew₁⟩ := h₁.calls
  obtain ⟨new₂, hcalls₂, hnodup₂, hnew₂⟩ := h₂.calls
  refine ⟨h₂.wellFormed, h₁.advances.trans h₂.advances, new₁ ++ new₂, ?_, ?_, ?_⟩
  · rw [hcalls₂, hcalls₁, List.append_assoc]
  · rw [List.map_append]
    refine List.nodup_append.2 ⟨hnodup₁, hnodup₂, ?_⟩
    intro a ha b hb hab
    obtain ⟨c, hc, rfl⟩ := List.mem_map.1 ha
    obtain ⟨d, hd, rfl⟩ := List.mem_map.1 hb
    exact (hnew₂ d hd).2.1 (hab ▸ (hnew₁ c hc).2.2)
  · intro c hc
    rcases List.mem_append.1 hc with hc | hc
    · obtain ⟨hproper, hbefore, hafter⟩ := hnew₁ c hc
      exact ⟨hproper, hbefore, hafter.of_advances h₁.wellFormed h₂.advances⟩
    · obtain ⟨hproper, hbefore, hafter⟩ := hnew₂ c hc
      exact ⟨hproper, fun hleft => hbefore (hleft.of_advances hwf h₁.advances), hafter⟩

/-- From a well-formed ledger the state extends. -/
def Preserves (w w' : Observed (MemoryExecutionRepository × β)) : Prop :=
  WellFormed w.env.1 → Extends w w'

theorem composable_preserves : Exec.Composable (Preserves (β := β)) where
  refl w hwf := Extends.of_advances hwf (Advances.refl w.env.1) rfl
  trans h₁ h₂ hwf := (h₁ hwf).trans hwf (h₂ (h₁ hwf).wellFormed)

/-! ## Calls that submit nothing -/

/-- A computation on the ledger that writes through the ledger's operations. -/
theorem preserves_onLedger {enters : OrderState → Prop} {α : Type}
    {x : Exec MemoryExecutionRepository PlatformError α} (hx : Exec.Respects (Writes enters) x) :
    Exec.Respects (Preserves (β := β)) (Observed.lift (onLedger x)) := fun w hwf =>
  Extends.of_advances ((hx w.env.1).wellFormed hwf) ((hx w.env.1).advances hwf) rfl

theorem preserves_onBroker {α : Type} (x : Exec β PlatformError α) :
    Exec.Respects (Preserves (β := β)) (Observed.lift (onBroker x)) := fun w hwf =>
  Extends.of_advances hwf (Advances.refl w.env.1) rfl

theorem preserves_readingLedger {α : Type}
    (x : MemoryExecutionRepository → Exec β PlatformError α) :
    Exec.Respects (Preserves (β := β)) (Observed.lift (readingLedger x)) := fun w hwf =>
  Extends.of_advances hwf (Advances.refl w.env.1) rfl

/-- A lookup in the ledger. -/
theorem preserves_read {α : Type} (f : MemoryExecutionRepository → Except PlatformError α) :
    Exec.Respects (Preserves (β := β)) (Observed.lift (onLedger (Exec.read f))) :=
  preserves_onLedger (Exec.Respects.read (@composable_writes _ NotStarted) f)

/-- A transaction of the ledger. -/
theorem preserves_transaction {enters : OrderState → Prop} {α : Type}
    {f : MemoryExecutionRepository → Except PlatformError (α × MemoryExecutionRepository)}
    (hf : ∀ repo stored, f repo = .ok stored → Writes enters repo stored.2) :
    Exec.Respects (Preserves (β := β)) (Observed.lift (onLedger (Exec.transaction f))) :=
  preserves_onLedger (Exec.Respects.transaction composable_writes fun repo a repo' h =>
    hf repo (a, repo') h)

/-- Every call of the program preserves. -/
abbrev Quiet {α : Type}
    (p : Program (Observed (MemoryExecutionRepository × β)) PlatformError α) : Prop :=
  p.Calls fun action => Exec.Respects (Preserves (β := β)) action

variable (broker : AcceptedBroker β)

theorem quiet_persist (result : ExecutionPlanningResult) :
    Quiet ((memoryService broker).persist result) :=
  Program.Calls.atomically (preserves_onLedger
    (writes_transaction _ fun _ _ h => persistPlanAndIntents_writes h))

theorem quiet_applyBrokerUpdate (update : Option BrokerUpdate) :
    Quiet (Program.atomically ((memoryService broker).repository.applyBrokerUpdate update)) :=
  Program.Calls.atomically (preserves_onLedger (writes_applyBrokerUpdate update))

theorem quiet_recordReconciliationRequired (id : String) (observedAt : Instant)
    (reasonCode : String) :
    Quiet (Program.atomically ((memoryService broker).repository.recordReconciliationRequired id
      observedAt reasonCode)) :=
  Program.Calls.atomically (preserves_transaction
    fun _ _ h => recordReconciliationRequired_writes h)

theorem quiet_getOrder (id : String) :
    Quiet (Program.atomically ((memoryService broker).repository.getOrder id)) :=
  Program.Calls.atomically (preserves_read _)

theorem quiet_lookupAndRecord (id : String) (observedAt : Instant) :
    Quiet ((memoryService broker).lookupAndRecord id observedAt) := by
  refine (Program.Calls.atomically (preserves_onBroker _)).andThen fun update => ?_
  cases update with
  | none => exact quiet_recordReconciliationRequired broker id observedAt _
  | some update => exact quiet_applyBrokerUpdate broker (some update)

theorem quiet_resolveAmbiguous (id : String) (observedAt : Instant) :
    Quiet ((memoryService broker).resolveAmbiguous id observedAt) := by
  refine (quiet_getOrder broker id).andThen fun current => ?_
  refine Program.Calls.andThen ?_ fun _ => quiet_lookupAndRecord broker id observedAt
  trivial

theorem quiet_refreshNonterminal (id : String) (observedAt : Instant) :
    Quiet ((memoryService broker).refreshNonterminal id observedAt) := by
  refine (quiet_getOrder broker id).andThen fun current => ?_
  split
  · trivial
  · refine Program.Calls.andThen ?_ fun _ => quiet_lookupAndRecord broker id observedAt
    trivial

theorem quiet_cancelOne (id : String) (requestedAt : Instant) :
    Quiet ((memoryService broker).cancelOne id requestedAt) := by
  refine Program.Calls.andThen (Program.Calls.atomically (preserves_transaction
    fun _ _ h => recordCancelRequested_writes h)) fun _ => ?_
  refine (Program.Calls.atomically (preserves_onBroker _)).attempt.andThen fun answer => ?_
  cases answer with
  | error e => exact quiet_recordReconciliationRequired broker id requestedAt _
  | ok update => exact quiet_applyBrokerUpdate broker update

theorem quiet_observeBroker (safety : SubmissionSafetySnapshot) :
    Quiet ((memoryService broker).observeBroker safety) :=
  ExecutionService.calls_observeBroker safety (fun _ => preserves_onBroker _)
    (preserves_onBroker _) (preserves_onBroker _)

theorem quiet_observeLedger (ledger : SubmissionLedgerSnapshot) (plan : ExecutionPlan)
    (decision : RiskDecision) :
    Quiet ((memoryService broker).observeLedger ledger plan decision) := by
  refine Program.Calls.andThen (by trivial) fun priceTime => ?_
  refine Program.Calls.andThen (by trivial) fun securityTime => ?_
  refine (Program.Calls.atomically (preserves_read _)).andThen fun planIntents => ?_
  refine (Program.Calls.atomically (preserves_read _)).andThen fun fills => ?_
  refine Program.Calls.andThen (by trivial) fun expectedPositions => ?_
  refine Program.Calls.andThen (by trivial) fun positionValue => ?_
  refine (Program.Calls.atomically (preserves_read _)).andThen fun orders => ?_
  refine (Program.Calls.forEach (fun o => Program.Calls.atomically (preserves_read _))
    orders).andThen fun intents => ?_
  trivial

theorem quiet_submissionAuthority (intent : OrderIntent) (safety : SubmissionSafetySnapshot) :
    Quiet ((memoryService broker).submissionAuthority intent safety) := by
  refine (Program.Calls.atomically (preserves_read _)).andThen fun ledger => ?_
  refine (Program.Calls.atomically (preserves_read _)).andThen fun plan => ?_
  refine (Program.Calls.atomically (preserves_read _)).andThen fun decision => ?_
  refine (quiet_observeBroker broker safety).attempt.andThen fun observed => ?_
  cases observed with
  | error e => trivial
  | ok observation =>
      refine (quiet_observeLedger broker ledger plan decision).andThen fun seen => ?_
      dsimp only
      split
      · trivial
      · exact Program.Calls.andThen (by trivial) fun authority => by trivial

/-! ## The submitting operations -/

variable {w : Observed (MemoryExecutionRepository × β)}

/-- After a quiet program the state has extended, and what follows extends it further. -/
theorem Quiet.andThen_extends {α α' : Type}
    {p : Program (Observed (MemoryExecutionRepository × β)) PlatformError α}
    {f : α → Program (Observed (MemoryExecutionRepository × β)) PlatformError α'} (hp : Quiet p)
    (hwf : WellFormed w.env.1)
    (hf : ∀ a t, p.exec w = (.ok a, t) → Extends w t → Extends t ((f a).exec t).2) :
    Extends w ((p >>= f).exec w).2 := by
  have hquiet := hp.respects composable_preserves w hwf
  rw [Program.exec_bind]
  refine Exec.andThen_ends (fun a t ht => ?_) fun e t ht => ?_
  · rw [ht] at hquiet
    exact hquiet.trans hwf (hf a t ht hquiet)
  · rwa [ht] at hquiet

/-- Whatever the broker answers, its answer is recorded by the ledger's operations. -/
theorem submitStarted_extends (w : Observed (MemoryExecutionRepository × β))
    (intent : OrderIntent) (id : String) (safety : SubmissionSafetySnapshot)
    (hwf : WellFormed w.env.1) :
    ∃ t, t.env.1 = w.env.1 ∧ t.submitCalls = w.submitCalls ++ [(intent, w.env)] ∧
      Extends t (((memoryService broker).submitStarted intent id safety).exec w).2 := by
  have hsubmit : (memoryService broker).broker.submit intent safety.evaluatedAt w =
      ((broker.submit intent safety.evaluatedAt w.env.2).1,
        ⟨(w.env.1, (broker.submit intent safety.evaluatedAt w.env.2).2),
          w.submitCalls ++ [(intent, w.env)]⟩) := rfl
  refine ⟨⟨(w.env.1, (broker.submit intent safety.evaluatedAt w.env.2).2),
    w.submitCalls ++ [(intent, w.env)]⟩, rfl, rfl, ?_⟩
  rw [ExecutionService.submitStarted, Program.exec_attempt_bind, hsubmit]
  cases (broker.submit intent safety.evaluatedAt w.env.2).1 with
  | ok update =>
      exact ((quiet_applyBrokerUpdate broker update).andThen fun _ => by trivial).respects
        composable_preserves _ hwf
  | error e =>
      have hunknown : ∀ reasonCode, Quiet (Program.atomically
          ((memoryService broker).repository.recordSubmissionUnknown id safety.evaluatedAt
            reasonCode)) := fun reasonCode =>
        Program.Calls.atomically (preserves_transaction fun _ _ h => recordSubmissionUnknown_writes h)
      cases e <;>
        exact ((hunknown _).andThen fun _ => by trivial).respects composable_preserves _ hwf

theorem recordSubmissionStarted_of_error {id : String} {startedAt : Instant}
    {authority : SubmissionAuthoritySnapshot} {e : PlatformError}
    (h : w.env.1.recordSubmissionStarted id startedAt authority = .error e) :
    (memoryService broker).repository.recordSubmissionStarted id startedAt authority w =
      (.error e, w) := by
  show Observed.lift (onLedger (Exec.transaction _)) w = _
  simp only [Observed.lift, onLedger, Exec.transaction, h]

theorem recordSubmissionStarted_of_ok {id : String} {startedAt : Instant}
    {authority : SubmissionAuthoritySnapshot} {current : BrokerOrder}
    {repo' : MemoryExecutionRepository}
    (h : w.env.1.recordSubmissionStarted id startedAt authority = .ok (current, repo')) :
    (memoryService broker).repository.recordSubmissionStarted id startedAt authority w =
      (.ok current, { w with env := (repo', w.env.2) }) := by
  show Observed.lift (onLedger (Exec.transaction _)) w = _
  simp only [Observed.lift, onLedger, Exec.transaction, h]

/-- The start of a submission takes a committed order to `SUBMISSION_STARTED`. -/
theorem recordSubmissionStarted_order {repo repo' : MemoryExecutionRepository} {id : String}
    {startedAt : Instant} {authority : SubmissionAuthoritySnapshot} {current : BrokerOrder}
    (hwf : WellFormed repo)
    (h : repo.recordSubmissionStarted id startedAt authority = .ok (current, repo')) :
    (∃ previous, repo.orderTable.get? id = some previous ∧ previous.state = .intentCommitted) ∧
      repo'.orderTable.get? id = some current ∧ current.state = .submissionStarted := by
  obtain ⟨previous, _, event, audit, hstate, -, -, -, hadmitted, rfl⟩ :=
    recordSubmissionStarted_spec h
  refine ⟨⟨previous, hadmitted.found, hstate⟩, ?_, hadmitted.evolves.state⟩
  rw [hadmitted.get?_orderTable hwf, if_pos rfl]

/-- Once the start is recorded the order has left `INTENT_COMMITTED`, and the broker is called. -/
theorem startAndSubmit_extends {intent : OrderIntent} {id : String}
    (safety : SubmissionSafetySnapshot) (authority : SubmissionAuthoritySnapshot)
    (hwf : WellFormed w.env.1) (hintent : w.env.1.intentTable.get? id = some intent) :
    Extends w (((memoryService broker).startAndSubmit intent id safety authority).exec w).2 := by
  rw [ExecutionService.startAndSubmit, Program.exec_attempt_bind]
  cases hrecord : w.env.1.recordSubmissionStarted id safety.evaluatedAt authority with
  | error e =>
      rw [recordSubmissionStarted_of_error broker hrecord]
      dsimp only
      split
      · exact ((quiet_getOrder broker id).andThen fun _ => by trivial).respects
          composable_preserves w hwf
      · exact composable_preserves.refl w hwf
  | ok stored =>
      obtain ⟨current, repo'⟩ := stored
      rw [recordSubmissionStarted_of_ok broker hrecord]
      have hwrites := recordSubmissionStarted_writes hrecord
      have hwf' : WellFormed repo' := hwrites.wellFormed hwf
      have hadvances : Advances w.env.1 repo' := hwrites.advances hwf
      obtain ⟨⟨previous, hprevious, hcommitted⟩, hcurrent, hstarted⟩ :=
        recordSubmissionStarted_order hwf hrecord
      obtain ⟨t, henv, hcalls, hafter⟩ :=
        submitStarted_extends broker { w with env := (repo', w.env.2) } intent id safety hwf'
      have hid : intent.clientOrderId = id := hwf.intent_key id intent hintent
      obtain ⟨plan, hplan, -⟩ := hwf.intent_plan id intent hintent
      refine Extends.trans hwf ⟨henv ▸ hwf', henv ▸ hadvances, [(intent, (repo', w.env.2))], hcalls,
        List.nodup_singleton _, ?_⟩ hafter
      rintro c hc
      obtain rfl := List.mem_singleton.1 hc
      refine ⟨⟨?_, ⟨plan, hadvances.plans _ _ hplan⟩, current, ?_, hstarted⟩, ?_, ?_⟩
      · rw [hid]
        exact hadvances.intents id intent hintent
      · rw [hid]
        exact hcurrent
      · rw [hid]
        rintro ⟨o, ho, hleft⟩
        rw [hprevious] at ho
        cases ho
        exact hleft hcommitted
      · rw [hid, henv]
        exact ⟨current, hcurrent, by rw [hstarted]; exact nofun⟩

theorem submitOne_preserves (id : String) (safety : SubmissionSafetySnapshot)
    (paperContext : Option PaperGateContext) :
    Exec.Respects Preserves ((memoryService broker).submitOne id safety paperContext).exec := by
  intro w hwf
  have hget : Quiet (Program.atomically ((memoryService broker).repository.getIntent id)) :=
    Program.Calls.atomically (preserves_read _)
  refine hget.andThen_extends hwf fun intent w₁ hintent h₁ => ?_
  have hintent : w.env.1.intentTable.get? id = some intent := by
    have h : w.env.1.getIntent id = .ok intent := congrArg Prod.fst hintent
    exact getIntent_eq_ok.1 h
  refine (quiet_getOrder broker id).andThen_extends h₁.wellFormed fun order w₂ _ h₂ => ?_
  split
  · exact composable_preserves.refl w₂ h₂.wellFormed
  split
  · exact composable_preserves.refl w₂ h₂.wellFormed
  split
  · exact composable_preserves.refl w₂ h₂.wellFormed
  split
  · exact composable_preserves.refl w₂ h₂.wellFormed
  refine (quiet_submissionAuthority broker intent safety).andThen_extends h₂.wellFormed
    fun granted w₃ _ h₃ => ?_
  cases granted with
  | error reasons => exact composable_preserves.refl w₃ h₃.wellFormed
  | ok authority =>
      exact startAndSubmit_extends broker safety authority h₃.wellFormed
        (h₃.advances.intents _ _ (h₂.advances.intents _ _ (h₁.advances.intents _ _ hintent)))

theorem submitIntents_preserves
    (safetyProvider : OrderIntent → MemoryExecutionRepository →
      Exec β PlatformError SubmissionSafetySnapshot)
    (paperContextProvider : OrderIntent → MemoryExecutionRepository →
      Exec β PlatformError (Option PaperGateContext)) (exitsComplete : Bool)
    (intents : List OrderIntent) :
    Exec.Respects Preserves ((memoryService broker).submitIntents
      (fun intent => Observed.lift (readingLedger (safetyProvider intent)))
      (fun intent => Observed.lift (readingLedger (paperContextProvider intent)))
      exitsComplete intents).exec := by
  induction intents generalizing exitsComplete with
  | nil => exact Exec.Respects.ret composable_preserves []
  | cons intent rest ih =>
      rw [ExecutionService.submitIntents]
      split
      · simp only [Program.exec_bind, Program.exec_pure]
        refine Exec.Respects.andThen composable_preserves
          ((quiet_getOrder broker _).respects composable_preserves) fun order => ?_
        exact Exec.Respects.andThen composable_preserves (ih exitsComplete)
          fun results => Exec.Respects.ret composable_preserves _
      · simp only [Program.exec_bind, Program.exec_pure, Program.exec_atomically]
        refine Exec.Respects.andThen composable_preserves (preserves_readingLedger _)
          fun safety => ?_
        refine Exec.Respects.andThen composable_preserves (preserves_readingLedger _)
          fun paperContext => ?_
        refine Exec.Respects.andThen composable_preserves
          (submitOne_preserves broker intent.clientOrderId safety paperContext) fun outcome => ?_
        exact Exec.Respects.andThen composable_preserves (ih _)
          fun results => Exec.Respects.ret composable_preserves _

/-- Every operation extends the state, whatever the broker answers and wherever it raises. -/
theorem operation_preserves (operation : ServiceOperation β) :
    Exec.Respects Preserves (operation.program broker).exec := by
  cases operation with
  | persist result => exact (quiet_persist broker result).respects composable_preserves
  | submitOne id safety paperContext =>
      rw [ServiceOperation.program, Program.exec_bind]
      exact Exec.Respects.andThen composable_preserves
        (submitOne_preserves broker id safety paperContext)
        fun _ => Exec.Respects.ret composable_preserves ()
  | submitPlan result safetyProvider paperContextProvider =>
      rw [ServiceOperation.program, Program.exec_bind, ExecutionService.submitPlan,
        Program.exec_bind]
      refine Exec.Respects.andThen composable_preserves ?_
        fun _ => Exec.Respects.ret composable_preserves ()
      exact Exec.Respects.andThen composable_preserves
        ((quiet_persist broker result).respects composable_preserves)
        fun _ => submitIntents_preserves broker safetyProvider paperContextProvider true _
  | resolveAmbiguous id observedAt =>
      exact ((quiet_resolveAmbiguous broker id observedAt).andThen fun _ => by trivial).respects
        composable_preserves
  | refreshNonterminal id observedAt =>
      exact ((quiet_refreshNonterminal broker id observedAt).andThen fun _ => by trivial).respects
        composable_preserves
  | cancelOne id requestedAt =>
      exact ((quiet_cancelOne broker id requestedAt).andThen fun _ => by trivial).respects
        composable_preserves

/-- Every sequence of operations extends the state. -/
theorem performAll_extends (operations : List (ServiceOperation β)) (hwf : WellFormed w.env.1) :
    Extends w (performAll broker operations w) := by
  induction operations generalizing w with
  | nil => exact composable_preserves.refl w hwf
  | cons operation rest ih =>
      have hfirst := operation_preserves broker operation w hwf
      exact hfirst.trans hwf (ih hfirst.wellFormed)

end Extension

/-- At most one submission per intent. From an empty ledger, in every sequence of operations and for
every broker: no two submissions share a client order ID, each is made while its intent and plan are
durable and its order is `SUBMISSION_STARTED`, and whatever operations follow, an order that has
left `INTENT_COMMITTED` is not submitted by them. -/
theorem submitted_at_most_once {β : Type} (broker : AcceptedBroker β) (b : β)
    (operations : List (ServiceOperation β)) :
    let w := performAll broker operations { env := ({}, b) }
    (w.submitCalls.map fun c => c.1.clientOrderId).Nodup ∧
      (∀ c ∈ w.submitCalls, SubmittedWhileStarted c.1 c.2.1) ∧
      ∀ later clientOrderId, HasLeftCommitted w.env.1 clientOrderId →
        ∃ new, (performAll broker later w).submitCalls = w.submitCalls ++ new ∧
          ∀ c ∈ new, c.1.clientOrderId ≠ clientOrderId := by
  intro w
  have hstart : Extends { env := ({}, b) } w := performAll_extends broker operations WellFormed.empty
  obtain ⟨calls, hcalls, hnodup, hproper⟩ := hstart.calls
  have hcalls : w.submitCalls = calls := hcalls
  refine ⟨hcalls ▸ hnodup, fun c hc => (hproper c (hcalls ▸ hc)).1, ?_⟩
  intro later clientOrderId hleft
  obtain ⟨new, hnew, -, hfresh⟩ := (performAll_extends broker later hstart.wellFormed).calls
  refine ⟨new, hnew, ?_⟩
  rintro c hc rfl
  exact (hfresh c hc).2.1 hleft

end AdaptiveTrader
