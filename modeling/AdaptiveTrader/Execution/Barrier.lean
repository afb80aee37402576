import AdaptiveTrader.Execution.LedgerStructure
import AdaptiveTrader.Execution.MemoryService

/-!
# The barrier before a submission

Any number of workers run `submit_one` against one ledger, their calls interleaved with each other
and with an environment that moves orders forward. When an order moves to `SUBMISSION_STARTED`, no
other order of its experiment is unresolved, and no latch is engaged if its intent opens exposure
(`submission_barrier`).

A worker reads its ledger snapshot first, the orders later, and the ledger compares the snapshot's
hash when it records the start. Equal hashes at the two ends pin every nonterminal order of the
experiment (`barrier_of_snapshots`): an order that is the same at both ends was the same when the
worker saw it in between, because versions only grow.
-/

set_option autoImplicit false

namespace AdaptiveTrader

open Foundation MemoryExecutionRepository

/-! ## Unresolved orders -/

theorem states_of_not_unresolved {o : BrokerOrder} (h : o.isUnresolved = false) :
    o.state ≠ .submissionStarted ∧ o.state ≠ .submissionUnknown ∧
      o.state ≠ .reconciliationRequired := by
  simp only [BrokerOrder.isUnresolved, Bool.or_eq_false_iff, decide_eq_false_iff_not] at h
  refine ⟨h.2, ?_, ?_⟩ <;> rintro hs <;> simp [hs, OrderState.ambiguous] at h

theorem not_terminal_of_unresolved {o : BrokerOrder} (h : o.isUnresolved = true) :
    o.state.terminal = false := by
  simp only [BrokerOrder.isUnresolved, Bool.or_eq_true, decide_eq_true_eq] at h
  cases hs : o.state <;> simp [hs, OrderState.ambiguous, OrderState.terminal] at h ⊢

variable [ContentHasher]

/-! ## Values hashed along a run -/

/-- The values whose hashes a ledger's snapshots compare: those of its orders and of the snapshots
themselves. -/
def hashedValues (repo : MemoryExecutionRepository) : Set Canonical :=
  {value | ∃ k o, repo.orderTable.get? k = some o ∧ value = o.payload} ∪
    {value | ∃ k snapshot, repo.submissionLedgerSnapshot k = .ok snapshot ∧
      value = snapshot.payload}

theorem payload_mem_hashedValues {repo : MemoryExecutionRepository} {k : String} {o : BrokerOrder}
    (h : repo.orderTable.get? k = some o) : o.payload ∈ hashedValues repo :=
  Or.inl ⟨k, o, h, rfl⟩

theorem snapshot_mem_hashedValues {repo : MemoryExecutionRepository} {k : String}
    {snapshot : SubmissionLedgerSnapshot} (h : repo.submissionLedgerSnapshot k = .ok snapshot) :
    snapshot.payload ∈ hashedValues repo :=
  Or.inr ⟨k, snapshot, h, rfl⟩

/-! ## The barrier -/

/-- The orders of an experiment. -/
def InExperiment (repo : MemoryExecutionRepository) (k experimentHash : String) : Prop :=
  ∃ i, repo.intentTable.get? k = some i ∧ i.experimentHash = experimentHash

/-- What holds when the order of `clientOrderId` may move to `SUBMISSION_STARTED`. -/
def Barrier (repo : MemoryExecutionRepository) (clientOrderId : String) : Prop :=
  ∃ intent, repo.intentTable.get? clientOrderId = some intent ∧
    (∀ k o, k ≠ clientOrderId → repo.orderTable.get? k = some o →
      InExperiment repo k intent.experimentHash →
      o.state ≠ .submissionStarted ∧ o.state ≠ .submissionUnknown ∧
        o.state ≠ .reconciliationRequired) ∧
    (intent.positionEffect.opensExposure = true →
      ∃ latches, repo.latchState intent.experimentHash = .ok latches ∧ latches.active = [])

/-- The order moves to `SUBMISSION_STARTED` between two ledgers. -/
def Starts (repo repo' : MemoryExecutionRepository) (clientOrderId : String) : Prop :=
  (∀ o, repo.orderTable.get? clientOrderId = some o → o.state ≠ .submissionStarted) ∧
    ∃ o, repo'.orderTable.get? clientOrderId = some o ∧ o.state = .submissionStarted

/-- What a ledger snapshot is made of. -/
theorem submissionLedgerSnapshot_spec {repo : MemoryExecutionRepository} {clientOrderId : String}
    {snapshot : SubmissionLedgerSnapshot}
    (h : repo.submissionLedgerSnapshot clientOrderId = .ok snapshot) :
    ∃ intent plan latches, repo.intentTable.get? clientOrderId = some intent ∧
      repo.planTable.get? intent.executionPlanId = some plan ∧
      repo.latchState plan.experimentHash = .ok latches ∧
      snapshot.activeLatches = latches.active ∧
      snapshot.activeOrderHashes = sortedBy id ((repo.orderTable.values.filter fun o =>
        o.clientOrderId ∈ repo.experimentClientIds plan.experimentHash ∧
          o.state.terminal = false).map (·.contentHash)) := by
  simp only [submissionLedgerSnapshot, bind_eq_ok, getIntent_eq_ok, getPlan_eq_ok] at h
  obtain ⟨intent, hintent, plan, hplan, decision, -, latches, hlatches, order, -, hcreate⟩ := h
  have hfields := SubmissionLedgerSnapshot.create_eq_ok hcreate
  refine ⟨intent, plan, latches, hintent, hplan, hlatches, ?_, ?_⟩
  · rw [hfields]
  · rw [hfields]

theorem mem_experimentClientIds {repo : MemoryExecutionRepository} (hwf : WellFormed repo)
    {k experimentHash : String} :
    k ∈ repo.experimentClientIds experimentHash ↔ InExperiment repo k experimentHash := by
  simp only [experimentClientIds, List.mem_map, List.mem_filter, decide_eq_true_eq,
    Dict.mem_values_iff]
  constructor
  · rintro ⟨i, ⟨⟨k', hi⟩, hexp⟩, rfl⟩
    exact ⟨i, hwf.intent_key k' i hi ▸ hi, hexp⟩
  · rintro ⟨i, hi, hexp⟩
    exact ⟨i, ⟨⟨k, hi⟩, hexp⟩, hwf.intent_key k i hi⟩

/-- The same snapshot before and after pins the unresolved orders of the experiment: an order
unresolved now was so when the worker saw the orders. -/
theorem unresolved_earlier {H : Set Canonical} (hH : Set.InjOn sha256Hex H)
    {earlier middle now : MemoryExecutionRepository} (hwf₀ : WellFormed earlier)
    (hwf₂ : WellFormed now) (hearlier : hashedValues earlier ⊆ H) (hnow : hashedValues now ⊆ H)
    (h₁ : Advances earlier middle) (h₂ : Advances middle now) {id : String}
    {ledger ledger' : SubmissionLedgerSnapshot}
    (htaken : earlier.submissionLedgerSnapshot id = .ok ledger)
    (htaken' : now.submissionLedgerSnapshot id = .ok ledger')
    (hhash : ledger'.contentHash = ledger.contentHash) {intent : OrderIntent} {plan : ExecutionPlan}
    (hintent : now.intentTable.get? id = some intent)
    (hplan : now.planTable.get? intent.executionPlanId = some plan) {k : String} {o : BrokerOrder}
    (ho : now.orderTable.get? k = some o) (hexp : InExperiment now k plan.experimentHash)
    (hunresolved : o.isUnresolved = true) :
    middle.orderTable.get? k = some o ∧ InExperiment middle k plan.experimentHash := by
  have hsame : ledger' = ledger := SubmissionLedgerSnapshot.payload_injective
    (hH (hnow (snapshot_mem_hashedValues htaken')) (hearlier (snapshot_mem_hashedValues htaken)) hhash)
  obtain ⟨intent₀, plan₀, -, hintent₀, hplan₀, -, -, hactive₀⟩ := submissionLedgerSnapshot_spec htaken
  obtain ⟨intent₂, plan₂, -, hintent₂, hplan₂, -, -, hactive₂⟩ :=
    submissionLedgerSnapshot_spec htaken'
  have h₀₂ := h₁.trans h₂
  obtain rfl : intent₂ = intent := Option.some.inj (hintent₂.symm.trans hintent)
  obtain rfl : intent₀ = intent₂ := Option.some.inj ((h₀₂.intents _ _ hintent₀).symm.trans hintent₂)
  obtain rfl : plan₂ = plan := Option.some.inj (hplan₂.symm.trans hplan)
  obtain rfl : plan₀ = plan₂ := Option.some.inj ((h₀₂.plans _ _ hplan₀).symm.trans hplan₂)
  have hkey : o.clientOrderId = k := hwf₂.order_key k o ho
  have hlisted : o.contentHash ∈ ledger'.activeOrderHashes := by
    rw [hactive₂, mem_sortedBy]
    refine List.mem_map_of_mem (List.mem_filter.2 ⟨Dict.mem_values_iff.2 ⟨k, ho⟩, ?_⟩)
    rw [decide_eq_true_eq, hkey, mem_experimentClientIds hwf₂]
    exact ⟨hexp, not_terminal_of_unresolved hunresolved⟩
  rw [hsame, hactive₀, mem_sortedBy] at hlisted
  obtain ⟨o₀, hmem, hsameHash⟩ := List.mem_map.1 hlisted
  obtain ⟨hvalue, hactive⟩ := List.mem_filter.1 hmem
  obtain ⟨k₀, ho₀⟩ := Dict.mem_values_iff.1 hvalue
  obtain rfl : o₀ = o := BrokerOrder.payload_injective
    (hH (hearlier (payload_mem_hashedValues ho₀)) (hnow (payload_mem_hashedValues ho)) hsameHash)
  obtain rfl : k₀ = k := (hwf₀.order_key k₀ o₀ ho₀).symm.trans hkey
  rw [decide_eq_true_eq, hkey, mem_experimentClientIds hwf₀] at hactive
  obtain ⟨⟨i, hi, hi'⟩, -⟩ := hactive
  obtain ⟨n, hn, hbefore⟩ := h₁.orders _ _ ho₀
  obtain ⟨m, hm, hafter⟩ := h₂.orders _ _ hn
  obtain rfl : m = o₀ := Option.some.inj (hm.symm.trans ho)
  obtain rfl : n = m := hbefore.eq_of_precedes hafter
  exact ⟨hn, i, h₁.intents _ _ hi, hi'⟩

/-- The barrier holds when the snapshot taken first is still current, and in between the worker saw
no unresolved order of the experiment and, for an opening intent, no latch. -/
theorem barrier_of_snapshots {H : Set Canonical} (hH : Set.InjOn sha256Hex H)
    {earlier middle now : MemoryExecutionRepository} (hwf₀ : WellFormed earlier)
    (hwf₂ : WellFormed now) (hearlier : hashedValues earlier ⊆ H) (hnow : hashedValues now ⊆ H)
    (h₁ : Advances earlier middle) (h₂ : Advances middle now) {id : String}
    {ledger ledger' : SubmissionLedgerSnapshot}
    (htaken : earlier.submissionLedgerSnapshot id = .ok ledger)
    (htaken' : now.submissionLedgerSnapshot id = .ok ledger')
    (hhash : ledger'.contentHash = ledger.contentHash) {intent : OrderIntent} {plan : ExecutionPlan}
    (hintent : now.intentTable.get? id = some intent)
    (hplan : now.planTable.get? intent.executionPlanId = some plan)
    (hclear : ∀ k o, middle.orderTable.get? k = some o →
      InExperiment middle k plan.experimentHash → o.isUnresolved = false)
    (hlatches : intent.positionEffect.opensExposure = true → ledger.activeLatches = []) :
    Barrier now id := by
  obtain ⟨p, hp, hpexp⟩ := hwf₂.intent_plan id intent hintent
  obtain rfl : p = plan := Option.some.inj (hp.symm.trans hplan)
  refine ⟨intent, hintent, fun k o _ ho hexp => ?_, fun hopens => ?_⟩
  · rw [← hpexp] at hexp
    refine states_of_not_unresolved (Bool.eq_false_iff.2 fun hunresolved => ?_)
    obtain ⟨hmiddle, hmiddleExp⟩ := unresolved_earlier hH hwf₀ hwf₂ hearlier hnow h₁ h₂ htaken
      htaken' hhash hintent hplan ho hexp hunresolved
    rw [hclear k o hmiddle hmiddleExp] at hunresolved
    cases hunresolved
  · have hsame : ledger' = ledger := SubmissionLedgerSnapshot.payload_injective
      (hH (hnow (snapshot_mem_hashedValues htaken'))
        (hearlier (snapshot_mem_hashedValues htaken)) hhash)
    obtain ⟨intent₂, plan₂, latches, hintent₂, hplan₂, hstate, hactive, -⟩ :=
      submissionLedgerSnapshot_spec htaken'
    obtain rfl : intent₂ = intent := Option.some.inj (hintent₂.symm.trans hintent)
    obtain rfl : plan₂ = p := Option.some.inj (hplan₂.symm.trans hplan)
    exact ⟨latches, hpexp ▸ hstate, by rw [← hactive, hsame, hlatches hopens]⟩

/-! ## Moves of the environment -/

/-- A write that starts no submission. -/
theorem Write.starts_nothing {repo repo' : MemoryExecutionRepository} (hwf : WellFormed repo)
    (hw : Write NotStarted repo repo') (k : String) (n : BrokerOrder)
    (hn : repo'.orderTable.get? k = some n) (hs : n.state = .submissionStarted) :
    ∃ o, repo.orderTable.get? k = some o ∧ o.state = .submissionStarted := by
  cases hw with
  | plan plan intents decision audit admitted =>
      rcases (admitted.get?_orderTable hwf.paired k n).1 hn with ⟨i, -, rfl, -⟩ | hn
      · cases hs
      · exact ⟨n, hn, hs⟩
  | transition clientOrderId previous change _ _ current event audit admitted entered =>
      rw [admitted.get?_orderTable hwf] at hn
      split at hn
      · cases hn
        exact absurd (admitted.evolves.state.symm.trans hs) entered
      · exact ⟨n, hn, hs⟩
  | fill _ _ _ _ _ => exact ⟨n, hn, hs⟩
  | unauditedFill _ _ => exact ⟨n, hn, hs⟩
  | incident _ _ _ => exact ⟨n, hn, hs⟩
  | bundle receipt request latchEvent incident audit _ =>
      cases incident <;> exact ⟨n, hn, hs⟩

theorem Writes.starts_nothing {repo repo' : MemoryExecutionRepository} (hwf : WellFormed repo)
    (hw : Writes NotStarted repo repo') : ∀ k n, repo'.orderTable.get? k = some n →
      n.state = .submissionStarted →
      ∃ o, repo.orderTable.get? k = some o ∧ o.state = .submissionStarted := by
  induction hw with
  | refl => exact fun k n hn hs => ⟨n, hn, hs⟩
  | tail hrest hstep ih =>
      intro k n hn hs
      obtain ⟨o, ho, hos⟩ := Write.starts_nothing (Writes.wellFormed hrest hwf) hstep k n hn hs
      exact ih k o ho hos

section Concurrency

variable {β : Type}

/-- What the environment of the workers may do at any time: the ledger stays well formed, plans and
intents stay as they are, orders move forward and none starts a submission; latch events, fills and
everything at the broker are free. -/
def Moves (s t : MemoryExecutionRepository × β) : Prop :=
  WellFormed s.1 → WellFormed t.1 ∧ Advances s.1 t.1 ∧ ∀ k, ¬ Starts s.1 t.1 k

theorem moves_of_writes {s t : MemoryExecutionRepository × β} (h : Writes NotStarted s.1 t.1) :
    Moves s t := fun hwf =>
  ⟨h.wellFormed hwf, h.advances hwf, fun k ⟨hbefore, n, hn, hs⟩ => by
    obtain ⟨o, ho, hos⟩ := Writes.starts_nothing hwf h k n hn hs
    exact hbefore o ho hos⟩

/-- Every operation of the ledger except the start of a submission is a move of the environment. -/
theorem moves_exec (operation : LedgerOperation) (hop : operation.enters = NotStarted)
    (s : MemoryExecutionRepository × β) (b : β) : Moves s ((operation.exec s.1).2, b) :=
  moves_of_writes (hop ▸ writes_exec operation s.1)

theorem moves_onLedger {α : Type} {x : Exec MemoryExecutionRepository PlatformError α}
    (hx : Exec.Respects (Writes NotStarted) x) : Exec.Respects (Moves (β := β)) (onLedger x) :=
  fun s => moves_of_writes (hx s.1)

theorem moves_onBroker {α : Type} (x : Exec β PlatformError α) :
    Exec.Respects Moves (onBroker x) :=
  fun s => moves_of_writes (Writes.refl s.1)

theorem moves_read {α : Type} (f : MemoryExecutionRepository → Except PlatformError α) :
    Exec.Respects (Moves (β := β)) (onLedger (Exec.read f)) :=
  fun s => moves_of_writes (Writes.refl s.1)

/-! ## What a worker knows -/

/-- What a worker relies on: plans and intents stay and orders move forward. -/
def Rely (s t : MemoryExecutionRepository × β) : Prop :=
  WellFormed s.1 → WellFormed t.1 ∧ Advances s.1 t.1

/-- What a worker guarantees: it moves within the rely, and it starts no order before the barrier
holds. -/
def Guarantee (s t : MemoryExecutionRepository × β) : Prop :=
  Rely s t ∧ ∀ k, Starts s.1 t.1 k → Barrier s.1 k

/-- A state whose hashed values are among the given ones. -/
def Within (H : Set Canonical) (s : MemoryExecutionRepository × β) : Prop :=
  hashedValues s.1 ⊆ H

/-- The knowledge that the ledger has passed through an earlier one. -/
def After (earlier : MemoryExecutionRepository) (s : MemoryExecutionRepository × β) : Prop :=
  WellFormed s.1 ∧ Advances earlier s.1

variable {H : Set Canonical}

theorem stable_after (earlier : MemoryExecutionRepository) :
    Program.Stable (Within H) Rely (After (β := β) earlier) := fun _ _ _ _ hrely hafter =>
  ⟨(hrely hafter.1).1, hafter.2.trans (hrely hafter.1).2⟩

theorem stable_wellFormed :
    Program.Stable (Within H) Rely fun s : MemoryExecutionRepository × β => WellFormed s.1 :=
  fun _ _ _ _ hrely hwf => (hrely hwf).1

theorem guarantee_of_moves {s t : MemoryExecutionRepository × β} (hwf : WellFormed s.1)
    (h : Moves s t) : Guarantee s t :=
  ⟨fun _ => ⟨(h hwf).1, (h hwf).2.1⟩, fun k hstarts => absurd hstarts ((h hwf).2.2 k)⟩

/-- The judgement about a worker. -/
abbrev Upholds {α : Type} (H : Set Canonical)
    (Q : Except PlatformError α → MemoryExecutionRepository × β → Prop)
    (p : Program (MemoryExecutionRepository × β) PlatformError α)
    (K : MemoryExecutionRepository × β → Prop) : Prop :=
  p.Upholds (Within H) Rely Guarantee Q K

/-- Calls that are moves keep what is known. -/
theorem upholds_of_moves {α : Type}
    {p : Program (MemoryExecutionRepository × β) PlatformError α}
    (hp : p.Calls fun action => Exec.Respects Moves action)
    {K : MemoryExecutionRepository × β → Prop} (hK : Program.Stable (Within H) Rely K)
    (hwf : ∀ s, K s → WellFormed s.1) : Upholds H (fun _ => K) p K :=
  hp.upholds hK fun s t hs ht hk hm =>
    ⟨guarantee_of_moves (hwf s hk) hm, hK s t hs ht (guarantee_of_moves (hwf s hk) hm).1 hk⟩

/-- A quiet program, then what follows from the same knowledge. -/
theorem moves_bind {α α' : Type} {p : Program (MemoryExecutionRepository × β) PlatformError α}
    {f : α → Program (MemoryExecutionRepository × β) PlatformError α'}
    {Q : Except PlatformError α' → MemoryExecutionRepository × β → Prop}
    {earlier : MemoryExecutionRepository}
    (hp : p.Calls fun action => Exec.Respects Moves action)
    (hf : ∀ a, Upholds H Q (f a) (After earlier)) (he : ∀ e s, Q (.error e) s) :
    Upholds H Q (p >>= f) (After earlier) :=
  (upholds_of_moves hp (stable_after earlier) fun _ => And.left).bind hf fun e s _ => he e s

/-- A lookup, then what follows from the ledger that was read. -/
theorem read_bind {α α' : Type} {f : MemoryExecutionRepository → Except PlatformError α}
    {g : α → Program (MemoryExecutionRepository × β) PlatformError α'}
    {Q : Except PlatformError α' → MemoryExecutionRepository × β → Prop}
    {K : MemoryExecutionRepository × β → Prop} (hwf : ∀ s, K s → WellFormed s.1)
    (hnext : ∀ b a, Within H b → K b → f b.1 = .ok a → Upholds H Q (g a) (After b.1))
    (he : ∀ e s, Q (.error e) s) :
    Upholds H Q (Program.atomically (onLedger (Exec.read f)) >>= g) K := by
  refine Program.Upholds.bind (Q := fun r s => ∃ b : MemoryExecutionRepository × β,
    (Within H b ∧ K b ∧ f b.1 = r) ∧ After b.1 s) (Program.Upholds.atomically ?_ ?_) ?_ ?_
  · rintro r s t hs ht hrely ⟨b, hfacts, hafter⟩
    exact ⟨b, hfacts, stable_after b.1 s t hs ht hrely hafter⟩
  · intro s hs hk _
    exact ⟨guarantee_of_moves (hwf s hk) (moves_read f s), s, ⟨hs, hk, rfl⟩, hwf s hk,
      Advances.refl s.1⟩
  · intro a
    exact Program.Upholds.exists fun b => Program.Upholds.of_fact fun hfacts =>
      hnext b a hfacts.1 hfacts.2.1 hfacts.2.2
  · exact fun e s _ => he e s

/-! ## The worker -/

variable (broker : AcceptedBroker β)

/-- An approval of either kind meets no reason against the submission. -/
theorem safetyReasons_of_approved {intent : OrderIntent} {safety : SubmissionSafetySnapshot}
    {paperContext : Option PaperGateContext}
    (h : ((ledgerService broker).authorize intent safety paperContext).approved = true) :
    safetyReasons intent safety = [] := by
  unfold ExecutionService.authorize at h
  split at h
  · split at h
    · cases h
    · split at h
      · cases h
      · split at h
        · cases h
        · split at h
          · cases h
          · rw [authorizePaperIntent_denied] at h
            cases h
  · cases h
  · split at h
    · cases h
    · split at h
      · cases h
      · exact authorizationDecision_approved.1 h

/-- The postcondition that a result is a fact about a ledger that has been passed. -/
def Settled {α : Type} (fact : α → MemoryExecutionRepository → Prop) (r : Except PlatformError α)
    (s : MemoryExecutionRepository × β) : Prop :=
  ∀ a, r = .ok a → ∃ m, fact a m ∧ After m s

theorem settled_error {α : Type} (fact : α → MemoryExecutionRepository → Prop) (e : PlatformError)
    (s : MemoryExecutionRepository × β) : Settled fact (.error e) s := nofun

theorem settled_bind {α α' : Type} {fact : α → MemoryExecutionRepository → Prop}
    {p : Program (MemoryExecutionRepository × β) PlatformError α}
    {f : α → Program (MemoryExecutionRepository × β) PlatformError α'}
    {Q : Except PlatformError α' → MemoryExecutionRepository × β → Prop}
    {K : MemoryExecutionRepository × β → Prop} (hp : Upholds H (Settled fact) p K)
    (hf : ∀ a m, fact a m → Upholds H Q (f a) (After m)) (he : ∀ e s, Q (.error e) s) :
    Upholds H Q (p >>= f) K := by
  refine hp.bind (fun a => ?_) fun e s _ => he e s
  refine Program.Upholds.strengthen (K := fun s => ∃ m, fact a m ∧ After m s) ?_
    fun s _ h => h a rfl
  exact Program.Upholds.exists fun m => Program.Upholds.of_fact fun hfact => hf a m hfact

/-- The intents read for some orders are the ones that were durable before. -/
def IntentsOf (m : MemoryExecutionRepository) (orders : List BrokerOrder)
    (intents : List OrderIntent) : Prop :=
  List.Forall₂ (fun (o : BrokerOrder) i =>
    ∀ j, m.intentTable.get? o.clientOrderId = some j → i = j) orders intents

theorem upholds_getIntents (m : MemoryExecutionRepository) (orders : List BrokerOrder) :
    Upholds H (Settled fun intents m' => m' = m ∧ IntentsOf m orders intents)
      (Program.forEach (fun (o : BrokerOrder) =>
        Program.atomically ((ledgerService broker).repository.getIntent o.clientOrderId)) orders)
      (After m) := by
  induction orders with
  | nil =>
      intro s _ hafter intents hintents
      cases hintents
      exact ⟨m, ⟨rfl, List.Forall₂.nil⟩, hafter⟩
  | cons o rest ih =>
      refine read_bind (fun _ => And.left) (fun b i _ hb hi => ?_) (settled_error _)
      refine Program.Upholds.strengthen (K := After m) ?_ fun s _ hs => ⟨hs.1, hb.2.trans hs.2⟩
      refine settled_bind ih (fun intents m' hfact => ?_) (settled_error _)
      obtain ⟨rfl, hintents⟩ := hfact
      intro s _ hafter result hresult
      cases hresult
      refine ⟨m', ⟨rfl, List.Forall₂.cons (fun j hj => ?_) hintents⟩, hafter⟩
      have hlater := hb.2.intents _ _ hj
      rw [getIntent_eq_ok.1 hi] at hlater
      exact Option.some.inj hlater

/-- An observation covers a ledger when it lists all its orders of the experiment. -/
structure Covers (earlier : MemoryExecutionRepository) (ledger : SubmissionLedgerSnapshot)
    (plan : ExecutionPlan) (seen : LedgerObservation) (middle : MemoryExecutionRepository) :
    Prop where
  advances : Advances earlier middle
  ledger_eq : seen.ledger = ledger
  orders : ∀ k o, middle.orderTable.get? k = some o → InExperiment middle k plan.experimentHash →
    o ∈ seen.experimentOrders

theorem mem_experimentOrders {m : MemoryExecutionRepository} (hwf : WellFormed m)
    {intents : List OrderIntent} (hintents : IntentsOf m m.allOrders intents) {k : String}
    {o : BrokerOrder} {experimentHash : String} (ho : m.orderTable.get? k = some o)
    (hexp : InExperiment m k experimentHash) :
    o ∈ ((m.allOrders.zip intents).filter fun p => p.2.experimentHash = experimentHash).map
      Prod.fst := by
  have hmem : o ∈ m.allOrders := Dict.mem_valuesByKey.2 ⟨k, ho⟩
  obtain ⟨n, hn, hget⟩ := List.mem_iff_getElem.1 hmem
  have hn' : n < intents.length := hintents.length_eq ▸ hn
  obtain ⟨j, hj, hj'⟩ := hexp
  have hi : intents[n] = j := by
    have hpoint := hintents.get hn hn'
    simp only [List.get_eq_getElem, hget] at hpoint
    exact hpoint j (by rw [hwf.order_key k o ho, hj])
  refine List.mem_map.2 ⟨(o, j), List.mem_filter.2 ⟨?_, by simpa using hj'⟩, rfl⟩
  rw [← hget, ← hi]
  exact List.mem_iff_getElem.2 ⟨n, by simpa using ⟨hn, hn'⟩, by simp⟩

theorem upholds_observeLedger {earlier : MemoryExecutionRepository}
    (ledger : SubmissionLedgerSnapshot) (plan : ExecutionPlan) (decision : RiskDecision) :
    Upholds H (Settled (Covers earlier ledger plan))
      ((ledgerService broker).observeLedger ledger plan decision) (After earlier) := by
  refine Program.Upholds.pureExcept_bind (fun priceTime _ => ?_) (settled_error _)
  refine Program.Upholds.pureExcept_bind (fun securityTime _ => ?_) (settled_error _)
  refine moves_bind (Program.Calls.atomically (moves_read _)) (fun planIntents => ?_)
    (settled_error _)
  refine moves_bind (Program.Calls.atomically (moves_read _)) (fun fills => ?_) (settled_error _)
  refine Program.Upholds.pureExcept_bind (fun expectedPositions _ => ?_) (settled_error _)
  refine Program.Upholds.pureExcept_bind (fun positionValue _ => ?_) (settled_error _)
  refine read_bind (fun _ => And.left) (fun b orders _ hafter horders => ?_) (settled_error _)
  cases horders
  refine settled_bind (upholds_getIntents broker b.1 b.1.allOrders) (fun intents m hfact => ?_)
    (settled_error _)
  obtain ⟨rfl, hintents⟩ := hfact
  intro s _ hs seen hseen
  cases hseen
  exact ⟨b.1, ⟨hafter.2, rfl, fun k o ho hexp => mem_experimentOrders hafter.1 hintents ho hexp⟩,
    hs⟩

/-- What an authority establishes about the ledgers passed before it was granted. -/
def Cleared (H : Set Canonical) (intent : OrderIntent) (authority : SubmissionAuthoritySnapshot)
    (middle : MemoryExecutionRepository) : Prop :=
  ∃ earlier ledger plan, WellFormed earlier ∧ hashedValues earlier ⊆ H ∧
    Advances earlier middle ∧
    earlier.submissionLedgerSnapshot intent.clientOrderId = .ok ledger ∧
    authority.ledgerSnapshotHash = ledger.contentHash ∧
    middle.intentTable.get? intent.clientOrderId = some intent ∧
    middle.planTable.get? intent.executionPlanId = some plan ∧
    (∀ k o, middle.orderTable.get? k = some o → InExperiment middle k plan.experimentHash →
      o.isUnresolved = false) ∧
    (intent.positionEffect.opensExposure = true → ledger.activeLatches = [])

/-- Without a reason against the submission, no listed order is unresolved and the latches agree
with the safety state. -/
theorem clear_of_authorityReasons {intent : OrderIntent} {safety : SubmissionSafetySnapshot}
    {observed : BrokerObservation} {seen : LedgerObservation}
    (hreasons : authorityReasons intent safety observed seen = [])
    (hsafety : safetyReasons intent safety = []) :
    (∀ o ∈ seen.experimentOrders, o.isUnresolved = false) ∧
      (intent.positionEffect.opensExposure = true → seen.ledger.activeLatches = []) := by
  simp only [authorityReasons, List.append_eq_nil_iff, reasonIf_eq_nil, not_not] at hreasons
  obtain ⟨⟨⟨⟨⟨⟨⟨-, hambiguous⟩, hlatch⟩, -⟩, -⟩, -⟩, -⟩, -⟩ := hreasons
  rw [not_ambiguous_of_safetyReasons_eq_nil hsafety, eq_comm, List.any_eq_false] at hambiguous
  refine ⟨fun o ho => by simpa using hambiguous o ho, fun hopens => ?_⟩
  rw [(entry_of_safetyReasons_eq_nil hsafety hopens).1] at hlatch
  simpa using hlatch

theorem upholds_submissionAuthority {earlier : MemoryExecutionRepository} {intent : OrderIntent}
    (safety : SubmissionSafetySnapshot) (hsafety : safetyReasons intent safety = [])
    (hintent : earlier.intentTable.get? intent.clientOrderId = some intent) :
    Upholds H (Settled fun granted middle => ∀ authority, granted = .ok authority →
        Cleared H intent authority middle)
      ((ledgerService broker).submissionAuthority intent safety) (After earlier) := by
  refine read_bind (fun _ => And.left) (fun b₁ ledger hvisited hafter₁ htaken => ?_)
    (settled_error _)
  refine read_bind (fun _ => And.left) (fun b₂ plan _ hafter₂ hplan => ?_) (settled_error _)
  refine read_bind (fun _ => And.left) (fun b₃ decision _ hafter₃ _ => ?_) (settled_error _)
  refine moves_bind (ExecutionService.calls_observeBroker safety (fun _ => moves_onBroker _)
    (moves_onBroker _) (moves_onBroker _)).attempt (fun observed => ?_) (settled_error _)
  have hrefused : ∀ reasons, Upholds H (Settled fun granted middle =>
      ∀ authority, granted = .ok authority → Cleared H intent authority middle)
      (pure (.error reasons) : Program (MemoryExecutionRepository × β) PlatformError
        (Except (List String) SubmissionAuthoritySnapshot)) (After b₃.1) := by
    intro reasons s _ hs granted hgranted
    cases hgranted
    exact ⟨b₃.1, nofun, hs⟩
  cases observed with
  | error e => exact hrefused _
  | ok observation =>
      refine settled_bind (upholds_observeLedger broker ledger plan decision)
        (fun seen middle hcovers => ?_) (settled_error _)
      dsimp only
      split
      · next hreasons =>
          refine Program.Upholds.strengthen (hrefused _) fun s _ hs =>
            ⟨hs.1, hcovers.advances.trans hs.2⟩
      · next hreasons =>
          rw [not_not] at hreasons
          obtain ⟨hclear, hlatches⟩ := clear_of_authorityReasons hreasons hsafety
          refine Program.Upholds.pureExcept_bind (fun authority hauthority => ?_) (settled_error _)
          intro s _ hs granted hgranted
          cases hgranted
          have h₁ := (hafter₂.2.trans hafter₃.2).trans hcovers.advances
          refine ⟨middle, fun _ heq => ?_, hs⟩
          cases heq
          refine ⟨b₁.1, ledger, plan, hafter₁.1, hvisited, h₁, htaken, ?_,
            h₁.intents _ _ (hafter₁.2.intents _ _ hintent),
            (hafter₃.2.trans hcovers.advances).plans _ _ (getPlan_eq_ok.1 hplan),
            fun k o ho hexp => hclear o (hcovers.orders k o ho hexp), ?_⟩
          · rw [SubmissionAuthoritySnapshot.create_eq_ok hauthority]
            rfl
          · exact hcovers.ledger_eq ▸ hlatches

/-- Recording the start: the ledger compares the snapshot, so an order that starts meets the
barrier. -/
theorem guarantee_recordSubmissionStarted (hH : Set.InjOn sha256Hex H) {intent : OrderIntent}
    {authority : SubmissionAuthoritySnapshot} {middle : MemoryExecutionRepository}
    (hcleared : Cleared H intent authority middle) (startedAt : Instant)
    {s : MemoryExecutionRepository × β} (hs : Within H s) (hafter : After middle s) :
    Guarantee s ((ledgerService broker).repository.recordSubmissionStarted intent.clientOrderId
      startedAt authority s).2 := by
  show Guarantee s (onLedger (Exec.transaction fun repo =>
    repo.recordSubmissionStarted intent.clientOrderId startedAt authority) s).2
  cases hrecord : s.1.recordSubmissionStarted intent.clientOrderId startedAt authority with
  | error e =>
      simp only [onLedger, Exec.transaction, hrecord]
      exact guarantee_of_moves hafter.1 (moves_of_writes (Writes.refl _))
  | ok stored =>
      simp only [onLedger, Exec.transaction, hrecord]
      have hwrites := recordSubmissionStarted_writes hrecord
      refine ⟨fun hwf => ⟨hwrites.wellFormed hwf, hwrites.advances hwf⟩, fun k hstarts => ?_⟩
      obtain ⟨previous, snapshot, event, audit, -, -, htaken', hhash, hadmitted, heq⟩ :=
        recordSubmissionStarted_spec hrecord
      obtain ⟨earlier, ledger, plan, hwf₀, hvisited, h₁, htaken, hbound, hintent, hplan, hclear,
        hlatches⟩ := hcleared
      have hk : k = intent.clientOrderId := by
        by_contra hne
        obtain ⟨hbefore, n, hn, hstate⟩ := hstarts
        rw [heq, hadmitted.get?_orderTable hafter.1, if_neg hne] at hn
        exact hbefore n hn hstate
      rw [hk]
      exact barrier_of_snapshots hH hwf₀ hafter.1 hvisited hs h₁ hafter.2 htaken htaken'
        (hhash.trans hbound) (hafter.2.intents _ _ hintent) (hafter.2.plans _ _ hplan) hclear
        hlatches

/-- A worker that has recorded the start makes moves only. -/
theorem moves_submitStarted (intent : OrderIntent) (id : String)
    (safety : SubmissionSafetySnapshot) :
    ((ledgerService broker).submitStarted intent id safety).Calls
      fun action => Exec.Respects Moves action :=
  ExecutionService.calls_submitStarted intent id safety (fun _ => moves_onBroker _)
    (fun update => moves_onLedger (writes_applyBrokerUpdate update))
    (fun _ _ => moves_onLedger (Exec.Respects.transaction composable_writes
      fun _ _ _ h => recordSubmissionUnknown_writes h))

theorem upholds_startAndSubmit (hH : Set.InjOn sha256Hex H) {intent : OrderIntent}
    {authority : SubmissionAuthoritySnapshot} {middle : MemoryExecutionRepository}
    (safety : SubmissionSafetySnapshot) (hcleared : Cleared H intent authority middle) :
    Upholds H (fun _ s => WellFormed s.1)
      ((ledgerService broker).startAndSubmit intent intent.clientOrderId safety authority)
      (After middle) := by
  have hquiet : ∀ {α : Type} {p : Program (MemoryExecutionRepository × β) PlatformError α},
      (p.Calls fun action => Exec.Respects Moves action) →
      Upholds H (fun _ s => WellFormed s.1) p fun s => WellFormed s.1 := fun hp =>
    upholds_of_moves hp stable_wellFormed fun _ => id
  refine Program.Upholds.bind (Q := fun _ s => WellFormed s.1) ?_ (fun started => ?_)
    fun _ _ => id
  · refine Program.Upholds.weaken (Program.Upholds.attempt (Program.Upholds.atomically
      (Q := fun _ s => WellFormed s.1) (fun _ => stable_wellFormed) ?_)) ?_
    · intro s hs hafter _
      have hguarantee :=
        guarantee_recordSubmissionStarted broker hH hcleared safety.evaluatedAt hs hafter
      exact ⟨hguarantee, (hguarantee.1 hafter.1).1⟩
    · rintro r s ⟨x, -, hwf⟩
      exact hwf
  · cases started with
    | ok _ => exact hquiet (moves_submitStarted broker intent _ safety)
    | error e =>
        dsimp only
        split
        · exact hquiet ((Program.Calls.atomically (moves_read _)).andThen fun _ => by trivial)
        · exact fun s _ hwf => hwf

/-- A worker starts no order before the barrier holds. -/
theorem upholds_submitOne (hH : Set.InjOn sha256Hex H) (id : String)
    (safety : SubmissionSafetySnapshot) (paperContext : Option PaperGateContext) :
    Upholds H (fun _ _ => True) ((ledgerService broker).submitOne id safety paperContext)
      fun s => WellFormed s.1 := by
  have hdone : ∀ {K : MemoryExecutionRepository × β → Prop} (result : SubmissionResult),
      Upholds H (fun _ _ => True) (pure result) K := fun _ _ _ _ => trivial
  have herror : ∀ (e : PlatformError) (s : MemoryExecutionRepository × β), True :=
    fun _ _ => trivial
  refine read_bind (fun _ hwf => hwf) (fun b₀ intent _ hwf₀ hintent => ?_) herror
  refine read_bind (fun _ => And.left) (fun b₁ order _ hafter₁ _ => ?_) herror
  have hid : intent.clientOrderId = id := hwf₀.intent_key id intent (getIntent_eq_ok.1 hintent)
  have hintent₁ : b₁.1.intentTable.get? intent.clientOrderId = some intent :=
    hid ▸ hafter₁.2.intents _ _ (getIntent_eq_ok.1 hintent)
  split
  · exact hdone _
  split
  · exact hdone _
  split
  · exact hdone _
  split
  · exact hdone _
  next happroved =>
  have hsafety := safetyReasons_of_approved broker (by simpa using happroved)
  refine settled_bind (upholds_submissionAuthority broker safety hsafety hintent₁)
    (fun granted middle hgranted => ?_) herror
  cases granted with
  | error reasons => exact hdone _
  | ok authority =>
      have hstart := upholds_startAndSubmit broker hH safety (hgranted authority rfl)
      rw [hid] at hstart
      exact hstart.weaken fun _ _ _ => trivial

end Concurrency

/-! ## Interleaved workers -/

/-- One worker's call of `submit_one`. -/
structure SubmissionTask where
  clientOrderId : String
  safety : SubmissionSafetySnapshot
  paperContext : Option PaperGateContext

/-- Workers that share a ledger and a broker, interleaved with each other and with an environment
that moves orders forward. Every visited ledger hashes values of `H` only. -/
def workers {β ι : Type} [DecidableEq ι] (H : Set Canonical) (broker : AcceptedBroker β)
    (tasks : ι → SubmissionTask) :
    Transition (Interleaved (MemoryExecutionRepository × β) PlatformError SubmissionResult ι)
      (Option ι) :=
  interleaved (Within H) Moves (fun s => WellFormed s.1) fun i =>
    (ledgerService broker).submitOne (tasks i).clientOrderId (tasks i).safety (tasks i).paperContext

theorem workers_compatible {β ι : Type} {H : Set Canonical} (hH : Set.InjOn sha256Hex H)
    (broker : AcceptedBroker β) (tasks : ι → SubmissionTask) :
    Compatible (Within H) (Moves (β := β)) Rely Guarantee (fun _ _ => True)
      (fun s => WellFormed s.1) fun i => (ledgerService broker).submitOne (tasks i).clientOrderId
        (tasks i).safety (tasks i).paperContext where
  guarantee _ _ h := h.1
  environment _ _ h hwf := ⟨(h hwf).1, (h hwf).2.1⟩
  programs _ := ⟨fun s => WellFormed s.1, stable_wellFormed, fun _ => id,
    upholds_submitOne broker hH _ _ _⟩

/-- The barrier under concurrency. If no two of the values hashed along a run have the same hash,
then whenever an order moves to `SUBMISSION_STARTED` no other order of its experiment is in
`SUBMISSION_STARTED`, `SUBMISSION_UNKNOWN` or `RECONCILIATION_REQUIRED`, and no latch of the
experiment is engaged if the intent opens exposure. -/
theorem submission_barrier {β ι : Type} [DecidableEq ι] {H : Set Canonical}
    (hH : Set.InjOn sha256Hex H) (broker : AcceptedBroker β) (tasks : ι → SubmissionTask)
    {c d : Interleaved (MemoryExecutionRepository × β) PlatformError SubmissionResult ι}
    {l : Option ι} (hc : (workers H broker tasks).Reachable c)
    (hstep : (workers H broker tasks).step c l d) {k : String}
    (hstarts : Starts c.state.1 d.state.1 k) : Barrier c.state.1 k := by
  have hcompatible := workers_compatible hH broker tasks
  have hwf : WellFormed c.state.1 := hcompatible.invariant stable_wellFormed (fun _ => id) hc
  cases l with
  | some i => exact (hcompatible.step_guarantee hc hstep).2 k hstarts
  | none =>
      cases hstep with
      | environment _ hmove => exact absurd hstarts ((hmove hwf).2.2 k)

end AdaptiveTrader
