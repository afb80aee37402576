import AdaptiveTrader.Foundation.Programs

/-!
# Processes that stop and start again

A process runs one operation after another over a shared state. Each operation is a program of
atomic calls. The process may stop between any two calls, and a new one then begins with another
operation: what was written stays, what only the process knew is lost.

`Lifecycle.Maintains.reachable` is the rule for such runs. When every operation upholds an invariant by
itself, under an environment that the invariant survives, and when stopping and going on keep it,
then the invariant holds in every state of a run, and the postcondition of an operation holds where
it has come to its end.
-/

set_option autoImplicit false

namespace Foundation

variable {σ ε α κ : Type}

/-- A shared state, the operation that was begun last and what is left of it. -/
structure Process (σ ε α κ : Type) : Type 1 where
  state : σ
  operation : κ
  remaining : Program σ ε α

/-- How a process goes through its operations: what each does, which may follow which, what happens
around them and what a stop loses. -/
structure Lifecycle (σ ε α κ : Type) where
  program : κ → Program σ ε α
  follows : κ → κ → Prop
  environment : σ → σ → Prop
  stops : σ → σ → Prop

inductive ProcessLabel
  | environment
  | call
  | proceed
  | restart
  deriving DecidableEq

namespace Lifecycle

variable (life : Lifecycle σ ε α κ)

/-- The steps of a process. An operation that has come to its end, by a value or by an error, is
followed by the next one; a stop may come at any time. -/
inductive Step : Process σ ε α κ → ProcessLabel → Process σ ε α κ → Prop
  | environment {c : Process σ ε α κ} {t : σ} (h : life.environment c.state t) :
      Step c .environment { c with state := t }
  | call {c : Process σ ε α κ} {γ : Type} {action : Exec σ ε γ} {next : Except ε γ → Program σ ε α}
      (h : c.remaining = .call action next) :
      Step c .call ⟨(action c.state).2, c.operation, next (action c.state).1⟩
  | proceed {c : Process σ ε α κ} {r : Except ε α} {k : κ} (h : c.remaining = .done r)
      (hk : life.follows c.operation k) : Step c .proceed ⟨c.state, k, life.program k⟩
  | restart {c : Process σ ε α κ} {t : σ} {k : κ} (ht : life.stops c.state t)
      (hk : life.follows c.operation k) : Step c .restart ⟨t, k, life.program k⟩

/-- The runs of a process that begins in one of the states `start`. -/
def runs (start : σ → κ → Prop) : Transition (Process σ ε α κ) ProcessLabel where
  init c := start c.state c.operation ∧ c.remaining = life.program c.operation
  step := life.Step

/-- Every state counts. -/
abbrev Anywhere (σ : Type) : σ → Prop := fun _ => True

/-- What a run maintains: the invariant, and what is left of the operation upholds what is known. -/
structure Upheld (R : σ → σ → Prop) (I : κ → σ → Prop) (Q : κ → Except ε α → σ → Prop)
    (c : Process σ ε α κ) : Prop where
  invariant : I c.operation c.state
  known : ∃ K, Program.Stable (Anywhere σ) R K ∧ K c.state ∧
    c.remaining.Upholds (Anywhere σ) R (fun _ t => I c.operation t) (Q c.operation) K

variable {life} {R : σ → σ → Prop} {I : κ → σ → Prop} {Q : κ → Except ε α → σ → Prop}

/-- What an operation that has ended left behind. -/
theorem Upheld.ended {c : Process σ ε α κ} (h : Upheld R I Q c) {r : Except ε α}
    (hr : c.remaining = .done r) : Q c.operation r c.state := by
  obtain ⟨K, -, hK, hup⟩ := h.known
  rw [hr] at hup
  exact hup _ trivial hK

/-- The obligations of a lifecycle: the environment is relied on, the invariant survives it and every
other way to go on, and each operation upholds it. -/
structure Maintains (life : Lifecycle σ ε α κ) (R : σ → σ → Prop) (I : κ → σ → Prop)
    (Q : κ → Except ε α → σ → Prop) : Prop where
  environment : ∀ s t, life.environment s t → R s t
  stable : ∀ k, Program.Stable (Anywhere σ) R (I k)
  proceeds : ∀ k k' r s, I k s → Q k r s → life.follows k k' → I k' s
  stops : ∀ k k' s t, I k s → life.stops s t → life.follows k k' → I k' t
  program : ∀ k, (life.program k).Upholds (Anywhere σ) R (fun _ t => I k t) (Q k) (I k)

/-- An operation that begins where the invariant holds. -/
theorem Maintains.begin (h : life.Maintains R I Q) {k : κ} {s : σ} (hs : I k s) :
    Upheld R I Q ⟨s, k, life.program k⟩ :=
  ⟨hs, I k, h.stable k, hs, h.program k⟩

theorem Maintains.step (h : life.Maintains R I Q) {c d : Process σ ε α κ} {l : ProcessLabel}
    (hc : Upheld R I Q c) (hstep : life.Step c l d) : Upheld R I Q d := by
  cases hstep with
  | environment hmove =>
      have hR := h.environment _ _ hmove
      obtain ⟨K, hstable, hK, hup⟩ := hc.known
      exact ⟨h.stable _ _ _ trivial trivial hR hc.invariant,
        K, hstable, hstable _ _ trivial trivial hR hK, hup⟩
  | call hcall =>
      obtain ⟨K, -, hK, hup⟩ := hc.known
      rw [hcall] at hup
      -- the guarantee of a call is the invariant behind it
      obtain ⟨hinvariant, K', hstable', hK', hnext⟩ := hup _ trivial hK trivial
      exact ⟨hinvariant, K', hstable', hK', hnext⟩
  | proceed hdone hk => exact h.begin (h.proceeds _ _ _ _ hc.invariant (hc.ended hdone) hk)
  | restart ht hk => exact h.begin (h.stops _ _ _ _ hc.invariant ht hk)

/-- The rule for runs of a process that stops and starts again. -/
theorem Maintains.reachable (h : life.Maintains R I Q) {start : σ → κ → Prop}
    (hstart : ∀ s k, start s k → I k s) {c : Process σ ε α κ}
    (hc : (life.runs start).Reachable c) : Upheld R I Q c := by
  refine hc.invariant (P := Upheld R I Q) ?_ fun _ _ _ hs hst => h.step hs hst
  rintro ⟨s, k, p⟩ ⟨hs, rfl : p = life.program k⟩
  exact h.begin (hstart _ _ hs)

end Lifecycle

/-! ## Undisturbed runs -/

namespace Process

/-- The process behind the next call of its operation; at the end nothing is left to do. -/
def advance (c : Process σ ε α κ) : Process σ ε α κ :=
  match c.remaining with
  | .done _ => c
  | .call action next => ⟨(action c.state).2, c.operation, next (action c.state).1⟩

/-- The operation has come to its end with a value. -/
def returned (c : Process σ ε α κ) : Bool :=
  match c.remaining with
  | .done (.ok _) => true
  | _ => false

theorem exists_of_returned {c : Process σ ε α κ} (h : c.returned = true) :
    ∃ a, c.remaining = .done (.ok a) := by
  unfold returned at h
  split at h
  · next a hdone => exact ⟨a, hdone⟩
  · cases h

theorem operation_advance (c : Process σ ε α κ) (n : Nat) :
    (advance^[n] c).operation = c.operation := by
  induction n generalizing c with
  | zero => rfl
  | succ n ih =>
      rw [Function.iterate_succ_apply, ih]
      unfold advance
      split <;> rfl

variable {life : Lifecycle σ ε α κ} {start : σ → κ → Prop}

theorem reachable_advance {c : Process σ ε α κ} (h : (life.runs start).Reachable c) (n : Nat) :
    (life.runs start).Reachable (advance^[n] c) := by
  induction n generalizing c with
  | zero => exact h
  | succ n ih =>
      rw [Function.iterate_succ_apply]
      refine ih ?_
      unfold advance
      split
      · exact h
      · next hcall => exact h.tail (.call hcall)

/-- The next operation after one that has returned. -/
theorem reachable_proceed {c : Process σ ε α κ} (h : (life.runs start).Reachable c)
    (hreturned : c.returned = true) {k : κ} (hk : life.follows c.operation k) :
    (life.runs start).Reachable ⟨c.state, k, life.program k⟩ := by
  obtain ⟨a, hdone⟩ := exists_of_returned hreturned
  exact h.tail (.proceed hdone hk)

end Process

end Foundation
