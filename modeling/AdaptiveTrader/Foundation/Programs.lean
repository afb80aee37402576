import AdaptiveTrader.Foundation.Exec
import AdaptiveTrader.Foundation.Transition

/-!
# Programs of atomic calls

A `Program σ ε α` is a sequence of atomic calls on a shared state, each chosen from the results of
the earlier ones. It has two meanings. `Program.exec` performs the calls one after the other without
interference. `interleaved` lets any number of programs and an environment take turns, one call at a
time.

`Program.Upholds R G K Q p` is the rely-guarantee judgement. From a state with knowledge `K`, every
call of `p` changes the state by a step of `G` and leaves knowledge that steps of `R` cannot
invalidate; at the end `Q` holds. If every program guarantees what the others rely on, every step of
an interleaved run is a step of the program's guarantee (`Compatible.step_guarantee`). States outside
`allowed` are excluded from the judgement and from the runs alike.
-/

set_option autoImplicit false

namespace Foundation

universe u

/-- A sequence of atomic calls on a shared state, ending with a value or an error. -/
inductive Program (σ ε : Type) (α : Type) : Type 1
  | done (result : Except ε α)
  | call {γ : Type} (action : Exec σ ε γ) (next : Except ε γ → Program σ ε α)

namespace Program

variable {σ ε α β : Type}

/-- One atomic call. -/
def atomically (action : Exec σ ε α) : Program σ ε α := call action done

/-- A computation without a call. -/
def pureExcept (x : Except ε α) : Program σ ε α := done x

/-- Sequencing: an error of the first program ends the second. -/
def andThen (p : Program σ ε α) (f : α → Program σ ε β) : Program σ ε β :=
  match p with
  | done (.ok a) => f a
  | done (.error e) => done (.error e)
  | call action next => call action fun r => andThen (next r) f

/-- `try p except: handler`. -/
def recover (p : Program σ ε α) (handler : ε → Program σ ε α) : Program σ ε α :=
  match p with
  | done (.ok a) => done (.ok a)
  | done (.error e) => handler e
  | call action next => call action fun r => recover (next r) handler

/-- The outcome of a program, an error included, as a value. -/
def attempt (p : Program σ ε α) : Program σ ε (Except ε α) :=
  match p with
  | done r => done (.ok r)
  | call action next => call action fun r => attempt (next r)

instance : Monad (Program σ ε) where
  pure a := done (.ok a)
  bind := andThen

/-- `for item in items: body(item)`, collecting the results. -/
def forEach {γ : Type} (body : γ → Program σ ε α) : List γ → Program σ ε (List α)
  | [] => done (.ok [])
  | item :: rest => andThen (body item) fun a => andThen (forEach body rest) fun as =>
      done (.ok (a :: as))

/-! ## Execution without interference -/

/-- Perform all calls in a row. -/
def exec : Program σ ε α → Exec σ ε α
  | done r => fun s => (r, s)
  | call action next => fun s => (next (action s).1).exec (action s).2

@[simp] theorem exec_done_ok (a : α) : (done (.ok a) : Program σ ε α).exec = Exec.ret a := rfl

@[simp] theorem exec_done_error (e : ε) : (done (.error e) : Program σ ε α).exec = Exec.raise e :=
  rfl

@[simp] theorem exec_pure (a : α) : (pure a : Program σ ε α).exec = Exec.ret a := rfl

@[simp] theorem exec_atomically (action : Exec σ ε α) : (atomically action).exec = action := rfl

theorem exec_pureExcept (x : Except ε α) :
    (pureExcept x : Program σ ε α).exec = Exec.read fun _ => x := rfl

theorem exec_andThen (p : Program σ ε α) (f : α → Program σ ε β) :
    (andThen p f).exec = Exec.andThen p.exec fun a => (f a).exec := by
  induction p with
  | done r => cases r <;> rfl
  | call action next ih =>
      funext s
      exact congrFun (ih (action s).1) (action s).2

@[simp] theorem exec_bind (p : Program σ ε α) (f : α → Program σ ε β) :
    (p >>= f).exec = Exec.andThen p.exec fun a => (f a).exec :=
  exec_andThen p f

@[simp] theorem exec_recover (p : Program σ ε α) (handler : ε → Program σ ε α) :
    (recover p handler).exec = Exec.recover p.exec fun e => (handler e).exec := by
  induction p with
  | done r => cases r <;> rfl
  | call action next ih =>
      funext s
      exact congrFun (ih (action s).1) (action s).2

@[simp] theorem exec_attempt (p : Program σ ε α) :
    p.attempt.exec = fun s => (.ok (p.exec s).1, (p.exec s).2) := by
  induction p with
  | done r => rfl
  | call action next ih =>
      funext s
      exact congrFun (ih (action s).1) (action s).2

theorem exec_attempt_bind (action : Exec σ ε α) (f : Except ε α → Program σ ε β) (s : σ) :
    ((atomically action).attempt >>= f).exec s = (f (action s).1).exec (action s).2 := rfl

@[simp] theorem exec_forEach {γ : Type} (body : γ → Program σ ε α) (items : List γ) :
    (forEach body items).exec = Exec.forEach (fun item => (body item).exec) items := by
  induction items with
  | nil => rfl
  | cons item rest ih =>
      simp only [forEach, exec_andThen, exec_done_ok, ih, Exec.forEach]

/-- Every call of the program has the property. -/
def Calls (P : ∀ {γ : Type}, Exec σ ε γ → Prop) : Program σ ε α → Prop
  | done _ => True
  | call action next => P action ∧ ∀ r, Calls P (next r)

namespace Calls

variable {P : ∀ {γ : Type}, Exec σ ε γ → Prop}

theorem andThen {p : Program σ ε α} {f : α → Program σ ε β} (hp : p.Calls P)
    (hf : ∀ a, (f a).Calls P) : (p >>= f).Calls P := by
  induction p with
  | done r =>
      cases r with
      | ok a => exact hf a
      | error e => trivial
  | call action next ih => exact ⟨hp.1, fun r => ih r (hp.2 r)⟩

theorem attempt {p : Program σ ε α} (hp : p.Calls P) : p.attempt.Calls P := by
  induction p with
  | done r => trivial
  | call action next ih => exact ⟨hp.1, fun r => ih r (hp.2 r)⟩

theorem atomically {action : Exec σ ε α} (h : P action) :
    (Program.atomically action).Calls P :=
  ⟨h, fun _ => trivial⟩

theorem forEach {γ : Type} {body : γ → Program σ ε α} (hb : ∀ item, (body item).Calls P)
    (items : List γ) : (Program.forEach body items).Calls P := by
  induction items with
  | nil => trivial
  | cons item rest ih => exact (hb item).andThen fun a => ih.andThen fun as => trivial

/-- A program whose calls respect a relation respects it. -/
theorem respects {R : σ → σ → Prop} (hR : Exec.Composable R) {p : Program σ ε α}
    (hp : p.Calls fun action => Exec.Respects R action) : Exec.Respects R p.exec := by
  induction p with
  | done r => exact fun s => hR.refl s
  | call action next ih =>
      exact fun s => hR.trans (hp.1 s) (ih _ (hp.2 _) (action s).2)

end Calls

/-! ## Rely and guarantee -/

/-- Knowledge that the rely cannot invalidate, between allowed states. -/
def Stable (allowed : σ → Prop) (R : σ → σ → Prop) (K : σ → Prop) : Prop :=
  ∀ s t, allowed s → allowed t → R s t → K s → K t

/-- The rely-guarantee judgement. -/
def Upholds (allowed : σ → Prop) (R G : σ → σ → Prop) (Q : Except ε α → σ → Prop) :
    Program σ ε α → (σ → Prop) → Prop
  | done r, K => ∀ s, allowed s → K s → Q r s
  | call action next, K => ∀ s, allowed s → K s → allowed (action s).2 →
      G s (action s).2 ∧ ∃ K', Stable allowed R K' ∧ K' (action s).2 ∧
        Upholds allowed R G Q (next (action s).1) K'

variable {allowed : σ → Prop} {R G : σ → σ → Prop}

/-- More knowledge upholds what less does. -/
theorem Upholds.strengthen {Q : Except ε α → σ → Prop} {p : Program σ ε α} {K K' : σ → Prop}
    (h : p.Upholds allowed R G Q K) (hK : ∀ s, allowed s → K' s → K s) :
    p.Upholds allowed R G Q K' := by
  cases p with
  | done r => exact fun s hs hk => h s hs (hK s hs hk)
  | call action next => exact fun s hs hk => h s hs (hK s hs hk)

/-- A weaker postcondition. -/
theorem Upholds.weaken {Q Q' : Except ε α → σ → Prop} {p : Program σ ε α} {K : σ → Prop}
    (h : p.Upholds allowed R G Q K) (hQ : ∀ r s, Q r s → Q' r s) :
    p.Upholds allowed R G Q' K := by
  induction p generalizing K with
  | done r => exact fun s hs hk => hQ r s (h s hs hk)
  | call action next ih =>
      intro s hs hk hs'
      obtain ⟨hG, K', hstable, hK', hnext⟩ := h s hs hk hs'
      exact ⟨hG, K', hstable, hK', ih _ hnext⟩

/-- Sequencing: the second program starts from what the first one ends with. -/
theorem Upholds.bind {Q : Except ε α → σ → Prop} {Q' : Except ε β → σ → Prop}
    {p : Program σ ε α} {f : α → Program σ ε β} {K : σ → Prop} (hp : p.Upholds allowed R G Q K)
    (hf : ∀ a, (f a).Upholds allowed R G Q' (Q (.ok a)))
    (he : ∀ e s, Q (.error e) s → Q' (.error e) s) : (p >>= f).Upholds allowed R G Q' K := by
  induction p generalizing K with
  | done r =>
      cases r with
      | ok a => exact (hf a).strengthen hp
      | error e => exact fun s hs hk => he e s (hp s hs hk)
  | call action next ih =>
      intro s hs hk hs'
      obtain ⟨hG, K', hstable, hK', hnext⟩ := hp s hs hk hs'
      exact ⟨hG, K', hstable, hK', ih _ hnext⟩

/-- Handling the outcome: the program's postcondition, as a fact about the outcome. -/
theorem Upholds.attempt {Q : Except ε α → σ → Prop} {p : Program σ ε α} {K : σ → Prop}
    (hp : p.Upholds allowed R G Q K) :
    p.attempt.Upholds allowed R G (fun r s => ∃ x, r = .ok x ∧ Q x s) K := by
  induction p generalizing K with
  | done r => exact fun s hs hk => ⟨r, rfl, hp s hs hk⟩
  | call action next ih =>
      intro s hs hk hs'
      obtain ⟨hG, K', hstable, hK', hnext⟩ := hp s hs hk hs'
      exact ⟨hG, K', hstable, hK', ih _ hnext⟩

/-- One call whose postcondition is stable. -/
theorem Upholds.atomically {action : Exec σ ε α} {Q : Except ε α → σ → Prop} {K : σ → Prop}
    (hstable : ∀ r, Stable allowed R (Q r))
    (h : ∀ s, allowed s → K s → allowed (action s).2 →
      G s (action s).2 ∧ Q (action s).1 (action s).2) :
    (Program.atomically action).Upholds allowed R G Q K := by
  intro s hs hk hs'
  obtain ⟨hG, hQ⟩ := h s hs hk hs'
  exact ⟨hG, Q (action s).1, hstable _, hQ, fun _ _ hq => hq⟩

/-- A computation without a call keeps what is known. -/
theorem Upholds.pureExcept_bind {x : Except ε α} {f : α → Program σ ε β}
    {Q : Except ε β → σ → Prop} {K : σ → Prop}
    (hok : ∀ a, x = .ok a → (f a).Upholds allowed R G Q K) (he : ∀ e s, Q (.error e) s) :
    (Program.pureExcept x >>= f).Upholds allowed R G Q K := by
  cases x with
  | ok a => exact hok a rfl
  | error e => exact fun s _ _ => he e s

/-- Different knowledge after a value and after an error. -/
def Ends (K J : σ → Prop) : Except ε α → σ → Prop
  | .ok _ => K
  | .error _ => J

/-- A loop: each turn takes the knowledge about the items still to come one item further. -/
theorem Upholds.forEach {γ : Type} {body : γ → Program σ ε α} {inv : List γ → σ → Prop}
    {J : σ → Prop} (hbody : ∀ item rest,
      (body item).Upholds allowed R G (Ends (inv rest) J) (inv (item :: rest)))
    (items : List γ) : (forEach body items).Upholds allowed R G (Ends (inv []) J) (inv items) := by
  induction items with
  | nil => exact fun s _ hk => hk
  | cons item rest ih =>
      refine (hbody item rest).bind (fun a => ?_) fun e s hs => hs
      exact ih.bind (fun as s _ hk => hk) fun e s hs => hs

/-- Knowledge of a past state: whichever it was. -/
theorem Upholds.exists {τ : Type} {Q : Except ε α → σ → Prop} {p : Program σ ε α}
    {K : τ → σ → Prop} (h : ∀ x, p.Upholds allowed R G Q (K x)) :
    p.Upholds allowed R G Q fun s => ∃ x, K x s := by
  cases p with
  | done r => exact fun s hs ⟨x, hk⟩ => h x s hs hk
  | call action next => exact fun s hs ⟨x, hk⟩ => h x s hs hk

/-- Knowledge that does not depend on the state. -/
theorem Upholds.of_fact {fact : Prop} {Q : Except ε α → σ → Prop} {p : Program σ ε α}
    {K : σ → Prop} (h : fact → p.Upholds allowed R G Q K) :
    p.Upholds allowed R G Q fun s => fact ∧ K s := by
  cases p with
  | done r => exact fun s hs hk => h hk.1 s hs hk.2
  | call action next => exact fun s hs hk => h hk.1 s hs hk.2

/-- Calls that move within `M` keep knowledge that `M` keeps. -/
theorem Calls.upholds {K : σ → Prop} {M : σ → σ → Prop} {p : Program σ ε α}
    (hK : Stable allowed R K)
    (hM : ∀ s t, allowed s → allowed t → K s → M s t → G s t ∧ K t)
    (hp : p.Calls fun action => Exec.Respects M action) :
    p.Upholds allowed R G (fun _ => K) K := by
  induction p with
  | done r => exact fun s _ hk => hk
  | call action next ih =>
      intro s hs hk hs'
      obtain ⟨hG, hKt⟩ := hM s _ hs hs' hk (hp.1 s)
      exact ⟨hG, K, hK, hKt, ih _ (hp.2 _)⟩

/-- Knowledge that the calls keep stays beside what the program upholds. -/
theorem Upholds.frame {M : σ → σ → Prop} {Q : Except ε α → σ → Prop} {p : Program σ ε α}
    {K F : σ → Prop} (hp : p.Upholds allowed R G Q K) (hF : Stable allowed R F)
    (hM : ∀ s t, M s t → F s → F t) (hcalls : p.Calls fun action => Exec.Respects M action) :
    p.Upholds allowed R G (fun r s => Q r s ∧ F s) fun s => K s ∧ F s := by
  induction p generalizing K with
  | done r => exact fun s hs hk => ⟨hp s hs hk.1, hk.2⟩
  | call action next ih =>
      intro s hs hk hs'
      obtain ⟨hG, K', hstable, hK', hnext⟩ := hp s hs hk.1 hs'
      refine ⟨hG, fun t => K' t ∧ F t, ?_, ⟨hK', hM _ _ (hcalls.1 s) hk.2⟩, ih _ hnext (hcalls.2 _)⟩
      exact fun t u ht hu htu hboth =>
        ⟨hstable t u ht hu htu hboth.1, hF t u ht hu htu hboth.2⟩

end Program

/-! ## Interleaving -/

section Interleaving

variable {σ ε α : Type} {ι : Type}

/-- A shared state and what is left of each program. -/
structure Interleaved (σ ε α ι : Type) : Type 1 where
  state : σ
  programs : ι → Program σ ε α

variable [DecidableEq ι]

/-- One program performs its next call; `none` is a step of the environment. -/
inductive InterleavedStep (allowed : σ → Prop) (environment : σ → σ → Prop) :
    Interleaved σ ε α ι → Option ι → Interleaved σ ε α ι → Prop
  | environment {c : Interleaved σ ε α ι} {t : σ} (ht : allowed t) (h : environment c.state t) :
      InterleavedStep allowed environment c none ⟨t, c.programs⟩
  | program {c : Interleaved σ ε α ι} (i : ι) {γ : Type} {action : Exec σ ε γ}
      {next : Except ε γ → Program σ ε α} (hi : c.programs i = .call action next)
      (ht : allowed (action c.state).2) :
      InterleavedStep allowed environment c (some i)
        ⟨(action c.state).2, Function.update c.programs i (next (action c.state).1)⟩

/-- Any number of programs and an environment, taking turns through allowed states. -/
def interleaved (allowed : σ → Prop) (environment : σ → σ → Prop) (start : σ → Prop)
    (programs : ι → Program σ ε α) : Transition (Interleaved σ ε α ι) (Option ι) where
  init c := allowed c.state ∧ start c.state ∧ c.programs = programs
  step := InterleavedStep allowed environment

/-- What an interleaved run maintains: each program's remainder upholds its knowledge. -/
structure Guarded (allowed : σ → Prop) (R G : σ → σ → Prop) (Q : Except ε α → σ → Prop)
    (c : Interleaved σ ε α ι) : Prop where
  visited : allowed c.state
  known : ∀ i, ∃ K, Program.Stable allowed R K ∧ K c.state ∧ (c.programs i).Upholds allowed R G Q K

variable {allowed : σ → Prop} {environment : σ → σ → Prop} {R G : σ → σ → Prop}
  {Q : Except ε α → σ → Prop}

omit [DecidableEq ι] in
/-- Knowledge survives every step that the rely covers. -/
theorem Guarded.known_after {c : Interleaved σ ε α ι} (h : Guarded allowed R G Q c) {t : σ}
    (ht : allowed t) (hR : R c.state t) (i : ι) :
    ∃ K, Program.Stable allowed R K ∧ K t ∧ (c.programs i).Upholds allowed R G Q K := by
  obtain ⟨K, hstable, hK, hup⟩ := h.known i
  exact ⟨K, hstable, hstable _ _ h.visited ht hR hK, hup⟩

theorem Guarded.step (hrely : ∀ s t, G s t → R s t) (henv : ∀ s t, environment s t → R s t)
    {c d : Interleaved σ ε α ι} {l : Option ι} (h : Guarded allowed R G Q c)
    (hstep : InterleavedStep allowed environment c l d) :
    Guarded allowed R G Q d ∧ (l ≠ none → G c.state d.state) := by
  cases hstep with
  | environment ht hmove =>
      exact ⟨⟨ht, fun i => h.known_after ht (henv _ _ hmove) i⟩, fun hl => absurd rfl hl⟩
  | program i hi ht =>
      obtain ⟨K, -, hK, hup⟩ := h.known i
      rw [hi] at hup
      obtain ⟨hG, K', hstable', hK', hnext⟩ := hup _ h.visited hK ht
      refine ⟨⟨ht, fun j => ?_⟩, fun _ => hG⟩
      by_cases hj : j = i
      · subst hj
        exact ⟨K', hstable', hK', by simpa using hnext⟩
      · show ∃ K, _ ∧ _ ∧ (Function.update c.programs i _ j).Upholds allowed R G Q K
        rw [Function.update_of_ne hj]
        exact h.known_after ht (hrely _ _ hG) j

/-- Programs that guarantee what the others rely on. -/
structure Compatible (allowed : σ → Prop) (environment : σ → σ → Prop) (R G : σ → σ → Prop)
    (Q : Except ε α → σ → Prop) (start : σ → Prop) (programs : ι → Program σ ε α) : Prop where
  guarantee : ∀ s t, G s t → R s t
  environment : ∀ s t, environment s t → R s t
  programs : ∀ i, ∃ K, Program.Stable allowed R K ∧ (∀ s, start s → K s) ∧
    (programs i).Upholds allowed R G Q K

variable {start : σ → Prop} {programs : ι → Program σ ε α}

theorem Compatible.guarded (h : Compatible allowed environment R G Q start programs)
    {c : Interleaved σ ε α ι}
    (hc : (interleaved allowed environment start programs).Reachable c) :
    Guarded allowed R G Q c := by
  refine hc.invariant ?_ fun s l t hs hst => (hs.step h.guarantee h.environment hst).1
  rintro s ⟨hallowed, hstart, hprog⟩
  refine ⟨hallowed, fun j => ?_⟩
  obtain ⟨K, hstable, hK, hup⟩ := h.programs j
  exact ⟨K, hstable, hK _ hstart, hprog ▸ hup⟩

/-- Every step a program takes in an interleaved run is a step of the guarantee. -/
theorem Compatible.step_guarantee (h : Compatible allowed environment R G Q start programs)
    {c d : Interleaved σ ε α ι} {i : ι}
    (hc : (interleaved allowed environment start programs).Reachable c)
    (hstep : InterleavedStep allowed environment c (some i) d) : G c.state d.state :=
  ((h.guarded hc).step h.guarantee h.environment hstep).2 (by simp)

/-- What holds at the start and the rely preserves holds in every state of an interleaved run. -/
theorem Compatible.invariant (h : Compatible allowed environment R G Q start programs)
    {I : σ → Prop} (hI : Program.Stable allowed R I) (hstart : ∀ s, start s → I s)
    {c : Interleaved σ ε α ι}
    (hc : (interleaved allowed environment start programs).Reachable c) : I c.state := by
  have hboth : Guarded allowed R G Q c ∧ I c.state := by
    refine hc.invariant (P := fun c => Guarded allowed R G Q c ∧ I c.state) (fun s hs =>
      ⟨h.guarded (Transition.Reachable.of_init hs), hstart _ hs.2.1⟩) ?_
    rintro s l t ⟨hguarded, hs⟩ hstep
    obtain ⟨hguarded', hG⟩ := hguarded.step h.guarantee h.environment hstep
    refine ⟨hguarded', hI _ _ hguarded.visited hguarded'.visited ?_ hs⟩
    cases hstep with
    | environment _ hmove => exact h.environment _ _ hmove
    | program i _ _ => exact h.guarantee _ _ (hG (by simp))
  exact hboth.2

/-- One program under an environment: what holds at the start, survives the environment and is
re-established by every call holds in every state of a run. -/
theorem Guarded.solo_invariant {program : Program σ ε α} {K I : σ → Prop}
    (henv : ∀ s t, environment s t → R s t) (hstable : Program.Stable allowed R K)
    (hstart : ∀ s, start s → K s) (hprogram : program.Upholds allowed R G Q K)
    (hI : ∀ s, start s → I s) (hIenv : ∀ s t, allowed t → environment s t → I s → I t)
    (hIcall : ∀ s t, G s t → I s → I t) {c : Interleaved σ ε α Unit}
    (hc : (interleaved allowed environment start fun _ => program).Reachable c) : I c.state := by
  have hboth : Guarded allowed R G Q c ∧ I c.state := by
    refine hc.invariant (P := fun c => Guarded allowed R G Q c ∧ I c.state) ?_ ?_
    · rintro s ⟨hallowed, hs, hprog⟩
      exact ⟨⟨hallowed, fun _ => ⟨K, hstable, hstart _ hs, hprog ▸ hprogram⟩⟩, hI _ hs⟩
    · rintro s l t ⟨hguarded, hs⟩ hstep
      cases hstep with
      | environment ht hmove =>
          exact ⟨⟨ht, fun i => hguarded.known_after ht (henv _ _ hmove) i⟩, hIenv _ _ ht hmove hs⟩
      | program i hi ht =>
          obtain ⟨K', -, hK', hup⟩ := hguarded.known i
          rw [hi] at hup
          obtain ⟨hG, K'', hstable'', hK'', hnext⟩ := hup _ hguarded.visited hK' ht
          refine ⟨⟨ht, fun j => ⟨K'', hstable'', hK'', ?_⟩⟩, hIcall _ _ hG hs⟩
          cases i
          cases j
          simpa using hnext
  exact hboth.2

/-! ## Scripted runs -/

section Scripts

omit [DecidableEq ι]

/-- Run a program under a script: before each call the next entry changes the state. -/
def Program.played : List (σ → σ) → Program σ ε α → σ → Program σ ε α × σ
  | [], p, s => (p, s)
  | _ :: _, .done r, s => (.done r, s)
  | change :: rest, .call action next, s =>
      played rest (next (action (change s)).1) (action (change s)).2

/-- The states a scripted run goes through. -/
def Program.visited : List (σ → σ) → Program σ ε α → σ → List σ
  | [], _, _ => []
  | _ :: _, .done _, _ => []
  | change :: rest, .call action next, s =>
      change s :: (action (change s)).2 ::
        visited rest (next (action (change s)).1) (action (change s)).2

/-- A scripted run is a run of the interleaved system when its script is one of the environment. -/
theorem Program.reachable_played {allowed : σ → Prop} {environment : σ → σ → Prop}
    {start : σ → Prop} {program : Program σ ε α} (script : List (σ → σ))
    (hscript : ∀ change ∈ script, ∀ s, environment s (change s)) (p : Program σ ε α) (s : σ)
    (hvisited : ∀ t ∈ p.visited script s, allowed t)
    (hs : (interleaved allowed environment start fun _ : Unit => program).Reachable ⟨s, fun _ => p⟩) :
    (interleaved allowed environment start fun _ : Unit => program).Reachable
      ⟨(p.played script s).2, fun _ => (p.played script s).1⟩ := by
  induction script generalizing p s with
  | nil => exact hs
  | cons change rest ih =>
      cases p with
      | done r => exact hs
      | call action next =>
          have hchanged := Transition.Reachable.tail hs (.environment (hvisited _ List.mem_cons_self)
            (hscript change List.mem_cons_self s))
          have hcalled := Transition.Reachable.tail hchanged (.program () rfl
            (hvisited _ (List.mem_cons_of_mem _ List.mem_cons_self)))
          refine ih (fun change' h => hscript change' (List.mem_cons_of_mem _ h)) _ _
            (fun t ht => hvisited t (List.mem_cons_of_mem _ (List.mem_cons_of_mem _ ht))) ?_
          have hrest : Function.update (fun _ : Unit => Program.call action next) ()
              (next (action (change s)).1) = fun _ => next (action (change s)).1 := by
            funext i
            cases i
            exact Function.update_self ..
          exact hrest ▸ hcalled

end Scripts

end Interleaving

end Foundation
