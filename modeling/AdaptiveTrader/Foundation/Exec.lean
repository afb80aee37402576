import Mathlib.Tactic

/-!
# Computations that mutate a state and may raise

`Exec σ ε α` runs on a state `σ` and ends with a value or an error; in both cases the state written
so far stays. A `transaction` is the special case that writes everything or nothing.

`Exec.Respects R x` says that every execution of `x`, raising or not, relates its initial state to
its final one. For a reflexive transitive `R` it is closed under sequencing, iteration and recovery
from errors, so an argument about a long computation splits into one obligation per primitive.
-/

set_option autoImplicit false

namespace Foundation

universe u v w

/-- A computation over a mutable state; an error keeps the state written before it was raised. -/
def Exec (σ : Type u) (ε : Type v) (α : Type w) := σ → Except ε α × σ

namespace Exec

variable {σ : Type u} {ε : Type v} {α β : Type w}

/-- End without touching the state. -/
def ret (a : α) : Exec σ ε α := fun s => (.ok a, s)

/-- Sequencing: an error of the first computation ends the second. -/
def andThen (x : Exec σ ε α) (f : α → Exec σ ε β) : Exec σ ε β := fun s =>
  match x s with
  | (.ok a, s') => f a s'
  | (.error e, s') => (.error e, s')

instance : Monad (Exec σ ε) where
  pure := ret
  bind := andThen

/-- Raise. -/
def raise (e : ε) : Exec σ ε α := fun s => (.error e, s)

/-- `try x except: handler`. -/
def recover (x : Exec σ ε α) (handler : ε → Exec σ ε α) : Exec σ ε α := fun s =>
  match x s with
  | (.ok a, s') => (.ok a, s')
  | (.error e, s') => handler e s'

/-- Read the state. -/
def read (f : σ → Except ε α) : Exec σ ε α := fun s => (f s, s)

/-- Replace the state. -/
def modify (f : σ → σ) : Exec σ ε PUnit := fun s => (.ok PUnit.unit, f s)

/-- A computation that writes its whole effect or, when it raises, nothing. -/
def transaction (f : σ → Except ε (α × σ)) : Exec σ ε α := fun s =>
  match f s with
  | .ok (a, s') => (.ok a, s')
  | .error e => (.error e, s)

/-- `for item in items: body(item)`, collecting the results. -/
def forEach {γ : Type w} (body : γ → Exec σ ε α) : List γ → Exec σ ε (List α)
  | [] => ret []
  | item :: rest => andThen (body item) fun a => andThen (forEach body rest) fun as => ret (a :: as)

theorem bind_eq (x : Exec σ ε α) (f : α → Exec σ ε β) : (x >>= f) = andThen x f := rfl

theorem pure_eq (a : α) : (pure a : Exec σ ε α) = ret a := rfl

theorem andThen_of_ok {x : Exec σ ε α} {f : α → Exec σ ε β} {s t : σ} {a : α}
    (h : x s = (.ok a, t)) : andThen x f s = f a t := by
  simp [andThen, h]

theorem andThen_of_error {x : Exec σ ε α} {f : α → Exec σ ε β} {s t : σ} {e : ε}
    (h : x s = (.error e, t)) : andThen x f s = (.error e, t) := by
  simp [andThen, h]

theorem andThen_eq_ok_iff {x : Exec σ ε α} {f : α → Exec σ ε β} {s s' : σ} {b : β} :
    andThen x f s = (.ok b, s') ↔ ∃ a t, x s = (.ok a, t) ∧ f a t = (.ok b, s') := by
  unfold andThen
  constructor
  · intro h
    split at h
    · next a t hx => exact ⟨a, t, hx, h⟩
    · next e t hx => simp at h
  · rintro ⟨a, t, hx, hf⟩
    simp [hx, hf]

/-- An error of a sequence is an error of its first part, or of its second after a success. -/
theorem andThen_eq_error_iff {x : Exec σ ε α} {f : α → Exec σ ε β} {s s' : σ} {e : ε} :
    andThen x f s = (.error e, s') ↔
      x s = (.error e, s') ∨ ∃ a t, x s = (.ok a, t) ∧ f a t = (.error e, s') := by
  unfold andThen
  constructor
  · intro h
    split at h
    · next a t hx => exact Or.inr ⟨a, t, hx, h⟩
    · next e' t hx =>
        simp only [Prod.mk.injEq, Except.error.injEq] at h
        exact Or.inl (by rw [hx, h.1, h.2])
  · rintro (hx | ⟨a, t, hx, hf⟩)
    · simp [hx]
    · simp [hx, hf]

/-- What holds after either end of the first computation holds after the sequence. -/
theorem andThen_ends {P : σ → Prop} {x : Exec σ ε α} {f : α → Exec σ ε β} {s : σ}
    (hok : ∀ a t, x s = (.ok a, t) → P (f a t).2) (herror : ∀ e t, x s = (.error e, t) → P t) :
    P (andThen x f s).2 := by
  unfold andThen
  split
  · next a t hx => exact hok a t hx
  · next e t hx => exact herror e t hx

theorem transaction_snd_of_error {f : σ → Except ε (α × σ)} {s : σ} {e : ε}
    (h : (transaction f s).1 = .error e) : (transaction f s).2 = s := by
  unfold transaction at h ⊢
  split at h
  · simp at h
  · rfl

/-- A transaction that raises keeps the state. -/
theorem transaction_error {f : σ → Except ε (α × σ)} {s s' : σ} {e : ε}
    (h : transaction f s = (.error e, s')) : s' = s := by
  have hsnd := transaction_snd_of_error (congrArg Prod.fst h)
  rw [h] at hsnd
  exact hsnd

theorem transaction_eq_ok_iff {f : σ → Except ε (α × σ)} {s s' : σ} {a : α} :
    transaction f s = (.ok a, s') ↔ f s = .ok (a, s') := by
  unfold transaction
  split
  · next a' t hf => simp [hf]
  · next e hf => simp [hf]

/-! ## Relations between the two ends of an execution -/

/-- Every execution of `x`, raising or not, relates its initial to its final state. -/
def Respects (R : σ → σ → Prop) (x : Exec σ ε α) : Prop := ∀ s, R s (x s).2

/-- The relations that executions compose along. -/
structure Composable (R : σ → σ → Prop) : Prop where
  refl : ∀ s, R s s
  trans : ∀ {s t u}, R s t → R t u → R s u

namespace Respects

variable {R : σ → σ → Prop}

theorem ret (hR : Composable R) (a : α) : Respects (ε := ε) R (Exec.ret a) := fun s => hR.refl s

theorem raise (hR : Composable R) (e : ε) : Respects R (Exec.raise e : Exec σ ε α) :=
  fun s => hR.refl s

theorem read (hR : Composable R) (f : σ → Except ε α) : Respects R (Exec.read f) :=
  fun s => hR.refl s

theorem andThen (hR : Composable R) {x : Exec σ ε α} {f : α → Exec σ ε β} (hx : Respects R x)
    (hf : ∀ a, Respects R (f a)) : Respects R (Exec.andThen x f) := by
  intro s
  have hs := hx s
  unfold Exec.andThen
  split
  · next a t h =>
      rw [h] at hs
      exact hR.trans hs (hf a t)
  · next e t h =>
      rw [h] at hs
      exact hs

theorem recover (hR : Composable R) {x : Exec σ ε α} {handler : ε → Exec σ ε α}
    (hx : Respects R x) (hh : ∀ e, Respects R (handler e)) :
    Respects R (Exec.recover x handler) := by
  intro s
  have hs := hx s
  unfold Exec.recover
  split
  · next a t h =>
      rw [h] at hs
      exact hs
  · next e t h =>
      rw [h] at hs
      exact hR.trans hs (hh e t)

/-- A transaction respects `R` when each of its successful writes does. -/
theorem transaction (hR : Composable R) {f : σ → Except ε (α × σ)}
    (hf : ∀ s a s', f s = .ok (a, s') → R s s') : Respects R (Exec.transaction f) := by
  intro s
  unfold Exec.transaction
  split
  · next a t h => exact hf s a t h
  · exact hR.refl s

theorem forEach (hR : Composable R) {γ : Type w} {body : γ → Exec σ ε α}
    (hb : ∀ item, Respects R (body item)) (items : List γ) :
    Respects R (Exec.forEach body items) := by
  induction items with
  | nil => exact Respects.ret hR []
  | cons item rest ih =>
      exact Respects.andThen hR (hb item) fun a => Respects.andThen hR ih fun as => Respects.ret hR _

end Respects

end Exec

end Foundation
