import Mathlib.Logic.Relation
import Mathlib.Tactic

/-!
# Labelled transition systems

Runs, reachable states and the two rules every safety argument in this development uses: an
invariant that holds initially and survives each step holds in every reachable state
(`Transition.Reachable.invariant`), and a reflexive transitive relation that contains each step
relates the two ends of every run (`Transition.Run.related`). A third rule carries the reachable
states of one system to those of another (`Transition.Reachable.simulation`).

`Transition.restrict` keeps the steps that meet a guard. It states results of the form "in every run
whose steps all meet the condition".
-/

set_option autoImplicit false

namespace Foundation

universe u v

/-- Initial states and labelled steps. -/
structure Transition (σ : Type u) (ι : Type v) where
  init : σ → Prop
  step : σ → ι → σ → Prop

namespace Transition

variable {σ : Type u} {ι : Type v}

/-- The states connected by a finite sequence of steps; the labels in order. -/
inductive Run (T : Transition σ ι) (s : σ) : List ι → σ → Prop
  | refl : Run T s [] s
  | snoc {ls : List ι} {t u : σ} {l : ι} : Run T s ls t → T.step t l u → Run T s (ls ++ [l]) u

/-- States at the end of a run that starts initially. -/
def Reachable (T : Transition σ ι) (s : σ) : Prop := ∃ s₀ ls, T.init s₀ ∧ T.Run s₀ ls s

/-- The steps of `T` that meet the guard. -/
def restrict (T : Transition σ ι) (guard : σ → ι → Prop) : Transition σ ι where
  init := T.init
  step s l t := guard s l ∧ T.step s l t

variable {T : Transition σ ι}

theorem Reachable.of_init {s : σ} (h : T.init s) : T.Reachable s := ⟨s, [], h, Run.refl⟩

theorem Reachable.tail {s t : σ} {l : ι} (h : T.Reachable s) (hst : T.step s l t) :
    T.Reachable t := by
  obtain ⟨s₀, ls, h₀, hrun⟩ := h
  exact ⟨s₀, ls ++ [l], h₀, hrun.snoc hst⟩

theorem Run.single {s t : σ} {l : ι} (h : T.step s l t) : T.Run s [l] t := Run.snoc Run.refl h

/-- The last step of a run can be taken off. -/
theorem run_snoc_iff {s u : σ} {ls : List ι} {l : ι} :
    T.Run s (ls ++ [l]) u ↔ ∃ t, T.Run s ls t ∧ T.step t l u := by
  constructor
  · intro h
    generalize hms : ls ++ [l] = ms at h
    cases h with
    | refl => simp at hms
    | snoc hrun hst =>
        obtain ⟨rfl, hl⟩ := List.append_inj' hms rfl
        cases List.singleton_inj.1 hl
        exact ⟨_, hrun, hst⟩
  · rintro ⟨t, hrun, hst⟩
    exact hrun.snoc hst

/-- Runs of guarded steps are runs. -/
theorem Run.of_restrict {guard : σ → ι → Prop} {s t : σ} {ls : List ι}
    (h : (T.restrict guard).Run s ls t) : T.Run s ls t := by
  induction h with
  | refl => exact Run.refl
  | snoc _ hst ih => exact ih.snoc hst.2

theorem Run.trans {s t u : σ} {ls ms : List ι} (h₁ : T.Run s ls t) (h₂ : T.Run t ms u) :
    T.Run s (ls ++ ms) u := by
  induction h₂ with
  | refl => rwa [List.append_nil]
  | snoc _ hst ih =>
      rw [← List.append_assoc]
      exact ih.snoc hst

/-- Induction along a run: what holds at the start and survives each step holds at the end. -/
theorem Run.preserves {P : σ → Prop} (hstep : ∀ s l t, P s → T.step s l t → P t) {s t : σ}
    {ls : List ι} (hrun : T.Run s ls t) (hs : P s) : P t := by
  induction hrun with
  | refl => exact hs
  | snoc _ hst ih => exact hstep _ _ _ ih hst

/-- The invariant rule. -/
theorem Reachable.invariant {P : σ → Prop} (hinit : ∀ s, T.init s → P s)
    (hstep : ∀ s l t, P s → T.step s l t → P t) {s : σ} (h : T.Reachable s) : P s := by
  obtain ⟨s₀, ls, h₀, hrun⟩ := h
  exact hrun.preserves hstep (hinit s₀ h₀)

/-- The relation rule, with an invariant available at every step. -/
theorem Run.related {P : σ → Prop} {R : σ → σ → Prop}
    (hinv : ∀ s l t, P s → T.step s l t → P t) (hrefl : ∀ s, R s s)
    (htrans : ∀ s t u, R s t → R t u → R s u) (hstep : ∀ s l t, P s → T.step s l t → R s t)
    {s t : σ} {ls : List ι} (hrun : T.Run s ls t) (hs : P s) : R s t := by
  induction hrun with
  | refl => exact hrefl s
  | snoc hrun hst ih => exact htrans _ _ _ ih (hstep _ _ _ (hrun.preserves hinv hs) hst)

theorem Reachable.run {s t : σ} {ls : List ι} (h : T.Reachable s) (hrun : T.Run s ls t) :
    T.Reachable t :=
  hrun.preserves (fun _ _ _ hr hst => hr.tail hst) h

/-- A weaker guard keeps more runs. -/
theorem Reachable.restrict_mono {guard guard' : σ → ι → Prop}
    (hweaker : ∀ s l, guard s l → guard' s l) {s : σ} (h : (T.restrict guard).Reachable s) :
    (T.restrict guard').Reachable s := by
  obtain ⟨s₀, ls, h₀, hrun⟩ := h
  refine ⟨s₀, ls, h₀, ?_⟩
  induction hrun with
  | refl => exact Run.refl
  | snoc _ hst ih => exact ih.snoc ⟨hweaker _ _ hst.1, hst.2⟩

theorem Reachable.of_restrict {guard : σ → ι → Prop} {s : σ}
    (h : (T.restrict guard).Reachable s) : T.Reachable s := by
  obtain ⟨s₀, ls, h₀, hrun⟩ := h
  exact ⟨s₀, ls, h₀, hrun.of_restrict⟩

/-! ## Functions as systems -/

/-- The system in which a label determines the next state. -/
def ofFunction (init : σ → Prop) (next : σ → ι → σ) : Transition σ ι where
  init := init
  step s l t := next s l = t

theorem run_ofFunction_iff {init : σ → Prop} {next : σ → ι → σ} {s t : σ} {ls : List ι} :
    (ofFunction init next).Run s ls t ↔ ls.foldl next s = t := by
  constructor
  · intro h
    induction h with
    | refl => rfl
    | snoc _ hst ih =>
        rw [List.foldl_append, ih]
        exact hst
  · rintro rfl
    induction ls using List.reverseRecOn with
    | nil => exact Run.refl
    | append_singleton ls l ih =>
        rw [List.foldl_append]
        exact ih.snoc rfl

/-! ## Simulation -/

variable {τ : Type u} {κ : Type v} {S : Transition τ κ}

/-- The simulation rule: a relation that holds initially and that each step of `T` carries to the
end of some run of `S` relates every reachable state of `T` to a reachable state of `S`. -/
theorem Reachable.simulation {R : σ → τ → Prop}
    (hinit : ∀ s, T.init s → ∃ a, S.init a ∧ R s a)
    (hstep : ∀ s l t a, R s a → T.step s l t → ∃ ms b, S.Run a ms b ∧ R t b) {s : σ}
    (h : T.Reachable s) : ∃ a, S.Reachable a ∧ R s a := by
  apply Reachable.invariant (P := fun s => ∃ a, S.Reachable a ∧ R s a) _ _ h
  · intro s hs
    obtain ⟨a, ha, hR⟩ := hinit s hs
    exact ⟨a, Reachable.of_init ha, hR⟩
  · intro s l t hs hst
    obtain ⟨a, ha, hR⟩ := hs
    obtain ⟨ms, b, hrun, hR'⟩ := hstep s l t a hR hst
    exact ⟨b, ha.run hrun, hR'⟩

end Transition

end Foundation
