import Mathlib.Logic.Function.Iterate
import Mathlib.Tactic

/-!
# Repairs

A repair establishes a property, leaves alone whatever has it already, and relates each value to its
repaired one. Repairs of properties that are closed along the relation compose (`Repairs.comp`,
`Repairs.foldl`): the second one cannot break what the first one has established.

A property that is not closed can be broken again by the repairs behind its own. Between repairs of
two closed properties it holds after the second round at the latest (`Repairs.twice`): in that round
the closed properties hold already, so nothing happens before or after its repair.
-/

set_option autoImplicit false

namespace Foundation

universe u v

variable {α : Type u} {ι : Type v} {R : α → α → Prop}

/-- The property survives every step along the relation. -/
def ClosedAlong (R : α → α → Prop) (P : α → Prop) : Prop := ∀ x y, R x y → P x → P y

/-- `f` establishes `P`, moves along `R` and fixes what has `P` already. -/
structure Repairs (R : α → α → Prop) (P : α → Prop) (f : α → α) : Prop where
  related : ∀ x, R x (f x)
  repaired : ∀ x, P (f x)
  fixed : ∀ x, P x → f x = x

namespace ClosedAlong

theorem and {P Q : α → Prop} (hP : ClosedAlong R P) (hQ : ClosedAlong R Q) :
    ClosedAlong R fun x => P x ∧ Q x :=
  fun x y hxy h => ⟨hP x y hxy h.1, hQ x y hxy h.2⟩

theorem forall_mem {P : ι → α → Prop} {l : List ι} (h : ∀ i ∈ l, ClosedAlong R (P i)) :
    ClosedAlong R fun x => ∀ i ∈ l, P i x :=
  fun x y hxy hx i hi => h i hi x y hxy (hx i hi)

end ClosedAlong

namespace Repairs

variable {P Q M : α → Prop} {f g : α → α}

/-- The second repair keeps what the first one has established. -/
theorem comp (htrans : ∀ x y z, R x y → R y z → R x z) (hP : ClosedAlong R P)
    (hf : Repairs R P f) (hg : Repairs R Q g) : Repairs R (fun x => P x ∧ Q x) (g ∘ f) where
  related x := htrans _ _ _ (hf.related x) (hg.related (f x))
  repaired x := ⟨hP _ _ (hg.related (f x)) (hf.repaired x), hg.repaired (f x)⟩
  fixed x hx := by
    rw [Function.comp_apply, hf.fixed x hx.1]
    exact hg.fixed x hx.2

/-- A list of repairs, one after the other. -/
theorem foldl (hrefl : ∀ x, R x x) (htrans : ∀ x y z, R x y → R y z → R x z)
    {P : ι → α → Prop} {f : ι → α → α} {l : List ι} (hP : ∀ i ∈ l, ClosedAlong R (P i))
    (hf : ∀ i ∈ l, Repairs R (P i) (f i)) :
    Repairs R (fun x => ∀ i ∈ l, P i x) fun x => l.foldl (fun y i => f i y) x := by
  induction l with
  | nil =>
      refine ⟨fun x => hrefl x, fun x i hi => ?_, fun x _ => rfl⟩
      cases hi
  | cons i rest ih =>
      have hrest := ih (fun j hj => hP j (List.mem_cons_of_mem i hj))
        (fun j hj => hf j (List.mem_cons_of_mem i hj))
      have hhead := hf i List.mem_cons_self
      have hboth := comp htrans (hP i List.mem_cons_self) hhead hrest
      refine ⟨hboth.related, fun x j hj => ?_, fun x hx => hboth.fixed x ?_⟩
      · rcases List.mem_cons.1 hj with rfl | hmem
        · exact (hboth.repaired x).1
        · exact (hboth.repaired x).2 j hmem
      · exact ⟨hx i List.mem_cons_self, fun j hj => hx j (List.mem_cons_of_mem i hj)⟩

/-- Two rounds repair a property that is not closed, between repairs of two that are. -/
theorem twice (htrans : ∀ x y z, R x y → R y z → R x z) (hP : ClosedAlong R P)
    (hQ : ClosedAlong R Q) {first middle last : α → α} (hfirst : Repairs R P first)
    (hmiddle : Repairs R M middle) (hlast : Repairs R Q last) :
    Repairs R (fun x => P x ∧ M x ∧ Q x) (last ∘ middle ∘ first)^[2] := by
  have hround : ∀ x, R x ((last ∘ middle ∘ first) x) := fun x =>
    htrans _ _ _ (hfirst.related x)
      (htrans _ _ _ (hmiddle.related _) (hlast.related _))
  have hfixed : ∀ x, P x ∧ M x ∧ Q x → (last ∘ middle ∘ first) x = x := by
    rintro x ⟨hxP, hxM, hxQ⟩
    simp only [Function.comp_apply, hfirst.fixed x hxP, hmiddle.fixed x hxM, hlast.fixed x hxQ]
  refine ⟨fun x => ?_, fun x => ?_, fun x hx => ?_⟩
  · exact htrans _ _ _ (hround x) (hround _)
  · -- After the first round both closed properties hold.
    set y := (last ∘ middle ∘ first) x with hy
    have hyP : P y := hP _ _ (htrans _ _ _ (hmiddle.related _) (hlast.related _)) (hfirst.repaired x)
    have hyQ : Q y := hlast.repaired _
    have hmiddleP : P (middle y) := hP _ _ (hmiddle.related y) hyP
    have hmiddleQ : Q (middle y) := hQ _ _ (hmiddle.related y) hyQ
    have hsecond : (last ∘ middle ∘ first)^[2] x = middle y := by
      rw [Function.iterate_succ_apply, Function.iterate_one, ← hy]
      simp only [Function.comp_apply, hfirst.fixed y hyP, hlast.fixed _ hmiddleQ]
    rw [hsecond]
    exact ⟨hmiddleP, hmiddle.repaired y, hmiddleQ⟩
  · rw [Function.iterate_succ_apply, Function.iterate_one, hfixed x hx, hfixed x hx]

end Repairs

end Foundation
