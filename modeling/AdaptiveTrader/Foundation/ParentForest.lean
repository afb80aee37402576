import Mathlib.Logic.Function.Basic
import Mathlib.Logic.Relation
import Mathlib.Tactic

/-!
# Forests of parents

A forest is a function that gives every element its parent; a root is its own parent. Union and find
works by two changes of such a function. Linking an element to its grandparent keeps every root
(`root_compress_iff`). Linking one root below another joins exactly the two classes
(`same_link_iff`), so that the classes are always those generated by the pairs united so far
(`Generates.link`, `Generates.idle`).
-/

set_option autoImplicit false

namespace Foundation

namespace ParentForest

universe u

variable {α : Type u}

/-- From `x` the parents lead to the root `r`. -/
inductive Root (p : α → α) : α → α → Prop
  | own {x : α} (h : p x = x) : Root p x x
  | up {x r : α} (h : p x ≠ x) (hup : Root p (p x) r) : Root p x r

/-- Every element has a root. -/
def Rooted (p : α → α) : Prop := ∀ x, ∃ r, Root p x r

/-- Two elements with the same root. -/
def Same (p : α → α) (x y : α) : Prop := ∃ r, Root p x r ∧ Root p y r

variable {p q : α → α} {x y u v r s a b : α}

theorem Root.parent_eq (h : Root p x r) : p r = r := by
  induction h with
  | own h => exact h
  | up _ _ ih => exact ih

theorem Root.unique (h : Root p x r) (h' : Root p x s) : r = s := by
  induction h with
  | own h =>
      cases h' with
      | own _ => rfl
      | up hne _ => exact absurd h hne
  | up hne _ ih =>
      cases h' with
      | own h => exact absurd h hne
      | up _ hup => exact ih hup

theorem Root.up_iff (h : p x ≠ x) : Root p x r ↔ Root p (p x) r := by
  constructor
  · intro hroot
    cases hroot with
    | own hx => exact absurd hx h
    | up _ hup => exact hup
  · intro hroot
    exact Root.up h hroot

/-- A rank that falls towards the root. -/
theorem rooted_of_rank (rank : α → ℕ) (h : ∀ x, p x ≠ x → rank (p x) < rank x) : Rooted p := by
  intro x
  induction hn : rank x using Nat.strong_induction_on generalizing x with
  | _ n ih =>
      by_cases hx : p x = x
      · exact ⟨x, Root.own hx⟩
      · obtain ⟨r, hr⟩ := ih (rank (p x)) (hn ▸ h x hx) (p x) rfl
        exact ⟨r, Root.up hx hr⟩

/-- The rank of an element of an ordered type: how many elements of a list precede it. -/
theorem countP_lt_countP [LinearOrder α] {l : List α} (hx : x ∈ l) (hlt : x < y) :
    l.countP (· < x) < l.countP (· < y) := by
  induction l with
  | nil => simp at hx
  | cons s rest ih =>
      have hmono : rest.countP (· < x) ≤ rest.countP (· < y) := by
        apply List.countP_mono_left
        intro z _ hz
        simpa using lt_trans (by simpa using hz) hlt
      have hhead : s < x → s < y := fun hs => lt_trans hs hlt
      simp only [List.countP_cons]
      rcases List.mem_cons.1 hx with rfl | hrest
      · simp [hlt]
        omega
      · have hrec := ih hrest
        by_cases hs : s < x
        · simp [hs, hhead hs]
          omega
        · simp [hs]
          omega

/-! ## Classes -/

theorem Same.refl (hp : Rooted p) (x : α) : Same p x x := by
  obtain ⟨r, hr⟩ := hp x
  exact ⟨r, hr, hr⟩

theorem Same.symm (h : Same p x y) : Same p y x := by
  obtain ⟨r, hx, hy⟩ := h
  exact ⟨r, hy, hx⟩

theorem Same.trans (h : Same p x y) (h' : Same p y u) : Same p x u := by
  obtain ⟨r, hx, hy⟩ := h
  obtain ⟨s, hy', hu⟩ := h'
  cases hy.unique hy'
  exact ⟨r, hx, hu⟩

theorem Root.same (h : Root p x r) : Same p x r := ⟨r, h, Root.own h.parent_eq⟩

/-- An element shares the class of a root exactly when this is its root. -/
theorem same_root_iff (hr : p r = r) : Same p x r ↔ Root p x r := by
  constructor
  · rintro ⟨s, hx, hs⟩
    cases hs.unique (Root.own hr)
    exact hx
  · exact Root.same

theorem same_congr (h : ∀ x r, Root p x r ↔ Root q x r) (x y : α) : Same p x y ↔ Same q x y := by
  simp only [Same, h]

section Changes

variable [DecidableEq α]

/-! ## Linking an element to its grandparent -/

theorem Root.compress (h : Root p y r) (x : α) : Root (Function.update p x (p (p x))) y r := by
  induction h with
  | @own y hy =>
      apply Root.own
      by_cases hyx : y = x
      · subst hyx
        simp [hy]
      · simp [hyx, hy]
  | @up y r hy hup ih =>
      by_cases hyx : y = x
      · subst hyx
        by_cases hown : p (p y) = p y
        · -- The grandparent is the parent, a root.
          apply Root.up
          · simpa [hown] using hy
          · simpa [hown] using ih
        rw [Root.up_iff (by simpa [hy] using hown)] at ih
        by_cases hloop : p (p y) = y
        · -- A loop of two elements would have no root.
          simpa [hy, hloop] using ih
        · apply Root.up
          · simpa using hloop
          · simpa [hy] using ih
      · apply Root.up
        · simpa [hyx] using hy
        · simpa [hyx] using ih

theorem root_compress_iff (hp : Rooted p) (x : α) :
    Root (Function.update p x (p (p x))) y r ↔ Root p y r := by
  constructor
  · intro h
    obtain ⟨s, hs⟩ := hp y
    cases h.unique (hs.compress x)
    exact hs
  · intro h
    exact h.compress x

/-! ## Linking a root below another -/

theorem Root.link (ha : p a = a) (hb : p b = b) (hab : a ≠ b) (h : Root p x r) :
    Root (Function.update p a b) x (if r = a then b else r) := by
  have hroot : Root (Function.update p a b) b b := by
    apply Root.own
    simp [hab.symm, hb]
  induction h with
  | @own x hx =>
      by_cases hxa : x = a
      · subst hxa
        apply Root.up
        · simpa using hab.symm
        · simpa using hroot
      · rw [if_neg hxa]
        apply Root.own
        simp [hxa, hx]
  | @up x r hx hup ih =>
      have hxa : x ≠ a := by
        rintro rfl
        exact hx ha
      apply Root.up
      · simpa [hxa] using hx
      · simpa [hxa] using ih

theorem Rooted.link (hp : Rooted p) (ha : p a = a) (hb : p b = b) (hab : a ≠ b) :
    Rooted (Function.update p a b) := by
  intro x
  obtain ⟨r, hr⟩ := hp x
  exact ⟨_, hr.link ha hb hab⟩

/-- Two elements share a class after the link when they did, or when it joined their classes. -/
theorem same_link_iff (hp : Rooted p) (ha : p a = a) (hb : p b = b) (hab : a ≠ b) :
    Same (Function.update p a b) x y ↔
      Same p x y ∨ (Same p x a ∧ Same p y b) ∨ (Same p x b ∧ Same p y a) := by
  obtain ⟨r, hr⟩ := hp x
  obtain ⟨s, hs⟩ := hp y
  have hsame : Same p x y ↔ r = s := by
    constructor
    · rintro ⟨t, hx, hy⟩
      rw [hr.unique hx, hs.unique hy]
    · rintro rfl
      exact ⟨r, hr, hs⟩
  have hclass : ∀ {z t c : α}, Root p z t → p c = c → (Same p z c ↔ t = c) := by
    intro z t c ht hc
    rw [same_root_iff hc]
    exact ⟨ht.unique, fun h => h ▸ ht⟩
  have hlinked : Same (Function.update p a b) x y ↔
      (if r = a then b else r) = (if s = a then b else s) := by
    constructor
    · rintro ⟨t, hx, hy⟩
      rw [(hr.link ha hb hab).unique hx, (hs.link ha hb hab).unique hy]
    · intro h
      exact ⟨_, hr.link ha hb hab, h ▸ hs.link ha hb hab⟩
  rw [hlinked, hsame, hclass hr ha, hclass hs hb, hclass hr hb, hclass hs ha]
  by_cases hra : r = a <;> by_cases hsa : s = a
  · simp [hra, hsa]
  · rw [if_pos hra, if_neg hsa]
    constructor
    · intro h
      exact Or.inr (Or.inl ⟨hra, h.symm⟩)
    · rintro (h | ⟨-, h⟩ | ⟨-, h⟩)
      · exact absurd (h.symm.trans hra) hsa
      · exact h.symm
      · exact absurd h hsa
  · rw [if_neg hra, if_pos hsa]
    constructor
    · intro h
      exact Or.inr (Or.inr ⟨h, hsa⟩)
    · rintro (h | ⟨h, -⟩ | ⟨h, -⟩)
      · exact absurd (h.trans hsa) hra
      · exact absurd h hra
      · exact h
  · rw [if_neg hra, if_neg hsa]
    simp [hra, hsa]

end Changes

/-! ## Classes generated by pairs -/

/-- The classes of the forest are those the relation generates. -/
structure Generates (E : α → α → Prop) (p : α → α) : Prop where
  rooted : Rooted p
  same_iff : ∀ x y, Same p x y ↔ Relation.EqvGen E x y

/-- The relation and one more pair. -/
def WithPair (E : α → α → Prop) (u v : α) : α → α → Prop := fun x y => E x y ∨ (x = u ∧ y = v)

variable {E : α → α → Prop}

/-- Without pairs every element is a root. -/
theorem Generates.of_own (hp : ∀ x, p x = x) : Generates (fun _ _ => False) p where
  rooted x := ⟨x, Root.own (hp x)⟩
  same_iff x y := by
    constructor
    · rintro ⟨r, hx, hy⟩
      cases hx.unique (Root.own (hp x))
      cases hy.unique (Root.own (hp y))
      exact Relation.EqvGen.refl _
    · intro h
      have hxy : x = y := by
        induction h with
        | rel _ _ h => exact h.elim
        | refl _ => rfl
        | symm _ _ _ ih => exact ih.symm
        | trans _ _ _ _ _ ih ih' => exact ih.trans ih'
      subst hxy
      exact ⟨x, Root.own (hp x), Root.own (hp x)⟩

theorem Generates.of_roots (h : Generates E p) (hroots : ∀ x r, Root p x r ↔ Root q x r) :
    Generates E q where
  rooted x := by
    obtain ⟨r, hr⟩ := h.rooted x
    exact ⟨r, (hroots x r).1 hr⟩
  same_iff x y := (same_congr hroots x y).symm.trans (h.same_iff x y)

theorem Generates.of_pairs (hq : Rooted q) (hmono : ∀ x y, Same p x y → Same q x y)
    (huv : Same q u v) (hle : ∀ x y, Same q x y → Relation.EqvGen (WithPair E u v) x y)
    (h : Generates E p) : Generates (WithPair E u v) q where
  rooted := hq
  same_iff x y := by
    refine ⟨hle x y, fun hgen => ?_⟩
    induction hgen with
    | rel x y hpair =>
        rcases hpair with hE | ⟨rfl, rfl⟩
        · exact hmono x y ((h.same_iff x y).2 (Relation.EqvGen.rel _ _ hE))
        · exact huv
    | refl x => exact Same.refl hq x
    | symm _ _ _ ih => exact ih.symm
    | trans _ _ _ _ _ ih ih' => exact ih.trans ih'

theorem Generates.withPair (h : Generates E p) (u v : α) (hxy : Same p x y) :
    Relation.EqvGen (WithPair E u v) x y :=
  Relation.EqvGen.mono (fun _ _ => Or.inl) _ _ ((h.same_iff x y).1 hxy)

/-- Uniting two elements of one class changes nothing. -/
theorem Generates.idle (h : Generates E p) (hu : Root p u r) (hv : Root p v r) :
    Generates (WithPair E u v) p :=
  h.of_pairs h.rooted (fun _ _ => id) ⟨r, hu, hv⟩ fun _ _ => h.withPair u v

/-- Uniting two elements links the roots of their classes, either below the other. -/
theorem Generates.link [DecidableEq α] (h : Generates E p) (hab : a ≠ b)
    (hroots : (Root p u a ∧ Root p v b) ∨ (Root p u b ∧ Root p v a)) :
    Generates (WithPair E u v) (Function.update p a b) := by
  have hpair : Relation.EqvGen (WithPair E u v) u v :=
    Relation.EqvGen.rel _ _ (Or.inr ⟨rfl, rfl⟩)
  have ha : p a = a := by
    rcases hroots with ⟨hu, -⟩ | ⟨-, hv⟩
    · exact hu.parent_eq
    · exact hv.parent_eq
  have hb : p b = b := by
    rcases hroots with ⟨-, hv⟩ | ⟨hu, -⟩
    · exact hv.parent_eq
    · exact hu.parent_eq
  have hjoined : Relation.EqvGen (WithPair E u v) a b := by
    rcases hroots with ⟨hu, hv⟩ | ⟨hu, hv⟩
    · exact ((h.withPair u v hu.same.symm).trans _ _ _ hpair).trans _ _ _ (h.withPair u v hv.same)
    · exact ((h.withPair u v hv.same.symm).trans _ _ _ (hpair.symm _ _)).trans _ _ _
        (h.withPair u v hu.same)
  have hiff := fun x y => @same_link_iff _ p x y a b _ h.rooted ha hb hab
  apply h.of_pairs (h.rooted.link ha hb hab)
  · intro x y hxy
    exact (hiff x y).2 (Or.inl hxy)
  · rw [hiff]
    rcases hroots with ⟨hu, hv⟩ | ⟨hu, hv⟩
    · exact Or.inr (Or.inl ⟨hu.same, hv.same⟩)
    · exact Or.inr (Or.inr ⟨hu.same, hv.same⟩)
  · intro x y hxy
    rcases (hiff x y).1 hxy with hxy | ⟨hx, hy⟩ | ⟨hx, hy⟩
    · exact h.withPair u v hxy
    · exact ((h.withPair u v hx).trans _ _ _ hjoined).trans _ _ _ (h.withPair u v hy.symm)
    · exact ((h.withPair u v hx).trans _ _ _ (hjoined.symm _ _)).trans _ _ _
        (h.withPair u v hy.symm)

end ParentForest

end Foundation
