import AdaptiveTrader.Foundation.Dict

/-!
# Tables of rows

A table is a dictionary of rows by key. One transaction changes a table row by row: a row that
exists stays, as it is or moved by one step, and a row that appears is fresh (`Dict.RowChanges`).
Changes made one after the other are the changes of one transaction as long as no row is written
twice (`Dict.RowChanges.trans_of_disjoint`).

`Dict.compareAndSet` is the guarded write of optimistic concurrency control: it replaces a row that
still is the one the caller has read. `Dict.upsert` inserts a row or merges it into the stored one;
a batch of upserts under distinct keys writes each key once (`get?_foldl_upsert`).
-/

set_option autoImplicit false

namespace Foundation

universe u v

namespace Dict

variable {κ : Type u} {ρ : Type v} [DecidableEq κ]

/-- Every row of the table satisfies `P`. -/
def AllRows (P : κ → ρ → Prop) (d : Dict κ ρ) : Prop := ∀ k a, d.get? k = some a → P k a

/-- What one transaction does to a table. -/
structure RowChanges (fresh : κ → ρ → Prop) (step : κ → ρ → ρ → Prop) (d e : Dict κ ρ) : Prop where
  kept : ∀ k a, d.get? k = some a → ∃ b, e.get? k = some b ∧ (b = a ∨ step k a b)
  added : ∀ k b, d.get? k = none → e.get? k = some b → fresh k b

/-- Replace the row at `k`, provided the stored row passes `unchanged`. -/
def compareAndSet (d : Dict κ ρ) (k : κ) (unchanged : ρ → Bool) (b : ρ) : Option (Dict κ ρ) :=
  match d.get? k with
  | some a => if unchanged a then some (d.set k b) else none
  | none => none

theorem compareAndSet_eq_some {d e : Dict κ ρ} {k : κ} {unchanged : ρ → Bool} {b : ρ} :
    d.compareAndSet k unchanged b = some e ↔
      ∃ a, d.get? k = some a ∧ unchanged a = true ∧ e = d.set k b := by
  unfold compareAndSet
  cases h : d.get? k with
  | none => simp
  | some a =>
      show (if unchanged a = true then some (d.set k b) else none) = some e ↔ _
      by_cases hu : unchanged a = true
      · rw [if_pos hu]
        constructor
        · intro he
          exact ⟨a, rfl, hu, (Option.some.inj he).symm⟩
        · rintro ⟨-, -, -, rfl⟩
          rfl
      · rw [if_neg hu]
        constructor
        · intro he
          cases he
        · rintro ⟨a', ⟨⟩, hu', -⟩
          exact absurd hu' hu

/-- Insert the row at `k`, or merge it into the row stored there. -/
def upsert (merge : ρ → ρ → ρ) (d : Dict κ ρ) (k : κ) (b : ρ) : Dict κ ρ :=
  d.set k (match d.get? k with
    | none => b
    | some a => merge a b)

theorem get?_upsert_self (merge : ρ → ρ → ρ) (d : Dict κ ρ) (k : κ) (b : ρ) :
    (d.upsert merge k b).get? k = some ((d.get? k).elim b fun a => merge a b) := by
  rw [upsert, get?_set_self]
  cases d.get? k <;> rfl

theorem get?_upsert_of_ne (merge : ρ → ρ → ρ) (d : Dict κ ρ) {k k' : κ} (b : ρ) (h : k' ≠ k) :
    (d.upsert merge k b).get? k' = d.get? k' :=
  get?_set_of_ne d _ h

theorem get?_foldl_upsert_of_not_mem {ι : Type*} (merge : ρ → ρ → ρ) (key : ι → κ) (row : ι → ρ)
    (items : List ι) (d : Dict κ ρ) {k : κ} (h : ∀ i ∈ items, key i ≠ k) :
    (items.foldl (fun d i => d.upsert merge (key i) (row i)) d).get? k = d.get? k := by
  induction items generalizing d with
  | nil => rfl
  | cons i rest ih =>
      rw [List.foldl_cons, ih _ fun j hj => h j (List.mem_cons_of_mem _ hj)]
      exact get?_upsert_of_ne merge d _ (Ne.symm (h i List.mem_cons_self))

/-- In a batch of upserts under distinct keys each key is merged with its own row. -/
theorem get?_foldl_upsert {ι : Type*} (merge : ρ → ρ → ρ) (key : ι → κ) (row : ι → ρ)
    {items : List ι} (d : Dict κ ρ) (hn : (items.map key).Nodup) {i : ι} (hi : i ∈ items) :
    (items.foldl (fun d i => d.upsert merge (key i) (row i)) d).get? (key i) =
      some ((d.get? (key i)).elim (row i) fun a => merge a (row i)) := by
  induction items generalizing d with
  | nil => simp at hi
  | cons j rest ih =>
      simp only [List.map_cons, List.nodup_cons] at hn
      rw [List.foldl_cons]
      rcases List.mem_cons.1 hi with rfl | hrest
      · have hfresh : ∀ x ∈ rest, key x ≠ key i := fun x hx he =>
          hn.1 (List.mem_map.2 ⟨x, hx, he⟩)
        rw [get?_foldl_upsert_of_not_mem merge key row rest _ hfresh, get?_upsert_self]
      · have hne : key i ≠ key j := fun he => hn.1 (List.mem_map.2 ⟨i, hrest, he⟩)
        rw [ih _ hn.2 hrest, get?_upsert_of_ne merge d _ hne]

theorem allRows_empty (P : κ → ρ → Prop) : AllRows P (empty : Dict κ ρ) := by
  intro k a h
  simp at h

namespace RowChanges

variable {fresh fresh' : κ → ρ → Prop} {step step' : κ → ρ → ρ → Prop} {d e f : Dict κ ρ}

theorem refl (d : Dict κ ρ) : RowChanges fresh step d d where
  kept _ a h := ⟨a, h, Or.inl rfl⟩
  added _ _ hnone hsome := by simp [hnone] at hsome

/-- Writing one row that exists. -/
theorem write {k : κ} {a b : ρ} (h : d.get? k = some a) (hstep : step k a b) :
    RowChanges fresh step d (d.set k b) where
  kept k' a' h' := by
    by_cases hk : k' = k
    · subst hk
      cases h.symm.trans h'
      exact ⟨b, get?_set_self d k' b, Or.inr hstep⟩
    · exact ⟨a', by rw [get?_set_of_ne d b hk, h'], Or.inl rfl⟩
  added k' b' hnone hsome := by
    by_cases hk : k' = k
    · subst hk
      simp [h] at hnone
    · rw [get?_set_of_ne d b hk, hnone] at hsome
      cases hsome

/-- Inserting one row under a new key. -/
theorem insert {k : κ} {b : ρ} (h : d.get? k = none) (hfresh : fresh k b) :
    RowChanges fresh step d (d.set k b) where
  kept k' a' h' := by
    have hk : k' ≠ k := by
      rintro rfl
      simp [h] at h'
    exact ⟨a', by rw [get?_set_of_ne d b hk, h'], Or.inl rfl⟩
  added k' b' hnone hsome := by
    by_cases hk : k' = k
    · subst hk
      simp only [get?_set_self, Option.some.injEq] at hsome
      exact hsome ▸ hfresh
    · rw [get?_set_of_ne d b hk, hnone] at hsome
      cases hsome

theorem mono (hfresh : ∀ k b, fresh k b → fresh' k b) (hstep : ∀ k a b, step k a b → step' k a b)
    (h : RowChanges fresh step d e) : RowChanges fresh' step' d e where
  kept k a ha := by
    obtain ⟨b, hb, heq | hab⟩ := h.kept k a ha
    · exact ⟨b, hb, Or.inl heq⟩
    · exact ⟨b, hb, Or.inr (hstep k a b hab)⟩
  added k b hnone hsome := hfresh k b (h.added k b hnone hsome)

/-- Two changes in sequence are one change when no row is written by both. -/
theorem trans_of_disjoint (h₁ : RowChanges fresh step d e) (h₂ : RowChanges fresh step e f)
    (hdisjoint : ∀ k, e.get? k = d.get? k ∨ f.get? k = e.get? k) :
    RowChanges fresh step d f where
  kept k a ha := by
    rcases hdisjoint k with hfirst | hsecond
    · exact h₂.kept k a (hfirst.trans ha)
    · rw [hsecond]
      exact h₁.kept k a ha
  added k b hnone hsome := by
    rcases hdisjoint k with hfirst | hsecond
    · exact h₂.added k b (hfirst.trans hnone) hsome
    · exact h₁.added k b hnone (hsecond.symm.trans hsome)

/-- A property of fresh rows that every step keeps holds of every row. -/
theorem allRows {P : κ → ρ → Prop} (h : RowChanges fresh step d e)
    (hfresh : ∀ k b, fresh k b → P k b) (hstep : ∀ k a b, P k a → step k a b → P k b)
    (hd : AllRows P d) : AllRows P e := by
  intro k b hb
  cases hk : d.get? k with
  | none => exact hfresh k b (h.added k b hk hb)
  | some a =>
      obtain ⟨b', hb', heq | hab⟩ := h.kept k a hk
      · cases hb.symm.trans hb'
        exact heq ▸ hd k a hk
      · cases hb.symm.trans hb'
        exact hstep k a b (hd k a hk) hab

/-- A row that no step leaves stays. -/
theorem get?_of_stuck (h : RowChanges fresh step d e) {k : κ} {a : ρ} (ha : d.get? k = some a)
    (hstuck : ∀ b, ¬ step k a b) : e.get? k = some a := by
  obtain ⟨b, hb, heq | hab⟩ := h.kept k a ha
  · exact heq ▸ hb
  · exact absurd hab (hstuck b)

end RowChanges

end Dict

end Foundation
