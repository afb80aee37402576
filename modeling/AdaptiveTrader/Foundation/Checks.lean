import Mathlib.Data.List.ReduceOption
import Mathlib.Tactic

/-!
# Validation in `Except`

The three shapes a validating function is written with: reject under a condition, require a present
value, and sequence. Each has one simp lemma that reads a success backwards, so a long validation
succeeds exactly when the conjunction of its conditions holds.

`collect` applies a fallible function along a list and succeeds exactly when every application does
(`collect_eq_ok_iff`). `validated check a build` constructs a value from input the check accepts. The constructor receives
the acceptance, so a validated record keeps it as a field and later proofs read its conditions off
the record.
-/

set_option autoImplicit false

namespace Foundation

universe u

variable {ε : Type u} {α β : Type}

/-- `if c: raise e`. -/
def rejectIf (c : Prop) [Decidable c] (e : ε) : Except ε Unit :=
  if c then .error e else .ok ()

/-- The value of a lookup that raises `e` when it finds nothing. -/
def require (o : Option α) (e : ε) : Except ε α :=
  match o with
  | some a => .ok a
  | none => .error e

@[simp] theorem rejectIf_eq_ok {c : Prop} [Decidable c] {e : ε} {a : Unit} :
    rejectIf c e = .ok a ↔ ¬ c := by
  unfold rejectIf
  split <;> simp [*]

@[simp] theorem require_eq_ok {o : Option α} {e : ε} {a : α} : require o e = .ok a ↔ o = some a := by
  cases o <;> simp [require]

@[simp] theorem bind_eq_ok {x : Except ε α} {f : α → Except ε β} {b : β} :
    (x >>= f) = .ok b ↔ ∃ a, x = .ok a ∧ f a = .ok b := by
  cases x <;> simp [bind, Except.bind]

@[simp] theorem unit_bind_eq_ok {x : Except ε Unit} {f : Unit → Except ε β} {b : β} :
    (x >>= f) = .ok b ↔ x = .ok () ∧ f () = .ok b := by
  cases x <;> simp [bind, Except.bind]

@[simp] theorem rejectIf_bind_eq_ok {c : Prop} [Decidable c] {e : ε} {f : Unit → Except ε β} {b : β} :
    (rejectIf c e >>= f) = .ok b ↔ ¬ c ∧ f () = .ok b := by
  unfold rejectIf
  split <;> simp [*, bind, Except.bind]

@[simp] theorem require_bind_eq_ok {o : Option α} {e : ε} {f : α → Except ε β} {b : β} :
    (require o e >>= f) = .ok b ↔ ∃ a, o = some a ∧ f a = .ok b := by
  simp

@[simp] theorem pure_eq_ok {a b : α} : (pure a : Except ε α) = .ok b ↔ a = b := by
  simp [pure, Except.pure]

@[simp] theorem map_eq_ok {x : Except ε α} {f : α → β} {b : β} :
    x.map f = .ok b ↔ ∃ a, x = .ok a ∧ f a = b := by
  cases x <;> simp [Except.map]

/-! ## Validation over a state -/

section Stateful

variable {σ : Type}

@[simp] theorem stateT_bind_eq_ok {x : StateT σ (Except ε) α} {f : α → StateT σ (Except ε) β}
    {s : σ} {w : β × σ} :
    (x >>= f) s = .ok w ↔ ∃ a s', x s = .ok (a, s') ∧ f a s' = .ok w := by
  show (x s >>= fun v => f v.1 v.2) = .ok w ↔ _
  rw [bind_eq_ok, Prod.exists]

@[simp] theorem stateT_lift_eq_ok {x : Except ε α} {s : σ} {w : α × σ} :
    (StateT.lift x : StateT σ (Except ε) α) s = .ok w ↔ x = .ok w.1 ∧ w.2 = s := by
  show (x >>= fun a => pure (a, s)) = .ok w ↔ _
  rw [bind_eq_ok]
  constructor
  · rintro ⟨a, ha, hw⟩
    cases hw
    exact ⟨ha, rfl⟩
  · rintro ⟨hx, rfl⟩
    exact ⟨w.1, hx, rfl⟩

@[simp] theorem stateT_pure_eq_ok {a : α} {s : σ} {w : α × σ} :
    (pure a : StateT σ (Except ε) α) s = .ok w ↔ (a, s) = w := by
  show (.ok (a, s) : Except ε (α × σ)) = .ok w ↔ _
  rw [Except.ok.injEq]

end Stateful

/-- Apply a fallible function to each element, in order; the first error ends the collection. -/
def collect {α β : Type} (f : α → Except ε β) : List α → Except ε (List β)
  | [] => .ok []
  | a :: rest => do
      let b ← f a
      let bs ← collect f rest
      pure (b :: bs)

theorem collect_eq_ok_iff {α β : Type} {f : α → Except ε β} {l : List α} {m : List β} :
    collect f l = .ok m ↔ List.Forall₂ (fun a b => f a = .ok b) l m := by
  induction l generalizing m with
  | nil => simp [collect, eq_comm]
  | cons a rest ih =>
      simp only [collect, bind_eq_ok, pure_eq_ok, List.forall₂_cons_left_iff, ih]
      constructor
      · rintro ⟨b, hb, bs, hbs, rfl⟩
        exact ⟨b, bs, hb, hbs, rfl⟩
      · rintro ⟨b, bs, hb, hbs, rfl⟩
        exact ⟨b, hb, bs, hbs, rfl⟩

/-- When every element has a value the values are collected. -/
theorem exists_collect {α β : Type} {f : α → Except ε β} {l : List α}
    (h : ∀ a ∈ l, ∃ b, f a = .ok b) : ∃ m, collect f l = .ok m := by
  induction l with
  | nil => exact ⟨[], rfl⟩
  | cons a rest ih =>
      obtain ⟨b, hb⟩ := h a List.mem_cons_self
      obtain ⟨m, hm⟩ := ih fun a' ha' => h a' (List.mem_cons_of_mem _ ha')
      exact ⟨b :: m, by simp [collect, hb, hm]⟩

/-- Every collected value is the value of one of the elements. -/
theorem mem_of_collect {α β : Type} {f : α → Except ε β} {l : List α} {m : List β}
    (h : collect f l = .ok m) {b : β} (hb : b ∈ m) : ∃ a ∈ l, f a = .ok b := by
  rw [collect_eq_ok_iff] at h
  induction h with
  | nil => simp at hb
  | cons hhead _ ih =>
      rcases List.mem_cons.1 hb with rfl | hrest
      · exact ⟨_, List.mem_cons_self, hhead⟩
      · obtain ⟨a, ha, hfa⟩ := ih hrest
        exact ⟨a, List.mem_cons_of_mem _ ha, hfa⟩

/-- Every element has its value among the collected ones. -/
theorem exists_mem_of_collect {α β : Type} {f : α → Except ε β} {l : List α} {m : List β}
    (h : collect f l = .ok m) {a : α} (ha : a ∈ l) : ∃ b ∈ m, f a = .ok b := by
  rw [collect_eq_ok_iff] at h
  induction h with
  | nil => cases ha
  | cons hhead _ ih =>
      rcases List.mem_cons.1 ha with rfl | hrest
      · exact ⟨_, List.mem_cons_self, hhead⟩
      · obtain ⟨b, hb, hfa⟩ := ih hrest
        exact ⟨b, List.mem_cons_of_mem _ hb, hfa⟩

/-- What each collected value shows is what its element determines. -/
theorem map_of_collect {α β γ : Type} {f : α → Except ε β} {g : β → γ} {k : α → γ} {l : List α}
    {m : List β} (h : collect f l = .ok m) (hg : ∀ a ∈ l, ∀ b, f a = .ok b → g b = k a) :
    m.map g = l.map k := by
  rw [collect_eq_ok_iff] at h
  induction h with
  | nil => rfl
  | cons hhead _ ih =>
      have hrest := ih fun a' ha' => hg a' (List.mem_cons_of_mem _ ha')
      simp only [List.map_cons, hrest, hg _ List.mem_cons_self _ hhead]

/-- A function that succeeds where the first does collects what it makes of the same values. -/
theorem collect_of_collect {α β γ : Type} {f : α → Except ε β} {g : α → Except ε γ} {k : β → γ}
    {l : List α} {m : List β} (h : collect f l = .ok m)
    (hg : ∀ a ∈ l, ∀ b, f a = .ok b → g a = .ok (k b)) : collect g l = .ok (m.map k) := by
  rw [collect_eq_ok_iff] at h ⊢
  induction h with
  | nil => exact List.Forall₂.nil
  | cons hhead _ ih =>
      exact List.Forall₂.cons (hg _ List.mem_cons_self _ hhead)
        (ih fun a ha => hg a (List.mem_cons_of_mem _ ha))

/-- Elements chosen before the collection are the values chosen after it. -/
theorem collect_filter {α β : Type} {f : α → Except ε β} {p : α → Bool} {q : β → Bool} {l : List α}
    {m : List β} (h : collect f l = .ok m) (hpq : ∀ a ∈ l, ∀ b, f a = .ok b → q b = p a) :
    collect f (l.filter p) = .ok (m.filter q) := by
  rw [collect_eq_ok_iff] at h ⊢
  induction h with
  | nil => exact List.Forall₂.nil
  | @cons a b rest rest' hhead _ ih =>
      have hrest := ih fun a ha => hpq a (List.mem_cons_of_mem _ ha)
      have hb := hpq a List.mem_cons_self b hhead
      by_cases hp : p a = true
      · rw [List.filter_cons_of_pos hp, List.filter_cons_of_pos (hb.trans hp)]
        exact List.Forall₂.cons hhead hrest
      · rw [List.filter_cons_of_neg hp, List.filter_cons_of_neg (by rw [hb]; exact hp)]
        exact hrest

/-! ## Collecting what is present -/

section Present

variable {α β κ : Type} [DecidableEq α] {f : α → Except ε (Option β)} {key : β → α} {l : List α}
  {m : List (Option β)}

omit [DecidableEq α] in
/-- Values that name their elements come in the order of the elements. -/
theorem map_reduceOption_sublist (hkey : ∀ a ∈ l, ∀ b, f a = .ok (some b) → key b = a)
    (h : collect f l = .ok m) : (m.reduceOption.map key).Sublist l := by
  rw [collect_eq_ok_iff] at h
  induction h with
  | nil => exact List.Sublist.slnil
  | @cons a o rest rest' hhead _ ih =>
      have hrest := ih fun c hc => hkey c (List.mem_cons_of_mem _ hc)
      cases o with
      | none =>
          rw [List.reduceOption_cons_of_none]
          exact hrest.cons a
      | some b =>
          rw [List.reduceOption_cons_of_some, List.map_cons, hkey a List.mem_cons_self b hhead]
          exact hrest.cons_cons a

/-- Among distinct elements the value of one is found by its name, or absent. -/
theorem find?_reduceOption (hkey : ∀ a ∈ l, ∀ b, f a = .ok (some b) → key b = a) (hn : l.Nodup)
    (h : collect f l = .ok m) {a : α} (ha : a ∈ l) :
    f a = .ok (m.reduceOption.find? fun b => key b = a) := by
  rw [collect_eq_ok_iff] at h
  induction h with
  | nil => cases ha
  | @cons c o rest rest' hhead htail ih =>
      obtain ⟨hc, hrest⟩ := List.nodup_cons.1 hn
      have hkeys : ∀ a ∈ rest, ∀ b, f a = .ok (some b) → key b = a :=
        fun a ha => hkey a (List.mem_cons_of_mem _ ha)
      have hsublist := map_reduceOption_sublist hkeys (collect_eq_ok_iff.2 htail)
      rcases List.mem_cons.1 ha with rfl | ha
      · cases o with
        | none =>
            have hnone : rest'.reduceOption.find? (fun b => decide (key b = a)) = none := by
              rw [List.find?_eq_none]
              intro b hb hba
              exact hc (hsublist.subset (List.mem_map.2 ⟨b, hb, of_decide_eq_true hba⟩))
            rw [List.reduceOption_cons_of_none, hnone]
            exact hhead
        | some b =>
            rw [List.reduceOption_cons_of_some,
              List.find?_cons_of_pos (by simpa using hkey a List.mem_cons_self b hhead)]
            exact hhead
      · have hne : c ≠ a := by
          rintro rfl
          exact hc ha
        cases o with
        | none =>
            rw [List.reduceOption_cons_of_none]
            exact ih hkeys hrest ha
        | some b =>
            have hb : key b ≠ a := by
              rw [hkey c List.mem_cons_self b hhead]
              exact hne
            rw [List.reduceOption_cons_of_some, List.find?_cons_of_neg (by simpa using hb)]
            exact ih hkeys hrest ha

end Present

/-! ## Validated values -/

/-- Construct a value from validated input; the constructor receives the evidence. -/
def validated {δ : Type} (check : δ → Except ε Unit) (a : δ)
    (build : check a = .ok () → β) : Except ε β :=
  match h : check a with
  | .ok _ => .ok (build h)
  | .error e => .error e

theorem validated_eq_ok {δ : Type} {check : δ → Except ε Unit} {a : δ}
    {build : check a = .ok () → β} {b : β} :
    validated check a build = .ok b ↔ ∃ h, build h = b := by
  unfold validated
  split
  · next h => exact ⟨fun hb => ⟨h, Except.ok.inj hb⟩, fun ⟨_, hb⟩ => congrArg _ hb⟩
  · next e h =>
      constructor
      · intro hb
        cases hb
      · rintro ⟨hok, -⟩
        rw [h] at hok
        cases hok

theorem validated_of_ok {δ : Type} {check : δ → Except ε Unit} {a : δ}
    {build : check a = .ok () → β} (h : check a = .ok ()) :
    validated check a build = .ok (build h) :=
  validated_eq_ok.2 ⟨h, rfl⟩

theorem validated_eq_error {δ : Type} {check : δ → Except ε Unit} {a : δ}
    {build : check a = .ok () → β} {e : ε} (h : check a = .error e) :
    validated check a build = .error e := by
  unfold validated
  split
  · next h' =>
      rw [h] at h'
      cases h'
  · next e' h' =>
      rw [h] at h'
      cases h'
      rfl

end Foundation
