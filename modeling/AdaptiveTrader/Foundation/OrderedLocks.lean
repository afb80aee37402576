import AdaptiveTrader.Foundation.Transition
import Mathlib.Data.Set.Basic
import Mathlib.Logic.Relation
import Mathlib.Tactic

/-!
# Exclusive locks taken in ascending order

Parties of any type hold locks of any ordered type and wait for at most one lock each. A party asks
only for locks above all it holds, a lock is granted only while nobody else holds it, and a party
gives up everything at once. `lockOrdering` is this system: every interleaving of every choice of
requests.

In each reachable state no lock has two holders (`Exclusive`), and a waiting party waits above what
it holds (`Ascending`). The second forbids cycles of parties that wait for each other
(`Ascending.not_transGen_waits`): along a chain of waiting parties the awaited locks increase.
-/

set_option autoImplicit false

namespace Foundation

universe u v

/-- The locks each party holds and the lock it waits for. -/
structure LockTable (π : Type u) (lock : Type v) where
  held : π → Set lock
  awaited : π → Option lock

/-- What one party does. -/
inductive LockMove (lock : Type v)
  | request (l : lock)
  | grant (l : lock)
  | release

namespace LockTable

variable {π : Type u} {lock : Type v}

/-- The first party waits for a lock the second one holds. -/
def Waits (s : LockTable π lock) (a b : π) : Prop := ∃ l, s.awaited a = some l ∧ l ∈ s.held b

/-- No lock has two holders. -/
def Exclusive (s : LockTable π lock) : Prop := ∀ a b l, l ∈ s.held a → l ∈ s.held b → a = b

/-- Who waits for a lock holds smaller ones only. -/
def Ascending [Preorder lock] (s : LockTable π lock) : Prop :=
  ∀ a l, s.awaited a = some l → ∀ h ∈ s.held a, h < l

section Ascending

variable [Preorder lock] {s : LockTable π lock}

theorem Ascending.lt_of_waits (h : s.Ascending) {a b : π} (hab : s.Waits a b) {k l : lock}
    (hk : s.awaited a = some k) (hl : s.awaited b = some l) : k < l := by
  obtain ⟨k', hk', hheld⟩ := hab
  obtain rfl : k = k' := Option.some.inj (hk.symm.trans hk')
  exact h b l hl k hheld

/-- Along a chain of waiting parties the awaited lock increases. -/
theorem Ascending.lt_of_transGen (h : s.Ascending) {a b : π}
    (hab : Relation.TransGen s.Waits a b) :
    ∀ k l, s.awaited a = some k → s.awaited b = some l → k < l := by
  induction hab with
  | single hstep =>
      intro k l hk hl
      exact h.lt_of_waits hstep hk hl
  | tail hchain hstep ih =>
      intro k l hk hl
      obtain ⟨m, hm, hheld⟩ := hstep
      exact (ih k m hk hm).trans (h.lt_of_waits ⟨m, hm, hheld⟩ hm hl)

/-- Nobody waits, directly or through others, for itself. -/
theorem Ascending.not_transGen_waits (h : s.Ascending) (a : π) :
    ¬ Relation.TransGen s.Waits a a := by
  intro hcycle
  obtain ⟨b, ⟨k, hk, -⟩, -⟩ := Relation.TransGen.head'_iff.1 hcycle
  exact lt_irrefl k (h.lt_of_transGen hcycle k k hk hk)

end Ascending

/-- Replace what one party holds and waits for. -/
def update [DecidableEq π] (s : LockTable π lock) (a : π) (held : Set lock)
    (awaited : Option lock) : LockTable π lock where
  held := Function.update s.held a held
  awaited := Function.update s.awaited a awaited

/-- One move of one party. -/
inductive Moves [DecidableEq π] [Preorder lock] (s : LockTable π lock) (a : π) :
    LockMove lock → LockTable π lock → Prop
  | request {l : lock} (hready : s.awaited a = none) (habove : ∀ h ∈ s.held a, h < l) :
      Moves s a (.request l) (s.update a (s.held a) (some l))
  | grant {l : lock} (hawaited : s.awaited a = some l) (hfree : ∀ b, b ≠ a → l ∉ s.held b) :
      Moves s a (.grant l) (s.update a (insert l (s.held a)) none)
  | release : Moves s a .release (s.update a ∅ none)

section Moves

variable [DecidableEq π] [Preorder lock] {s t : LockTable π lock} {a : π} {m : LockMove lock}

theorem Ascending.update (h : s.Ascending) {held : Set lock} {awaited : Option lock}
    (hnew : ∀ l, awaited = some l → ∀ k ∈ held, k < l) :
    (s.update a held awaited).Ascending := by
  intro b l hl k hk
  by_cases hb : b = a
  · subst hb
    simp only [LockTable.update, Function.update_self] at hl hk
    exact hnew l hl k hk
  · simp only [LockTable.update, Function.update_of_ne hb] at hl hk
    exact h b l hl k hk

theorem Ascending.moves (h : s.Ascending) (hm : s.Moves a m t) : t.Ascending := by
  cases hm with
  | request _ habove =>
      apply h.update
      intro l hl k hk
      obtain rfl := Option.some.inj hl
      exact habove k hk
  | grant _ _ => exact h.update fun l hl => by cases hl
  | release => exact h.update fun l hl => by cases hl

omit [Preorder lock] in
theorem Exclusive.update (h : s.Exclusive) {held : Set lock} {awaited : Option lock}
    (hnew : ∀ l ∈ held, ∀ b, b ≠ a → l ∉ s.held b) : (s.update a held awaited).Exclusive := by
  intro b c l hb hc
  by_cases hba : b = a
  · by_cases hca : c = a
    · rw [hba, hca]
    · subst hba
      simp only [LockTable.update, Function.update_self, Function.update_of_ne hca] at hb hc
      exact absurd hc (hnew l hb c hca)
  · by_cases hca : c = a
    · subst hca
      simp only [LockTable.update, Function.update_self, Function.update_of_ne hba] at hb hc
      exact absurd hb (hnew l hc b hba)
    · simp only [LockTable.update, Function.update_of_ne hba, Function.update_of_ne hca] at hb hc
      exact h b c l hb hc

theorem Exclusive.moves (h : s.Exclusive) (hm : s.Moves a m t) : t.Exclusive := by
  have hold : ∀ l ∈ s.held a, ∀ b, b ≠ a → l ∉ s.held b :=
    fun l hl b hb hlb => hb (h b a l hlb hl)
  cases hm with
  | request _ _ => exact h.update hold
  | grant _ hfree =>
      apply h.update
      intro l hl b hb
      rcases Set.mem_insert_iff.1 hl with rfl | hl
      · exact hfree b hb
      · exact hold l hl b hb
  | release => exact h.update fun l hl => by cases hl

end Moves

/-- Nobody holds a lock or waits for one. -/
def idle : LockTable π lock := ⟨fun _ => ∅, fun _ => none⟩

end LockTable

section Ordering

variable {π : Type u} {lock : Type v} [DecidableEq π] [Preorder lock]

/-- All interleavings of parties that take locks in ascending order. -/
def lockOrdering (π : Type u) (lock : Type v) [DecidableEq π] [Preorder lock] :
    Transition (LockTable π lock) (π × LockMove lock) where
  init s := s = LockTable.idle
  step s l t := s.Moves l.1 l.2 t

/-- Ordered locking excludes two holders of one lock and parties waiting in a circle. -/
theorem lockOrdering_safe {s : LockTable π lock} (h : (lockOrdering π lock).Reachable s) :
    s.Exclusive ∧ s.Ascending := by
  apply h.invariant (P := fun s => s.Exclusive ∧ s.Ascending)
  · rintro s rfl
    constructor
    · intro a b l hl
      cases hl
    · intro a l hl
      cases hl
  · intro s l t hs hst
    exact ⟨hs.1.moves hst, hs.2.moves hst⟩

end Ordering

end Foundation
