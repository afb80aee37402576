import Mathlib.Tactic

/-!
# Search for a regular pattern

A `Pattern α` is a regular expression whose letters are tests on a symbol. Reading a symbol turns a
pattern into its derivative, so a search is a structural recursion on the text and computes.
A hit never depends on what stands behind it: a text with a hit keeps it under every extension
(`Pattern.search_append_right`), hence a prefix of a text without a hit has none
(`Pattern.search_take`).
-/

set_option autoImplicit false

namespace Foundation

universe u

/-- Regular expressions over the symbols `α`. -/
inductive Pattern (α : Type u) where
  | never
  | epsilon
  | letter (test : α → Bool)
  | alt (left right : Pattern α)
  | seq (left right : Pattern α)
  | star (body : Pattern α)

namespace Pattern

variable {α : Type u}

/-- `body+`. -/
def plus (body : Pattern α) : Pattern α := .seq body (.star body)

/-- One letter after the other. -/
def letters : List (α → Bool) → Pattern α
  | [] => .epsilon
  | test :: rest => .seq (.letter test) (letters rest)

/-- The pattern matches the empty text. -/
def nullable : Pattern α → Bool
  | .never => false
  | .epsilon => true
  | .letter _ => false
  | .alt left right => left.nullable || right.nullable
  | .seq left right => left.nullable && right.nullable
  | .star _ => true

/-- What has to follow once the symbol `a` is read. -/
def derivative (a : α) : Pattern α → Pattern α
  | .never => .never
  | .epsilon => .never
  | .letter test => if test a then .epsilon else .never
  | .alt left right => .alt (left.derivative a) (right.derivative a)
  | .seq left right =>
      if left.nullable then .alt (.seq (left.derivative a) right) (right.derivative a)
      else .seq (left.derivative a) right
  | .star body => .seq (body.derivative a) (.star body)

/-- Some prefix of the text matches, as `re.match` finds it. -/
def matchesPrefix : Pattern α → List α → Bool
  | p, [] => p.nullable
  | p, a :: rest => p.nullable || (p.derivative a).matchesPrefix rest

/-- Some infix of the text matches, as `re.search` finds it. -/
def search (p : Pattern α) : List α → Bool
  | [] => p.matchesPrefix []
  | a :: rest => p.matchesPrefix (a :: rest) || p.search rest

theorem matchesPrefix_append {text : List α} (more : List α) :
    ∀ {p : Pattern α}, p.matchesPrefix text = true → p.matchesPrefix (text ++ more) = true := by
  induction text with
  | nil =>
      intro p h
      cases more with
      | nil => exact h
      | cons a rest => simp only [matchesPrefix] at h; simp [matchesPrefix, h]
  | cons a rest ih =>
      intro p h
      simp only [matchesPrefix, Bool.or_eq_true] at h
      rcases h with hnull | hrest
      · simp [matchesPrefix, hnull]
      · simp [matchesPrefix, ih hrest]

/-- A match at the front of a text is a hit. -/
theorem search_of_matchesPrefix {p : Pattern α} {text : List α} (h : p.matchesPrefix text = true) :
    p.search text = true := by
  cases text with
  | nil => exact h
  | cons a rest => simp [search, h]

/-- **A hit survives every extension of the text.** -/
theorem search_append_right {p : Pattern α} {text : List α} (more : List α)
    (h : p.search text = true) : p.search (text ++ more) = true := by
  induction text with
  | nil => exact search_of_matchesPrefix (matchesPrefix_append more h)
  | cons a rest ih =>
      simp only [search, Bool.or_eq_true] at h
      rcases h with hfront | hrest
      · exact search_of_matchesPrefix (matchesPrefix_append more hfront)
      · simp [search, ih hrest]

/-- A prefix of a text without a hit has none. -/
theorem search_take {p : Pattern α} {text : List α} (n : Nat) (h : p.search text = false) :
    p.search (text.take n) = false := by
  by_contra hhit
  have hmore := search_append_right (text.drop n) (Bool.eq_true_of_not_eq_false hhit)
  rw [List.take_append_drop, h] at hmore
  exact Bool.false_ne_true hmore

end Pattern

end Foundation
