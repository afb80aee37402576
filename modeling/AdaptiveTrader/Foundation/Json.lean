import Mathlib.Data.String.Basic
import Mathlib.Tactic

/-!
# Compact JSON text

JSON values without floating-point numbers and their compact text: no spaces, and in strings only
the quotation mark, the backslash and the control characters are escaped. The text is a list of
characters.

The text determines the value (`dumps_injective`). More is true: no text continues another
(`dumps_append_inj`), as long as what follows a number does not start with a digit.
-/

set_option autoImplicit false

namespace Foundation

/-- A JSON value. -/
inductive Json
  | null
  | bool (value : Bool)
  | int (value : Int)
  | text (value : String)
  | array (items : List Json)
  | object (members : List (String × Json))

namespace Json

/-! ## Text -/

/-- A hexadecimal digit. -/
def hexChar (n : Nat) : Char := if n < 10 then Char.ofNat (48 + n) else Char.ofNat (87 + n)

/-- A character inside a string. -/
def escapeChar (c : Char) : List Char :=
  if c = '"' then ['\\', '"']
  else if c = '\\' then ['\\', '\\']
  else if c = '\n' then ['\\', 'n']
  else if c = '\r' then ['\\', 'r']
  else if c = '\t' then ['\\', 't']
  else if c.toNat = 8 then ['\\', 'b']
  else if c.toNat = 12 then ['\\', 'f']
  else if c.toNat < 32 then ['\\', 'u', '0', '0', hexChar (c.toNat / 16), hexChar (c.toNat % 16)]
  else [c]

/-- A string behind its opening quotation mark. -/
def quoteTail : List Char → List Char
  | [] => ['"']
  | c :: rest => escapeChar c ++ quoteTail rest

/-- A string. -/
def quote (s : String) : List Char := '"' :: quoteTail s.toList

/-- A number. -/
def intChars : Int → List Char
  | .ofNat n => Nat.toDigits 10 n
  | .negSucc n => '-' :: Nat.toDigits 10 (n + 1)

mutual
/-- The compact text of a value. -/
def dumps : Json → List Char
  | null => ['n', 'u', 'l', 'l']
  | bool true => ['t', 'r', 'u', 'e']
  | bool false => ['f', 'a', 'l', 's', 'e']
  | int n => intChars n
  | text s => quote s
  | array [] => ['[', ']']
  | array (v :: rest) => '[' :: (dumps v ++ dumpsItems rest)
  | object [] => ['{', '}']
  | object ((key, v) :: rest) => '{' :: (quote key ++ ':' :: (dumps v ++ dumpsMembers rest))

/-- The items behind the first, with the closing bracket. -/
def dumpsItems : List Json → List Char
  | [] => [']']
  | v :: rest => ',' :: (dumps v ++ dumpsItems rest)

/-- The members behind the first, with the closing brace. -/
def dumpsMembers : List (String × Json) → List Char
  | [] => ['}']
  | (key, v) :: rest => ',' :: (quote key ++ ':' :: (dumps v ++ dumpsMembers rest))
end

/-! ## Strings are self-delimiting -/

/-- The value of a hexadecimal digit. -/
def hexCharValue (c : Char) : Nat := if c.toNat < 58 then c.toNat - 48 else c.toNat - 87

/-- Read one character inside a string. -/
def unescape : List Char → Option (Char × List Char)
  | '\\' :: 'n' :: rest => some ('\n', rest)
  | '\\' :: 'r' :: rest => some ('\r', rest)
  | '\\' :: 't' :: rest => some ('\t', rest)
  | '\\' :: 'b' :: rest => some (Char.ofNat 8, rest)
  | '\\' :: 'f' :: rest => some (Char.ofNat 12, rest)
  | '\\' :: 'u' :: '0' :: '0' :: a :: b :: rest =>
      some (Char.ofNat (16 * hexCharValue a + hexCharValue b), rest)
  | '\\' :: c :: rest => some (c, rest)
  | '"' :: _ => none
  | c :: rest => some (c, rest)
  | [] => none

theorem hexCharValue_hexChar : ∀ n < 16, hexCharValue (hexChar n) = n := by decide

theorem eq_ofNat_of_toNat_eq {c : Char} {n : Nat} (h : c.toNat = n) : c = Char.ofNat n := by
  rw [← h, Char.ofNat_toNat]

/-- Reading inverts escaping. -/
theorem unescape_escapeChar (c : Char) (rest : List Char) :
    unescape (escapeChar c ++ rest) = some (c, rest) := by
  unfold escapeChar
  split
  · next h => subst h; rfl
  split
  · next h => subst h; rfl
  split
  · next h => subst h; rfl
  split
  · next h => subst h; rfl
  split
  · next h => subst h; rfl
  split
  · next h => rw [eq_ofNat_of_toNat_eq h]; rfl
  split
  · next h => rw [eq_ofNat_of_toNat_eq h]; rfl
  split
  · next h =>
      have hhigh := hexCharValue_hexChar (c.toNat / 16) (by omega)
      have hlow := hexCharValue_hexChar (c.toNat % 16) (by omega)
      have hsum : 16 * (c.toNat / 16) + c.toNat % 16 = c.toNat := Nat.div_add_mod _ _
      simp only [List.cons_append, List.nil_append, unescape, hhigh, hlow, hsum, Char.ofNat_toNat]
  · next hquote hbackslash _ _ _ _ _ _ =>
      -- An unescaped character is neither the backslash nor the quotation mark.
      simp only [List.cons_append, List.nil_append]
      rw [unescape.eq_def]
      split <;> simp_all

theorem escapeChar_append_inj {c d : Char} {r s : List Char}
    (h : escapeChar c ++ r = escapeChar d ++ s) : c = d ∧ r = s := by
  have hread := congrArg unescape h
  rw [unescape_escapeChar, unescape_escapeChar, Option.some.injEq, Prod.mk.injEq] at hread
  exact hread

theorem quote_ne_escapeChar (c : Char) (r s : List Char) : '"' :: r ≠ escapeChar c ++ s := by
  intro h
  have hread := congrArg unescape h
  rw [unescape_escapeChar] at hread
  cases hread

theorem quoteTail_append_inj {cs ds : List Char} :
    ∀ {r s : List Char}, quoteTail cs ++ r = quoteTail ds ++ s → cs = ds ∧ r = s := by
  induction cs generalizing ds with
  | nil =>
      intro r s h
      cases ds with
      | nil => exact ⟨rfl, List.append_cancel_left h⟩
      | cons d ds =>
          simp only [quoteTail, List.cons_append, List.nil_append, List.append_assoc] at h
          exact absurd h (quote_ne_escapeChar d _ _)
  | cons c cs ih =>
      intro r s h
      cases ds with
      | nil =>
          simp only [quoteTail, List.cons_append, List.nil_append, List.append_assoc] at h
          exact absurd h.symm (quote_ne_escapeChar c _ _)
      | cons d ds =>
          simp only [quoteTail, List.append_assoc] at h
          obtain ⟨rfl, htail⟩ := escapeChar_append_inj h
          obtain ⟨rfl, hrest⟩ := ih htail
          exact ⟨rfl, hrest⟩

theorem quote_append_inj {k l : String} {r s : List Char} (h : quote k ++ r = quote l ++ s) :
    k = l ∧ r = s := by
  simp only [quote, List.cons_append, List.cons.injEq, true_and] at h
  obtain ⟨hkl, hrs⟩ := quoteTail_append_inj h
  exact ⟨String.toList_inj.1 hkl, hrs⟩

/-! ## Numbers -/

/-- The text does not go on with a digit. -/
def NoDigit (r : List Char) : Prop := ∀ c rest, r = c :: rest → c.isDigit = false

theorem NoDigit.nil : NoDigit [] := fun _ _ h => by cases h

theorem NoDigit.cons {c : Char} {r : List Char} (h : c.isDigit = false) : NoDigit (c :: r) := by
  rintro d rest ⟨⟩
  exact h

theorem takeWhile_digits {ds r : List Char} (hds : ∀ c ∈ ds, c.isDigit = true) (hr : NoDigit r) :
    (ds ++ r).takeWhile Char.isDigit = ds := by
  rw [List.takeWhile_append_of_pos hds]
  cases r with
  | nil => simp
  | cons c rest => simp [hr c rest rfl]

theorem toDigits_append_inj {m n : Nat} {r s : List Char} (hr : NoDigit r) (hs : NoDigit s)
    (h : Nat.toDigits 10 m ++ r = Nat.toDigits 10 n ++ s) : m = n ∧ r = s := by
  have hdigits : ∀ k, ∀ c ∈ Nat.toDigits 10 k, c.isDigit = true :=
    fun _ _ hc => Nat.isDigit_of_mem_toDigits (by decide) (by decide) hc
  have hprefix := congrArg (List.takeWhile Char.isDigit) h
  rw [takeWhile_digits (hdigits m) hr, takeWhile_digits (hdigits n) hs] at hprefix
  have hvalue := congrArg (fun ds => Nat.ofDigitChars 10 ds 0) hprefix
  simp only [Nat.ofDigitChars_ten_toDigits] at hvalue
  subst hvalue
  exact ⟨rfl, List.append_cancel_left h⟩

/-! ## Values -/

/-- What the first character of a text tells about the value. -/
inductive Kind
  | null
  | true
  | false
  | nonnegative
  | negative
  | text
  | array
  | object
  deriving DecidableEq

def kind : Json → Kind
  | null => .null
  | bool b => if b = Bool.true then .true else .false
  | int (.ofNat _) => .nonnegative
  | int (.negSucc _) => .negative
  | text _ => .text
  | array _ => .array
  | object _ => .object

def charKind (c : Char) : Option Kind :=
  if c = 'n' then some .null
  else if c = 't' then some .true
  else if c = 'f' then some .false
  else if c = '-' then some .negative
  else if c = '"' then some .text
  else if c = '[' then some .array
  else if c = '{' then some .object
  else if c.isDigit then some .nonnegative
  else none

theorem charKind_of_isDigit {c : Char} (h : c.isDigit = true) :
    charKind c = some .nonnegative := by
  have hne : ∀ {d : Char}, d.isDigit = false → c ≠ d := by
    rintro d hd rfl
    rw [hd] at h
    cases h
  simp only [charKind, hne (d := 'n') rfl, hne (d := 't') rfl, hne (d := 'f') rfl,
    hne (d := '-') rfl, hne (d := '"') rfl, hne (d := '[') rfl, hne (d := '{') rfl, h, if_true,
    if_false]

/-- The text starts with a character that shows the kind of the value. -/
theorem exists_dumps_eq_cons (v : Json) :
    ∃ c rest, dumps v = c :: rest ∧ charKind c = some v.kind := by
  cases v with
  | null => exact ⟨_, _, rfl, rfl⟩
  | bool b => cases b <;> exact ⟨_, _, rfl, rfl⟩
  | int n =>
      cases n with
      | ofNat n =>
          cases hdigits : Nat.toDigits 10 n with
          | nil => exact absurd hdigits Nat.toDigits_ne_nil
          | cons c rest =>
              have hc : c.isDigit = true := Nat.isDigit_of_mem_toDigits (by decide) (by decide)
                (hdigits ▸ List.mem_cons_self)
              exact ⟨c, rest, hdigits, charKind_of_isDigit hc⟩
      | negSucc n => exact ⟨_, _, rfl, rfl⟩
  | text s => exact ⟨_, _, rfl, rfl⟩
  | array items => cases items <;> exact ⟨_, _, rfl, rfl⟩
  | object members => cases members <;> exact ⟨_, _, rfl, rfl⟩

theorem kind_eq_of_dumps_append {v w : Json} {r s : List Char} (h : dumps v ++ r = dumps w ++ s) :
    v.kind = w.kind := by
  obtain ⟨c, cs, hv, hc⟩ := exists_dumps_eq_cons v
  obtain ⟨d, ds, hw, hd⟩ := exists_dumps_eq_cons w
  rw [hv, hw, List.cons_append, List.cons_append, List.cons.injEq] at h
  rw [h.1, hd, Option.some.injEq] at hc
  exact hc.symm

/-- No value starts with a closing bracket. -/
theorem dumps_ne_bracket (v : Json) (r s : List Char) : dumps v ++ r ≠ ']' :: s := by
  intro h
  obtain ⟨c, cs, hv, hc⟩ := exists_dumps_eq_cons v
  rw [hv, List.cons_append, List.cons.injEq] at h
  rw [h.1] at hc
  cases hc

theorem noDigit_dumpsItems (items : List Json) (r : List Char) : NoDigit (dumpsItems items ++ r) := by
  cases items <;> exact NoDigit.cons rfl

theorem noDigit_dumpsMembers (members : List (String × Json)) (r : List Char) :
    NoDigit (dumpsMembers members ++ r) := by
  cases members with
  | nil => exact NoDigit.cons rfl
  | cons m rest => exact NoDigit.cons rfl

mutual
/-- No text continues the text of another value. -/
theorem dumps_append_inj : ∀ (v w : Json) {r s : List Char}, NoDigit r → NoDigit s →
    dumps v ++ r = dumps w ++ s → v = w ∧ r = s
  | null, w, r, s, _, _, h => by
      have hkind := kind_eq_of_dumps_append h
      cases w with
      | null => exact ⟨rfl, List.append_cancel_left h⟩
      | bool b => cases b <;> cases hkind
      | int n => cases n <;> cases hkind
      | _ => cases hkind
  | bool a, w, r, s, _, _, h => by
      have hkind := kind_eq_of_dumps_append h
      cases w with
      | bool b =>
          have hab : a = b := by cases a <;> cases b <;> first | rfl | cases hkind
          subst hab
          exact ⟨rfl, List.append_cancel_left h⟩
      | int n => cases a <;> cases n <;> cases hkind
      | _ => cases a <;> cases hkind
  | int m, w, r, s, hr, hs, h => by
      have hkind := kind_eq_of_dumps_append h
      cases w with
      | int n =>
          cases m with
          | ofNat m =>
              cases n with
              | ofNat n =>
                  obtain ⟨rfl, hrs⟩ := toDigits_append_inj hr hs h
                  exact ⟨rfl, hrs⟩
              | negSucc n => cases hkind
          | negSucc m =>
              cases n with
              | ofNat n => cases hkind
              | negSucc n =>
                  simp only [dumps, intChars, List.cons_append, List.cons.injEq, true_and] at h
                  obtain ⟨hmn, hrs⟩ := toDigits_append_inj hr hs h
                  obtain rfl : m = n := Nat.succ.inj hmn
                  exact ⟨rfl, hrs⟩
      | bool b => cases m <;> cases b <;> cases hkind
      | _ => cases m <;> cases hkind
  | text k, w, r, s, _, _, h => by
      have hkind := kind_eq_of_dumps_append h
      cases w with
      | text l =>
          obtain ⟨rfl, hrs⟩ := quote_append_inj h
          exact ⟨rfl, hrs⟩
      | bool b => cases b <;> cases hkind
      | int n => cases n <;> cases hkind
      | _ => cases hkind
  | array vs, w, r, s, _, _, h => by
      have hkind := kind_eq_of_dumps_append h
      cases w with
      | array ws =>
          cases vs with
          | nil =>
              cases ws with
              | nil => exact ⟨rfl, List.append_cancel_left h⟩
              | cons w ws =>
                  simp only [dumps, List.cons_append, List.append_assoc, List.cons.injEq,
                    true_and] at h
                  exact absurd h.symm (dumps_ne_bracket w _ _)
          | cons v vs =>
              cases ws with
              | nil =>
                  simp only [dumps, List.cons_append, List.append_assoc, List.cons.injEq,
                    true_and] at h
                  exact absurd h (dumps_ne_bracket v _ _)
              | cons w ws =>
                  simp only [dumps, List.cons_append, List.append_assoc, List.cons.injEq,
                    true_and] at h
                  obtain ⟨rfl, hitems⟩ := dumps_append_inj v w (noDigit_dumpsItems vs r)
                    (noDigit_dumpsItems ws s) h
                  obtain ⟨rfl, hrs⟩ := dumpsItems_append_inj vs ws hitems
                  exact ⟨rfl, hrs⟩
      | bool b => cases b <;> cases hkind
      | int n => cases n <;> cases hkind
      | _ => cases hkind
  | object ms, w, r, s, _, _, h => by
      have hkind := kind_eq_of_dumps_append h
      cases w with
      | object ns =>
          cases ms with
          | nil =>
              cases ns with
              | nil => exact ⟨rfl, List.append_cancel_left h⟩
              | cons n ns => cases h
          | cons m ms =>
              cases ns with
              | nil => cases h
              | cons n ns =>
                  obtain ⟨key, v⟩ := m
                  obtain ⟨key', w⟩ := n
                  simp only [dumps, List.cons_append, List.append_assoc, List.cons.injEq,
                    true_and] at h
                  obtain ⟨rfl, hvalue⟩ := quote_append_inj h
                  obtain ⟨rfl, hmembers⟩ := dumps_append_inj v w (noDigit_dumpsMembers ms r)
                    (noDigit_dumpsMembers ns s) (List.cons.inj hvalue).2
                  obtain ⟨rfl, hrs⟩ := dumpsMembers_append_inj ms ns hmembers
                  exact ⟨rfl, hrs⟩
      | bool b => cases b <;> cases hkind
      | int n => cases n <;> cases hkind
      | _ => cases hkind

theorem dumpsItems_append_inj : ∀ (vs ws : List Json) {r s : List Char},
    dumpsItems vs ++ r = dumpsItems ws ++ s → vs = ws ∧ r = s
  | [], [], r, s, h => ⟨rfl, List.append_cancel_left h⟩
  | [], w :: ws, r, s, h => by cases h
  | v :: vs, [], r, s, h => by cases h
  | v :: vs, w :: ws, r, s, h => by
      simp only [dumpsItems, List.cons_append, List.append_assoc, List.cons.injEq, true_and] at h
      obtain ⟨rfl, hitems⟩ := dumps_append_inj v w (noDigit_dumpsItems vs r)
        (noDigit_dumpsItems ws s) h
      obtain ⟨rfl, hrs⟩ := dumpsItems_append_inj vs ws hitems
      exact ⟨rfl, hrs⟩

theorem dumpsMembers_append_inj : ∀ (ms ns : List (String × Json)) {r s : List Char},
    dumpsMembers ms ++ r = dumpsMembers ns ++ s → ms = ns ∧ r = s
  | [], [], r, s, h => ⟨rfl, List.append_cancel_left h⟩
  | [], (key, w) :: ns, r, s, h => by cases h
  | (key, v) :: ms, [], r, s, h => by cases h
  | (key, v) :: ms, (key', w) :: ns, r, s, h => by
      simp only [dumpsMembers, List.cons_append, List.append_assoc, List.cons.injEq,
        true_and] at h
      obtain ⟨rfl, hvalue⟩ := quote_append_inj h
      obtain ⟨rfl, hmembers⟩ := dumps_append_inj v w (noDigit_dumpsMembers ms r)
        (noDigit_dumpsMembers ns s) (List.cons.inj hvalue).2
      obtain ⟨rfl, hrs⟩ := dumpsMembers_append_inj ms ns hmembers
      exact ⟨rfl, hrs⟩
end

/-- The text determines the value. -/
theorem dumps_injective : Function.Injective dumps := by
  intro v w h
  have hend : dumps v ++ [] = dumps w ++ [] := by rw [List.append_nil, List.append_nil, h]
  exact (dumps_append_inj v w NoDigit.nil NoDigit.nil hend).1

end Json

end Foundation
