import AdaptiveTrader.Foundation.Dict
import AdaptiveTrader.Foundation.Json

/-!
# Reading JSON

A recursive-descent reader for the JSON values of `Json`: white space between the tokens, all escapes
in strings, one reading for each number without fraction and exponent. A text whose value has a
floating-point number or a lone surrogate in it has no reading here. What an object becomes is up to
a hook on its pairs, which come in the order of the text and may repeat a key.

Each call on a nested value passes a smaller bound, and every call follows a character that was read,
so the length of the text is bound enough. `loads_dumps` says that reading inverts `dumps`.
-/

set_option autoImplicit false

namespace Foundation

namespace Json

/-! ## Tokens -/

/-- White space between tokens. -/
def isSpace (c : Char) : Bool := c = ' ' || c = '\t' || c = '\n' || c = '\r'

def skipSpace (input : List Char) : List Char := input.dropWhile isSpace

/-- The rest of a text that starts with a word. -/
def expect : List Char → List Char → Option (List Char)
  | [], input => some input
  | c :: word, d :: input => if c = d then expect word input else none
  | _ :: _, [] => none

/-- The value of a hexadecimal digit of either case. -/
def hexValue (c : Char) : Option Nat :=
  if c.isDigit then some (c.toNat - 48)
  else if 'a' ≤ c ∧ c ≤ 'f' then some (c.toNat - 87)
  else if 'A' ≤ c ∧ c ≤ 'F' then some (c.toNat - 55)
  else none

/-- The code unit of four hexadecimal digits. -/
def codeUnit (a b c d : Char) : Option Nat := do
  let a ← hexValue a
  let b ← hexValue b
  let c ← hexValue c
  let d ← hexValue d
  some (4096 * a + 256 * b + 16 * c + d)

/-- The character behind an escaped code unit. A high surrogate takes the escaped low surrogate behind
it along. -/
def scanUnit (unit : Nat) : List Char → Option (Char × List Char)
  | '\\' :: 'u' :: a :: b :: c :: d :: rest =>
      if 0xd800 ≤ unit ∧ unit < 0xdc00 then do
        let low ← codeUnit a b c d
        if 0xdc00 ≤ low ∧ low < 0xe000 then
          some (Char.ofNat (0x10000 + (unit - 0xd800) * 0x400 + (low - 0xdc00)), rest)
        else none
      else if 0xdc00 ≤ unit ∧ unit < 0xe000 then none
      else some (Char.ofNat unit, '\\' :: 'u' :: a :: b :: c :: d :: rest)
  | rest => if 0xd800 ≤ unit ∧ unit < 0xe000 then none else some (Char.ofNat unit, rest)

/-- The character behind a one-letter escape. -/
def shortEscape (c : Char) : Option Char :=
  if c = '"' ∨ c = '\\' ∨ c = '/' then some c
  else if c = 'b' then some (Char.ofNat 8)
  else if c = 'f' then some (Char.ofNat 12)
  else if c = 'n' then some '\n'
  else if c = 'r' then some '\r'
  else if c = 't' then some '\t'
  else none

/-- Read one character inside a string. -/
def scanChar : List Char → Option (Char × List Char)
  | '\\' :: 'u' :: a :: b :: c :: d :: rest =>
      (codeUnit a b c d).bind fun unit => scanUnit unit rest
  | '\\' :: c :: rest => (shortEscape c).map fun e => (e, rest)
  | c :: rest => if c.toNat < 32 ∨ c = '\\' then none else some (c, rest)
  | [] => none

/-- Read a string behind its opening quotation mark. -/
def scanString : Nat → List Char → Option (List Char × List Char)
  | 0, _ => none
  | _ + 1, '"' :: rest => some ([], rest)
  | bound + 1, input => do
      let (c, rest) ← scanChar input
      let (cs, rest) ← scanString bound rest
      some (c :: cs, rest)

/-- The number goes on with a fraction or an exponent. -/
def goesOnAsFloat : List Char → Bool
  | '.' :: d :: _ => d.isDigit
  | e :: '+' :: d :: _ => (e = 'e' || e = 'E') && d.isDigit
  | e :: '-' :: d :: _ => (e = 'e' || e = 'E') && d.isDigit
  | e :: d :: _ => (e = 'e' || e = 'E') && d.isDigit
  | _ => false

/-- Read a number without a sign. A leading zero is the whole number. -/
def scanNatural (input : List Char) : Option (Nat × List Char) :=
  let digits := if input.head? = some '0' then ['0'] else input.takeWhile Char.isDigit
  let rest := input.drop digits.length
  if digits = [] ∨ goesOnAsFloat rest = true then none
  else some (Nat.ofDigitChars 10 digits 0, rest)

/-! ## Values -/

section Parse

variable (hook : List (String × Json) → Option (List (String × Json)))

mutual
/-- Read a value. -/
def parseValue : Nat → List Char → Option (Json × List Char)
  | 0, _ => none
  | bound + 1, input =>
      match skipSpace input with
      | [] => none
      | c :: rest =>
          match charKind c with
          | some .null => (expect ['u', 'l', 'l'] rest).map fun rest => (null, rest)
          | some .true => (expect ['r', 'u', 'e'] rest).map fun rest => (bool true, rest)
          | some .false => (expect ['a', 'l', 's', 'e'] rest).map fun rest => (bool false, rest)
          | some .text =>
              (scanString (rest.length + 1) rest).map fun (cs, rest) =>
                (text (String.ofList cs), rest)
          | some .nonnegative => (scanNatural (c :: rest)).map fun (n, rest) => (int n, rest)
          | some .negative => (scanNatural rest).map fun (n, rest) => (int (-n), rest)
          | some .array =>
              if (skipSpace rest).head? = some ']' then some (array [], (skipSpace rest).drop 1)
              else do
                let (v, rest) ← parseValue bound rest
                let (vs, rest) ← parseItems bound rest
                some (array (v :: vs), rest)
          | some .object =>
              if (skipSpace rest).head? = some '}' then do
                let members ← hook []
                some (object members, (skipSpace rest).drop 1)
              else do
                let (m, rest) ← parseMember bound rest
                let (ms, rest) ← parseMembers bound rest
                let members ← hook (m :: ms)
                some (object members, rest)
          | none => none

/-- Read the items behind the first, with the closing bracket. -/
def parseItems : Nat → List Char → Option (List Json × List Char)
  | 0, _ => none
  | bound + 1, input =>
      match skipSpace input with
      | ']' :: rest => some ([], rest)
      | ',' :: rest => do
          let (v, rest) ← parseValue bound rest
          let (vs, rest) ← parseItems bound rest
          some (v :: vs, rest)
      | _ => none

/-- Read a key, the colon and a value. -/
def parseMember : Nat → List Char → Option ((String × Json) × List Char)
  | 0, _ => none
  | bound + 1, input =>
      match skipSpace input with
      | '"' :: rest => do
          let (key, rest) ← scanString (rest.length + 1) rest
          let rest ← expect [':'] (skipSpace rest)
          let (v, rest) ← parseValue bound rest
          some ((String.ofList key, v), rest)
      | _ => none

/-- Read the members behind the first, with the closing brace. -/
def parseMembers : Nat → List Char → Option (List (String × Json) × List Char)
  | 0, _ => none
  | bound + 1, input =>
      match skipSpace input with
      | '}' :: rest => some ([], rest)
      | ',' :: rest => do
          let (m, rest) ← parseMember bound rest
          let (ms, rest) ← parseMembers bound rest
          some (m :: ms, rest)
      | _ => none
end

/-- Read a text as one value. -/
def loads (input : List Char) : Option Json := do
  let (v, rest) ← parseValue hook (input.length + 1) input
  if skipSpace rest = [] then some v else none

end Parse

/-- The pairs of an object as a dictionary, in which the last pair with a key counts. -/
def lastPairs (pairs : List (String × Json)) : Option (List (String × Json)) :=
  some (Dict.ofEntries pairs)

/-- The pairs of an object in which no key may come twice. -/
def distinctPairs (pairs : List (String × Json)) : Option (List (String × Json)) :=
  if (pairs.map Prod.fst).Nodup then some pairs else none

/-! ## Reading inverts writing -/

theorem hexValue_hexChar : ∀ n < 16, hexValue (hexChar n) = some n := by decide

theorem scanUnit_of_lt {unit : Nat} (h : unit < 0xd800) (rest : List Char) :
    scanUnit unit rest = some (Char.ofNat unit, rest) := by
  have hhigh : ¬ (0xd800 ≤ unit ∧ unit < 0xdc00) := by omega
  have hlow : ¬ (0xdc00 ≤ unit ∧ unit < 0xe000) := by omega
  have hsurrogate : ¬ (0xd800 ≤ unit ∧ unit < 0xe000) := by omega
  unfold scanUnit
  split
  · rw [if_neg hhigh, if_neg hlow]
  · rw [if_neg hsurrogate]

/-- Reading a character inverts escaping it. -/
theorem scanChar_escapeChar (c : Char) (rest : List Char) :
    scanChar (escapeChar c ++ rest) = some (c, rest) := by
  unfold escapeChar
  split
  · next h => subst h; rfl
  split
  · next h => subst h; rfl
  split
  · next h => subst h; rfl
  split
  · next h => subst h; rfl
  split
  · next h => subst h; rfl
  split
  · next h => rw [eq_ofNat_of_toNat_eq h]; rfl
  split
  · next h => rw [eq_ofNat_of_toNat_eq h]; rfl
  split
  · next h =>
      have hhigh := hexValue_hexChar (c.toNat / 16) (by omega)
      have hlow := hexValue_hexChar (c.toNat % 16) (by omega)
      have hzero : hexValue '0' = some 0 := rfl
      have hunit : codeUnit '0' '0' (hexChar (c.toNat / 16)) (hexChar (c.toNat % 16)) =
          some c.toNat := by
        simp only [codeUnit, hhigh, hlow, hzero, Option.bind_eq_bind, Option.bind_some,
          Option.some.injEq]
        omega
      have hscan := @scanUnit_of_lt c.toNat (by omega) rest
      simp only [List.cons_append, List.nil_append, scanChar, hunit, Option.bind_some, hscan,
        Char.ofNat_toNat]
  · next hquote hbackslash _ _ _ _ _ hcontrol =>
      -- An unescaped character is no control character and not the backslash.
      have hplain : ¬ (c.toNat < 32 ∨ c = '\\') := by
        rintro (h | h)
        · exact hcontrol h
        · exact hbackslash h
      simp only [List.cons_append, List.nil_append]
      rw [scanChar.eq_def]
      split
      · next heq => exact absurd (List.cons.inj heq).1 hbackslash
      · next heq => exact absurd (List.cons.inj heq).1 hbackslash
      · next heq =>
          cases heq
          rw [if_neg hplain]
      · next heq => cases heq

theorem length_lt_quoteTail (cs : List Char) : cs.length < (quoteTail cs).length := by
  induction cs with
  | nil => exact Nat.zero_lt_one
  | cons c cs ih =>
      have hescape : 0 < (escapeChar c).length := by
        unfold escapeChar
        repeat' split
        all_goals exact Nat.succ_pos _
      simp only [quoteTail, List.length_cons, List.length_append]
      omega

/-- Reading a string inverts quoting it. -/
theorem scanString_quoteTail (cs : List Char) {bound : Nat} {r : List Char}
    (h : cs.length < bound) : scanString bound (quoteTail cs ++ r) = some (cs, r) := by
  induction cs generalizing bound with
  | nil =>
      obtain ⟨bound, rfl⟩ := Nat.exists_eq_succ_of_ne_zero (Nat.ne_of_gt h)
      rfl
  | cons c cs ih =>
      obtain ⟨bound, rfl⟩ := Nat.exists_eq_succ_of_ne_zero (Nat.ne_of_gt (Nat.zero_lt_of_lt h))
      have htail := ih (Nat.lt_of_succ_lt_succ h)
      rw [quoteTail, List.append_assoc, scanString]
      · simp only [scanChar_escapeChar, Option.bind_eq_bind, Option.bind_some, htail]
      · intro rest heq
        exact quote_ne_escapeChar c _ _ heq.symm

theorem scanString_quote (key : String) {r : List Char} :
    scanString ((quoteTail key.toList ++ r).length + 1) (quoteTail key.toList ++ r) =
      some (key.toList, r) := by
  apply scanString_quoteTail
  have hlength := length_lt_quoteTail key.toList
  rw [List.length_append]
  omega

/-- What may stand behind a value: nothing, a comma or a closing bracket. -/
def Ends (r : List Char) : Prop := ∀ c rest, r = c :: rest → c = ',' ∨ c = ']' ∨ c = '}'

theorem Ends.nil : Ends [] := fun _ _ h => by cases h

theorem Ends.noDigit {r : List Char} (h : Ends r) : NoDigit r := by
  intro c rest heq
  rcases h c rest heq with rfl | rfl | rfl <;> rfl

theorem Ends.goesOnAsFloat {r : List Char} (h : Ends r) : goesOnAsFloat r = false := by
  cases r with
  | nil => rfl
  | cons c rest =>
      have hne : c ≠ '.' ∧ c ≠ 'e' ∧ c ≠ 'E' := by
        rcases h c rest rfl with rfl | rfl | rfl <;> decide
      unfold Json.goesOnAsFloat
      split
      · next heq => exact absurd (List.cons.inj heq).1 hne.1
      · next heq =>
          cases heq
          simp [hne]
      · next heq =>
          cases heq
          simp [hne]
      · next heq =>
          cases heq
          simp [hne]
      · rfl

theorem ends_dumpsItems (items : List Json) (r : List Char) : Ends (dumpsItems items ++ r) := by
  intro c rest h
  cases items with
  | nil => exact Or.inr (Or.inl (List.cons.inj h).1.symm)
  | cons v vs => exact Or.inl (List.cons.inj h).1.symm

theorem ends_dumpsMembers (members : List (String × Json)) (r : List Char) :
    Ends (dumpsMembers members ++ r) := by
  intro c rest h
  cases members with
  | nil => exact Or.inr (Or.inr (List.cons.inj h).1.symm)
  | cons m ms => exact Or.inl (List.cons.inj h).1.symm

/-- A positive number has no leading zero. -/
theorem head?_toDigits {n : Nat} (h : 0 < n) : (Nat.toDigits 10 n).head? ≠ some '0' := by
  induction n using Nat.strong_induction_on with
  | _ n ih =>
      by_cases hsmall : n < 10
      · rw [Nat.toDigits_of_lt_base hsmall]
        interval_cases n <;> decide
      · have hquotient : 0 < n / 10 := by omega
        have hhead := ih (n / 10) (by omega) hquotient
        rw [Nat.toDigits_of_base_le (by decide) (by omega), List.head?_append]
        cases hdigits : (Nat.toDigits 10 (n / 10)).head? with
        | none => exact absurd (List.head?_eq_none_iff.1 hdigits) Nat.toDigits_ne_nil
        | some c =>
            rw [hdigits] at hhead
            exact hhead

/-- Reading a number inverts writing it. -/
theorem scanNatural_toDigits (n : Nat) {r : List Char} (hr : Ends r) :
    scanNatural (Nat.toDigits 10 n ++ r) = some (n, r) := by
  have hdigits : ∀ c ∈ Nat.toDigits 10 n, c.isDigit = true :=
    fun _ hc => Nat.isDigit_of_mem_toDigits (by decide) (by decide) hc
  have hread : (if (Nat.toDigits 10 n ++ r).head? = some '0' then ['0']
      else (Nat.toDigits 10 n ++ r).takeWhile Char.isDigit) = Nat.toDigits 10 n := by
    rcases Nat.eq_zero_or_pos n with rfl | hpos
    · rfl
    · have hhead : (Nat.toDigits 10 n ++ r).head? ≠ some '0' := by
        rw [List.head?_append_of_ne_nil _ Nat.toDigits_ne_nil]
        exact head?_toDigits hpos
      rw [if_neg hhead, takeWhile_digits hdigits hr.noDigit]
  have hvalue : ¬ (Nat.toDigits 10 n = [] ∨ goesOnAsFloat r = true) := by
    rintro (h | h)
    · exact Nat.toDigits_ne_nil h
    · rw [hr.goesOnAsFloat] at h
      cases h
  simp only [scanNatural, hread, List.drop_left, if_neg hvalue, Nat.ofDigitChars_ten_toDigits]

theorem isSpace_of_charKind {c : Char} {k : Kind} (h : charKind c = some k) :
    isSpace c = false := by
  cases hspace : isSpace c with
  | false => rfl
  | true =>
      simp only [isSpace, Bool.or_eq_true, decide_eq_true_eq] at hspace
      rcases hspace with ((rfl | rfl) | rfl) | rfl <;> cases h

theorem skipSpace_cons {c : Char} (h : isSpace c = false) (rest : List Char) :
    skipSpace (c :: rest) = c :: rest := by
  rw [skipSpace, List.dropWhile_cons_of_neg (by simp [h])]

theorem skipSpace_dumps (v : Json) (r : List Char) : skipSpace (dumps v ++ r) = dumps v ++ r := by
  obtain ⟨c, rest, heq, hkind⟩ := exists_dumps_eq_cons v
  rw [heq]
  exact skipSpace_cons (isSpace_of_charKind hkind) _

/-- No value starts with a closing bracket or brace. -/
theorem head?_dumps (v : Json) (r : List Char) :
    (dumps v ++ r).head? ≠ some ']' ∧ (dumps v ++ r).head? ≠ some '}' := by
  obtain ⟨c, rest, heq, hkind⟩ := exists_dumps_eq_cons v
  rw [heq]
  constructor
  · intro h
    cases h
    cases hkind
  · intro h
    cases h
    cases hkind

mutual
/-- No object has a key twice. -/
def DistinctKeys : Json → Prop
  | null => True
  | bool _ => True
  | int _ => True
  | text _ => True
  | array items => DistinctKeysItems items
  | object members => (members.map Prod.fst).Nodup ∧ DistinctKeysMembers members

def DistinctKeysItems : List Json → Prop
  | [] => True
  | v :: rest => DistinctKeys v ∧ DistinctKeysItems rest

def DistinctKeysMembers : List (String × Json) → Prop
  | [] => True
  | (_, v) :: rest => DistinctKeys v ∧ DistinctKeysMembers rest
end

section RoundTrip

variable {hook : List (String × Json) → Option (List (String × Json))}

mutual
/-- Reading a value inverts writing it. -/
theorem parseValue_dumps (hhook : ∀ pairs, (pairs.map Prod.fst).Nodup → hook pairs = some pairs) :
    ∀ (v : Json) {bound : Nat} {r : List Char}, DistinctKeys v → Ends r →
      (dumps v).length ≤ bound → parseValue hook (bound + 1) (dumps v ++ r) = some (v, r)
  | null, bound, r, _, _, _ => by
      simp only [parseValue, skipSpace_dumps]
      rfl
  | bool b, bound, r, _, _, _ => by
      simp only [parseValue, skipSpace_dumps]
      cases b <;> rfl
  | int n, bound, r, _, hr, _ => by
      simp only [parseValue, skipSpace_dumps]
      cases n with
      | ofNat n =>
          have hscan := scanNatural_toDigits n hr
          obtain ⟨c, rest, heq, hkind⟩ := exists_dumps_eq_cons (int (.ofNat n))
          have hdigits : Nat.toDigits 10 n = c :: rest := heq
          rw [hdigits] at hscan
          rw [heq]
          simp only [List.cons_append] at hscan ⊢
          simp only [hkind, kind, hscan, Option.map_some]
          rfl
      | negSucc n =>
          have hscan := scanNatural_toDigits (n + 1) hr
          show ((scanNatural (Nat.toDigits 10 (n + 1) ++ r)).map fun p => (int (-p.1), p.2)) = _
          rw [hscan]
          rfl
  | text s, bound, r, _, _, _ => by
      simp only [parseValue, skipSpace_dumps]
      show ((scanString ((quoteTail s.toList ++ r).length + 1) (quoteTail s.toList ++ r)).map
        fun p => (text (String.ofList p.1), p.2)) = _
      rw [scanString_quote, Option.map_some, String.ofList_toList]
  | array [], bound, r, _, _, _ => by
      simp only [parseValue, skipSpace_dumps]
      rfl
  | array (v :: rest), bound, r, hv, _, hbound => by
      obtain ⟨hv, hrest⟩ := hv
      simp only [dumps, List.length_cons, List.length_append] at hbound
      obtain ⟨bound, rfl⟩ := Nat.exists_eq_succ_of_ne_zero (show bound ≠ 0 by omega)
      have hfirst := parseValue_dumps hhook v hv (ends_dumpsItems rest r)
        (show (dumps v).length ≤ bound by omega)
      have hitems := parseItems_dumpsItems hhook rest hrest
        (show (dumpsItems rest).length ≤ bound by omega) (r := r)
      have hhead := (head?_dumps v (dumpsItems rest ++ r)).1
      rw [parseValue, skipSpace_dumps]
      simp only [dumps, List.cons_append, List.append_assoc]
      show (if (skipSpace (dumps v ++ (dumpsItems rest ++ r))).head? = some ']' then _ else _) = _
      rw [skipSpace_dumps, if_neg hhead]
      simp only [hfirst, hitems, Option.bind_eq_bind, Option.bind_some]
  | object [], bound, r, _, _, _ => by
      simp only [parseValue, skipSpace_dumps]
      show ((hook []).bind fun members => some (object members, r)) = _
      rw [hhook [] List.nodup_nil]
      rfl
  | object ((key, v) :: rest), bound, r, hv, _, hbound => by
      obtain ⟨hnodup, hv, hrest⟩ := hv
      simp only [dumps, List.length_cons, List.length_append] at hbound
      obtain ⟨bound, rfl⟩ := Nat.exists_eq_succ_of_ne_zero (show bound ≠ 0 by omega)
      have hfirst := parseMember_dumps hhook key v hv (ends_dumpsMembers rest r)
        (show (dumps v).length + 1 ≤ bound by omega)
      have hmembers := parseMembers_dumpsMembers hhook rest hrest
        (show (dumpsMembers rest).length ≤ bound by omega) (r := r)
      rw [parseValue, skipSpace_dumps]
      simp only [dumps, List.cons_append, List.append_assoc]
      show (if (skipSpace (quote key ++ ':' :: (dumps v ++ (dumpsMembers rest ++ r)))).head? =
        some '}' then _ else _) = _
      have hhead : (skipSpace (quote key ++ ':' :: (dumps v ++ (dumpsMembers rest ++ r)))).head? ≠
          some '}' := by
        rw [quote, List.cons_append, skipSpace_cons rfl, List.head?_cons]
        decide
      rw [if_neg hhead]
      simp only [hfirst, hmembers, hhook _ hnodup, Option.bind_eq_bind, Option.bind_some]

theorem parseItems_dumpsItems
    (hhook : ∀ pairs, (pairs.map Prod.fst).Nodup → hook pairs = some pairs) :
    ∀ (vs : List Json) {bound : Nat} {r : List Char}, DistinctKeysItems vs →
      (dumpsItems vs).length ≤ bound →
      parseItems hook (bound + 1) (dumpsItems vs ++ r) = some (vs, r)
  | [], _, _, _, _ => rfl
  | v :: rest, bound, r, hv, hbound => by
      obtain ⟨hv, hrest⟩ := hv
      simp only [dumpsItems, List.length_cons, List.length_append] at hbound
      obtain ⟨bound, rfl⟩ := Nat.exists_eq_succ_of_ne_zero (show bound ≠ 0 by omega)
      have hfirst := parseValue_dumps hhook v hv (ends_dumpsItems rest r)
        (show (dumps v).length ≤ bound by omega)
      have hitems := parseItems_dumpsItems hhook rest hrest
        (show (dumpsItems rest).length ≤ bound by omega) (r := r)
      rw [dumpsItems, List.cons_append, List.append_assoc, parseItems, skipSpace_cons rfl]
      simp only [hfirst, hitems, Option.bind_eq_bind, Option.bind_some]

theorem parseMember_dumps (hhook : ∀ pairs, (pairs.map Prod.fst).Nodup → hook pairs = some pairs)
    (key : String) (v : Json) {bound : Nat} {r : List Char} (hv : DistinctKeys v) (hr : Ends r)
    (hbound : (dumps v).length + 1 ≤ bound) :
    parseMember hook (bound + 1) (quote key ++ ':' :: (dumps v ++ r)) = some ((key, v), r) := by
  obtain ⟨bound, rfl⟩ := Nat.exists_eq_succ_of_ne_zero (show bound ≠ 0 by omega)
  have hvalue := parseValue_dumps hhook v hv hr (show (dumps v).length ≤ bound by omega)
  have hcolon : expect [':'] (skipSpace (':' :: (dumps v ++ r))) = some (dumps v ++ r) := by
    rw [skipSpace_cons rfl]
    rfl
  simp only [quote, List.cons_append, parseMember,
    skipSpace_cons (show isSpace '"' = false from rfl), scanString_quote, Option.bind_eq_bind,
    Option.bind_some, hcolon, hvalue, String.ofList_toList]

theorem parseMembers_dumpsMembers
    (hhook : ∀ pairs, (pairs.map Prod.fst).Nodup → hook pairs = some pairs) :
    ∀ (ms : List (String × Json)) {bound : Nat} {r : List Char}, DistinctKeysMembers ms →
      (dumpsMembers ms).length ≤ bound →
      parseMembers hook (bound + 1) (dumpsMembers ms ++ r) = some (ms, r)
  | [], _, _, _, _ => rfl
  | (key, v) :: rest, bound, r, hv, hbound => by
      obtain ⟨hv, hrest⟩ := hv
      simp only [dumpsMembers, List.length_cons, List.length_append] at hbound
      obtain ⟨bound, rfl⟩ := Nat.exists_eq_succ_of_ne_zero (show bound ≠ 0 by omega)
      have hfirst := parseMember_dumps hhook key v hv (ends_dumpsMembers rest r)
        (show (dumps v).length + 1 ≤ bound by omega)
      have hmembers := parseMembers_dumpsMembers hhook rest hrest
        (show (dumpsMembers rest).length ≤ bound by omega) (r := r)
      have hmember : ',' :: (quote key ++ ':' :: (dumps v ++ dumpsMembers rest)) ++ r =
          ',' :: (quote key ++ ':' :: (dumps v ++ (dumpsMembers rest ++ r))) := by
        simp only [List.cons_append, List.append_assoc]
      rw [dumpsMembers, hmember, parseMembers, skipSpace_cons rfl]
      simp only [hfirst, hmembers, Option.bind_eq_bind, Option.bind_some]
end

/-- Reading a text that was written gives the value back. -/
theorem loads_dumps (hhook : ∀ pairs, (pairs.map Prod.fst).Nodup → hook pairs = some pairs)
    {v : Json} (h : DistinctKeys v) : loads hook (dumps v) = some v := by
  have hparse := @parseValue_dumps _ hhook v _ [] h Ends.nil le_rfl
  rw [List.append_nil] at hparse
  simp only [loads, hparse, Option.bind_eq_bind, Option.bind_some]
  rfl

end RoundTrip

theorem lastPairs_of_nodup {pairs : List (String × Json)} (h : (pairs.map Prod.fst).Nodup) :
    lastPairs pairs = some pairs := by
  have hentries : Dict.ofEntries pairs = pairs := by
    induction pairs using List.reverseRecOn with
    | nil => rfl
    | append_singleton pairs pair ih =>
        rw [List.map_append, List.nodup_append'] at h
        obtain ⟨hpairs, -, hdisjoint⟩ := h
        have hfresh : pair.1 ∉ pairs.map Prod.fst := fun hmem =>
          hdisjoint hmem List.mem_cons_self
        rw [Dict.ofEntries_append_singleton, ih hpairs, Dict.assign_of_not_mem _ hfresh]
  rw [lastPairs, hentries]

theorem distinctPairs_of_nodup {pairs : List (String × Json)} (h : (pairs.map Prod.fst).Nodup) :
    distinctPairs pairs = some pairs := if_pos h

end Json

end Foundation
