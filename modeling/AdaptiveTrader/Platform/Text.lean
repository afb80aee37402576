import Mathlib.Data.String.Basic
import Mathlib.Tactic

/-!
# Identifier syntax

The closed text patterns of the platform: symbols, digests, content-addressed IDs, client order IDs
and the slugs of the audit contract. A pattern is a Boolean test on the characters of the text, so
the tests compute. Content-addressed IDs are a prefix, an underscore and a digest
(`isContentId_append`); they are never longer than an identifier may be.
-/

set_option autoImplicit false

namespace AdaptiveTrader

/-- `[0-9]`. -/
def isDigit (c : Char) : Bool := '0' ≤ c && c ≤ '9'

/-- `[a-z]`. -/
def isLower (c : Char) : Bool := 'a' ≤ c && c ≤ 'z'

/-- `[A-Z]`. -/
def isUpper (c : Char) : Bool := 'A' ≤ c && c ≤ 'Z'

/-- `[0-9a-f]`. -/
def isHexDigit (c : Char) : Bool := isDigit c || ('a' ≤ c && c ≤ 'f')

/-- One character of the class `head`, then at most `limit` characters of the class `tail`. -/
def matchesHeadTail (head tail : Char → Bool) (limit : Nat) : List Char → Bool
  | [] => false
  | c :: cs => head c && (decide (cs.length ≤ limit) && cs.all tail)

/-- Exactly `count` characters of one class. -/
def matchesExactly (test : Char → Bool) (count : Nat) (cs : List Char) : Bool :=
  decide (cs.length = count) && cs.all test

/-- `^[A-Z][A-Z0-9.]{0,9}$`. -/
def isSymbol (s : String) : Bool :=
  matchesHeadTail isUpper (fun c => isUpper c || isDigit c || c == '.') 9 s.toList

/-- `^[0-9a-f]{64}$`. -/
def isSha256 (s : String) : Bool := matchesExactly isHexDigit 64 s.toList

/-- `^[a-z][a-z0-9_]{0,63}$`. -/
def isSafeCode (s : String) : Bool :=
  matchesHeadTail isLower (fun c => isLower c || isDigit c || c == '_') 63 s.toList

/-- The characters `[A-Za-z0-9_.:-]` of an identifier behind its first. -/
def isIdentifierTail (c : Char) : Bool :=
  isUpper c || isLower c || isDigit c || c == '_' || c == '.' || c == ':' || c == '-'

/-- `^[A-Za-z0-9][A-Za-z0-9_.:-]{0,127}$`. -/
def isIdentifier (s : String) : Bool :=
  matchesHeadTail (fun c => isUpper c || isLower c || isDigit c) isIdentifierTail 127 s.toList

/-- `^[A-Za-z0-9][A-Za-z0-9_.-]{0,63}$`. -/
def isAccountId (s : String) : Bool :=
  matchesHeadTail (fun c => isUpper c || isLower c || isDigit c)
    (fun c => isUpper c || isLower c || isDigit c || c == '_' || c == '.' || c == '-') 63 s.toList

/-- The syntax of provider versions is that of account IDs. -/
def isVersionText (s : String) : Bool := isAccountId s

/-- `^{prefix}_[0-9a-f]{64}$`. -/
def isPrefixedDigest (pre s : String) : Bool :=
  let chars := pre.toList ++ ['_']
  s.toList.take chars.length == chars &&
    matchesExactly isHexDigit 64 (s.toList.drop chars.length)

/-- `^[a-z][a-z0-9_]{0,31}_[0-9a-f]{64}$`: the digest and the underscore before it have a fixed
length, so the prefix is what remains. -/
def isContentIdChars (cs : List Char) : Bool :=
  matchesHeadTail isLower (fun c => isLower c || isDigit c || c == '_') 31
      (cs.take (cs.length - 65)) &&
    match cs.drop (cs.length - 65) with
    | [] => false
    | c :: digest => c == '_' && matchesExactly isHexDigit 64 digest

/-- A content-addressed ID of the audit contract. -/
def isContentId (s : String) : Bool := isContentIdChars s.toList

/-- `_content_id(value, prefix=...)`. -/
def isContentIdOf (pre s : String) : Bool :=
  isContentId s && (pre.toList ++ ['_']).isPrefixOf s.toList

/-- `^[0-9a-f]{8}-[0-9a-f]{4}-[0-9a-f]{4}-[0-9a-f]{4}-[0-9a-f]{12}$`. Every match is the canonical
text of a UUID. -/
def isUuid (s : String) : Bool :=
  match s.toList.splitOn '-' with
  | [a, b, c, d, e] =>
      matchesExactly isHexDigit 8 a && matchesExactly isHexDigit 4 b &&
        matchesExactly isHexDigit 4 c && matchesExactly isHexDigit 4 d &&
        matchesExactly isHexDigit 12 e
  | _ => false

/-- A slug: a lowercase letter or digit, then at most 63 characters of those and `_ . : - /`. -/
def isSlug (s : String) : Bool :=
  matchesHeadTail (fun c => isLower c || isDigit c)
    (fun c => isLower c || isDigit c || c == '_' || c == '.' || c == ':' || c == '/' || c == '-')
    63 s.toList

/-- `^aqa-[0-9a-f]{5}-[0-9a-f]{5}-[A-Z][A-Z0-9.]{0,9}-[xef]-[0-9a-f]{2}-[0-9]{1,6}-[0-9a-f]{6}$` on
at most 48 characters. No class contains the separator, so the parts are matched one by one. -/
def isClientOrderId (s : String) : Bool :=
  decide (s.toList.length ≤ 48) &&
    match s.toList.splitOn '-' with
    | [pre, experiment, decision, symbol, phase, sequence, version, target] =>
        pre == ['a', 'q', 'a'] && matchesExactly isHexDigit 5 experiment &&
          matchesExactly isHexDigit 5 decision &&
          matchesHeadTail isUpper (fun c => isUpper c || isDigit c || c == '.') 9 symbol &&
          (phase == ['x'] || phase == ['e'] || phase == ['f']) &&
          matchesExactly isHexDigit 2 sequence && matchesHeadTail isDigit isDigit 5 version &&
          matchesExactly isHexDigit 6 target
    | _ => false

/-- `value[:count]`. -/
def takeText (count : Nat) (s : String) : String := String.ofList (s.toList.take count)

/-- `"-".join(parts)`. -/
def joinDash (parts : List (List Char)) : String := String.ofList (List.intercalate ['-'] parts)

/-- `f"{prefix}_{digest}"`. -/
def deterministicId (pre digest : String) : String := pre ++ "_" ++ digest

/-! ## Content-addressed IDs -/

theorem isSha256_length {s : String} (h : isSha256 s = true) : s.toList.length = 64 := by
  simp only [isSha256, matchesExactly, Bool.and_eq_true, decide_eq_true_eq] at h
  exact h.1

theorem isContentIdChars_append {pre digest : List Char}
    (hpre : matchesHeadTail isLower (fun c => isLower c || isDigit c || c == '_') 31 pre = true)
    (hd : matchesExactly isHexDigit 64 digest = true) :
    isContentIdChars (pre ++ '_' :: digest) = true := by
  have hlen : digest.length = 64 := by
    simp only [matchesExactly, Bool.and_eq_true, decide_eq_true_eq] at hd
    exact hd.1
  have hk : (pre ++ '_' :: digest).length - 65 = pre.length := by
    simp [hlen]
  unfold isContentIdChars
  rw [hk, List.take_left, List.drop_left]
  simp [hpre, hd]

/-- A short lowercase prefix and a digest form a content-addressed ID. -/
theorem isContentId_deterministicId {pre digest : String}
    (hpre : matchesHeadTail isLower (fun c => isLower c || isDigit c || c == '_') 31
      pre.toList = true) (hd : isSha256 digest = true) :
    isContentId (deterministicId pre digest) = true := by
  have hchars : (deterministicId pre digest).toList = pre.toList ++ '_' :: digest.toList := by
    simp [deterministicId, String.toList_append]
  unfold isContentId
  rw [hchars]
  exact isContentIdChars_append hpre hd

theorem deterministicId_injective {pre digest digest' : String}
    (h : deterministicId pre digest = deterministicId pre digest') : digest = digest' := by
  have hl := congrArg String.toList h
  simp only [deterministicId, String.toList_append, List.append_cancel_left_eq] at hl
  exact String.toList_inj.1 hl

/-! ## Identifiers -/

/-- A short prefix, an underscore and a digest form an identifier. -/
theorem isIdentifier_append {pre digest : List Char}
    (hpre : matchesHeadTail (fun c => isUpper c || isLower c || isDigit c) isIdentifierTail 31 pre =
      true) (hd : matchesExactly isHexDigit 64 digest = true) :
    matchesHeadTail (fun c => isUpper c || isLower c || isDigit c) isIdentifierTail 127
      (pre ++ '_' :: digest) = true := by
  have hhex : ∀ c, isHexDigit c = true → isIdentifierTail c = true := by
    intro c hc
    simp only [isHexDigit, Bool.or_eq_true, Bool.and_eq_true, decide_eq_true_eq] at hc
    rcases hc with hdigit | ⟨hlow, hhigh⟩
    · simp [isIdentifierTail, hdigit]
    · have hlower : isLower c = true := by
        simp only [isLower, Bool.and_eq_true, decide_eq_true_eq]
        exact ⟨hlow, hhigh.trans (by decide)⟩
      simp [isIdentifierTail, hlower]
  simp only [matchesExactly, Bool.and_eq_true, decide_eq_true_eq, List.all_eq_true] at hd
  cases pre with
  | nil => cases hpre
  | cons c cs =>
      simp only [matchesHeadTail, Bool.and_eq_true, decide_eq_true_eq, List.all_eq_true] at hpre
      obtain ⟨hhead, hlength, htail⟩ := hpre
      simp only [List.cons_append, matchesHeadTail, Bool.and_eq_true, decide_eq_true_eq,
        List.all_eq_true, List.length_append, List.length_cons]
      refine ⟨hhead, by omega, ?_⟩
      intro d hmem
      rcases List.mem_append.1 hmem with hcs | hrest
      · exact htail d hcs
      · rcases List.mem_cons.1 hrest with rfl | hdigest
        · decide
        · exact hhex d (hd.2 d hdigest)

theorem isIdentifier_of_isPrefixedDigest {pre s : String}
    (hpre : matchesHeadTail (fun c => isUpper c || isLower c || isDigit c) isIdentifierTail 31
      pre.toList = true) (h : isPrefixedDigest pre s = true) : isIdentifier s = true := by
  simp only [isPrefixedDigest, Bool.and_eq_true, beq_iff_eq] at h
  have hchars : s.toList = pre.toList ++ '_' :: s.toList.drop (pre.toList ++ ['_']).length := by
    have hsplit := List.take_append_drop (pre.toList ++ ['_']).length s.toList
    rw [h.1] at hsplit
    simpa using hsplit.symm
  unfold isIdentifier
  rw [hchars]
  exact isIdentifier_append hpre h.2

theorem isIdentifier_deterministicId {pre digest : String}
    (hpre : matchesHeadTail (fun c => isUpper c || isLower c || isDigit c) isIdentifierTail 31
      pre.toList = true) (hd : isSha256 digest = true) :
    isIdentifier (deterministicId pre digest) = true := by
  have hchars : (deterministicId pre digest).toList = pre.toList ++ '_' :: digest.toList := by
    simp [deterministicId, String.toList_append]
  unfold isIdentifier
  rw [hchars]
  exact isIdentifier_append hpre hd

theorem isPrefixedDigest_deterministicId (pre : String) {digest : String}
    (hd : isSha256 digest = true) : isPrefixedDigest pre (deterministicId pre digest) = true := by
  have hchars : (deterministicId pre digest).toList = (pre.toList ++ ['_']) ++ digest.toList := by
    simp [deterministicId, String.toList_append]
  simp only [isPrefixedDigest, hchars, List.take_left, List.drop_left, beq_self_eq_true,
    Bool.true_and]
  exact hd

theorem isContentIdOf_deterministicId {pre digest : String}
    (hpre : matchesHeadTail isLower (fun c => isLower c || isDigit c || c == '_') 31
      pre.toList = true) (hd : isSha256 digest = true) :
    isContentIdOf pre (deterministicId pre digest) = true := by
  have hprefix : pre.toList ++ ['_'] <+: (deterministicId pre digest).toList := by
    refine ⟨digest.toList, ?_⟩
    simp [deterministicId, String.toList_append]
  unfold isContentIdOf
  rw [isContentId_deterministicId hpre hd, Bool.true_and]
  exact List.isPrefixOf_iff_prefix.2 hprefix

/-! ## Dash-separated parts -/

/-- Joining parts without the separator and splitting again returns the parts. -/
theorem splitOn_joinDash {parts : List (List Char)} (hne : parts ≠ [])
    (hdash : ∀ p ∈ parts, '-' ∉ p) : (joinDash parts).toList.splitOn '-' = parts := by
  rw [joinDash, String.toList_ofList]
  exact List.splitOn_intercalate '-' hdash hne

end AdaptiveTrader
