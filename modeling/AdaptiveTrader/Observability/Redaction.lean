import AdaptiveTrader.Foundation.Dict
import AdaptiveTrader.Foundation.Patterns
import AdaptiveTrader.Platform.Text

/-!
# Redaction of structured log values

`redactSensitive` copies a nested value into a bounded value that may be logged. A text that matches
the secret-text pattern and every value below a sensitive key are replaced by a marker; texts, keys
and containers are cut to fixed sizes. A key is cut to its first 128 characters before it is tested,
and no key is ever matched against the secret-text pattern.

The values whose copy the output shows are the reached ones (`Reached`). The copy leaks nothing
exactly when no reached dictionary has a secret text among its first keys, and none keeps an entry
whose key is sensitive only behind its first 128 characters (`Clean`).
-/

set_option autoImplicit false

namespace AdaptiveTrader.Redaction

open Foundation

/-! ## Values -/

/-- The scalars that are copied unchanged; a float is carried by its text. -/
inductive Scalar where
  | none
  | bool (value : Bool)
  | int (value : Int)
  | float (text : String)
  deriving DecidableEq

/-- A value handed to the logger. A dictionary is its entries in order, each key by its `str()`
text; `object` is every value of another type. -/
inductive Value where
  | scalar (value : Scalar)
  | text (value : String)
  | list (items : List Value)
  | tuple (items : List Value)
  | dict (entries : List (String × Value))
  | object

/-- A `JsonValue` of the output. -/
inductive Shown where
  | scalar (value : Scalar)
  | text (value : String)
  | list (items : List Shown)
  | dict (entries : List (String × Shown))

/-- Values are proved about through their parts. -/
theorem Value.recurse {motive : Value → Prop} (scalar : ∀ value, motive (.scalar value))
    (text : ∀ value, motive (.text value))
    (list : ∀ items, (∀ x ∈ items, motive x) → motive (.list items))
    (tuple : ∀ items, (∀ x ∈ items, motive x) → motive (.tuple items))
    (dict : ∀ entries, (∀ e ∈ entries, motive e.2) → motive (.dict entries))
    (object : motive .object) : ∀ value, motive value
  | .scalar value => scalar value
  | .text value => text value
  | .list items => list items fun x _ => recurse scalar text list tuple dict object x
  | .tuple items => tuple items fun x _ => recurse scalar text list tuple dict object x
  | .dict entries => dict entries fun e _ => recurse scalar text list tuple dict object e.2
  | .object => object
termination_by value => sizeOf value
decreasing_by
  all_goals simp_wf
  · have := List.sizeOf_lt_of_mem ‹x ∈ items›
    omega
  · have := List.sizeOf_lt_of_mem ‹x ∈ items›
    omega
  · have hlt := List.sizeOf_lt_of_mem ‹e ∈ entries›
    obtain ⟨k, v⟩ := e
    simp only [Prod.mk.sizeOf_spec] at hlt ⊢
    omega

/-! ## The tests -/

/-- `REDACTED`. -/
def redacted : String := "<redacted>"

/-- `\s` of an ASCII pattern. -/
def isSpace (c : Char) : Bool :=
  c == ' ' || c == '\t' || c == '\n' || c == '\r' || c == '\x0b' || c == '\x0c'

/-- A letter of either case. -/
def isLetter (c : Char) : Bool := isLower c || isUpper c

/-- The text as a pattern, its ASCII letters in either case. -/
def ignoringCase (s : String) : Pattern Char :=
  .letters (s.toList.map fun a c => a.toLower == c.toLower)

/-- `bearer\s+\S+`. -/
def bearerText : Pattern Char :=
  .seq (ignoringCase "bearer") (.seq (.plus (.letter isSpace)) (.plus (.letter fun c => !isSpace c)))

/-- `-----BEGIN(?: [A-Z0-9]+)* PRIVATE KEY-----`. -/
def privateKeyText : Pattern Char :=
  .seq (ignoringCase "-----BEGIN")
    (.seq (.star (.seq (ignoringCase " ") (.plus (.letter fun c => isLetter c || isDigit c))))
      (ignoringCase " PRIVATE KEY-----"))

/-- `[a-z][a-z0-9+.-]*://[^\s/@:]+:[^\s/@]+@`. -/
def credentialUrl : Pattern Char :=
  .seq (.letter isLetter)
    (.seq (.star (.letter fun c => isLetter c || isDigit c || c == '+' || c == '.' || c == '-'))
      (.seq (ignoringCase "://")
        (.seq (.plus (.letter fun c => !isSpace c && c != '/' && c != '@' && c != ':'))
          (.seq (ignoringCase ":")
            (.seq (.plus (.letter fun c => !isSpace c && c != '/' && c != '@'))
              (ignoringCase "@"))))))

/-- `_SECRET_TEXT`. -/
def secretText : Pattern Char := .alt bearerText (.alt privateKeyText credentialUrl)

/-- `_SECRET_TEXT.search(text) is not None`. -/
def isSecretText (text : String) : Bool := secretText.search text.toList

/-- `_SENSITIVE_KEY_FRAGMENTS`. -/
def sensitiveKeyFragments : List String :=
  ["secret", "password", "token", "authorization", "credential", "api_key", "private_key", "cookie",
    "connection_string", "database_url"]

/-- `_SENSITIVE_COMPACT_FRAGMENTS`. -/
def sensitiveCompactFragments : List String :=
  ["apikey", "privatekey", "connectionstring", "databaseurl"]

/-- The characters of `c.lower()`. Besides the ASCII capitals only the dotted capital I and the
Kelvin sign have a lower case with an ASCII letter; the other characters stand for themselves. -/
def lowerChar (c : Char) : List Char :=
  if isUpper c then [c.toLower]
  else if c = '\u0130' then ['i', '\u0307']
  else if c = '\u212a' then ['k']
  else [c]

/-- `re.sub(r"[^a-z0-9]+", "_", text)`; `inRun` is set behind a replaced character. -/
def collapse (inRun : Bool) : List Char → List Char
  | [] => []
  | c :: rest =>
      if isLower c || isDigit c then c :: collapse false rest
      else if inRun then collapse true rest
      else '_' :: collapse true rest

/-- `text.strip("_")`. -/
def stripUnderscores (text : List Char) : List Char :=
  ((text.dropWhile (· == '_')).reverse.dropWhile (· == '_')).reverse

/-- `_is_sensitive_key`. -/
def isSensitiveKey (key : String) : Bool :=
  let normalized := stripUnderscores (collapse false (key.toList.flatMap lowerChar))
  let compact := normalized.filter (· != '_')
  sensitiveKeyFragments.any (fun fragment => decide (fragment.toList <:+: normalized)) ||
    sensitiveCompactFragments.any (fun fragment => decide (fragment.toList <:+: compact))

/-! ## The copy -/

/-- `text[:n]`. -/
def cut (n : Nat) (text : String) : String := String.ofList (text.toList.take n)

mutual

/-- `redact_sensitive(value, key=key)`. -/
def redactSensitive (key : Option String) (value : Value) : Shown :=
  if key.any isSensitiveKey then .text redacted
  else match value with
    | .scalar value => .scalar value
    | .text text => if isSecretText text then .text redacted else .text (cut 512 text)
    | .list items => .list (redactItems 64 items)
    | .tuple items => .list (redactItems 64 items)
    | .dict entries => .dict (redactEntries 64 entries [])
    | .object => .text redacted

/-- The copies of at most `room` items. -/
def redactItems : (room : Nat) → List Value → List Shown
  | 0, _ => []
  | _ + 1, [] => []
  | room + 1, item :: rest => redactSensitive none item :: redactItems room rest

/-- At most `room` entries are copied into `out`; a later entry replaces one whose key has the same
first 128 characters. -/
def redactEntries : (room : Nat) → List (String × Value) → List (String × Shown) →
    List (String × Shown)
  | 0, _, out => out
  | _ + 1, [], out => out
  | room + 1, (rawKey, item) :: rest, out =>
      let safeKey := cut 128 rawKey
      redactEntries room rest (Dict.assign safeKey (redactSensitive (some safeKey) item) out)

end

-- The equations of the definitions, stated once for all the proofs below.
attribute [local simp] redactSensitive redactItems redactEntries isSecretText cut in
theorem redactItems_eq (room : Nat) (items : List Value) :
    redactItems room items = (items.take room).map (redactSensitive none) := by
  induction room generalizing items with
  | zero => simp [redactItems]
  | succ room ih =>
      cases items with
      | nil => simp [redactItems]
      | cons item rest => simp [redactItems, ih]

/-- The entry of the copy. -/
def shownEntry (e : String × Value) : String × Shown :=
  (cut 128 e.1, redactSensitive (some (cut 128 e.1)) e.2)

theorem redactEntries_eq (room : Nat) (entries : List (String × Value))
    (out : List (String × Shown)) :
    redactEntries room entries out =
      ((entries.take room).map shownEntry).foldl (fun d e => Dict.assign e.1 e.2 d) out := by
  induction room generalizing entries out with
  | zero => simp [redactEntries]
  | succ room ih =>
      cases entries with
      | nil => simp [redactEntries]
      | cons e rest => simp [redactEntries, ih, shownEntry]

/-- The copy of a value at the root, its items and entries copied one by one. -/
theorem redactSensitive_none (value : Value) : redactSensitive none value =
    match value with
    | .scalar value => .scalar value
    | .text text => if isSecretText text then .text redacted else .text (cut 512 text)
    | .list items => .list ((items.take 64).map (redactSensitive none))
    | .tuple items => .list ((items.take 64).map (redactSensitive none))
    | .dict entries => .dict (Dict.ofEntries ((entries.take 64).map shownEntry))
    | .object => .text redacted := by
  cases value <;> simp [redactSensitive, redactItems_eq, redactEntries_eq, Dict.ofEntries]

@[simp] theorem redactSensitive_scalar (value : Scalar) :
    redactSensitive none (.scalar value) = .scalar value :=
  redactSensitive_none (.scalar value)

@[simp] theorem redactSensitive_text (text : String) :
    redactSensitive none (.text text) =
      if isSecretText text then .text redacted else .text (cut 512 text) :=
  redactSensitive_none (.text text)

@[simp] theorem redactSensitive_list (items : List Value) :
    redactSensitive none (.list items) = .list ((items.take 64).map (redactSensitive none)) :=
  redactSensitive_none (.list items)

@[simp] theorem redactSensitive_tuple (items : List Value) :
    redactSensitive none (.tuple items) = .list ((items.take 64).map (redactSensitive none)) :=
  redactSensitive_none (.tuple items)

@[simp] theorem redactSensitive_dict (entries : List (String × Value)) :
    redactSensitive none (.dict entries) =
      .dict (Dict.ofEntries ((entries.take 64).map shownEntry)) :=
  redactSensitive_none (.dict entries)

@[simp] theorem redactSensitive_object : redactSensitive none .object = .text redacted :=
  redactSensitive_none .object

/-- A value under a sensitive key is replaced, any other is copied as at the root. -/
theorem redactSensitive_some (key : String) (value : Value) :
    redactSensitive (some key) value =
      if isSensitiveKey key then .text redacted else redactSensitive none value := by
  by_cases h : isSensitiveKey key = true
  · cases value <;> simp [redactSensitive, h]
  · cases value <;> simp [redactSensitive, h]

theorem cut_not_secret {text : String} (n : Nat) (h : isSecretText text = false) :
    isSecretText (cut n text) = false := by
  have htake := Pattern.search_take n h
  simpa [isSecretText, cut] using htake

theorem redacted_not_secret : isSecretText redacted = false := by decide

/-! ## What a copy shows -/

/-- The last of the first 64 entries with this key, cut to 128 characters. -/
def lastEntry (key : String) (entries : List (String × Value)) : Option (String × Value) :=
  (entries.take 64).reverse.find? fun e => cut 128 e.1 == key

/-- The size bounds keep the entry: it is among the first 64, and no later one of them has its
first 128 characters of the key. -/
def Kept (entries : List (String × Value)) (e : String × Value) : Prop :=
  lastEntry (cut 128 e.1) entries = some e

/-- The texts of an output, its keys included. -/
def Shown.texts : Shown → List String
  | .scalar _ => []
  | .text value => [value]
  | .list items => items.attach.flatMap fun x => x.1.texts
  | .dict entries => entries.attach.flatMap fun e => e.1.1 :: e.1.2.texts
termination_by shown => sizeOf shown
decreasing_by
  all_goals simp_wf
  · have := List.sizeOf_lt_of_mem x.2
    omega
  · have hlt := List.sizeOf_lt_of_mem e.2
    obtain ⟨⟨k, v⟩, hmem⟩ := e
    simp only [Prod.mk.sizeOf_spec] at hlt ⊢
    omega

/-- The output `o` of the input `v` shows the part `x` of the input as the part `s` of the output. -/
inductive ShownAs (v : Value) (o : Shown) : Value → Shown → Prop where
  | root : ShownAs v o v o
  | item {items : List Value} {outs : List Shown} {i : Nat} {x : Value} {s : Shown} :
      ShownAs v o (.list items) (.list outs) → items[i]? = some x → outs[i]? = some s →
        ShownAs v o x s
  | tupleItem {items : List Value} {outs : List Shown} {i : Nat} {x : Value} {s : Shown} :
      ShownAs v o (.tuple items) (.list outs) → items[i]? = some x → outs[i]? = some s →
        ShownAs v o x s
  | entry {entries : List (String × Value)} {outs : List (String × Shown)} {e : String × Value}
      {s : Shown} :
      ShownAs v o (.dict entries) (.dict outs) → Kept entries e →
        Dict.lookup (cut 128 e.1) outs = some s → ShownAs v o e.2 s

/-- The same key, or two secret ones. -/
def KeyAlike (k l : String) : Prop := k = l ∨ isSecretText k = true ∧ isSecretText l = true

mutual

/-- The inputs differ only in values below sensitive keys or in secret texts. -/
inductive Alike : Value → Value → Prop where
  | same (v : Value) : Alike v v
  | secret {s t : String} : isSecretText s = true → isSecretText t = true →
      Alike (.text s) (.text t)
  | list {xs ys : List Value} : List.Forall₂ Alike xs ys → Alike (.list xs) (.list ys)
  | tuple {xs ys : List Value} : List.Forall₂ Alike xs ys → Alike (.tuple xs) (.tuple ys)
  | dict {es fs : List (String × Value)} : List.Forall₂ AlikeEntry es fs →
      Alike (.dict es) (.dict fs)

/-- The same for two entries. -/
inductive AlikeEntry : String × Value → String × Value → Prop where
  | entry {k l : String} {x y : Value} : KeyAlike k l → Alike x y → AlikeEntry (k, x) (l, y)
  | sensitive {k l : String} (x y : Value) : KeyAlike k l → isSensitiveKey k = true →
      isSensitiveKey l = true → AlikeEntry (k, x) (l, y)

end

/-- **Redaction leaks nothing of `v`.** -/
structure LeaksNothing (v : Value) : Prop where
  noSecretText : ∀ text ∈ (redactSensitive none v).texts, isSecretText text = false
  sensitiveEntry : ∀ entries outs,
    ShownAs v (redactSensitive none v) (.dict entries) (.dict outs) →
      ∀ e, Kept entries e → isSensitiveKey e.1 = true →
        Dict.lookup (cut 128 e.1) outs = some (.text redacted)
  independent : ∀ w, Alike v w → redactSensitive none v = redactSensitive none w

/-- The parts of the input that the output shows a copy of. -/
inductive Reached : Value → Value → Prop where
  | root (v : Value) : Reached v v
  | item {items : List Value} {x y : Value} : x ∈ items.take 64 → Reached x y →
      Reached (.list items) y
  | tupleItem {items : List Value} {x y : Value} : x ∈ items.take 64 → Reached x y →
      Reached (.tuple items) y
  | entry {entries : List (String × Value)} {e : String × Value} {y : Value} : Kept entries e →
      isSensitiveKey (cut 128 e.1) = false → Reached e.2 y → Reached (.dict entries) y

/-- No reached dictionary has a secret text among its first keys, or keeps an entry whose key is
sensitive only behind its first 128 characters. -/
def Clean (v : Value) : Prop :=
  ∀ entries, Reached v (.dict entries) →
    (∀ e ∈ entries.take 64, isSecretText e.1 = false) ∧
      ∀ e, Kept entries e → isSensitiveKey e.1 = true → isSensitiveKey (cut 128 e.1) = true

/-! ## The entries of a copied dictionary -/

-- The equations of the definitions, stated once for all the proofs below.
attribute [local simp] Shown.texts lastEntry shownEntry Kept Clean Dict.ofEntries Dict.lookup in
theorem lastEntry_eq_some {key : String} {entries : List (String × Value)} {e : String × Value}
    (h : lastEntry key entries = some e) : e ∈ entries.take 64 ∧ cut 128 e.1 = key := by
  have hmem := List.mem_of_find?_eq_some h
  have hkey := List.find?_some h
  exact ⟨List.mem_reverse.1 hmem, by simpa using hkey⟩

/-- A copied dictionary holds the copy of the last entry with each key. -/
theorem lookup_shownEntries (key : String) (entries : List (String × Value)) :
    Dict.lookup key (Dict.ofEntries ((entries.take 64).map shownEntry)) =
      (lastEntry key entries).map fun e => (shownEntry e).2 := by
  have hfind : ∀ l : List (String × Value), Dict.lookup key (l.map shownEntry) =
      (l.find? fun e => cut 128 e.1 == key).map fun e => (shownEntry e).2 := by
    intro l
    induction l with
    | nil => rfl
    | cons e rest ih =>
        by_cases hk : cut 128 e.1 = key
        · simp [Dict.lookup, shownEntry, hk]
        · simpa [Dict.lookup, shownEntry, hk] using ih
  rw [Dict.lookup_ofEntries, ← List.map_reverse]
  exact hfind _

theorem Kept.mem {entries : List (String × Value)} {e : String × Value} (h : Kept entries e) :
    e ∈ entries.take 64 :=
  (lastEntry_eq_some h).1

/-- The entries of a copied dictionary are the copies of the kept entries. -/
theorem mem_shownEntries {entries : List (String × Value)} {k : String} {s : Shown}
    (h : (k, s) ∈ Dict.ofEntries ((entries.take 64).map shownEntry)) :
    ∃ e, Kept entries e ∧ k = cut 128 e.1 ∧ s = (shownEntry e).2 := by
  have hget := Dict.lookup_of_mem (Dict.nodup_ofEntries _) h
  rw [lookup_shownEntries, Option.map_eq_some_iff] at hget
  obtain ⟨e, he, hs⟩ := hget
  have hk := (lastEntry_eq_some he).2
  exact ⟨e, by rw [Kept, hk]; exact he, hk.symm, hs.symm⟩

theorem lookup_kept {entries : List (String × Value)} {e : String × Value} (h : Kept entries e) :
    Dict.lookup (cut 128 e.1) (Dict.ofEntries ((entries.take 64).map shownEntry)) =
      some (redactSensitive (some (cut 128 e.1)) e.2) := by
  rw [lookup_shownEntries, h]
  rfl

/-! ## A clean value leaks nothing -/

theorem Clean.item {items : List Value} (h : Clean (.list items)) {x : Value}
    (hx : x ∈ items.take 64) : Clean x :=
  fun entries hr => h entries (.item hx hr)

theorem Clean.tupleItem {items : List Value} (h : Clean (.tuple items)) {x : Value}
    (hx : x ∈ items.take 64) : Clean x :=
  fun entries hr => h entries (.tupleItem hx hr)

theorem Clean.entry {entries : List (String × Value)} (h : Clean (.dict entries))
    {e : String × Value} (he : Kept entries e) (hkey : isSensitiveKey (cut 128 e.1) = false) :
    Clean e.2 :=
  fun entries hr => h entries (.entry he hkey hr)

theorem Clean.of_reached {v w : Value} (h : Clean v) (hr : Reached v w) : Clean w := by
  induction hr with
  | root => exact h
  | item hx _ ih => exact ih (h.item hx)
  | tupleItem hx _ ih => exact ih (h.tupleItem hx)
  | entry he hkey _ ih => exact ih (h.entry he hkey)

theorem Shown.mem_texts_list {items : List Shown} {text : String} :
    text ∈ (Shown.list items).texts ↔ ∃ x ∈ items, text ∈ x.texts := by
  simp [Shown.texts]

theorem Shown.mem_texts_dict {entries : List (String × Shown)} {text : String} :
    text ∈ (Shown.dict entries).texts ↔ ∃ e ∈ entries, text = e.1 ∨ text ∈ e.2.texts := by
  simp [Shown.texts]

/-- No secret text is in the copy of a clean value. -/
theorem Clean.noSecretText {v : Value} (h : Clean v) :
    ∀ text ∈ (redactSensitive none v).texts, isSecretText text = false := by
  induction v using Value.recurse with
  | scalar value => simp [Shown.texts]
  | text value =>
      intro text htext
      by_cases hs : isSecretText value = true
      · have heq : text = redacted := by simpa [hs, Shown.texts] using htext
        rw [heq]
        exact redacted_not_secret
      · have heq : text = cut 512 value := by simpa [hs, Shown.texts] using htext
        rw [heq]
        exact cut_not_secret 512 (by simpa using hs)
  | list items ih =>
      intro text htext
      rw [redactSensitive_list, Shown.mem_texts_list] at htext
      obtain ⟨s, hs, htext⟩ := htext
      obtain ⟨x, hx, rfl⟩ := List.mem_map.1 hs
      exact ih x (List.mem_of_mem_take hx) (h.item hx) text htext
  | tuple items ih =>
      intro text htext
      rw [redactSensitive_tuple, Shown.mem_texts_list] at htext
      obtain ⟨s, hs, htext⟩ := htext
      obtain ⟨x, hx, rfl⟩ := List.mem_map.1 hs
      exact ih x (List.mem_of_mem_take hx) (h.tupleItem hx) text htext
  | dict entries ih =>
      intro text htext
      rw [redactSensitive_dict, Shown.mem_texts_dict] at htext
      obtain ⟨⟨k, s⟩, hmem, htext⟩ := htext
      obtain ⟨e, he, rfl, rfl⟩ := mem_shownEntries hmem
      rcases htext with rfl | htext
      · exact cut_not_secret 128 ((h entries (.root _)).1 e he.mem)
      · simp only [shownEntry, redactSensitive_some] at htext
        by_cases hkey : isSensitiveKey (cut 128 e.1) = true
        · have heq : text = redacted := by simpa [hkey, Shown.texts] using htext
          rw [heq]
          exact redacted_not_secret
        · rw [if_neg hkey] at htext
          have hclean := h.entry he (by simpa using hkey)
          exact ih e (List.mem_of_mem_take he.mem) hclean text htext
  | object =>
      intro text htext
      have heq : text = redacted := by simpa [Shown.texts] using htext
      rw [heq]
      exact redacted_not_secret

/-- A shown part is a marker or the copy of a reached part. -/
theorem ShownAs.eq_redacted_or_reached {v x : Value} {s : Shown}
    (h : ShownAs v (redactSensitive none v) x s) :
    s = .text redacted ∨ s = redactSensitive none x ∧ ∀ y, Reached x y → Reached v y := by
  induction h with
  | root => exact .inr ⟨rfl, fun _ hy => hy⟩
  | @item items outs i x s _ hx hs ih =>
      rcases ih with hmark | ⟨hcopy, hreach⟩
      · cases hmark
      · rw [redactSensitive_list, Shown.list.injEq] at hcopy
        subst hcopy
        rw [List.getElem?_map, Option.map_eq_some_iff] at hs
        obtain ⟨x', hx', rfl⟩ := hs
        have hxx : x' = x := by
          rw [List.getElem?_take] at hx'
          split at hx'
          · exact Option.some.inj (hx'.symm.trans hx)
          · cases hx'
        subst hxx
        exact .inr ⟨rfl, fun y hy => hreach y (.item (List.mem_of_getElem? hx') hy)⟩
  | @tupleItem items outs i x s _ hx hs ih =>
      rcases ih with hmark | ⟨hcopy, hreach⟩
      · cases hmark
      · rw [redactSensitive_tuple, Shown.list.injEq] at hcopy
        subst hcopy
        rw [List.getElem?_map, Option.map_eq_some_iff] at hs
        obtain ⟨x', hx', rfl⟩ := hs
        have hxx : x' = x := by
          rw [List.getElem?_take] at hx'
          split at hx'
          · exact Option.some.inj (hx'.symm.trans hx)
          · cases hx'
        subst hxx
        exact .inr ⟨rfl, fun y hy => hreach y (.tupleItem (List.mem_of_getElem? hx') hy)⟩
  | @entry entries outs e s _ he hs ih =>
      rcases ih with hmark | ⟨hcopy, hreach⟩
      · cases hmark
      · rw [redactSensitive_dict, Shown.dict.injEq] at hcopy
        subst hcopy
        rw [lookup_kept he, Option.some.injEq, redactSensitive_some] at hs
        by_cases hkey : isSensitiveKey (cut 128 e.1) = true
        · rw [if_pos hkey] at hs
          exact .inl hs.symm
        · rw [if_neg hkey] at hs
          exact .inr ⟨hs.symm, fun y hy => hreach y (.entry he (by simpa using hkey) hy)⟩

/-- Every kept sensitive entry of a shown dictionary of a clean value is replaced. -/
theorem Clean.sensitiveEntry {v : Value} (h : Clean v) {entries : List (String × Value)}
    {outs : List (String × Shown)}
    (hshown : ShownAs v (redactSensitive none v) (.dict entries) (.dict outs))
    {e : String × Value} (he : Kept entries e) (hkey : isSensitiveKey e.1 = true) :
    Dict.lookup (cut 128 e.1) outs = some (.text redacted) := by
  rcases hshown.eq_redacted_or_reached with hmark | ⟨hcopy, hreach⟩
  · cases hmark
  · have hcut := (h entries (hreach _ (.root _))).2 e he hkey
    rw [redactSensitive_dict, Shown.dict.injEq] at hcopy
    rw [hcopy, lookup_kept he, redactSensitive_some, if_pos hcut]

/-- Entries with the same keys in the same order are found together. -/
theorem find?_forall₂ {R : String × Value → String × Value → Prop} (key : String)
    (hkey : ∀ e f, R e f → e.1 = f.1) {es fs : List (String × Value)} (h : List.Forall₂ R es fs) :
    (es.find? fun e => cut 128 e.1 == key) = none ∧ (fs.find? fun e => cut 128 e.1 == key) = none ∨
      ∃ e f, (es.find? fun e => cut 128 e.1 == key) = some e ∧
        (fs.find? fun e => cut 128 e.1 == key) = some f ∧ R e f := by
  induction h with
  | nil => exact .inl ⟨rfl, rfl⟩
  | @cons e f es fs hef _ ih =>
      by_cases hk : cut 128 e.1 = key
      · exact .inr ⟨e, f, by simp [hk], by simp [← hkey e f hef, hk], hef⟩
      · have hkf : cut 128 f.1 ≠ key := hkey e f hef ▸ hk
        simpa [hk, hkf] using ih

/-- Two dictionaries with the same keys show the same when their kept entries do. -/
theorem redactSensitive_dict_congr {R : String × Value → String × Value → Prop}
    {es fs : List (String × Value)} (hR : List.Forall₂ R (es.take 64) (fs.take 64))
    (hkey : ∀ e f, R e f → e.1 = f.1)
    (hshown : ∀ e f, Kept es e → R e f → shownEntry e = shownEntry f) :
    redactSensitive none (.dict es) = redactSensitive none (.dict fs) := by
  rw [redactSensitive_dict, redactSensitive_dict, Shown.dict.injEq]
  apply Dict.eq_of_lookup_eq (Dict.nodup_ofEntries _)
  · apply Dict.map_fst_ofEntries_congr
    rw [List.forall₂_map_left_iff, List.forall₂_map_right_iff]
    exact hR.imp fun e f hef => by rw [shownEntry, shownEntry, hkey e f hef]
  · intro key
    rw [lookup_shownEntries, lookup_shownEntries, lastEntry, lastEntry]
    rcases find?_forall₂ key hkey (List.rel_reverse hR) with ⟨he, hf⟩ | ⟨e, f, he, hf, hef⟩
    · rw [he, hf]
    · have hkept : Kept es e := by
        have hk : cut 128 e.1 = key := by simpa using List.find?_some he
        rw [Kept, hk]
        exact he
      rw [he, hf, Option.map_some, Option.map_some, hshown e f hkept hef]

theorem forall₂_and_mem {β : Type} {R : β → β → Prop} {xs ys : List β} (h : List.Forall₂ R xs ys) :
    List.Forall₂ (fun x y => R x y ∧ x ∈ xs) xs ys := by
  induction h with
  | nil => exact .nil
  | cons hxy _ ih =>
      exact .cons ⟨hxy, List.mem_cons_self⟩
        (ih.imp fun _ _ hR => ⟨hR.1, List.mem_cons_of_mem _ hR.2⟩)

theorem map_eq_of_forall₂ {β γ : Type} {R : β → β → Prop} {g : β → γ} {xs ys : List β}
    (h : List.Forall₂ R xs ys) (hg : ∀ x ∈ xs, ∀ y, R x y → g x = g y) : xs.map g = ys.map g := by
  induction h with
  | nil => rfl
  | @cons x y xs ys hxy _ ih =>
      rw [List.map_cons, List.map_cons, hg x List.mem_cons_self y hxy,
        ih fun x' hx' => hg x' (List.mem_cons_of_mem _ hx')]

/-- The copy of a clean value does not depend on what is secret in it. -/
theorem Clean.independent {v : Value} (h : Clean v) :
    ∀ w, Alike v w → redactSensitive none v = redactSensitive none w := by
  induction v using Value.recurse with
  | scalar value =>
      intro w hw
      cases hw
      rfl
  | text value =>
      intro w hw
      cases hw with
      | same => rfl
      | secret hs ht => simp [hs, ht]
  | list items ih =>
      intro w hw
      cases hw with
      | same => rfl
      | @list _ ys hys =>
          rw [redactSensitive_list, redactSensitive_list]
          congr 1
          apply map_eq_of_forall₂ (List.forall₂_take 64 hys)
          intro x hx y hxy
          exact ih x (List.mem_of_mem_take hx) (h.item hx) y hxy
  | tuple items ih =>
      intro w hw
      cases hw with
      | same => rfl
      | @tuple _ ys hys =>
          rw [redactSensitive_tuple, redactSensitive_tuple]
          congr 1
          apply map_eq_of_forall₂ (List.forall₂_take 64 hys)
          intro x hx y hxy
          exact ih x (List.mem_of_mem_take hx) (h.tupleItem hx) y hxy
  | dict entries ih =>
      intro w hw
      cases hw with
      | same => rfl
      | @dict _ fs hfs =>
          obtain ⟨hplain, hcut⟩ := h entries (.root _)
          have htake : List.Forall₂ (fun e f => AlikeEntry e f ∧ e ∈ entries.take 64)
              (entries.take 64) (fs.take 64) :=
            forall₂_and_mem (List.forall₂_take 64 hfs)
          have hkeys : ∀ e f, AlikeEntry e f ∧ e ∈ entries.take 64 → e.1 = f.1 := by
            rintro e f ⟨hef, he⟩
            have hne := hplain e he
            cases hef with
            | entry hk _ =>
                rcases hk with hk | ⟨hk, -⟩
                · exact hk
                · simp [hk] at hne
            | sensitive _ _ hk _ _ =>
                rcases hk with hk | ⟨hk, -⟩
                · exact hk
                · simp [hk] at hne
          apply redactSensitive_dict_congr htake hkeys
          rintro e f hkept ⟨hef, he⟩
          have hkey := hkeys e f ⟨hef, he⟩
          rw [shownEntry, shownEntry, ← hkey, redactSensitive_some, redactSensitive_some]
          by_cases hsafe : isSensitiveKey (cut 128 e.1) = true
          · rw [if_pos hsafe, if_pos hsafe]
          · cases hef with
            | @entry k l x y _ hxy =>
                have hcopy := ih (k, x) (List.mem_of_mem_take he)
                  (h.entry hkept (by simpa using hsafe)) y hxy
                rw [if_neg hsafe, if_neg hsafe, hcopy]
            | sensitive _ _ _ hsens _ => exact absurd (hcut _ hkept hsens) hsafe
  | object =>
      intro w hw
      cases hw
      rfl

/-! ## A value that is not clean leaks -/

/-- Some input that differs only in what is secret has another output. -/
def Exposed (v : Value) : Prop :=
  ∃ w, Alike v w ∧ redactSensitive none v ≠ redactSensitive none w

/-- One of the first `n` items is replaced. -/
theorem take_replaced {β : Type} {n : Nat} {items b a : List β} {x : β}
    (h : items.take n = b ++ x :: a) (y : β) :
    (b ++ y :: (a ++ items.drop n)).take n = b ++ y :: a := by
  have hlen : (b ++ y :: a).length = min n items.length := by
    rw [← List.length_take, h]
    simp
  have happ : b ++ y :: (a ++ items.drop n) = (b ++ y :: a) ++ items.drop n := by simp
  rw [happ]
  rcases Nat.le_total n items.length with hle | hle
  · apply List.take_left'
    rw [hlen, Nat.min_eq_left hle]
  · rw [List.drop_eq_nil_of_le hle, List.append_nil]
    apply List.take_of_length_le
    rw [hlen]
    exact Nat.min_le_left n items.length

/-- The other items are unchanged. -/
theorem forall₂_replaced {β : Type} {R : β → β → Prop} (hrefl : ∀ x, R x x) {n : Nat}
    {items b a : List β} {x y : β} (h : items.take n = b ++ x :: a) (hxy : R x y) :
    List.Forall₂ R items (b ++ y :: (a ++ items.drop n)) := by
  have hitems : items = b ++ x :: (a ++ items.drop n) := by
    conv_lhs => rw [← List.take_append_drop n items, h]
    simp
  have hsame : ∀ l : List β, List.Forall₂ R l l := fun l => List.forall₂_same.2 fun x _ => hrefl x
  conv_lhs => rw [hitems]
  exact List.rel_append (hsame b) (.cons hxy (hsame _))

theorem AlikeEntry.refl (e : String × Value) : AlikeEntry e e :=
  .entry (.inl rfl) (.same e.2)

/-- An exposed item exposes the copied items. -/
theorem exposed_items {items : List Value} {x : Value} (hx : x ∈ items.take 64) (h : Exposed x) :
    ∃ ys, List.Forall₂ Alike items ys ∧
      (items.take 64).map (redactSensitive none) ≠ (ys.take 64).map (redactSensitive none) := by
  obtain ⟨y, hxy, hne⟩ := h
  obtain ⟨b, a, htake⟩ := List.append_of_mem hx
  refine ⟨_, forall₂_replaced Alike.same htake hxy, ?_⟩
  rw [take_replaced htake, htake]
  intro heq
  rw [List.map_append, List.map_append, List.append_cancel_left_eq, List.map_cons,
    List.map_cons, List.cons.injEq] at heq
  exact hne heq.1

/-- The value of a kept entry whose cut key is not sensitive can be told apart. -/
theorem exposed_entry {entries : List (String × Value)} {e : String × Value}
    (he : Kept entries e) (hkey : isSensitiveKey (cut 128 e.1) = false) {y : Value}
    (hey : AlikeEntry e (e.1, y)) (hne : redactSensitive none e.2 ≠ redactSensitive none y) :
    Exposed (.dict entries) := by
  obtain ⟨hcut, after, before, hsplit, hlater⟩ := List.find?_eq_some_iff_append.1 he
  have htake : entries.take 64 = before.reverse ++ e :: after.reverse := by
    have hrev := congrArg List.reverse hsplit
    simpa using hrev
  refine ⟨.dict _, .dict (forall₂_replaced AlikeEntry.refl htake hey), ?_⟩
  intro heq
  rw [redactSensitive_dict, redactSensitive_dict, Shown.dict.injEq] at heq
  have hlast : lastEntry (cut 128 e.1)
      (before.reverse ++ (e.1, y) :: (after.reverse ++ entries.drop 64)) = some (e.1, y) := by
    rw [lastEntry, take_replaced htake]
    apply List.find?_eq_some_iff_append.2
    exact ⟨by simp, after, before, by simp, hlater⟩
  have hget := congrArg (Dict.lookup (cut 128 e.1)) heq
  rw [lookup_kept he, lookup_shownEntries, hlast, Option.map_some, Option.some.injEq, shownEntry,
    redactSensitive_some, redactSensitive_some, hkey] at hget
  exact hne (by simpa using hget)

/-- The front of a secret key. -/
def bearerFront : List Char := ['b', 'e', 'a', 'r', 'e', 'r', ' ', 'a']

/-- The secret key `bearer a…a`. -/
def bearerKey (n : Nat) : String := String.ofList (bearerFront ++ List.replicate n 'a')

theorem bearerFront_secret : secretText.search bearerFront = true := by decide +kernel

theorem bearerKey_secret (n : Nat) : isSecretText (bearerKey n) = true := by
  rw [isSecretText, bearerKey, String.toList_ofList]
  exact Pattern.search_append_right _ bearerFront_secret

theorem cut_bearerKey {n : Nat} (h : n < 65) : cut 128 (bearerKey n) = bearerKey n := by
  have hlen : (bearerFront ++ List.replicate n 'a').length ≤ 128 := by
    simp [bearerFront]
    omega
  rw [cut, bearerKey, String.toList_ofList, List.take_of_length_le hlen]

theorem bearerKey_injective : Function.Injective bearerKey := by
  intro m n h
  have hlen := congrArg (fun s : String => s.toList.length) h
  simpa [bearerKey] using hlen

/-- Some secret key is not among 64 others. -/
theorem exists_fresh_bearerKey {keys : List String} (hlen : keys.length ≤ 64) :
    ∃ n, cut 128 (bearerKey n) ∉ keys := by
  by_contra hall
  push Not at hall
  have hsub : (List.range 65).map bearerKey ⊆ keys := by
    intro k hk
    obtain ⟨n, hn, rfl⟩ := List.mem_map.1 hk
    rw [← cut_bearerKey (List.mem_range.1 hn)]
    exact hall n
  have hnodup : ((List.range 65).map bearerKey).Nodup :=
    List.nodup_range.map bearerKey_injective
  have hle := (List.subperm_of_subset hnodup hsub).length_le
  simp at hle
  omega

/-- A secret key can be told apart from another one. -/
theorem exposed_key {entries : List (String × Value)} {e : String × Value}
    (he : e ∈ entries.take 64) (hsecret : isSecretText e.1 = true) : Exposed (.dict entries) := by
  have hlen : ((entries.take 64).map fun f => cut 128 f.1).length ≤ 64 := by simp
  obtain ⟨n, hfresh⟩ := exists_fresh_bearerKey hlen
  obtain ⟨b, a, htake⟩ := List.append_of_mem he
  have hee : AlikeEntry e (bearerKey n, e.2) :=
    .entry (.inr ⟨hsecret, bearerKey_secret n⟩) (.same e.2)
  refine ⟨.dict _, .dict (forall₂_replaced AlikeEntry.refl htake hee), ?_⟩
  intro heq
  rw [redactSensitive_dict, redactSensitive_dict, Shown.dict.injEq] at heq
  have hget := congrArg (Dict.lookup (cut 128 (bearerKey n))) heq
  have hnone : lastEntry (cut 128 (bearerKey n)) entries = none := by
    apply List.find?_eq_none.2
    intro f hf hcut
    exact hfresh (List.mem_map.2 ⟨f, List.mem_reverse.1 hf, by simpa using hcut⟩)
  rw [lookup_shownEntries, lookup_shownEntries, hnone, Option.map_none, eq_comm,
    Option.map_eq_none_iff, lastEntry, take_replaced htake, List.find?_eq_none] at hget
  exact hget (bearerKey n, e.2) (by simp) (by simp)

/-- Some value of a sensitive entry has another copy. -/
theorem exists_other_copy (x : Value) : ∃ y, redactSensitive none x ≠ redactSensitive none y := by
  by_cases h : redactSensitive none x = .scalar .none
  · exact ⟨.object, by simp [h]⟩
  · exact ⟨.scalar .none, by simpa using h⟩

theorem Reached.exposed {v u : Value} (hr : Reached v u) (hu : Exposed u) : Exposed v := by
  induction hr with
  | root => exact hu
  | item hx _ ih =>
      obtain ⟨ys, hys, hne⟩ := exposed_items hx (ih hu)
      exact ⟨.list ys, .list hys, by simpa using hne⟩
  | tupleItem hx _ ih =>
      obtain ⟨ys, hys, hne⟩ := exposed_items hx (ih hu)
      exact ⟨.tuple ys, .tuple hys, by simpa using hne⟩
  | @entry entries e y he hkey _ ih =>
      obtain ⟨w, hw, hne⟩ := ih hu
      exact @exposed_entry entries e he hkey w (.entry (.inl rfl) hw) hne

theorem exposed_of_not_clean {v : Value} (h : ¬Clean v) : Exposed v := by
  simp only [Clean, not_forall] at h
  obtain ⟨entries, hr, hbad⟩ := h
  apply hr.exposed
  rcases not_and_or.1 hbad with hkeys | hcut
  · push Not at hkeys
    obtain ⟨e, he, hsecret⟩ := hkeys
    exact exposed_key he (by simpa using hsecret)
  · push Not at hcut
    obtain ⟨e, he, hkey, hsafe⟩ := hcut
    obtain ⟨y, hne⟩ := exists_other_copy e.2
    exact exposed_entry he (by simpa using hsafe)
      (.sensitive e.2 y (.inl rfl) hkey hkey) hne

/-- **Redaction leaks nothing of a value exactly when the value is clean.** -/
theorem leaksNothing_iff_clean (v : Value) : LeaksNothing v ↔ Clean v := by
  constructor
  · intro h
    by_contra hclean
    obtain ⟨w, hw, hne⟩ := exposed_of_not_clean hclean
    exact hne (h.independent w hw)
  · intro h
    exact ⟨h.noSecretText, fun entries outs hs e he hk => h.sensitiveEntry hs he hk, h.independent⟩

/-- The key `bearer abc` is logged as it is. -/
theorem secret_key_leaks : ¬∀ v, LeaksNothing v := by
  intro hall
  have hleak := (hall (.dict [("bearer abc", .scalar .none)])).noSecretText "bearer abc" (by
    rw [redactSensitive_dict, Shown.mem_texts_dict]
    exact ⟨_, List.mem_singleton_self _, .inl (by decide)⟩)
  exact absurd hleak (by decide)

end AdaptiveTrader.Redaction
