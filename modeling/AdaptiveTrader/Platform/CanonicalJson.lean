import AdaptiveTrader.Foundation.Calendar
import AdaptiveTrader.Foundation.Sorted
import AdaptiveTrader.Platform.Domain

/-!
# The canonical serialization

`normalize` turns a value into JSON: decimals and instants become texts, the members of an object are
sorted by key. `canonicalJson` is the compact text of the result. A content hash is SHA-256 of this
text; `Sha256` is a function with the shape of a digest, and hashing canonical texts with it is one
way to hash values.

The limits on depth, size and integer range are left out: the records that are hashed here are
bounded far below them. A latch history has no bound of its own and checks its length where it is
hashed.
-/

set_option autoImplicit false

namespace AdaptiveTrader

open Foundation

/-- The decimal places of a number with a finite decimal expansion. -/
def Canonical.decimalPlaces (q : ℚ) : Nat :=
  ((List.range (Nat.log2 q.den + 1)).find? fun k => decide (10 ^ k % q.den = 0)).getD 0

/-- `_decimal_text`: fixed-point notation without trailing zeros. -/
def Canonical.decimalText (q : ℚ) : String :=
  let places := Canonical.decimalPlaces q
  let digits := padded (places + 1) (q.num.natAbs * 10 ^ places / q.den)
  let fraction := digits.drop (digits.length - places)
  String.ofList ((if q < 0 then ['-'] else []) ++ digits.take (digits.length - places) ++
    if fraction = [] then [] else '.' :: fraction)

/-- `_datetime_text`. -/
def datetimeText (t : Instant) : String := String.ofList (isoChars t)

theorem datetimeText_injective : Function.Injective datetimeText := by
  intro a b h
  exact isoChars_injective (String.ofList_injective h)

mutual
/-- `_normalize`. -/
def normalize : Canonical → Json
  | .null => .null
  | .bool b => .bool b
  | .int n => .int n
  | .text s => .text s
  | .decimal q => .text (Canonical.decimalText q)
  | .instant t => .text (datetimeText t)
  | .seq items => .array (normalizeSequence items)
  | .mapping entries => .object (sortedBy Prod.fst (normalizeMapping entries))

/-- `_normalize_sequence`. -/
def normalizeSequence : List Canonical → List Json
  | [] => []
  | item :: rest => normalize item :: normalizeSequence rest

/-- The members of `_normalize_mapping` before they are sorted. -/
def normalizeMapping : List (String × Canonical) → List (String × Json)
  | [] => []
  | (key, item) :: rest => (key, normalize item) :: normalizeMapping rest
end

/-- `canonical_json_bytes`, as text. -/
def canonicalJson (value : Canonical) : String := String.ofList (normalize value).dumps

theorem canonicalJson_inj {v w : Canonical} :
    canonicalJson v = canonicalJson w ↔ normalize v = normalize w := by
  constructor
  · intro h
    exact Json.dumps_injective (String.ofList_injective h)
  · intro h
    rw [canonicalJson, canonicalJson, h]

/-- SHA-256 of a text, in hexadecimal. -/
class Sha256 where
  sha256 : String → String
  isSha256_sha256 : ∀ text, isSha256 (sha256 text) = true

export Sha256 (sha256 isSha256_sha256)

/-- `sha256_hex`. -/
instance [Sha256] : ContentHasher where
  sha256Hex value := sha256 (canonicalJson value)
  isSha256_sha256Hex value := isSha256_sha256 (canonicalJson value)

theorem sha256Hex_eq [Sha256] (value : Canonical) :
    sha256Hex value = sha256 (canonicalJson value) := rfl

/-- A digest of texts that evaluates in the kernel. -/
@[reducible] def polynomialSha256 : Sha256 where
  sha256 text := String.ofList (hexDigits 64 (digestText 0 text))
  isSha256_sha256 text := by
    simpa [isSha256] using matchesExactly_hexDigits 64 (digestText 0 text)

end AdaptiveTrader
