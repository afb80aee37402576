import AdaptiveTrader.Foundation.Checks
import AdaptiveTrader.Platform.Text
import Mathlib.Data.Rat.Floor
import Mathlib.Tactic

/-!
# Shared domain vocabulary

Exceptions, instants, exact decimals and content hashing. A content hash is SHA-256 over the
canonical serialization of a value; the serialization is modelled by the value tree it renders
(`Canonical`), and SHA-256 by a class (`ContentHasher`) that promises only the shape of a digest.
Records derive their hashes and content-addressed IDs from their fields, so a record with a wrong
hash cannot be built.

`polynomialHasher` is a concrete instance, used to evaluate the model on given inputs.
-/

set_option autoImplicit false

namespace AdaptiveTrader

open Foundation

/-- The exceptions of the platform, by class, with the text or fields they carry. `sqlIntegrity` is
a violated constraint of the database, `external` any exception of an injected broker or callback. -/
inductive PlatformError
  | canonicalization (message : String)
  | domainValidation (message : String)
  | executionValidation (message : String)
  | executionPersistence (message : String)
  | riskLatch (message : String)
  | signedRiskValidation (message : String)
  | signedRiskPolicy (message : String)
  | riskPersistence (message : String)
  | signalValidation (message : String)
  | slotValidation (message : String)
  | slotTransition (message : String)
  | slotPersistence (message : String)
  | jobValidation (message : String)
  | jobConflict (message : String)
  | jobNotFound (message : String)
  | jobPersistence (message : String)
  | auditValidation (message : String)
  | auditIntegrity (message : String)
  | auditPersistence (message : String)
  | transactionBoundary (message : String)
  | sqlIntegrity (constraint : String)
  | valueError (message : String)
  | leaseLost (message : String)
  | checkpointRegression (message : String)
  | collectionPersistence (message : String)
  | marketDataValidation (message : String)
  | marketDataIntegrity (message : String)
  | marketDataPersistence (message : String)
  | readinessValidation (message : String)
  | readinessIntegrity (message : String)
  | readinessPersistence (message : String)
  | calendarValidation (message : String)
  | marketDataNormalization (message : String)
  | aggregation (message : String)
  | marketDataProvider (message : String) (retryable : Bool)
  | marketDataCollector (message : String)
  | collectorRateLimit (message : String)
  | interrupted (message : String)
  | derivedProcessing (message : String)
  | derivedSnapshotChanged (message : String)
  | duplicateClientOrderId (message : String)
  | brokerSubmissionUncertain (reasonCode : String) (acceptancePossible : Bool)
  | external (description : String)
  deriving DecidableEq

/-- `MAX_SIGNED_64_BIT_INTEGER`. -/
def maxSigned64BitInteger : Nat := 2 ^ 63 - 1

/-- A UTC instant in microseconds. -/
abbrev Instant := Int

/-- A number of seconds as a duration. -/
def seconds (n : Int) : Int := n * 1000000

/-! ## Canonical values and content hashes -/

/-- A value in the form in which it is serialized and hashed. -/
inductive Canonical
  | null
  | bool (value : Bool)
  | int (value : Int)
  | text (value : String)
  | decimal (value : ℚ)
  | instant (value : Instant)
  | seq (items : List Canonical)
  | mapping (entries : List (String × Canonical))

namespace Canonical

/-- An absent value is serialized as `null`. -/
def optional {α : Type} (render : α → Canonical) : Option α → Canonical
  | none => null
  | some a => render a

/-- A tuple of texts. -/
def texts (values : List String) : Canonical := seq (values.map text)

/-- A tuple of symbol-value pairs. -/
def pairs (values : List (String × ℚ)) : Canonical :=
  seq (values.map fun v => seq [text v.1, decimal v.2])

theorem optional_injective {α : Type} {render : α → Canonical} (h : Function.Injective render)
    (hnull : ∀ a, render a ≠ null) : Function.Injective (optional render) := by
  intro a b hab
  cases a with
  | none =>
      cases b with
      | none => rfl
      | some b => exact absurd hab.symm (hnull b)
  | some a =>
      cases b with
      | none => exact absurd hab (hnull a)
      | some b => exact congrArg some (h hab)

theorem optional_text_injective : Function.Injective (optional text) :=
  optional_injective (fun _ _ => Canonical.text.inj) nofun

theorem optional_decimal_injective : Function.Injective (optional decimal) :=
  optional_injective (fun _ _ => Canonical.decimal.inj) nofun

theorem optional_instant_injective : Function.Injective (optional instant) :=
  optional_injective (fun _ _ => Canonical.instant.inj) nofun

theorem texts_injective : Function.Injective texts := by
  intro a b hab
  exact List.map_injective_iff.2 (fun _ _ h => Canonical.text.inj h) (Canonical.seq.inj hab)

end Canonical

/-- SHA-256 over canonical serializations. -/
class ContentHasher where
  sha256Hex : Canonical → String
  isSha256_sha256Hex : ∀ value, isSha256 (sha256Hex value) = true

export ContentHasher (sha256Hex isSha256_sha256Hex)

section Hasher

variable [ContentHasher]

/-- `DeterministicId.from_hash_input(prefix=..., hash_input=...)`. -/
def deterministicIdFromHashInput (pre : String) (hashInput : Canonical) : String :=
  deterministicId pre (sha256Hex hashInput)

end Hasher

/-! ## A concrete hasher -/

/-- Fold one code into the running digest. -/
def digestStep (acc code : Nat) : Nat := (acc * 1000003 + code + 1) % 2 ^ 256

/-- Fold the bytes of a text into the running digest. -/
def digestText (acc : Nat) (s : String) : Nat :=
  s.toByteArray.data.toList.foldl (fun acc b => digestStep acc b.toNat)
    (digestStep acc s.toByteArray.size)

mutual
/-- Fold a value into the running digest. -/
def digestValue (acc : Nat) : Canonical → Nat
  | .null => digestStep acc 0
  | .bool b => digestStep (digestStep acc 1) b.toNat
  | .int i => digestStep (digestStep acc 2) (Encodable.encode i)
  | .text s => digestText (digestStep acc 3) s
  | .decimal q => digestStep (digestStep (digestStep acc 4) (Encodable.encode q.num)) q.den
  | .instant t => digestStep (digestStep acc 5) (Encodable.encode t)
  | .seq items => digestValues (digestStep acc 6) items
  | .mapping entries => digestEntries (digestStep acc 7) entries

/-- Fold the items of a tuple. -/
def digestValues (acc : Nat) : List Canonical → Nat
  | [] => digestStep acc 8
  | item :: rest => digestValues (digestValue acc item) rest

/-- Fold the entries of an object. -/
def digestEntries (acc : Nat) : List (String × Canonical) → Nat
  | [] => digestStep acc 9
  | (key, item) :: rest => digestEntries (digestValue (digestText acc key) item) rest
end

/-- One hexadecimal digit. -/
def hexDigit (n : Nat) : Char :=
  if n < 10 then Char.ofNat ('0'.toNat + n) else Char.ofNat ('a'.toNat + (n - 10))

/-- The last `count` hexadecimal digits of a number, most significant first. -/
def hexDigits (count n : Nat) : List Char :=
  (List.range count).reverse.map fun i => hexDigit (n / 16 ^ i % 16)

theorem isHexDigit_hexDigit {n : Nat} (h : n < 16) : isHexDigit (hexDigit n) = true := by
  interval_cases n <;> decide

theorem matchesExactly_hexDigits (count n : Nat) :
    matchesExactly isHexDigit count (hexDigits count n) = true := by
  simp only [matchesExactly, hexDigits, List.length_map, List.length_reverse, List.length_range,
    decide_true, Bool.true_and, List.all_eq_true, List.mem_map]
  rintro c ⟨i, -, rfl⟩
  exact isHexDigit_hexDigit (Nat.mod_lt _ (by decide))

theorem hexDigit_injOn {m n : Nat} (hm : m < 16) (hn : n < 16) (h : hexDigit m = hexDigit n) :
    m = n := by
  interval_cases m <;> interval_cases n <;> first | rfl | exact absurd h (by decide)

/-- The last hexadecimal digits determine the number up to what they leave out. -/
theorem mod_eq_of_hexDigits {count m n : Nat} (h : hexDigits count m = hexDigits count n) :
    m % 16 ^ count = n % 16 ^ count := by
  have hdigits : ∀ i < count, m / 16 ^ i % 16 = n / 16 ^ i % 16 := by
    intro i hi
    have hmem : i ∈ (List.range count).reverse := by simpa using hi
    have heq := List.map_inj_left.1 h i hmem
    exact hexDigit_injOn (Nat.mod_lt _ (by decide)) (Nat.mod_lt _ (by decide)) heq
  clear h
  induction count with
  | zero => rw [Nat.pow_zero, Nat.mod_one, Nat.mod_one]
  | succ count ih =>
      rw [Nat.mod_pow_succ, Nat.mod_pow_succ, ih fun i hi => hdigits i (Nat.lt_succ_of_lt hi),
        hdigits count (Nat.lt_succ_self count)]

/-- A hasher that evaluates in the kernel. -/
@[reducible] def polynomialHasher : ContentHasher where
  sha256Hex value := String.ofList (hexDigits 64 (digestValue 0 value))
  isSha256_sha256Hex value := by
    simpa [isSha256] using matchesExactly_hexDigits 64 (digestValue 0 value)

/-- Values with different digests have different hashes. -/
theorem polynomialHasher_ne {v w : Canonical}
    (h : digestValue 0 v % 16 ^ 64 ≠ digestValue 0 w % 16 ^ 64) :
    polynomialHasher.sha256Hex v ≠ polynomialHasher.sha256Hex w :=
  fun heq => h (mod_eq_of_hexDigits (String.ofList_injective heq))

/-! ## Rounding to a quantum -/

/-- The integer part of a number, rounded toward zero. -/
def roundDown (q : ℚ) : ℤ := if 0 ≤ q then ⌊q⌋ else -⌊-q⌋

/-- `quantize_decimal(value, quantum=quantum, rounding=DOWN)`: the multiple of the quantum next to
the value on the side of zero. -/
def quantizeDecimal (value quantum : ℚ) : ℚ := roundDown (value / quantum) * quantum

theorem quantizeDecimal_nonneg {value quantum : ℚ} (hv : 0 ≤ value) (hq : 0 < quantum) :
    0 ≤ quantizeDecimal value quantum := by
  have hdiv : 0 ≤ value / quantum := div_nonneg hv hq.le
  have hfloor : (0 : ℚ) ≤ ⌊value / quantum⌋ := by exact_mod_cast Int.floor_nonneg.2 hdiv
  simpa [quantizeDecimal, roundDown, hdiv] using mul_nonneg hfloor hq.le

/-- Rounding toward zero never enlarges a magnitude. -/
theorem quantizeDecimal_le {value quantum : ℚ} (hv : 0 ≤ value) (hq : 0 < quantum) :
    quantizeDecimal value quantum ≤ value := by
  have hdiv : 0 ≤ value / quantum := div_nonneg hv hq.le
  have hfloor : (⌊value / quantum⌋ : ℚ) ≤ value / quantum := Int.floor_le _
  have hmul : (⌊value / quantum⌋ : ℚ) * quantum ≤ value := (le_div_iff₀ hq).1 hfloor
  simpa [quantizeDecimal, roundDown, hdiv] using hmul

/-- Rounding toward zero removes less than one quantum. -/
theorem lt_quantizeDecimal_add {value quantum : ℚ} (hv : 0 ≤ value) (hq : 0 < quantum) :
    value < quantizeDecimal value quantum + quantum := by
  have hdiv : 0 ≤ value / quantum := div_nonneg hv hq.le
  have hfloor : value / quantum < ⌊value / quantum⌋ + 1 := Int.lt_floor_add_one _
  have hmul : value < (⌊value / quantum⌋ + 1 : ℚ) * quantum := (div_lt_iff₀ hq).1 hfloor
  have hq' : quantizeDecimal value quantum = ⌊value / quantum⌋ * quantum := by
    simp [quantizeDecimal, roundDown, hdiv]
  rw [hq']
  linarith [add_mul (⌊value / quantum⌋ : ℚ) 1 quantum]

end AdaptiveTrader
