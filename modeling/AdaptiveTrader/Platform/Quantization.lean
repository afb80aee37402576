import AdaptiveTrader.Foundation.ExactQuotients
import AdaptiveTrader.Platform.Domain

/-!
# Quantization of decimals

`quantize_decimal` divides by the quantum, rounds the quotient to an integer and multiplies it back,
all with a fixed number of significant digits. The quotient may not terminate, so it is rounded twice:
to the digits of the context and to an integer. The main result is that toward zero the second rounding
does not see the first (`quantizeDecimal_down`); what the call computes is then the multiple that
`quantizeDecimal` takes of the exact quotient.

A decimal here has one zero, so the sign that `copy_abs` takes from a zero never appears.
-/

set_option autoImplicit false

namespace AdaptiveTrader

open Foundation

/-- The argument of a decimal check: not a `Decimal`, an infinity or NaN, or a number. -/
inductive DecimalArgument
  | other
  | nonfinite
  | finite (number : Decimal)

/-- `MAX_DOMAIN_DECIMAL_DIGITS`. -/
def maxDomainDecimalDigits : Nat := 64

/-- `MAX_DOMAIN_DECIMAL_EXPONENT`; the least exponent is its negative. -/
def maxDomainDecimalExponent : Int := 64

/-- `^[A-Za-z][A-Za-z0-9_.]{0,63}$`. -/
def isFieldName (s : String) : Bool :=
  matchesHeadTail (fun c => isUpper c || isLower c)
    (fun c => isUpper c || isLower c || isDigit c || c == '_' || c == '.') 63 s.toList

/-- The representation that the domain accepts. -/
def Representable (d : Decimal) : Prop :=
  Decimal.digitCount d.coefficient.natAbs ≤ maxDomainDecimalDigits ∧
    -maxDomainDecimalExponent ≤ d.exponent ∧ d.exponent ≤ maxDomainDecimalExponent

instance (d : Decimal) : Decidable (Representable d) :=
  inferInstanceAs (Decidable (_ ∧ _ ∧ _))

/-- `require_finite_decimal`. -/
def requireFiniteDecimal (value : DecimalArgument) (fieldName : String) :
    Except PlatformError Decimal := do
  rejectIf (isFieldName fieldName = false) (.domainValidation "domain field name is invalid")
  match value with
  | .other => .error (.domainValidation (fieldName ++ " must be an exact Decimal"))
  | .nonfinite => .error (.domainValidation (fieldName ++ " must be finite"))
  | .finite number => do
      rejectIf (¬ Representable number)
        (.domainValidation (fieldName ++ " exceeds the decimal representation limit"))
      pure number

inductive DecimalRounding
  | ceiling
  | down
  | floor
  | halfDown
  | halfEven
  | halfUp
  | up
  | zeroFiveUp
  deriving DecidableEq

namespace DecimalRounding

/-- Whether the magnitude `n / m` of a number is rounded up. -/
def roundsUp (rounding : DecimalRounding) (negative : Bool) (n m : Nat) : Bool :=
  match rounding with
  | ceiling => !negative && decide (n % m ≠ 0)
  | down => false
  | floor => negative && decide (n % m ≠ 0)
  | halfDown => decide (m < 2 * (n % m))
  | halfEven => decide (m < 2 * (n % m) ∨ (2 * (n % m) = m ∧ n / m % 2 = 1))
  | halfUp => decide (m ≤ 2 * (n % m))
  | up => decide (n % m ≠ 0)
  -- Away from zero when the last digit kept would be a zero or a five.
  | zeroFiveUp => decide (n % m ≠ 0 ∧ n / m % 5 = 0)

/-- The integer a decimal is rounded to. -/
def unitCount (rounding : DecimalRounding) (d : Decimal) : Int :=
  if 0 ≤ d.exponent then d.scaled 0
  else
    let m := 10 ^ (-d.exponent).toNat
    let magnitude := d.coefficient.natAbs / m
    d.coefficient.sign *
      (if rounding.roundsUp (decide (d.coefficient < 0)) d.coefficient.natAbs m = true then
        magnitude + 1 else magnitude : Nat)

/-- `number.quantize(Decimal(1), rounding=rounding)`, unless it has too many digits. -/
def quantizeToUnit (rounding : DecimalRounding) (precision : Nat) (d : Decimal) : Option Decimal :=
  if Decimal.digitCount (rounding.unitCount d).natAbs ≤ precision then
    some ⟨rounding.unitCount d, 0⟩
  else none

/-- The precision of the arithmetic context. -/
def arithmeticPrecision : Nat := maxDomainDecimalDigits * 4 + 4

/-- `quantize_decimal`. -/
def quantizeDecimal (rounding : DecimalRounding) (value quantum : DecimalArgument)
    (fieldName : String) : Except PlatformError Decimal := do
  let number ← requireFiniteDecimal value fieldName
  let unit ← requireFiniteDecimal quantum "quantum"
  rejectIf (unit.coefficient ≤ 0) (.domainValidation "quantum must be positive")
  let unitCount ← require
    (rounding.quantizeToUnit arithmeticPrecision (Decimal.div arithmeticPrecision number unit))
    (.domainValidation (fieldName ++ " could not be quantized"))
  requireFiniteDecimal (.finite (Decimal.mul arithmeticPrecision unitCount unit)) fieldName

example : quantizeDecimal .down (.finite ⟨-17, -1⟩) (.finite ⟨5, -1⟩) "quantity" = .ok ⟨-15, -1⟩ := by
  decide +kernel

end DecimalRounding

/-! ## Multiples of the quantum -/

/-- The multiple of the quantum of largest magnitude that does not exceed the value in magnitude and is
zero or has its sign. -/
structure IsTruncation (value quantum result : ℚ) : Prop where
  multiple : ∃ n : ℤ, result = n * quantum
  abs_le : |result| ≤ |value|
  sign : result = 0 ∨ (0 < result ∧ 0 < value) ∨ (result < 0 ∧ value < 0)
  largest : ∀ m : ℤ, |m * quantum| ≤ |value| → |m * quantum| ≤ |result|

theorem roundDown_neg (q : ℚ) : roundDown (-q) = -roundDown q := by
  unfold roundDown
  rcases lt_trichotomy q 0 with hneg | rfl | hpos
  · rw [if_pos (by linarith), if_neg (by linarith), neg_neg]
  · simp
  · rw [if_neg (by linarith), if_pos hpos.le, neg_neg]

/-- The abstract quantization is the truncation. -/
theorem quantizeDecimal_isTruncation {value quantum : ℚ} (hquantum : 0 < quantum) :
    IsTruncation value quantum (quantizeDecimal value quantum) := by
  -- A negative value is the reflection of a positive one.
  wlog hvalue : 0 ≤ value generalizing value with hpositive
  · have hreflected := @hpositive (-value) (by linarith)
    have hresult : quantizeDecimal (-value) quantum = -quantizeDecimal value quantum := by
      rw [quantizeDecimal, neg_div, roundDown_neg, quantizeDecimal]
      push_cast
      ring
    rw [hresult] at hreflected
    obtain ⟨⟨n, hn⟩, hle, hsign, hlargest⟩ := hreflected
    refine ⟨⟨-n, ?_⟩, ?_, ?_, ?_⟩
    · push_cast
      linarith
    · simpa using hle
    · rcases hsign with hzero | ⟨hpos, -⟩ | ⟨-, hneg⟩
      · exact Or.inl (by linarith)
      · exact Or.inr (Or.inr ⟨by linarith, by linarith⟩)
      · linarith
    · simpa using hlargest
  · have hnonneg := quantizeDecimal_nonneg hvalue hquantum
    have hle := quantizeDecimal_le hvalue hquantum
    refine ⟨⟨_, rfl⟩, ?_, ?_, ?_⟩
    · rwa [abs_of_nonneg hnonneg, abs_of_nonneg hvalue]
    · rcases hnonneg.eq_or_lt with hzero | hpos
      · exact Or.inl hzero.symm
      · exact Or.inr (Or.inl ⟨hpos, hpos.trans_le hle⟩)
    · intro m hm
      have hmagnitude : |(m : ℚ) * quantum| = |m| * quantum := by
        rw [abs_mul, abs_of_pos hquantum, Int.cast_abs]
      rw [hmagnitude, abs_of_nonneg hvalue] at hm
      have hfloor : |m| ≤ ⌊value / quantum⌋ := Int.le_floor.2 ((le_div_iff₀ hquantum).2 hm)
      rw [hmagnitude, abs_of_nonneg hnonneg, quantizeDecimal, roundDown,
        if_pos (div_nonneg hvalue hquantum.le)]
      exact mul_le_mul_of_nonneg_right (by exact_mod_cast hfloor) hquantum.le

/-! ## The two roundings -/

theorem roundDown_of_nonneg {x : ℚ} {n : Nat} (hx : 0 ≤ x) (hlow : (n : ℚ) ≤ |x|)
    (hhigh : |x| < n + 1) : roundDown x = n := by
  rw [abs_of_nonneg hx] at hlow hhigh
  rw [roundDown, if_pos hx]
  exact Int.floor_eq_iff.2 ⟨by exact_mod_cast hlow, by exact_mod_cast hhigh⟩

/-- Numbers of one sign with one integer part of their magnitudes have one integer part. -/
theorem roundDown_eq_of_abs {x y : ℚ} {n : Nat} (hsign : 0 ≤ x * y)
    (hx : (n : ℚ) ≤ |x| ∧ |x| < n + 1) (hy : (n : ℚ) ≤ |y| ∧ |y| < n + 1) :
    roundDown x = roundDown y := by
  rcases mul_nonneg_iff.1 hsign with ⟨hx0, hy0⟩ | ⟨hx0, hy0⟩
  · rw [roundDown_of_nonneg hx0 hx.1 hx.2, roundDown_of_nonneg hy0 hy.1 hy.2]
  · have hreflect : ∀ z : ℚ, z ≤ 0 → (n : ℚ) ≤ |z| ∧ |z| < n + 1 → roundDown z = -n := by
      intro z hz hbounds
      rw [← abs_neg] at hbounds
      have hneg := roundDown_of_nonneg (neg_nonneg.2 hz) hbounds.1 hbounds.2
      rw [roundDown_neg] at hneg
      omega
    rw [hreflect x hx0 hx, hreflect y hy0 hy]

theorem roundDown_intCast (n : ℤ) : roundDown (n : ℚ) = n := by
  unfold roundDown
  split
  · exact Int.floor_intCast n
  · rw [← Int.cast_neg, Int.floor_intCast, neg_neg]

namespace DecimalRounding

/-- Rounded down, a decimal loses its digits behind the point. -/
theorem unitCount_down (d : Decimal) : down.unitCount d = roundDown d.value := by
  unfold unitCount
  split
  · next hwhole =>
      have hvalue := Decimal.value_scaled d hwhole
      rw [zpow_zero, mul_one] at hvalue
      rw [← hvalue, roundDown_intCast]
  · next hpart =>
      simp only [roundsUp, Bool.false_eq_true, if_false]
      set m := 10 ^ (-d.exponent).toNat with hm
      have hmpos : 0 < m := by positivity
      have hmq : (0 : ℚ) < m := by exact_mod_cast hmpos
      have hvalue : d.value = d.coefficient / m := by
        have hexp : d.exponent = -((-d.exponent).toNat : ℤ) := by omega
        rw [Decimal.value, hexp, zpow_neg, zpow_natCast, hm]
        push_cast
        rw [div_eq_mul_inv]
      have habs : |d.value| = (d.coefficient.natAbs : ℚ) / m := by
        rw [hvalue, abs_div, abs_of_pos hmq, Nat.cast_natAbs, Int.cast_abs]
      have hlow : ((d.coefficient.natAbs / m : Nat) : ℚ) ≤ |d.value| := by
        rw [habs]
        exact Nat.cast_div_le
      have hhigh : |d.value| < (d.coefficient.natAbs / m : Nat) + 1 := by
        rw [habs, div_lt_iff₀ hmq]
        have hlt := Nat.lt_mul_div_succ d.coefficient.natAbs hmpos
        rw [mul_comm]
        exact_mod_cast hlt
      rcases lt_trichotomy d.coefficient 0 with hneg | hzero | hpos
      · have hreflected : roundDown (-d.value) = (d.coefficient.natAbs / m : Nat) := by
          apply roundDown_of_nonneg
          · rw [hvalue, ← neg_div, ← Int.cast_neg]
            exact div_nonneg (by exact_mod_cast (neg_pos.2 hneg).le) hmq.le
          · rwa [abs_neg]
          · rwa [abs_neg]
        rw [roundDown_neg] at hreflected
        rw [Int.sign_eq_neg_one_of_neg hneg]
        omega
      · rw [hvalue, hzero]
        simp [roundDown]
      · have hnonneg : 0 ≤ d.value := by
          rw [hvalue]
          exact div_nonneg (by exact_mod_cast hpos.le) hmq.le
        rw [roundDown_of_nonneg hnonneg hlow hhigh, Int.sign_eq_one_of_pos hpos, one_mul]

/-- The quotient of two representable decimals as a fraction over one power of ten. -/
theorem exists_fraction {number unit : Decimal} (hnumber : Representable number)
    (hunit : Representable unit) (hpos : 0 < unit.coefficient) : ∃ a b : Nat, 0 < b ∧
      |number.value / unit.value| = (a : ℚ) / b ∧ a < 10 ^ 192 := by
  refine ⟨number.coefficient.natAbs * 10 ^ (number.exponent - unit.exponent).toNat,
    unit.coefficient.natAbs * 10 ^ (unit.exponent - number.exponent).toNat, ?_, ?_, ?_⟩
  · exact Nat.mul_pos (Int.natAbs_pos.2 hpos.ne') (by positivity)
  · have hshift : (10 : ℚ) ^ (number.exponent - unit.exponent) *
        10 ^ (unit.exponent - number.exponent).toNat =
          10 ^ (number.exponent - unit.exponent).toNat := by
      rw [← zpow_natCast, ← zpow_natCast, ← zpow_add₀ (by norm_num)]
      congr 1
      omega
    have hcoefficient : (unit.coefficient.natAbs : ℚ) ≠ 0 := by
      exact_mod_cast (Int.natAbs_pos.2 hpos.ne').ne'
    have hmagnitude : ∀ d : Decimal, |d.value| = d.coefficient.natAbs * (10 : ℚ) ^ d.exponent := by
      intro d
      rw [Decimal.value, abs_mul, abs_of_pos (show (0 : ℚ) < (10 : ℚ) ^ d.exponent by positivity),
        Nat.cast_natAbs, Int.cast_abs]
    rw [abs_div, hmagnitude, hmagnitude]
    push_cast
    rw [← hshift, zpow_sub₀ (by norm_num)]
    field_simp
  · have hdigits : number.coefficient.natAbs < 10 ^ 64 := by
      apply (Decimal.lt_pow_digitCount _).trans_le
      exact Nat.pow_le_pow_right (by decide) hnumber.1
    have hexponent : (number.exponent - unit.exponent).toNat ≤ 128 := by
      have hhigh := hnumber.2.2
      have hlow := hunit.2.1
      unfold maxDomainDecimalExponent at hhigh hlow
      omega
    calc number.coefficient.natAbs * 10 ^ (number.exponent - unit.exponent).toNat
        ≤ number.coefficient.natAbs * 10 ^ 128 :=
          Nat.mul_le_mul_left _ (Nat.pow_le_pow_right (by decide) hexponent)
      _ < 10 ^ 64 * 10 ^ 128 := Nat.mul_lt_mul_of_pos_right hdigits (by positivity)
      _ = 10 ^ 192 := by rw [← pow_add]

/-- Toward zero, the rounded quotient has the integer part of the exact one. -/
theorem roundDown_div {number unit : Decimal} (hnumber : Representable number)
    (hunit : Representable unit) (hpos : 0 < unit.coefficient) :
    roundDown (Decimal.div arithmeticPrecision number unit).value =
      roundDown (number.value / unit.value) := by
  obtain ⟨a, b, hb, hquotient, ha⟩ := exists_fraction hnumber hunit hpos
  have hbq : (0 : ℚ) < b := by exact_mod_cast hb
  have hfits : a < 10 ^ (arithmeticPrecision - 1) :=
    ha.trans_le (Nat.pow_le_pow_right (by decide) (by decide))
  have hrounded := @Decimal.floor_abs_div arithmeticPrecision number unit (by decide) hpos.ne' a b hb
    hquotient hfits
  have hexact : ((a / b : Nat) : ℚ) ≤ |number.value / unit.value| ∧
      |number.value / unit.value| < (a / b : Nat) + 1 := by
    rw [hquotient, div_lt_iff₀ hbq]
    refine ⟨Nat.cast_div_le, ?_⟩
    rw [mul_comm]
    exact_mod_cast Nat.lt_mul_div_succ a hb
  apply roundDown_eq_of_abs _ hrounded hexact
  -- The error is smaller than the quotient, so it does not change the sign.
  have herror := @Decimal.abs_div_sub_le arithmeticPrecision number unit (by decide) hpos.ne'
  have hbound : Decimal.roundoff arithmeticPrecision * |number.value / unit.value| ≤
      |number.value / unit.value| :=
    mul_le_of_le_one_left (abs_nonneg _) (Decimal.roundoff_le_one _)
  obtain ⟨hlow, hhigh⟩ := abs_le.1 (herror.trans hbound)
  rcases le_total 0 (number.value / unit.value) with hsign | hsign
  · rw [abs_of_nonneg hsign] at hlow
    exact mul_nonneg (by linarith) hsign
  · rw [abs_of_nonpos hsign] at hhigh
    exact mul_nonneg_of_nonpos_of_nonpos (by linarith) hsign

theorem natAbs_roundDown_lt {number unit : Decimal} (hnumber : Representable number)
    (hunit : Representable unit) (hpos : 0 < unit.coefficient) :
    (roundDown (number.value / unit.value)).natAbs < 10 ^ 192 := by
  obtain ⟨a, b, hb, hquotient, ha⟩ := exists_fraction hnumber hunit hpos
  apply lt_of_le_of_lt _ ha
  have hfloor : |((roundDown (number.value / unit.value) : ℤ) : ℚ)| ≤
      |number.value / unit.value| := by
    unfold roundDown
    split
    · next hsign =>
        rw [abs_of_nonneg hsign, abs_of_nonneg (by exact_mod_cast Int.floor_nonneg.2 hsign)]
        exact Int.floor_le _
    · next hsign =>
        have hneg : 0 ≤ -(number.value / unit.value) := by linarith
        rw [abs_of_neg (not_le.1 hsign), Int.cast_neg, abs_neg,
          abs_of_nonneg (by exact_mod_cast Int.floor_nonneg.2 hneg)]
        exact Int.floor_le _
  have hle : (a : ℚ) / b ≤ a := div_le_self (by positivity) (by exact_mod_cast hb)
  rw [hquotient] at hfloor
  have hcast : ((roundDown (number.value / unit.value)).natAbs : ℚ) ≤ a := by
    rw [Nat.cast_natAbs, Int.cast_abs]
    exact hfloor.trans hle
  exact_mod_cast hcast

/-- The arithmetic itself never raises: the integer fits the context. -/
theorem quantizeToUnit_div {number unit : Decimal} (hnumber : Representable number)
    (hunit : Representable unit) (hpos : 0 < unit.coefficient) :
    down.quantizeToUnit arithmeticPrecision (Decimal.div arithmeticPrecision number unit) =
      some ⟨roundDown (number.value / unit.value), 0⟩ := by
  have hcount := natAbs_roundDown_lt hnumber hunit hpos
  have hfits : Decimal.digitCount (roundDown (number.value / unit.value)).natAbs ≤
      arithmeticPrecision :=
    Decimal.digitCount_le (by decide) (hcount.trans_le (Nat.pow_le_pow_right (by decide) (by decide)))
  rw [quantizeToUnit, unitCount_down, roundDown_div hnumber hunit hpos, if_pos hfits]

/-- The multiple of the unit has too few digits to be rounded. -/
theorem value_mul_roundDown {number unit : Decimal} (hnumber : Representable number)
    (hunit : Representable unit) (hpos : 0 < unit.coefficient) :
    (Decimal.mul arithmeticPrecision ⟨roundDown (number.value / unit.value), 0⟩ unit).value =
      roundDown (number.value / unit.value) * unit.value := by
  have hcount := natAbs_roundDown_lt hnumber hunit hpos
  have hdigits : unit.coefficient.natAbs < 10 ^ 64 := by
    apply (Decimal.lt_pow_digitCount _).trans_le
    exact Nat.pow_le_pow_right (by decide) hunit.1
  rw [Decimal.value_mul_of_lt (by decide)]
  · simp [Decimal.value]
  · rw [Int.natAbs_mul]
    calc (roundDown (number.value / unit.value)).natAbs * unit.coefficient.natAbs
        < 10 ^ 192 * 10 ^ 64 :=
          Nat.mul_lt_mul_of_lt_of_le hcount hdigits.le (by positivity)
      _ ≤ 10 ^ arithmeticPrecision := by
          rw [← pow_add]
          exact Nat.pow_le_pow_right (by decide) (by decide)

theorem requireFiniteDecimal_eq_ok {value : DecimalArgument} {fieldName : String} {d : Decimal} :
    requireFiniteDecimal value fieldName = .ok d ↔
      isFieldName fieldName = true ∧ value = .finite d ∧ Representable d := by
  unfold requireFiniteDecimal
  simp only [unit_bind_eq_ok, rejectIf_eq_ok, Bool.not_eq_false]
  apply and_congr_right
  intro _
  cases value with
  | other => simp
  | nonfinite => simp
  | finite number =>
      simp only [unit_bind_eq_ok, rejectIf_eq_ok, not_not, pure_eq_ok,
        DecimalArgument.finite.injEq]
      constructor
      · rintro ⟨hnumber, rfl⟩
        exact ⟨rfl, hnumber⟩
      · rintro ⟨rfl, hnumber⟩
        exact ⟨hnumber, rfl⟩

/-- What a call returns is the abstract quantization of two representable decimals. -/
theorem quantizeDecimal_spec {value quantum : DecimalArgument} {fieldName : String}
    {result : Decimal} (h : down.quantizeDecimal value quantum fieldName = .ok result) :
    ∃ number unit, value = .finite number ∧ quantum = .finite unit ∧ 0 < unit.value ∧
      result.value = AdaptiveTrader.quantizeDecimal number.value unit.value := by
  simp only [quantizeDecimal, bind_eq_ok, rejectIf_eq_ok, require_eq_ok, exists_const, not_le] at h
  obtain ⟨number, hvalue, unit, hquantum, hpos, count, hcount, hresult⟩ := h
  obtain ⟨-, rfl, hnumber⟩ := requireFiniteDecimal_eq_ok.1 hvalue
  obtain ⟨-, rfl, hunit⟩ := requireFiniteDecimal_eq_ok.1 hquantum
  obtain ⟨-, heq, -⟩ := requireFiniteDecimal_eq_ok.1 hresult
  obtain rfl := DecimalArgument.finite.inj heq
  rw [quantizeToUnit_div hnumber hunit hpos] at hcount
  obtain rfl := Option.some.inj hcount
  refine ⟨number, unit, rfl, rfl, ?_, ?_⟩
  · exact mul_pos (by exact_mod_cast hpos) (by positivity)
  · rw [value_mul_roundDown hnumber hunit hpos, AdaptiveTrader.quantizeDecimal]

end DecimalRounding

/-- A call that rounds toward zero raises, or returns the multiple of its quantum that comes next to
its value on the side of zero. -/
theorem quantizeDecimal_down (value quantum : DecimalArgument) (fieldName : String) :
    (∃ e, DecimalRounding.down.quantizeDecimal value quantum fieldName = .error e) ∨
      ∃ number unit result, value = .finite number ∧ quantum = .finite unit ∧
        DecimalRounding.down.quantizeDecimal value quantum fieldName = .ok result ∧
        IsTruncation number.value unit.value result.value := by
  cases h : DecimalRounding.down.quantizeDecimal value quantum fieldName with
  | error e => exact Or.inl ⟨e, rfl⟩
  | ok result =>
      obtain ⟨number, unit, rfl, rfl, hunit, hresult⟩ := DecimalRounding.quantizeDecimal_spec h
      refine Or.inr ⟨number, unit, result, rfl, rfl, rfl, ?_⟩
      rw [hresult]
      exact quantizeDecimal_isTruncation hunit

end AdaptiveTrader
