import Mathlib.Algebra.Order.Field.Rat
import Mathlib.Data.Nat.Log
import Mathlib.Tactic

/-!
# Decimal floating point

A decimal is an integer coefficient times a power of ten, so `5`, `5.0` and `5.00` are three
decimals of one value. Operations are exact up to a number of significant digits, the precision, and
round half to even beyond it. The text of a decimal shows its exponent; comparisons read its value.

The main fact is `value_round_eq_self`: a value on a grid of fixed spacing is exact as long as it
stays below the precision, however its digits are spread between coefficient and exponent. Sums and
differences of such values are exact (`value_add`, `value_sub`).
-/

set_option autoImplicit false

namespace Foundation

/-- `coefficient * 10 ^ exponent`. -/
structure Decimal where
  coefficient : Int
  exponent : Int
  deriving DecidableEq

namespace Decimal

/-- The number a decimal denotes. -/
def value (d : Decimal) : ℚ := d.coefficient * (10 : ℚ) ^ d.exponent

/-- An integer with exponent zero. -/
def ofInt (n : Int) : Decimal := ⟨n, 0⟩

/-- The number of decimal digits; zero has one. -/
def digitCount (n : Nat) : Nat := Nat.log 10 n + 1

/-- The integer nearest to `n / m`, and the even one of two that are equally near. -/
def divideHalfEven (n m : Nat) : Nat :=
  if m < 2 * (n % m) ∨ (2 * (n % m) = m ∧ n / m % 2 = 1) then n / m + 1 else n / m

/-- Keep `precision` significant digits. -/
def round (precision : Nat) (d : Decimal) : Decimal :=
  let count := digitCount d.coefficient.natAbs
  if count ≤ precision then d
  else
    let magnitude := divideHalfEven d.coefficient.natAbs (10 ^ (count - precision))
    -- Rounding up may carry into one more digit, which is then a zero at the end.
    if magnitude = 10 ^ precision then
      ⟨d.coefficient.sign * 10 ^ (precision - 1), d.exponent + (count - precision : Nat) + 1⟩
    else ⟨d.coefficient.sign * magnitude, d.exponent + (count - precision : Nat)⟩

/-- The coefficient at a lower exponent. -/
def scaled (d : Decimal) (exponent : Int) : Int := d.coefficient * 10 ^ (d.exponent - exponent).toNat

/-- The sum before rounding. -/
def sum (x y : Decimal) : Decimal :=
  ⟨x.scaled (min x.exponent y.exponent) + y.scaled (min x.exponent y.exponent),
    min x.exponent y.exponent⟩

def neg (x : Decimal) : Decimal := ⟨-x.coefficient, x.exponent⟩

def add (precision : Nat) (x y : Decimal) : Decimal := (sum x y).round precision

def sub (precision : Nat) (x y : Decimal) : Decimal := (sum x y.neg).round precision

def mul (precision : Nat) (x y : Decimal) : Decimal :=
  round precision ⟨x.coefficient * y.coefficient, x.exponent + y.exponent⟩

/-- Remove zeros at the end of the coefficient, at most `fuel` of them. -/
def stripZeros : Nat → Decimal → Decimal
  | 0, d => d
  | fuel + 1, d =>
      if d.coefficient % 10 = 0 then stripZeros fuel ⟨d.coefficient / 10, d.exponent + 1⟩ else d

/-- The quotient of `x` by a nonzero `y`: one digit more than the precision, with a last digit that
shows whether a remainder is left, or the exact quotient at the exponent closest to the ideal one. -/
def div (precision : Nat) (x y : Decimal) : Decimal :=
  let shift : Int := (digitCount y.coefficient.natAbs : Int) - digitCount x.coefficient.natAbs +
    precision + 1
  let ideal := x.exponent - y.exponent
  let numerator := x.coefficient.natAbs * 10 ^ shift.toNat
  let denominator := y.coefficient.natAbs * 10 ^ (-shift).toNat
  let sign := x.coefficient.sign * y.coefficient.sign
  let quotient := numerator / denominator
  if numerator % denominator ≠ 0 then
    round precision ⟨sign * (if quotient % 5 = 0 then quotient + 1 else quotient : Nat), ideal - shift⟩
  else round precision (stripZeros shift.toNat ⟨sign * quotient, ideal - shift⟩)

/-- `sum(items, start)`. -/
def total (precision : Nat) (start : Decimal) (items : List Decimal) : Decimal :=
  items.foldl (add precision) start

/-- Fixed-point notation when the exponent is not positive and the number is not too small, else one
digit before the point and the power of ten. -/
def text (d : Decimal) : String :=
  let digits := Nat.toDigits 10 d.coefficient.natAbs
  let leftDigits := d.exponent + digits.length
  let point := if d.exponent ≤ 0 ∧ -6 < leftDigits then leftDigits else 1
  let mantissa :=
    if point ≤ 0 then '0' :: '.' :: (List.replicate (-point).toNat '0' ++ digits)
    else if (digits.length : Int) ≤ point then
      digits ++ List.replicate (point - digits.length).toNat '0'
    else digits.take point.toNat ++ '.' :: digits.drop point.toNat
  let power := leftDigits - point
  let suffix :=
    if power = 0 then [] else
      'E' :: (if power < 0 then '-' else '+') :: Nat.toDigits 10 power.natAbs
  String.ofList ((if d.coefficient < 0 then ['-'] else []) ++ mantissa ++ suffix)

example : (⟨12345, -2⟩ : Decimal).text = "123.45" := by decide

/-! ## Values -/

theorem value_scaled (d : Decimal) {e : Int} (h : e ≤ d.exponent) :
    (d.scaled e : ℚ) * (10 : ℚ) ^ e = d.value := by
  have hexp : d.exponent = (((d.exponent - e).toNat : Nat) : Int) + e := by omega
  have hpow : (10 : ℚ) ^ d.exponent = (10 : ℚ) ^ (d.exponent - e).toNat * (10 : ℚ) ^ e := by
    conv_lhs => rw [hexp]
    rw [zpow_add₀ (by norm_num), zpow_natCast]
  rw [value, hpow, scaled]
  push_cast
  ring

@[simp] theorem value_sum (x y : Decimal) : (sum x y).value = x.value + y.value := by
  have hx := value_scaled x (min_le_left x.exponent y.exponent)
  have hy := value_scaled y (min_le_right x.exponent y.exponent)
  rw [← hx, ← hy]
  simp only [sum, value]
  push_cast
  ring

@[simp] theorem value_neg (x : Decimal) : x.neg.value = -x.value := by
  simp only [neg, value]
  push_cast
  ring

@[simp] theorem value_ofInt (n : Int) : (ofInt n).value = n := by simp [ofInt, value]

/-! ## Exactness -/

theorem lt_pow_digitCount (n : Nat) : n < 10 ^ digitCount n :=
  Nat.lt_pow_succ_log_self (by norm_num) n

theorem digitCount_le {n k : Nat} (hk : 0 < k) (h : n < 10 ^ k) : digitCount n ≤ k := by
  rcases Nat.eq_zero_or_pos n with rfl | hn
  · simpa [digitCount] using Nat.one_le_iff_ne_zero.2 hk.ne'
  · have hlog := Nat.log_lt_of_lt_pow hn.ne' h
    unfold digitCount
    omega

/-- Digits that are zero may be dropped. -/
theorem value_round_of_dvd {precision : Nat} {d : Decimal}
    (h : 10 ^ (digitCount d.coefficient.natAbs - precision) ∣ d.coefficient.natAbs) :
    (d.round precision).value = d.value := by
  by_cases hcount : digitCount d.coefficient.natAbs ≤ precision
  · simp [round, hcount]
  · obtain ⟨q, hq⟩ := h
    set drop := digitCount d.coefficient.natAbs - precision with hdrop
    have hpos : 0 < 10 ^ drop := by positivity
    have hdiv : d.coefficient.natAbs / 10 ^ drop = q := by
      rw [hq, Nat.mul_div_cancel_left _ hpos]
    have hmod : d.coefficient.natAbs % 10 ^ drop = 0 := by
      rw [hq, Nat.mul_mod_right]
    -- No remainder, so nothing is rounded up.
    have hmagnitude : divideHalfEven d.coefficient.natAbs (10 ^ drop) = q := by
      simp only [divideHalfEven, hmod, hdiv]
      rw [if_neg]
      omega
    -- The quotient has `precision` digits, so there is no carry.
    have hlt : q < 10 ^ precision := by
      have hall := lt_pow_digitCount d.coefficient.natAbs
      have hsplit : digitCount d.coefficient.natAbs = drop + precision := by omega
      rw [hsplit, pow_add, hq] at hall
      exact Nat.lt_of_mul_lt_mul_left hall
    have hcoefficient : (d.coefficient : ℚ) = d.coefficient.sign * ((10 : ℚ) ^ drop * q) := by
      have hsign := Int.sign_mul_natAbs d.coefficient
      rw [hq] at hsign
      have hcast := congrArg (fun z : Int => (z : ℚ)) hsign
      push_cast at hcast
      exact hcast.symm
    have hround : d.round precision = ⟨d.coefficient.sign * q, d.exponent + (drop : Nat)⟩ := by
      simp only [round, if_neg hcount]
      rw [← hdrop, hmagnitude, if_neg hlt.ne]
    rw [hround]
    simp only [value]
    rw [hcoefficient, zpow_add₀ (by norm_num), zpow_natCast]
    push_cast
    ring

/-- `n` steps of size `10 ^ -places`. -/
def OnGrid (places : Nat) (n : Int) (x : ℚ) : Prop := x * 10 ^ places = n

/-- A value on a grid is exact while its number of steps has at most `precision` digits. -/
theorem value_round_eq_self {precision places : Nat} {n : Int} {d : Decimal}
    (hprecision : 0 < precision) (hgrid : OnGrid places n d.value) (hn : n.natAbs < 10 ^ precision) :
    (d.round precision).value = d.value := by
  apply value_round_of_dvd
  by_cases hcount : digitCount d.coefficient.natAbs ≤ precision
  · simp [Nat.sub_eq_zero_of_le hcount]
  · have hvalue : (d.coefficient : ℚ) * (10 : ℚ) ^ (d.exponent + places) = n := by
      rw [← hgrid, value, zpow_add₀ (by norm_num), zpow_natCast]
      ring
    rcases le_or_gt 0 (d.exponent + places) with hexp | hexp
    · -- A coefficient of more digits would be a number of steps of more digits.
      exfalso
      obtain ⟨t, ht⟩ := Int.eq_ofNat_of_zero_le hexp
      rw [ht, zpow_natCast] at hvalue
      have hint : d.coefficient * 10 ^ t = n := by exact_mod_cast hvalue
      have habs : n.natAbs = d.coefficient.natAbs * 10 ^ t := by
        rw [← hint, Int.natAbs_mul, Int.natAbs_pow]
        rfl
      have hle : d.coefficient.natAbs ≤ n.natAbs := by
        rw [habs]
        exact Nat.le_mul_of_pos_right _ (by positivity)
      exact hcount (digitCount_le hprecision (lt_of_le_of_lt hle hn))
    · -- The coefficient is the number of steps followed by zeros.
      obtain ⟨t, ht⟩ := Int.eq_ofNat_of_zero_le (show 0 ≤ -(d.exponent + places) by omega)
      have hexp' : d.exponent + places = -(t : Int) := by omega
      rw [hexp', zpow_neg, zpow_natCast] at hvalue
      have hmul : (d.coefficient : ℚ) = n * 10 ^ t := by
        have hpow : (10 : ℚ) ^ t ≠ 0 := by positivity
        field_simp at hvalue
        linarith
      have hint : d.coefficient = n * 10 ^ t := by exact_mod_cast hmul
      have habs : d.coefficient.natAbs = n.natAbs * 10 ^ t := by
        rw [hint, Int.natAbs_mul, Int.natAbs_pow]
        rfl
      have hdigits : digitCount d.coefficient.natAbs ≤ precision + t := by
        apply digitCount_le (by omega)
        rw [habs, pow_add]
        exact Nat.mul_lt_mul_of_pos_right hn (by positivity)
      have hdrop : digitCount d.coefficient.natAbs - precision ≤ t := by omega
      have hdvd : 10 ^ t ∣ d.coefficient.natAbs := by
        rw [habs]
        exact Nat.dvd_mul_left _ _
      exact (Nat.pow_dvd_pow 10 hdrop).trans hdvd

theorem OnGrid.add {places : Nat} {m n : Int} {x y : ℚ} (hx : OnGrid places m x)
    (hy : OnGrid places n y) : OnGrid places (m + n) (x + y) := by
  unfold OnGrid at *
  push_cast
  rw [← hx, ← hy]
  ring

theorem OnGrid.sub {places : Nat} {m n : Int} {x y : ℚ} (hx : OnGrid places m x)
    (hy : OnGrid places n y) : OnGrid places (m - n) (x - y) := by
  unfold OnGrid at *
  push_cast
  rw [← hx, ← hy]
  ring

section Exact

variable {precision places : Nat} {m n : Int} {x y : Decimal} (hprecision : 0 < precision)
  (hx : OnGrid places m x.value) (hy : OnGrid places n y.value)
include hprecision hx hy

theorem value_add (hsum : (m + n).natAbs < 10 ^ precision) :
    (add precision x y).value = x.value + y.value := by
  have hgrid : OnGrid places (m + n) (sum x y).value := by
    rw [value_sum]
    exact hx.add hy
  rw [add, value_round_eq_self hprecision hgrid hsum, value_sum]

theorem value_sub (hdiff : (m - n).natAbs < 10 ^ precision) :
    (sub precision x y).value = x.value - y.value := by
  have hvalue : (sum x y.neg).value = x.value - y.value := by
    rw [value_sum, value_neg, ← sub_eq_add_neg]
  have hgrid : OnGrid places (m - n) (sum x y.neg).value := by
    rw [hvalue]
    exact hx.sub hy
  rw [sub, value_round_eq_self hprecision hgrid hdiff, hvalue]

end Exact

/-- A sum of numbers of steps that are not negative is exact while the total has at most `precision`
digits. -/
theorem value_total {precision places : Nat} (hprecision : 0 < precision) {items : List Decimal}
    {steps : List Int} {start : Decimal} {m : Int}
    (hitems : List.Forall₂ (fun d n => 0 ≤ n ∧ OnGrid places n d.value) items steps) (hm : 0 ≤ m)
    (hstart : OnGrid places m start.value) (hsum : m + steps.sum < 10 ^ precision) :
    (total precision start items).value = start.value + (items.map value).sum := by
  induction hitems generalizing m start with
  | nil => simp [total]
  | @cons d n items steps hhead htail ih =>
      obtain ⟨hn, hd⟩ := hhead
      rw [List.sum_cons] at hsum
      have hrest : 0 ≤ steps.sum := by
        clear ih hsum
        induction htail with
        | nil => simp
        | cons hfirst _ ih =>
            rw [List.sum_cons]
            exact add_nonneg hfirst.1 ih
      have hfits : (m + n).natAbs < 10 ^ precision := by
        have hlt : m + n < 10 ^ precision := by omega
        zify
        rwa [abs_of_nonneg (by omega)]
      have hadd := value_add hprecision hstart hd hfits
      have hnext : OnGrid places (m + n) (add precision start d).value := by
        rw [hadd]
        exact hstart.add hd
      rw [total, List.foldl_cons, List.map_cons, List.sum_cons, ← add_assoc, ← hadd]
      exact ih (by omega) hnext (by omega)

end Decimal

end Foundation
