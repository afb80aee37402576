import AdaptiveTrader.Foundation.Decimal
import Mathlib.Algebra.Order.Ring.Pow

/-!
# Rounding errors of decimals

A rounded number differs from the exact one by at most half a unit in its last digit, so by a
fraction `roundoff` of itself (`abs_round_sub_le`). The quotient of two decimals is rounded once: the
digit that shows a remainder never makes a tie (`abs_div_sub_le`).

`Approximates u k x y` says that `x` results from `y` through at most `k` roundings. It composes along
products, quotients and sums of numbers that are not negative, where errors cannot cancel
(`Approximates.total`).

`quantize` rounds to a fixed exponent; the result is the multiple of the unit nearest to the number,
so it does not leave an interval between two multiples (`quantize_le`, `le_quantize`). `quantizeDown`
rounds to a fixed exponent towards zero.
-/

set_option autoImplicit false

namespace Foundation

namespace Decimal

/-! ## Rounding to a number of digits -/

/-- Half a unit in the last of `precision` digits, relative to the number. -/
def roundoff (precision : Nat) : ℚ := 1 / (2 * 10 ^ (precision - 1))

theorem roundoff_nonneg (precision : Nat) : 0 ≤ roundoff precision := by
  unfold roundoff
  positivity

theorem roundoff_le_one (precision : Nat) : roundoff precision ≤ 1 := by
  have hpow : (1 : ℚ) ≤ 10 ^ (precision - 1) := one_le_pow₀ (by norm_num)
  rw [roundoff, div_le_one (by positivity)]
  linarith

/-- The nearest integer to a quotient is at most a half away. -/
theorem two_mul_abs_divideHalfEven_sub_le {n m : Nat} (hm : 0 < m) :
    2 * |(divideHalfEven n m : ℤ) * m - n| ≤ m := by
  have hsplit : (n : ℤ) = m * (n / m : Nat) + (n % m : Nat) := by
    exact_mod_cast (Nat.div_add_mod n m).symm
  have hlt : n % m < m := Nat.mod_lt n hm
  unfold divideHalfEven
  split
  · next hup =>
      have hdiff : ((n / m + 1 : Nat) : ℤ) * m - n = m - (n % m : Nat) := by
        rw [hsplit]
        push_cast
        ring
      rw [hdiff, abs_of_nonneg (by omega)]
      rcases hup with hhalf | ⟨htie, -⟩
      · omega
      · omega
  · next hdown =>
      have hdiff : ((n / m : Nat) : ℤ) * m - n = -(n % m : Nat) := by
        rw [hsplit]
        push_cast
        ring
      rw [hdiff, abs_neg, abs_of_nonneg (by positivity)]
      omega

theorem abs_sign_le_one (n : ℤ) : |(n.sign : ℚ)| ≤ 1 := by
  rcases lt_trichotomy n 0 with hneg | rfl | hpos
  · simp [Int.sign_eq_neg_one_of_neg hneg]
  · simp
  · simp [Int.sign_eq_one_of_pos hpos]

theorem sign_mul_sign {n : ℤ} (h : n ≠ 0) : (n.sign : ℚ) * n.sign = 1 := by
  rcases lt_or_gt_of_ne h with hneg | hpos
  · simp [Int.sign_eq_neg_one_of_neg hneg]
  · simp [Int.sign_eq_one_of_pos hpos]

theorem coefficient_eq (d : Decimal) :
    (d.coefficient : ℚ) = d.coefficient.sign * d.coefficient.natAbs := by
  rw [Nat.cast_natAbs]
  exact_mod_cast (Int.sign_mul_abs d.coefficient).symm

/-- A coefficient with too many digits is divided by a power of ten; a carry leaves the value. -/
theorem value_round_of_lt {precision : Nat} (hprecision : 0 < precision) {d : Decimal}
    (hcount : precision < digitCount d.coefficient.natAbs) :
    (d.round precision).value = d.coefficient.sign *
      (divideHalfEven d.coefficient.natAbs
        (10 ^ (digitCount d.coefficient.natAbs - precision)) : ℚ) *
      10 ^ (digitCount d.coefficient.natAbs - precision) * (10 : ℚ) ^ d.exponent := by
  set drop := digitCount d.coefficient.natAbs - precision with hdrop
  have hnot : ¬ digitCount d.coefficient.natAbs ≤ precision := not_le.2 hcount
  simp only [round, if_neg hnot, ← hdrop]
  split
  · next hcarry =>
      have hten : (10 : ℚ) ^ precision = 10 ^ (precision - 1) * 10 := by
        rw [← pow_succ, Nat.sub_add_cancel hprecision]
      simp only [value]
      rw [zpow_add₀ (by norm_num), zpow_add₀ (by norm_num), zpow_natCast, zpow_one, hcarry]
      push_cast
      rw [hten]
      ring
  · simp only [value]
    rw [zpow_add₀ (by norm_num), zpow_natCast]
    push_cast
    ring

theorem pow_le_of_lt_digitCount {n k : Nat} (h : k < digitCount n) (hk : 0 < k) : 10 ^ k ≤ n := by
  by_contra hlt
  exact absurd (digitCount_le hk (not_le.1 hlt)) (not_le.2 h)

/-- What rounding makes of a real number `r` that lies next to the coefficient: the error is at most
half a unit of the last digit kept. -/
theorem abs_divideHalfEven_sub_le_roundoff {precision count : Nat} (hprecision : 0 < precision)
    (hcount : precision < count) {n : Nat} {r : ℚ} (hr : (10 : ℚ) ^ (count - 1) ≤ r)
    (h : 2 * |(divideHalfEven n (10 ^ (count - precision)) : ℚ) * 10 ^ (count - precision) - r| ≤
      10 ^ (count - precision)) :
    |(divideHalfEven n (10 ^ (count - precision)) : ℚ) * 10 ^ (count - precision) - r| ≤
      roundoff precision * r := by
  have hpow : (10 : ℚ) ^ (count - precision) * 10 ^ (precision - 1) = 10 ^ (count - 1) := by
    rw [← pow_add]
    congr 1
    omega
  have hscale : (10 : ℚ) ^ (count - precision) ≤ 2 * roundoff precision * r := by
    have hbase : (10 : ℚ) ^ (count - precision) * 10 ^ (precision - 1) ≤ r := hpow ▸ hr
    rw [roundoff]
    field_simp
    linarith
  linarith

/-- Rounding is off by at most the fraction `roundoff` of the number. -/
theorem abs_round_sub_le {precision : Nat} (hprecision : 0 < precision) (d : Decimal) :
    |(d.round precision).value - d.value| ≤ roundoff precision * |d.value| := by
  by_cases hcount : digitCount d.coefficient.natAbs ≤ precision
  · have hsame : d.round precision = d := by simp [round, hcount]
    rw [hsame, sub_self, abs_zero]
    exact mul_nonneg (roundoff_nonneg _) (abs_nonneg _)
  · have hlt := not_le.1 hcount
    have hone : 0 < digitCount d.coefficient.natAbs - 1 := by omega
    have hlead : (10 : ℚ) ^ (digitCount d.coefficient.natAbs - 1) ≤ d.coefficient.natAbs := by
      exact_mod_cast pow_le_of_lt_digitCount (by omega) hone
    have hhalf := two_mul_abs_divideHalfEven_sub_le (n := d.coefficient.natAbs)
      (show 0 < 10 ^ (digitCount d.coefficient.natAbs - precision) by positivity)
    have hhalf' : 2 * |(divideHalfEven d.coefficient.natAbs
          (10 ^ (digitCount d.coefficient.natAbs - precision)) : ℚ) *
          10 ^ (digitCount d.coefficient.natAbs - precision) - d.coefficient.natAbs| ≤
        10 ^ (digitCount d.coefficient.natAbs - precision) := by exact_mod_cast hhalf
    have herror := abs_divideHalfEven_sub_le_roundoff hprecision hlt hlead hhalf'
    have hpos : (0 : ℚ) < (10 : ℚ) ^ d.exponent := by positivity
    have hvalue : |d.value| = d.coefficient.natAbs * (10 : ℚ) ^ d.exponent := by
      rw [value, abs_mul, abs_of_pos hpos, Nat.cast_natAbs, Int.cast_abs]
    have hsub : (d.round precision).value - d.value = d.coefficient.sign *
        ((divideHalfEven d.coefficient.natAbs
          (10 ^ (digitCount d.coefficient.natAbs - precision)) : ℚ) *
          10 ^ (digitCount d.coefficient.natAbs - precision) - d.coefficient.natAbs) *
        (10 : ℚ) ^ d.exponent := by
      rw [value_round_of_lt hprecision hlt, value, coefficient_eq d]
      ring
    rw [hsub, abs_mul, abs_mul, abs_of_pos hpos, hvalue, ← mul_assoc]
    apply mul_le_mul_of_nonneg_right _ hpos.le
    calc _ ≤ 1 * |_| := mul_le_mul_of_nonneg_right (abs_sign_le_one _) (abs_nonneg _)
      _ ≤ _ := by rw [one_mul]; exact herror

section Operations

variable {precision : Nat} (hprecision : 0 < precision) (x y : Decimal)
include hprecision

theorem abs_add_sub_le :
    |(add precision x y).value - (x.value + y.value)| ≤ roundoff precision * |x.value + y.value| := by
  rw [← value_sum]
  exact abs_round_sub_le hprecision _

theorem abs_sub_sub_le :
    |(sub precision x y).value - (x.value - y.value)| ≤ roundoff precision * |x.value - y.value| := by
  rw [sub_eq_add_neg x.value, ← value_neg, ← value_sum]
  exact abs_round_sub_le hprecision _

theorem abs_mul_sub_le :
    |(mul precision x y).value - x.value * y.value| ≤ roundoff precision * |x.value * y.value| := by
  have hvalue : value ⟨x.coefficient * y.coefficient, x.exponent + y.exponent⟩ =
      x.value * y.value := by
    simp only [value]
    rw [zpow_add₀ (by norm_num)]
    push_cast
    ring
  rw [← hvalue]
  exact abs_round_sub_le hprecision _

/-- A difference that is positive after rounding is positive. -/
theorem lt_of_sub_pos (h : 0 < (sub precision x y).value) : y.value < x.value := by
  by_contra hle
  have herror := abs_sub_sub_le hprecision x y
  rw [abs_of_nonpos (show x.value - y.value ≤ 0 by linarith)] at herror
  have hup := le_abs_self ((sub precision x y).value - (x.value - y.value))
  have hshrunk : roundoff precision * -(x.value - y.value) ≤ 1 * -(x.value - y.value) :=
    mul_le_mul_of_nonneg_right (roundoff_le_one precision) (by linarith)
  linarith

/-- A difference that is negative after rounding is negative. -/
theorem lt_of_sub_neg (h : (sub precision x y).value < 0) : x.value < y.value := by
  by_contra hle
  have herror := abs_sub_sub_le hprecision x y
  rw [abs_of_nonneg (show 0 ≤ x.value - y.value by linarith)] at herror
  have hdown := neg_abs_le ((sub precision x y).value - (x.value - y.value))
  have hshrunk : roundoff precision * (x.value - y.value) ≤ 1 * (x.value - y.value) :=
    mul_le_mul_of_nonneg_right (roundoff_le_one precision) (by linarith)
  linarith

end Operations

/-! ## Quotients -/

/-- A digit that shows a remainder never makes a tie, so rounding it rounds the number itself. -/
theorem two_mul_abs_sub_le_of_sticky {n drop : Nat} (hdrop : 0 < drop) (hsticky : n % 5 ≠ 0) {r : ℚ}
    (hr : |(n : ℚ) - r| ≤ 1) :
    2 * |(divideHalfEven n (10 ^ drop) : ℚ) * 10 ^ drop - r| ≤ 10 ^ drop := by
  obtain ⟨k, rfl⟩ : ∃ k, drop = k + 1 := ⟨drop - 1, by omega⟩
  have hhalf := two_mul_abs_divideHalfEven_sub_le (n := n) (show 0 < 10 ^ (k + 1) by positivity)
  set z : ℤ := (divideHalfEven n (10 ^ (k + 1)) : ℤ) * (10 ^ (k + 1) : Nat) - n with hz
  have hunit : ((10 ^ (k + 1) : Nat) : ℤ) = 10 * 10 ^ k := by
    push_cast
    ring
  rw [hunit] at hhalf hz
  have hstrict : |z| ≠ 5 * 10 ^ k := by
    intro htie
    have hdvd : (5 : ℤ) ∣ z := (dvd_abs 5 z).1 (htie ▸ Dvd.intro _ rfl)
    have hn : (5 : ℤ) ∣ n := by
      have hsum : (n : ℤ) = (divideHalfEven n (10 ^ (k + 1)) : ℤ) * 2 * 10 ^ k * 5 - z := by
        rw [hz]
        ring
      rw [hsum]
      exact dvd_sub (Dvd.intro_left _ rfl) hdvd
    omega
  have hbelow : |z| + 1 ≤ 5 * 10 ^ k := by omega
  have hcast : (|(z : ℚ)|) + 1 ≤ 5 * 10 ^ k := by exact_mod_cast hbelow
  have hvalue : (divideHalfEven n (10 ^ (k + 1)) : ℚ) * 10 ^ (k + 1) - r = z + ((n : ℚ) - r) := by
    rw [hz]
    push_cast
    ring
  have htriangle := abs_add_le (z : ℚ) ((n : ℚ) - r)
  rw [hvalue, pow_succ]
  linarith

@[simp] theorem value_stripZeros (fuel : Nat) (d : Decimal) : (stripZeros fuel d).value = d.value := by
  induction fuel generalizing d with
  | zero => rfl
  | succ fuel ih =>
      unfold stripZeros
      split
      · next hzero =>
          have hcoefficient : (d.coefficient : ℚ) = (d.coefficient / 10 : ℤ) * 10 := by
            exact_mod_cast (Int.ediv_mul_cancel (Int.dvd_of_emod_eq_zero hzero)).symm
          rw [ih, value, value, hcoefficient, zpow_add₀ (by norm_num), zpow_one]
          ring
      · rfl

/-- Zeros added at the end are removed. -/
theorem stripZeros_mul_pow (fuel : Nat) (c e : ℤ) :
    stripZeros fuel ⟨c * 10 ^ fuel, e⟩ = ⟨c, e + fuel⟩ := by
  induction fuel generalizing e with
  | zero => simp [stripZeros]
  | succ fuel ih =>
      have hlast : c * 10 ^ (fuel + 1) = c * 10 ^ fuel * 10 := by ring
      have hmod : c * 10 ^ fuel * 10 % 10 = 0 := Int.mul_emod_left _ _
      simp only [stripZeros, hlast, hmod, if_true, Int.mul_ediv_cancel _ (show (10 : ℤ) ≠ 0 by decide)]
      rw [ih]
      congr 1
      push_cast
      ring

section Div

variable {precision : Nat} {x y : Decimal}

/-- The power of ten that gives the quotient one digit more than the precision. -/
def divShift (precision : Nat) (x y : Decimal) : ℤ :=
  (digitCount y.coefficient.natAbs : ℤ) - digitCount x.coefficient.natAbs + precision + 1

/-- The quotient of the shifted coefficients, a number with at least one digit more than the
precision. -/
def shiftedQuotient (precision : Nat) (x y : Decimal) : ℚ :=
  (x.coefficient.natAbs * 10 ^ (divShift precision x y).toNat : Nat) /
    (y.coefficient.natAbs * 10 ^ (-divShift precision x y).toNat : Nat)

theorem value_div_value (hy : y.coefficient ≠ 0) : x.value / y.value =
    (x.coefficient.sign * y.coefficient.sign : ℤ) * shiftedQuotient precision x y *
      (10 : ℚ) ^ (x.exponent - y.exponent - divShift precision x y) := by
  have hsign := sign_mul_sign hy
  have hyabs : (y.coefficient.natAbs : ℚ) ≠ 0 := by
    exact_mod_cast Int.natAbs_ne_zero.2 hy
  have hysign : (y.coefficient.sign : ℚ) ≠ 0 := by
    intro hzero
    rw [hzero, mul_zero] at hsign
    norm_num at hsign
  have hshift : (10 : ℚ) ^ (divShift precision x y).toNat =
      (10 : ℚ) ^ divShift precision x y * 10 ^ (-divShift precision x y).toNat := by
    rw [← zpow_natCast, ← zpow_natCast, ← zpow_add₀ (by norm_num)]
    congr 1
    omega
  have hinv : (y.coefficient.sign : ℚ) = 1 / y.coefficient.sign := by
    field_simp
    linarith [sq (y.coefficient.sign : ℚ)]
  rw [value, value, coefficient_eq x, coefficient_eq y, shiftedQuotient]
  push_cast
  rw [hshift, zpow_sub₀ (by norm_num), zpow_sub₀ (by norm_num)]
  nth_rewrite 2 [hinv]
  have h10 : (10 : ℚ) ^ divShift precision x y ≠ 0 := by positivity
  have hx10 : (10 : ℚ) ^ y.exponent ≠ 0 := by positivity
  rw [Nat.cast_natAbs] at hyabs
  field_simp

theorem pow_digitCount_le {n : Nat} (hn : n ≠ 0) : 10 ^ (digitCount n - 1) ≤ n := by
  have hpred : digitCount n - 1 = Nat.log 10 n := by simp [digitCount]
  rw [hpred]
  exact Nat.pow_log_le_self 10 hn

/-- The shifted quotient has more digits than the precision. -/
theorem pow_le_shifted (hx : x.coefficient ≠ 0) :
    y.coefficient.natAbs * 10 ^ (-divShift precision x y).toNat * 10 ^ precision ≤
      x.coefficient.natAbs * 10 ^ (divShift precision x y).toNat := by
  have hlow := pow_digitCount_le (Int.natAbs_ne_zero.2 hx)
  have hhigh := (lt_pow_digitCount y.coefficient.natAbs).le
  have hexponents : digitCount y.coefficient.natAbs + (-divShift precision x y).toNat + precision =
      digitCount x.coefficient.natAbs - 1 + (divShift precision x y).toNat := by
    have hcount : 0 < digitCount x.coefficient.natAbs := by simp [digitCount]
    unfold divShift
    omega
  calc y.coefficient.natAbs * 10 ^ (-divShift precision x y).toNat * 10 ^ precision
      ≤ 10 ^ digitCount y.coefficient.natAbs * 10 ^ (-divShift precision x y).toNat *
          10 ^ precision := by gcongr
    _ = 10 ^ (digitCount x.coefficient.natAbs - 1) * 10 ^ (divShift precision x y).toNat := by
        rw [← pow_add, ← pow_add, ← pow_add, hexponents]
    _ ≤ _ := by gcongr

/-- The last digit of a quotient with a remainder. -/
def sticky (q : Nat) : Nat := if q % 5 = 0 then q + 1 else q

theorem sticky_mod_ne (q : Nat) : sticky q % 5 ≠ 0 := by
  unfold sticky
  split <;> omega

theorem abs_sticky_sub_le {q : Nat} {r : ℚ} (hlow : (q : ℚ) ≤ r) (hhigh : r ≤ q + 1) :
    |(sticky q : ℚ) - r| ≤ 1 := by
  rw [abs_le]
  unfold sticky
  split
  · push_cast
    constructor <;> linarith
  · constructor <;> linarith

theorem le_sticky (q : Nat) : q ≤ sticky q := by
  unfold sticky
  split <;> omega

/-- The digit added does not make a longer number. -/
theorem pow_le_of_sticky {q k : Nat} (hk : 0 < k) (h : 10 ^ k ≤ sticky q) : 10 ^ k ≤ q := by
  unfold sticky at h
  split at h
  · next hfive =>
      by_contra hlt
      have hequal : 10 ^ k = q + 1 := by omega
      have hdvd : 5 ∣ 10 ^ k := (by norm_num : (5 : Nat) ∣ 10).trans (dvd_pow_self 10 hk.ne')
      omega
  · exact h

/-- Rounding a number with a sticky digit is off by at most the fraction `roundoff` of the number `r`
that the digit stands for. -/
theorem abs_round_sub_le_of_sticky (hprecision : 0 < precision) {s e : ℤ} {n : Nat} {r : ℚ}
    (hs : s.natAbs = 1) (hsticky : n % 5 ≠ 0) (hcount : precision < digitCount n)
    (hlead : (10 : ℚ) ^ (digitCount n - 1) ≤ r) (hr : |(n : ℚ) - r| ≤ 1) :
    |(round precision ⟨s * n, e⟩).value - s * r * (10 : ℚ) ^ e| ≤
      roundoff precision * |s * r * (10 : ℚ) ^ e| := by
  have hpos : (0 : ℚ) < (10 : ℚ) ^ e := by positivity
  have hrpos : 0 ≤ r := le_trans (by positivity) hlead
  have hnpos : 0 < n := Nat.pos_of_ne_zero fun hzero => hsticky (by rw [hzero])
  have habs : (s * n).natAbs = n := by rw [Int.natAbs_mul, hs, one_mul, Int.natAbs_natCast]
  have hsign : (s * n).sign = s := by
    have hone : (n : ℤ).sign = 1 := Int.sign_eq_one_of_pos (by exact_mod_cast hnpos)
    rw [Int.sign_mul, hone, mul_one]
    rcases Int.natAbs_eq s with hs' | hs' <;> rw [hs', hs] <;> rfl
  have hunit : |(s : ℚ)| = 1 := by
    rw [← Int.cast_abs, ← Int.natCast_natAbs, hs]
    norm_num
  have hround := value_round_of_lt (d := ⟨s * n, e⟩) hprecision (by rw [habs]; exact hcount)
  simp only [habs, hsign] at hround
  have herror := abs_divideHalfEven_sub_le_roundoff hprecision hcount hlead
    (two_mul_abs_sub_le_of_sticky (Nat.sub_pos_of_lt hcount) hsticky hr)
  have hsub : (round precision ⟨s * n, e⟩).value - s * r * (10 : ℚ) ^ e =
      s * ((divideHalfEven n (10 ^ (digitCount n - precision)) : ℚ) *
        10 ^ (digitCount n - precision) - r) * (10 : ℚ) ^ e := by
    rw [hround]
    ring
  rw [hsub, abs_mul, abs_mul, abs_mul, abs_mul, hunit, abs_of_pos hpos, abs_of_nonneg hrpos, one_mul,
    one_mul, ← mul_assoc]
  exact mul_le_mul_of_nonneg_right herror hpos.le

/-- A quotient is off by at most the fraction `roundoff` of the exact quotient. -/
theorem abs_div_sub_le (hprecision : 0 < precision) (hy : y.coefficient ≠ 0) :
    |(div precision x y).value - x.value / y.value| ≤
      roundoff precision * |x.value / y.value| := by
  set N := x.coefficient.natAbs * 10 ^ (divShift precision x y).toNat with hN
  set D := y.coefficient.natAbs * 10 ^ (-divShift precision x y).toNat with hD
  have hDpos : 0 < D := Nat.mul_pos (Int.natAbs_pos.2 hy) (by positivity)
  have hexact := @value_div_value precision x y hy
  have hquotient : shiftedQuotient precision x y = (N : ℚ) / D := rfl
  by_cases hremainder : N % D = 0
  · -- No remainder: the exact quotient is rounded.
    have hdiv : div precision x y = round precision (stripZeros (divShift precision x y).toNat
        ⟨x.coefficient.sign * y.coefficient.sign * (N / D : Nat),
          x.exponent - y.exponent - divShift precision x y⟩) := by
      unfold div
      exact if_neg (not_not.2 hremainder)
    have hvalue : (stripZeros (divShift precision x y).toNat
        ⟨x.coefficient.sign * y.coefficient.sign * (N / D : Nat),
          x.exponent - y.exponent - divShift precision x y⟩).value = x.value / y.value := by
      have hwhole : ((N / D : Nat) : ℚ) = (N : ℚ) / D :=
        Nat.cast_div (Nat.dvd_of_mod_eq_zero hremainder) (by exact_mod_cast hDpos.ne')
      rw [value_stripZeros, value, hexact, hquotient, Int.cast_mul _ ((N / D : Nat) : ℤ),
        Int.cast_natCast, hwhole]
    rw [hdiv, ← hvalue]
    exact abs_round_sub_le hprecision _
  · -- A remainder: the sticky quotient has more digits than the precision and is rounded down to it.
    have hx : x.coefficient ≠ 0 := by
      intro hzero
      rw [hN, hzero] at hremainder
      simp at hremainder
    have hdiv : div precision x y = round precision
        ⟨x.coefficient.sign * y.coefficient.sign * (sticky (N / D) : Nat),
          x.exponent - y.exponent - divShift precision x y⟩ := by
      unfold div
      exact if_pos hremainder
    have hlowN : D * (N / D) ≤ N := Nat.mul_div_le N D
    have hhighN : N ≤ D * (N / D + 1) := (Nat.lt_mul_div_succ N hDpos).le
    have hDq : (0 : ℚ) < D := by exact_mod_cast hDpos
    have hlow : ((N / D : Nat) : ℚ) ≤ (N : ℚ) / D := by
      rw [le_div_iff₀ hDq, mul_comm]
      exact_mod_cast hlowN
    have hhigh : (N : ℚ) / D ≤ (N / D : Nat) + 1 := by
      rw [div_le_iff₀ hDq, mul_comm]
      exact_mod_cast hhighN
    have hlong : 10 ^ precision ≤ N / D := by
      rw [Nat.le_div_iff_mul_le hDpos, mul_comm]
      exact pow_le_shifted hx
    have hsign : (x.coefficient.sign * y.coefficient.sign).natAbs = 1 := by
      rw [Int.natAbs_mul, Int.natAbs_sign_of_ne_zero hx, Int.natAbs_sign_of_ne_zero hy]
    have hcount : precision < digitCount (sticky (N / D)) := by
      by_contra hle
      have hshort : sticky (N / D) < 10 ^ precision := (lt_pow_digitCount _).trans_le
        (Nat.pow_le_pow_right (by decide) (not_lt.1 hle))
      exact absurd (hlong.trans (le_sticky _)) (not_le.2 hshort)
    have hlead : (10 : ℚ) ^ (digitCount (sticky (N / D)) - 1) ≤ (N : ℚ) / D := by
      have hne : sticky (N / D) ≠ 0 := fun hzero => sticky_mod_ne (N / D) (by rw [hzero])
      have hq := pow_le_of_sticky (by omega) (pow_digitCount_le hne)
      exact le_trans (by exact_mod_cast hq) hlow
    rw [hdiv, hexact, hquotient]
    exact abs_round_sub_le_of_sticky hprecision hsign (sticky_mod_ne _) hcount hlead
      (abs_sticky_sub_le hlow hhigh)

end Div

end Decimal

/-! ## Accumulated errors -/

/-- `x` results from `y` through at most `k` roundings, each off by at most the fraction `u`. -/
def Approximates (u : ℚ) (k : Nat) (x y : ℚ) : Prop := y * (1 - u) ^ k ≤ x ∧ x ≤ y * (1 + u) ^ k

namespace Approximates

variable {u : ℚ} {k l : Nat} {x y z w : ℚ}

theorem of_abs_sub_le (hy : 0 ≤ y) (h : |x - y| ≤ u * |y|) : Approximates u 1 x y := by
  rw [abs_of_nonneg hy, abs_le] at h
  unfold Approximates
  constructor <;> linarith [h.1, h.2]

theorem refl (x : ℚ) : Approximates u 0 x x := by simp [Approximates]

section Roundings

variable (hu : 0 ≤ u) (hu1 : u ≤ 1)
include hu hu1

omit hu in
theorem nonneg (hy : 0 ≤ y) (h : Approximates u k x y) : 0 ≤ x :=
  (mul_nonneg hy (pow_nonneg (by linarith) k)).trans h.1

theorem trans (hxy : Approximates u k x y) (hyz : Approximates u l y z) :
    Approximates u (k + l) x z := by
  have hlow : 0 ≤ (1 - u) ^ k := pow_nonneg (by linarith) k
  have hhigh : 0 ≤ (1 + u) ^ k := pow_nonneg (by linarith) k
  constructor
  · calc z * (1 - u) ^ (k + l) = z * (1 - u) ^ l * (1 - u) ^ k := by ring
      _ ≤ y * (1 - u) ^ k := mul_le_mul_of_nonneg_right hyz.1 hlow
      _ ≤ x := hxy.1
  · calc x ≤ y * (1 + u) ^ k := hxy.2
      _ ≤ z * (1 + u) ^ l * (1 + u) ^ k := mul_le_mul_of_nonneg_right hyz.2 hhigh
      _ = z * (1 + u) ^ (k + l) := by ring

theorem weaken (hy : 0 ≤ y) (hkl : k ≤ l) (h : Approximates u k x y) : Approximates u l x y := by
  constructor
  · exact (mul_le_mul_of_nonneg_left
      (pow_le_pow_of_le_one (by linarith) (by linarith) hkl) hy).trans h.1
  · exact h.2.trans (mul_le_mul_of_nonneg_left (pow_le_pow_right₀ (by linarith) hkl) hy)

/-- The error is at most the largest growth. -/
theorem abs_sub_le (hy : 0 ≤ y) (h : Approximates u k x y) : |x - y| ≤ ((1 + u) ^ k - 1) * y := by
  have hgrow : 1 + (k : ℚ) * u ≤ (1 + u) ^ k := one_add_mul_le_pow (by linarith) k
  have hshrink : 1 + (k : ℚ) * -u ≤ (1 + -u) ^ k := one_add_mul_le_pow (by linarith) k
  rw [← sub_eq_add_neg] at hshrink
  have hlow : y * (2 - (1 + u) ^ k) ≤ y * (1 - u) ^ k :=
    mul_le_mul_of_nonneg_left (by linarith) hy
  rw [abs_le]
  constructor
  · linarith [h.1]
  · linarith [h.2]

end Roundings

theorem add (hxy : Approximates u k x y) (hzw : Approximates u k z w) :
    Approximates u k (x + z) (y + w) := by
  constructor
  · rw [add_mul]
    exact add_le_add hxy.1 hzw.1
  · rw [add_mul]
    exact add_le_add hxy.2 hzw.2

theorem div_right (hz : 0 < z) (h : Approximates u k x y) : Approximates u k (x / z) (y / z) := by
  constructor
  · rw [div_mul_eq_mul_div]
    exact div_le_div_of_nonneg_right h.1 hz.le
  · rw [div_mul_eq_mul_div]
    exact div_le_div_of_nonneg_right h.2 hz.le

open Decimal in
theorem round {precision : Nat} (hprecision : 0 < precision) {d : Decimal} (hd : 0 ≤ d.value) :
    Approximates (roundoff precision) 1 (d.round precision).value d.value :=
  of_abs_sub_le hd (abs_round_sub_le hprecision d)

section Operations

variable {precision : Nat} (hprecision : 0 < precision) {a b : Decimal}
include hprecision

theorem sub_of_le (h : b.value ≤ a.value) :
    Approximates (Decimal.roundoff precision) 1 (Decimal.sub precision a b).value
      (a.value - b.value) :=
  of_abs_sub_le (sub_nonneg.2 h) (Decimal.abs_sub_sub_le hprecision a b)

theorem mul_of_nonneg (ha : 0 ≤ a.value) (hb : 0 ≤ b.value) :
    Approximates (Decimal.roundoff precision) 1 (Decimal.mul precision a b).value
      (a.value * b.value) :=
  of_abs_sub_le (mul_nonneg ha hb) (Decimal.abs_mul_sub_le hprecision a b)

theorem div_of_pos (ha : 0 ≤ a.value) (hb : 0 < b.value) :
    Approximates (Decimal.roundoff precision) 1 (Decimal.div precision a b).value
      (a.value / b.value) := by
  have hne : b.coefficient ≠ 0 := by
    intro hzero
    simp [Decimal.value, hzero] at hb
  exact of_abs_sub_le (div_nonneg ha hb.le) (Decimal.abs_div_sub_le hprecision hne)

end Operations

/-- A sum adds one rounding for each of its items. -/
theorem total {precision : Nat} (hprecision : 0 < precision) {items : List Decimal} {exact : List ℚ}
    {start : Decimal} {t : ℚ} (hitems : List.Forall₂
      (fun d y => 0 ≤ y ∧ Approximates (Decimal.roundoff precision) k d.value y) items exact)
    (ht : 0 ≤ t) (hstart : Approximates (Decimal.roundoff precision) k start.value t) :
    Approximates (Decimal.roundoff precision) (k + items.length)
      (Decimal.total precision start items).value (t + exact.sum) := by
  have hu := Decimal.roundoff_nonneg precision
  have hu1 := Decimal.roundoff_le_one precision
  induction items generalizing k start t exact with
  | nil =>
      rw [List.forall₂_nil_left_iff.1 hitems]
      simpa [Decimal.total] using hstart
  | cons d items ih =>
      obtain ⟨y, exact, ⟨hy, hd⟩, htail, rfl⟩ := List.forall₂_cons_left_iff.1 hitems
      have hsum := hstart.add hd
      have hvalue : (Decimal.sum start d).value = start.value + d.value := Decimal.value_sum start d
      have hnonneg : 0 ≤ (Decimal.sum start d).value := by
        rw [hvalue]
        exact hsum.nonneg hu1 (add_nonneg ht hy)
      have hrounded := round hprecision hnonneg
      rw [hvalue] at hrounded
      have hnext : Approximates (Decimal.roundoff precision) (k + 1)
          (Decimal.add precision start d).value (t + y) :=
        (hrounded.trans hu hu1 hsum).weaken hu hu1 (add_nonneg ht hy) (by omega)
      have hrest := ih (htail.imp fun d y h => ⟨h.1, h.2.weaken hu hu1 h.1 (Nat.le_succ k)⟩)
        (add_nonneg ht hy) hnext
      rw [List.sum_cons, ← add_assoc, List.length_cons, Decimal.total, List.foldl_cons,
        Nat.add_comm items.length, ← Nat.add_assoc]
      exact hrest

end Approximates

namespace Decimal

/-! ## Rounding to a fixed exponent -/

/-- The number of units of `10 ^ exponent`, rounded to the nearest. -/
def unitCount (exponent : ℤ) (d : Decimal) : ℤ :=
  if exponent ≤ d.exponent then d.scaled exponent
  else d.coefficient.sign * divideHalfEven d.coefficient.natAbs (10 ^ (exponent - d.exponent).toNat)

/-- The nearest multiple of `10 ^ exponent`, unless it has too many digits. -/
def quantize (precision : Nat) (exponent : ℤ) (d : Decimal) : Option Decimal :=
  if digitCount (unitCount exponent d).natAbs ≤ precision then some ⟨unitCount exponent d, exponent⟩
  else none

variable {precision : Nat} {e : ℤ} {d q : Decimal}

theorem two_mul_abs_unitCount_sub_le (e : ℤ) (d : Decimal) :
    2 * |unitCount e d * (10 : ℚ) ^ e - d.value| ≤ (10 : ℚ) ^ e := by
  have hpos : (0 : ℚ) < (10 : ℚ) ^ e := by positivity
  unfold unitCount
  split
  · next hle =>
      rw [value_scaled d hle, sub_self, abs_zero, mul_zero]
      exact hpos.le
  · next hlt =>
      have hhalf := two_mul_abs_divideHalfEven_sub_le (n := d.coefficient.natAbs)
        (show 0 < 10 ^ (e - d.exponent).toNat by positivity)
      have hhalf' : 2 * |(divideHalfEven d.coefficient.natAbs
            (10 ^ (e - d.exponent).toNat) : ℚ) * 10 ^ (e - d.exponent).toNat -
            d.coefficient.natAbs| ≤ 10 ^ (e - d.exponent).toNat := by exact_mod_cast hhalf
      have hexponent : (10 : ℚ) ^ e = 10 ^ (e - d.exponent).toNat * (10 : ℚ) ^ d.exponent := by
        rw [← zpow_natCast, ← zpow_add₀ (by norm_num)]
        congr 1
        omega
      have hlow : (0 : ℚ) < (10 : ℚ) ^ d.exponent := by positivity
      have hsub : ((d.coefficient.sign * divideHalfEven d.coefficient.natAbs
            (10 ^ (e - d.exponent).toNat) : ℤ) : ℚ) * (10 : ℚ) ^ e - d.value =
          d.coefficient.sign * ((divideHalfEven d.coefficient.natAbs
            (10 ^ (e - d.exponent).toNat) : ℚ) * 10 ^ (e - d.exponent).toNat -
            d.coefficient.natAbs) * (10 : ℚ) ^ d.exponent := by
        rw [value, coefficient_eq d, hexponent]
        push_cast
        ring
      rw [hsub, abs_mul, abs_mul, abs_of_pos hlow, hexponent, ← mul_assoc]
      apply mul_le_mul_of_nonneg_right _ hlow.le
      calc 2 * (|(d.coefficient.sign : ℚ)| * |_|) ≤ 2 * (1 * |_|) := by
            gcongr
            exact abs_sign_le_one _
        _ ≤ _ := by rw [one_mul]; exact hhalf'

theorem quantize_eq_some (h : quantize precision e d = some q) : q = ⟨unitCount e d, e⟩ := by
  unfold quantize at h
  split at h
  · exact (Option.some.inj h).symm
  · cases h

/-- The result is at most half a unit away. -/
theorem two_mul_abs_quantize_sub_le (h : quantize precision e d = some q) :
    2 * |q.value - d.value| ≤ (10 : ℚ) ^ e := by
  rw [quantize_eq_some h]
  exact two_mul_abs_unitCount_sub_le e d

/-- A multiple of the unit that the number does not fall half a unit below is not above the result. -/
theorem le_quantize (h : quantize precision e d = some q) {n : ℤ}
    (hn : n * (10 : ℚ) ^ e - (10 : ℚ) ^ e / 2 < d.value) : n * (10 : ℚ) ^ e ≤ q.value := by
  have hpos : (0 : ℚ) < (10 : ℚ) ^ e := by positivity
  have herror := two_mul_abs_quantize_sub_le h
  have hnear := neg_abs_le (q.value - d.value)
  have hq : q.value = q.coefficient * (10 : ℚ) ^ e := by rw [quantize_eq_some h, value]
  have hlt : ((n - 1 : ℤ) : ℚ) * (10 : ℚ) ^ e < q.coefficient * (10 : ℚ) ^ e := by
    rw [← hq]
    push_cast
    linarith
  have hint : n - 1 < q.coefficient := by exact_mod_cast lt_of_mul_lt_mul_right hlt hpos.le
  have hle : (n : ℚ) ≤ q.coefficient := by exact_mod_cast Int.sub_one_lt_iff.1 hint
  rw [hq]
  exact mul_le_mul_of_nonneg_right hle hpos.le

theorem quantize_le (h : quantize precision e d = some q) {n : ℤ}
    (hn : d.value < n * (10 : ℚ) ^ e + (10 : ℚ) ^ e / 2) : q.value ≤ n * (10 : ℚ) ^ e := by
  have hpos : (0 : ℚ) < (10 : ℚ) ^ e := by positivity
  have herror := two_mul_abs_quantize_sub_le h
  have hnear := le_abs_self (q.value - d.value)
  have hq : q.value = q.coefficient * (10 : ℚ) ^ e := by rw [quantize_eq_some h, value]
  have hlt : (q.coefficient : ℚ) * (10 : ℚ) ^ e < ((n + 1 : ℤ) : ℚ) * (10 : ℚ) ^ e := by
    rw [← hq]
    push_cast
    linarith
  have hint : q.coefficient < n + 1 := by exact_mod_cast lt_of_mul_lt_mul_right hlt hpos.le
  have hle : (q.coefficient : ℚ) ≤ n := by exact_mod_cast Int.lt_add_one_iff.1 hint
  rw [hq]
  exact mul_le_mul_of_nonneg_right hle hpos.le

/-- A number of at most `n` units is quantized when `n` has few enough digits. -/
theorem exists_quantize (hprecision : 0 < precision) {n : Nat} (hd : |d.value| ≤ n * (10 : ℚ) ^ e)
    (hn : n < 10 ^ precision) : ∃ q, quantize precision e d = some q := by
  have hpos : (0 : ℚ) < (10 : ℚ) ^ e := by positivity
  have herror := two_mul_abs_unitCount_sub_le e d
  have hunits : |(unitCount e d : ℚ)| * (10 : ℚ) ^ e < (n + 1) * (10 : ℚ) ^ e := by
    have htriangle := abs_sub_abs_le_abs_sub (unitCount e d * (10 : ℚ) ^ e) d.value
    rw [abs_mul, abs_of_pos hpos] at htriangle
    linarith
  have hlt : |(unitCount e d : ℚ)| < n + 1 := lt_of_mul_lt_mul_right hunits hpos.le
  have hle : (unitCount e d).natAbs ≤ n := by
    have hint : |unitCount e d| < (n : ℤ) + 1 := by exact_mod_cast hlt
    rw [Int.abs_eq_natAbs] at hint
    omega
  refine ⟨⟨unitCount e d, e⟩, ?_⟩
  rw [quantize, if_pos (digitCount_le hprecision (hle.trans_lt hn))]

/-- The number of units of `10 ^ exponent`, rounded towards zero. -/
def wholeUnits (exponent : ℤ) (d : Decimal) : ℤ :=
  if exponent ≤ d.exponent then d.scaled exponent
  else d.coefficient.sign * (d.coefficient.natAbs / 10 ^ (exponent - d.exponent).toNat : Nat)

/-- The next multiple of `10 ^ exponent` towards zero, unless it has too many digits. -/
def quantizeDown (precision : Nat) (exponent : ℤ) (d : Decimal) : Option Decimal :=
  if digitCount (wholeUnits exponent d).natAbs ≤ precision then some ⟨wholeUnits exponent d, exponent⟩
  else none

theorem quantizeDown_eq_some (h : quantizeDown precision e d = some q) : q = ⟨wholeUnits e d, e⟩ := by
  unfold quantizeDown at h
  split at h
  · exact (Option.some.inj h).symm
  · cases h

theorem coefficient_nonneg (h : 0 ≤ d.value) : 0 ≤ d.coefficient := by
  have hpos : (0 : ℚ) < (10 : ℚ) ^ d.exponent := by positivity
  exact_mod_cast nonneg_of_mul_nonneg_left h hpos

/-- The whole units of a number that is not negative are the floor of its units. -/
theorem wholeUnits_eq_floor (hvalue : 0 ≤ d.value) (e : ℤ) :
    wholeUnits e d = ⌊d.value / (10 : ℚ) ^ e⌋ := by
  have hpos : (0 : ℚ) < (10 : ℚ) ^ e := by positivity
  have hd := coefficient_nonneg hvalue
  unfold wholeUnits
  split
  · next hle =>
      rw [← value_scaled d hle, mul_div_cancel_right₀ _ hpos.ne', Int.floor_intCast]
  · next hlt =>
      obtain ⟨n, hn⟩ := Int.eq_ofNat_of_zero_le hd
      obtain ⟨k, hk⟩ := Int.eq_ofNat_of_zero_le (show 0 ≤ e - d.exponent by omega)
      have hunits : d.value / (10 : ℚ) ^ e = (n : ℚ) / (10 ^ k : Nat) := by
        have hexponent : e = d.exponent + k := by omega
        have hlow : (10 : ℚ) ^ d.exponent ≠ 0 := by positivity
        rw [value, hn, hexponent, zpow_add₀ (by norm_num), zpow_natCast]
        push_cast
        field_simp
      rw [hunits, hn, hk]
      -- The sign is one, or the coefficient is zero.
      rcases Nat.eq_zero_or_pos n with rfl | hpositive
      · simp
      · rw [Int.sign_eq_one_of_pos (by exact_mod_cast hpositive), one_mul, Int.natAbs_natCast,
          Int.toNat_natCast, Rat.floor_natCast_div_natCast]
        rfl

theorem quantizeDown_le (hd : 0 ≤ d.value) (h : quantizeDown precision e d = some q) :
    q.value ≤ d.value := by
  have hpos : (0 : ℚ) < (10 : ℚ) ^ e := by positivity
  rw [quantizeDown_eq_some h, value, wholeUnits_eq_floor hd]
  calc (⌊d.value / (10 : ℚ) ^ e⌋ : ℚ) * (10 : ℚ) ^ e
      ≤ d.value / (10 : ℚ) ^ e * (10 : ℚ) ^ e :=
        mul_le_mul_of_nonneg_right (Int.floor_le _) hpos.le
    _ = d.value := div_mul_cancel₀ _ hpos.ne'

/-- Dividing by a power of ten shifts the exponent. -/
theorem div_unit (hcount : digitCount d.coefficient.natAbs ≤ precision) (e : ℤ) :
    div precision d ⟨1, e⟩ = ⟨d.coefficient, d.exponent - e⟩ := by
  have hone : digitCount 1 = 1 := by decide
  obtain ⟨k, hk⟩ : ∃ k : Nat,
      (digitCount 1 : ℤ) - digitCount d.coefficient.natAbs + precision + 1 = k :=
    ⟨precision + 2 - digitCount d.coefficient.natAbs, by rw [hone]; omega⟩
  have hcoefficient : d.coefficient.sign * (1 : ℤ).sign * ((d.coefficient.natAbs * 10 ^ k : Nat) : ℤ) =
      d.coefficient * 10 ^ k := by
    push_cast
    rw [← mul_assoc, Int.sign_one, mul_one, Int.sign_mul_abs]
  have hexponent : d.exponent - e - (k : ℤ) + k = d.exponent - e := by ring
  unfold div
  simp only [Int.natAbs_one, hk, Int.toNat_natCast, Int.toNat_neg_natCast, pow_zero, mul_one,
    Nat.mod_one, Nat.div_one, ne_eq, not_true_eq_false, if_false, hcoefficient, stripZeros_mul_pow,
    hexponent]
  simp only [round, hcount, if_true]

end Decimal

end Foundation
