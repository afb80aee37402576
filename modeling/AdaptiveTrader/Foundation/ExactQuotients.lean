import AdaptiveTrader.Foundation.RoundingError

/-!
# Exact quotients

The quotient of two decimals need not terminate. It is exact when it lies on a grid that the precision
resolves (`value_div_of_onGrid`), and its integer part is exact as long as the dividend, written over
the same power of ten as the divisor, has fewer digits than the precision (`floor_abs_div`): a fraction
`a / b` that is no integer is at least `1 / b` away from every integer.
-/

set_option autoImplicit false

namespace Foundation.Decimal

section Quotients

variable {precision : Nat} {x y : Decimal}

/-- A quotient on a grid is exact while its number of steps has at most `precision` digits. -/
theorem value_div_of_onGrid (hprecision : 0 < precision) (hy : y.coefficient ≠ 0) {places : Nat}
    {n : ℤ} (hgrid : OnGrid places n (x.value / y.value)) (hn : n.natAbs < 10 ^ precision) :
    (div precision x y).value = x.value / y.value := by
  set N := x.coefficient.natAbs * 10 ^ (divShift precision x y).toNat with hN
  set D := y.coefficient.natAbs * 10 ^ (-divShift precision x y).toNat with hD
  have hDpos : 0 < D := Nat.mul_pos (Int.natAbs_pos.2 hy) (by positivity)
  have hexact := @value_div_value precision x y hy
  have hquotient : shiftedQuotient precision x y = (N : ℚ) / D := rfl
  by_cases hremainder : N % D = 0
  · have hdiv : div precision x y = round precision (stripZeros (divShift precision x y).toNat
        ⟨x.coefficient.sign * y.coefficient.sign * (N / D : Nat),
          x.exponent - y.exponent - divShift precision x y⟩) := by
      unfold div
      exact if_neg (not_not.2 hremainder)
    have hvalue : (stripZeros (divShift precision x y).toNat
        ⟨x.coefficient.sign * y.coefficient.sign * (N / D : Nat),
          x.exponent - y.exponent - divShift precision x y⟩).value = x.value / y.value := by
      have hwhole : ((N / D : Nat) : ℚ) = (N : ℚ) / D :=
        Nat.cast_div (Nat.dvd_of_mod_eq_zero hremainder) (by exact_mod_cast hDpos.ne')
      rw [value_stripZeros, value, hexact, hquotient, Int.cast_mul _ ((N / D : Nat) : ℤ),
        Int.cast_natCast, hwhole]
    rw [hdiv, value_round_eq_self hprecision (by rw [hvalue]; exact hgrid) hn, hvalue]
  · -- A remainder means more digits than the grid has.
    exfalso
    have hx : x.coefficient ≠ 0 := by
      intro hzero
      rw [hN, hzero] at hremainder
      simp at hremainder
    have hlong : (10 : ℚ) ^ precision ≤ (N : ℚ) / D := by
      rw [le_div_iff₀ (by exact_mod_cast hDpos), mul_comm]
      exact_mod_cast pow_le_shifted hx
    have hunit : |((x.coefficient.sign * y.coefficient.sign : ℤ) : ℚ)| = 1 := by
      rw [← Int.cast_abs, ← Int.natCast_natAbs, Int.natAbs_mul, Int.natAbs_sign_of_ne_zero hx,
        Int.natAbs_sign_of_ne_zero hy]
      norm_num
    set e := x.exponent - y.exponent - divShift precision x y with he
    have hsteps : (n.natAbs : ℚ) = (N : ℚ) / D * (10 : ℚ) ^ (e + places) := by
      have habs := congrArg abs hgrid
      rw [hexact, hquotient, abs_mul, abs_mul, abs_mul, hunit, one_mul,
        abs_of_nonneg (show (0 : ℚ) ≤ (N : ℚ) / D by positivity),
        abs_of_pos (show (0 : ℚ) < (10 : ℚ) ^ e by positivity),
        abs_of_pos (show (0 : ℚ) < 10 ^ places by positivity)] at habs
      rw [Nat.cast_natAbs, Int.cast_abs, ← habs, zpow_add₀ (by norm_num), zpow_natCast, mul_assoc]
    have hshort : (n.natAbs : ℚ) < 10 ^ precision := by exact_mod_cast hn
    rcases le_or_gt 0 (e + places) with hexp | hexp
    · have hone : (1 : ℚ) ≤ (10 : ℚ) ^ (e + places) := one_le_zpow₀ (by norm_num) hexp
      have hge : (N : ℚ) / D ≤ n.natAbs := by
        rw [hsteps]
        exact le_mul_of_one_le_right (by positivity) hone
      linarith
    · obtain ⟨t, ht⟩ := Int.eq_ofNat_of_zero_le (show 0 ≤ -(e + places) by omega)
      have hexp' : e + places = -(t : ℤ) := by omega
      rw [hexp', zpow_neg, zpow_natCast] at hsteps
      have hD0 : (D : ℚ) ≠ 0 := by exact_mod_cast hDpos.ne'
      have hwhole : (N : ℚ) = n.natAbs * 10 ^ t * D := by
        have hpow : (10 : ℚ) ^ t ≠ 0 := by positivity
        field_simp at hsteps
        linarith
      have hnat : N = n.natAbs * 10 ^ t * D := by exact_mod_cast hwhole
      exact hremainder (by rw [hnat]; exact Nat.mul_mod_left _ _)

/-- The integer part of a quotient survives its rounding. -/
theorem floor_abs_div (hprecision : 1 < precision) (hy : y.coefficient ≠ 0) {a b : Nat}
    (hb : 0 < b) (hq : |x.value / y.value| = (a : ℚ) / b) (ha : a < 10 ^ (precision - 1)) :
    ((a / b : Nat) : ℚ) ≤ |(div precision x y).value| ∧
      |(div precision x y).value| < (a / b : Nat) + 1 := by
  have hbq : (0 : ℚ) < b := by exact_mod_cast hb
  by_cases hwhole : b ∣ a
  · -- The quotient is an integer and has no rounding error.
    obtain ⟨k, rfl⟩ := hwhole
    have hk : |x.value / y.value| = k := by
      rw [hq]
      push_cast
      field_simp
    have hsmall : k < 10 ^ precision := calc
      k ≤ b * k := Nat.le_mul_of_pos_left k hb
      _ < 10 ^ (precision - 1) := ha
      _ ≤ 10 ^ precision := Nat.pow_le_pow_right (by decide) (Nat.sub_le _ _)
    have hexact : (div precision x y).value = x.value / y.value := by
      rcases abs_choice (x.value / y.value) with hpos | hneg
      · apply @value_div_of_onGrid precision x y (by omega) hy 0 k _ (by simpa using hsmall)
        rw [OnGrid, ← hpos, hk]
        simp
      · apply @value_div_of_onGrid precision x y (by omega) hy 0 (-k) _ (by simpa using hsmall)
        have hvalue : x.value / y.value = -k := by linarith
        rw [OnGrid, hvalue]
        simp
    rw [hexact, hk, Nat.mul_div_cancel_left k hb]
    exact ⟨le_rfl, lt_add_one _⟩
  · have herror := @abs_div_sub_le precision x y (by omega) hy
    rw [hq] at herror
    have hroom : roundoff precision * ((a : ℚ) / b) < 1 / b := by
      have hfits : (a : ℚ) < 10 ^ (precision - 1) := by exact_mod_cast ha
      have hpow : (0 : ℚ) < 10 ^ (precision - 1) := by positivity
      rw [roundoff, ← mul_div_assoc, div_lt_div_iff_of_pos_right hbq, one_div_mul_eq_div,
        div_lt_one (by positivity)]
      linarith
    have hnear : |(|(div precision x y).value| - (a : ℚ) / b)| < 1 / b := by
      rw [← hq] at herror hroom ⊢
      exact (abs_abs_sub_abs_le_abs_sub _ _).trans_lt (herror.trans_lt hroom)
    obtain ⟨hbelow, habove⟩ := abs_lt.1 hnear
    have hmod : 0 < a % b := Nat.pos_of_ne_zero fun hzero => hwhole (Nat.dvd_of_mod_eq_zero hzero)
    have hsplit : b * (a / b) + a % b = a := Nat.div_add_mod a b
    have hlow : ((a / b : Nat) : ℚ) + 1 / b ≤ (a : ℚ) / b := by
      rw [← sub_nonneg]
      have hnat : b * (a / b) + 1 ≤ a := by omega
      have hcast : (b : ℚ) * (a / b : Nat) + 1 ≤ a := by exact_mod_cast hnat
      have hdiff : (a : ℚ) / b - ((a / b : Nat) + 1 / b) = (a - (b * (a / b : Nat) + 1)) / b := by
        field_simp
      rw [hdiff]
      exact div_nonneg (by linarith) hbq.le
    have hhigh : (a : ℚ) / b + 1 / b ≤ (a / b : Nat) + 1 := by
      rw [← sub_nonneg]
      have hlt : a % b < b := Nat.mod_lt a hb
      have hnat : a + 1 ≤ b * (a / b) + b := by omega
      have hcast : (a : ℚ) + 1 ≤ b * (a / b : Nat) + b := by exact_mod_cast hnat
      have hdiff : ((a / b : Nat) : ℚ) + 1 - ((a : ℚ) / b + 1 / b) =
          (b * (a / b : Nat) + b - (a + 1)) / b := by
        field_simp
      rw [hdiff]
      exact div_nonneg (by linarith) hbq.le
    constructor
    · linarith
    · linarith

end Quotients

/-- A product with few digits is exact. -/
theorem value_mul_of_lt {precision : Nat} {x y : Decimal} (hprecision : 0 < precision)
    (h : (x.coefficient * y.coefficient).natAbs < 10 ^ precision) :
    (mul precision x y).value = x.value * y.value := by
  have hround : mul precision x y = ⟨x.coefficient * y.coefficient, x.exponent + y.exponent⟩ := by
    unfold mul round
    exact if_pos (digitCount_le hprecision h)
  rw [hround]
  simp only [value]
  rw [zpow_add₀ (by norm_num)]
  push_cast
  ring

end Foundation.Decimal
