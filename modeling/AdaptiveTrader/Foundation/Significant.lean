import AdaptiveTrader.Foundation.RoundingError
import Mathlib.Data.Int.Log

/-!
# Rounding values to significant digits

`significant p x` is the number of `p` significant digits nearest to `x`, and of two that are equally
near the one with an even last digit. It is what rounding a decimal does to its value
(`Decimal.value_round`), so computing with decimals of a precision is computing with their values and
rounding each result.

A number of at most `p` digits is kept (`significant_eq_self`), and so is what comes closer to it than
half a unit in the digit behind its last one (`significant_eq_of_near`).
-/

set_option autoImplicit false

namespace Foundation

/-! ## The nearest integer -/

/-- The nearest integer, and the even one of two that are equally near. -/
def roundHalfEven (x : ℚ) : ℤ :=
  if 1 / 2 < Int.fract x ∨ (Int.fract x = 1 / 2 ∧ ⌊x⌋ % 2 = 1) then ⌊x⌋ + 1 else ⌊x⌋

theorem abs_roundHalfEven_sub_le (x : ℚ) : |(roundHalfEven x : ℚ) - x| ≤ 1 / 2 := by
  have hsplit := Int.floor_add_fract x
  have hnonneg := Int.fract_nonneg x
  have hlt := Int.fract_lt_one x
  unfold roundHalfEven
  split
  · next hup =>
    have hhalf : 1 / 2 ≤ Int.fract x := by
      rcases hup with hmore | ⟨htie, -⟩
      · exact hmore.le
      · exact htie.ge
    push_cast
    rw [abs_le]
    constructor <;> linarith
  · next hdown =>
    have hhalf : Int.fract x ≤ 1 / 2 := not_lt.1 fun hmore => hdown (Or.inl hmore)
    rw [abs_le]
    constructor <;> linarith

/-- An integer closer than a half is the nearest one. -/
theorem roundHalfEven_eq {x : ℚ} {n : ℤ} (h : |x - n| < 1 / 2) : roundHalfEven x = n := by
  have hround := abs_roundHalfEven_sub_le x
  have hdistance : |(roundHalfEven x : ℚ) - n| < 1 := by
    calc |(roundHalfEven x : ℚ) - n| = |((roundHalfEven x : ℚ) - x) + (x - n)| := by ring_nf
      _ ≤ |(roundHalfEven x : ℚ) - x| + |x - n| := abs_add_le _ _
      _ < 1 := by linarith
  have hint : |roundHalfEven x - n| < 1 := by exact_mod_cast hdistance
  have hzero := Int.abs_lt_one_iff.1 hint
  omega

@[simp] theorem roundHalfEven_intCast (n : ℤ) : roundHalfEven n = n := by
  apply roundHalfEven_eq
  simp

theorem roundHalfEven_neg (x : ℚ) : roundHalfEven (-x) = -roundHalfEven x := by
  by_cases hzero : Int.fract x = 0
  · -- An integer.
    obtain ⟨n, rfl⟩ : ∃ n : ℤ, x = n := ⟨⌊x⌋, by
      have hsplit := Int.floor_add_fract x
      rw [hzero, add_zero] at hsplit
      exact hsplit.symm⟩
    rw [← Int.cast_neg, roundHalfEven_intCast, roundHalfEven_intCast]
  · have hfract : Int.fract (-x) = 1 - Int.fract x := Int.fract_neg hzero
    have hfloor : ⌊-x⌋ = -⌊x⌋ - 1 := by
      have hleft := Int.floor_add_fract x
      have hright := Int.floor_add_fract (-x)
      rw [hfract] at hright
      have hcast : (⌊-x⌋ : ℚ) = ((-⌊x⌋ - 1 : ℤ) : ℚ) := by
        push_cast
        linarith
      exact_mod_cast hcast
    unfold roundHalfEven
    rw [hfract, hfloor]
    rcases lt_trichotomy (Int.fract x) (1 / 2) with hlt | heq | hgt
    · rw [if_pos (Or.inl (by linarith)), if_neg]
      · ring
      · rintro (hmore | ⟨htie, -⟩) <;> linarith
    · -- A tie: exactly one of the two neighbours is even.
      rw [heq]
      norm_num
      split <;> split <;> omega
    · rw [if_neg, if_pos (Or.inl hgt)]
      · ring
      · rintro (hmore | ⟨htie, -⟩) <;> linarith

/-! ## Significant digits -/

/-- The unit in the last of `p` significant digits of a number. -/
def lastUnit (p : Nat) (x : ℚ) : ℚ := (10 : ℚ) ^ (Int.log 10 |x| + 1 - (p : ℤ))

theorem lastUnit_pos (p : Nat) (x : ℚ) : 0 < lastUnit p x := by
  unfold lastUnit
  positivity

@[simp] theorem lastUnit_neg (p : Nat) (x : ℚ) : lastUnit p (-x) = lastUnit p x := by
  rw [lastUnit, abs_neg, lastUnit]

/-- The number of `p` significant digits nearest to `x`. -/
def significant (p : Nat) (x : ℚ) : ℚ :=
  if x = 0 then 0 else roundHalfEven (x / lastUnit p x) * lastUnit p x

@[simp] theorem significant_zero (p : Nat) : significant p 0 = 0 := if_pos rfl

theorem significant_neg (p : Nat) (x : ℚ) : significant p (-x) = -significant p x := by
  unfold significant
  by_cases hzero : x = 0
  · simp [hzero]
  · rw [if_neg (neg_ne_zero.2 hzero), if_neg hzero, lastUnit_neg, neg_div, roundHalfEven_neg]
    push_cast
    ring

/-- At most `p` significant digits. -/
def HasDigits (p : Nat) (x : ℚ) : Prop := ∃ n e : ℤ, |n| < 10 ^ p ∧ x = n * (10 : ℚ) ^ e

theorem HasDigits.neg {p : Nat} {x : ℚ} (h : HasDigits p x) : HasDigits p (-x) := by
  obtain ⟨n, e, hn, rfl⟩ := h
  exact ⟨-n, e, by rwa [abs_neg], by push_cast; ring⟩

theorem HasDigits.mono {p q : Nat} {x : ℚ} (hpq : p ≤ q) (h : HasDigits p x) : HasDigits q x := by
  obtain ⟨n, e, hn, rfl⟩ := h
  exact ⟨n, e, hn.trans_le (pow_le_pow_right₀ (by decide) hpq), rfl⟩

section Magnitude

variable {p : Nat} {x : ℚ}

theorem zpow_log_le {x : ℚ} (hx : x ≠ 0) : (10 : ℚ) ^ Int.log 10 |x| ≤ |x| := by
  have h := Int.zpow_log_le_self (b := 10) (by decide) (abs_pos.2 hx)
  exact_mod_cast h

theorem lt_zpow_log (x : ℚ) : |x| < (10 : ℚ) ^ (Int.log 10 |x| + 1) := by
  have h := Int.lt_zpow_succ_log_self (b := 10) (by decide) |x|
  exact_mod_cast h

/-- The unit in the last digit is a power of ten below the number. -/
theorem lastUnit_mul_pow_le (hp : 0 < p) (hx : x ≠ 0) : lastUnit p x * 10 ^ (p - 1) ≤ |x| := by
  have hpow : lastUnit p x * 10 ^ (p - 1) = (10 : ℚ) ^ Int.log 10 |x| := by
    rw [lastUnit, ← zpow_natCast, ← zpow_add₀ (by norm_num)]
    congr 1
    omega
  rw [hpow]
  exact zpow_log_le hx

theorem lt_lastUnit_mul_pow (p : Nat) (x : ℚ) : |x| < lastUnit p x * 10 ^ p := by
  have hpow : lastUnit p x * 10 ^ p = (10 : ℚ) ^ (Int.log 10 |x| + 1) := by
    rw [lastUnit, ← zpow_natCast, ← zpow_add₀ (by norm_num)]
    congr 1
    omega
  rw [hpow]
  exact lt_zpow_log x

theorem log_eq_of_bounds {k : ℤ} (hlow : (10 : ℚ) ^ k ≤ |x|) (hhigh : |x| < (10 : ℚ) ^ (k + 1)) :
    Int.log 10 |x| = k := by
  have hpos : 0 < |x| := lt_of_lt_of_le (by positivity) hlow
  have hle : k ≤ Int.log 10 |x| :=
    (Int.zpow_le_iff_le_log (b := 10) (by decide) hpos).1 (by exact_mod_cast hlow)
  have hlt : Int.log 10 |x| < k + 1 :=
    (Int.lt_zpow_iff_log_lt (b := 10) (by decide) hpos).1 (by exact_mod_cast hhigh)
  omega

/-- A number of at most `p` digits is a multiple of the unit in its last digit. -/
theorem HasDigits.exists_units (h : HasDigits p x) : ∃ m : ℤ, x = m * lastUnit p x := by
  obtain ⟨n, e, hn, rfl⟩ := h
  by_cases hzero : n = 0
  · exact ⟨0, by simp [hzero]⟩
  · have hne : (n : ℚ) * (10 : ℚ) ^ e ≠ 0 := by
      have hn0 : (n : ℚ) ≠ 0 := by exact_mod_cast hzero
      positivity
    have hbound : |(n : ℚ) * (10 : ℚ) ^ e| < (10 : ℚ) ^ ((p : ℤ) + e) := by
      have hcast : |(n : ℚ)| < 10 ^ p := by exact_mod_cast hn
      rw [abs_mul, abs_of_pos (show (0 : ℚ) < (10 : ℚ) ^ e by positivity),
        zpow_add₀ (by norm_num), zpow_natCast]
      exact mul_lt_mul_of_pos_right hcast (by positivity)
    have hlog : Int.log 10 |(n : ℚ) * (10 : ℚ) ^ e| < p + e :=
      (Int.lt_zpow_iff_log_lt (b := 10) (by decide) (abs_pos.2 hne)).1 (by exact_mod_cast hbound)
    obtain ⟨k, hk⟩ := Int.eq_ofNat_of_zero_le
      (show 0 ≤ e - (Int.log 10 |(n : ℚ) * (10 : ℚ) ^ e| + 1 - p) by omega)
    refine ⟨n * 10 ^ k, ?_⟩
    have hexponent : e = (k : ℤ) + (Int.log 10 |(n : ℚ) * (10 : ℚ) ^ e| + 1 - p) := by omega
    unfold lastUnit
    push_cast
    rw [mul_assoc, ← zpow_natCast, ← zpow_add₀ (by norm_num), ← hexponent]

theorem significant_eq_self (h : HasDigits p x) : significant p x = x := by
  obtain ⟨m, hm⟩ := h.exists_units
  have hunit := (lastUnit_pos p x).ne'
  unfold significant
  by_cases hzero : x = 0
  · rw [if_pos hzero, hzero]
  · have hquotient : x / lastUnit p x = m := by
      rw [div_eq_iff hunit]
      exact hm
    rw [if_neg hzero, hquotient, roundHalfEven_intCast]
    exact hm.symm

theorem significant_natCast {n : Nat} (h : n < 10 ^ p) : significant p (n : ℚ) = n := by
  apply significant_eq_self
  refine ⟨n, 0, ?_, by simp⟩
  rw [Nat.abs_cast]
  exact_mod_cast h

/-- The result is at most half a unit away. -/
theorem abs_significant_sub_le (p : Nat) (x : ℚ) :
    |significant p x - x| ≤ lastUnit p x / 2 := by
  have hunit := lastUnit_pos p x
  unfold significant
  by_cases hzero : x = 0
  · rw [if_pos hzero, hzero]
    simpa using (half_pos (lastUnit_pos p 0)).le
  · rw [if_neg hzero]
    have hround := abs_roundHalfEven_sub_le (x / lastUnit p x)
    have hsplit : (roundHalfEven (x / lastUnit p x) : ℚ) * lastUnit p x - x =
        ((roundHalfEven (x / lastUnit p x) : ℚ) - x / lastUnit p x) * lastUnit p x := by
      rw [sub_mul, div_mul_cancel₀ _ hunit.ne']
    rw [hsplit, abs_mul, abs_of_pos hunit]
    calc _ ≤ 1 / 2 * lastUnit p x := mul_le_mul_of_nonneg_right hround hunit.le
      _ = _ := by ring

/-! ## Numbers near one of few digits -/

/-- What lies within half a unit of an integral number of units is rounded to it. -/
theorem significant_eq_of_units {r : ℚ} {m : ℤ} (hr : r ≠ 0)
    (h : |r - m * lastUnit p r| < lastUnit p r / 2) : significant p r = m * lastUnit p r := by
  have hunit := lastUnit_pos p r
  have hnear : |r / lastUnit p r - m| < 1 / 2 := by
    have hsplit : r / lastUnit p r - m = (r - m * lastUnit p r) / lastUnit p r := by
      field_simp
    rw [hsplit, abs_div, abs_of_pos hunit, div_lt_iff₀ hunit]
    linarith
  unfold significant
  rw [if_neg hr, roundHalfEven_eq hnear]

/-- The unit in the last digit, from the bounds of the numbers that have it. -/
theorem lastUnit_eq {r : ℚ} {k : ℤ} (hp : 0 < p) (hlow : (10 : ℚ) ^ k * 10 ^ (p - 1) ≤ |r|)
    (hhigh : |r| < (10 : ℚ) ^ k * 10 ^ p) : lastUnit p r = (10 : ℚ) ^ k := by
  have hlog : Int.log 10 |r| = k + p - 1 := by
    apply log_eq_of_bounds
    · have hpow : (10 : ℚ) ^ (k + p - 1) = (10 : ℚ) ^ k * 10 ^ (p - 1) := by
        rw [← zpow_natCast, ← zpow_add₀ (by norm_num)]
        congr 1
        omega
      rw [hpow]
      exact hlow
    · have hpow : (10 : ℚ) ^ (k + p - 1 + 1) = (10 : ℚ) ^ k * 10 ^ p := by
        rw [← zpow_natCast, ← zpow_add₀ (by norm_num)]
        congr 1
        omega
      rw [hpow]
      exact hhigh
  unfold lastUnit
  rw [hlog]
  congr 1
  omega

section Near

variable {r : ℚ} {k m : ℤ} (hp : 0 < p) (hm : x = m * (10 : ℚ) ^ k)
  (hhigh : x < (10 : ℚ) ^ k * 10 ^ p) (hnear : |r - x| < x / (2 * 10 ^ p))
include hp hm hhigh hnear

/-- A near number with the same unit. -/
theorem significant_eq_of_near_above (hr : (10 : ℚ) ^ k * 10 ^ (p - 1) ≤ r) :
    significant p r = x := by
  have hunit : (0 : ℚ) < (10 : ℚ) ^ k := by positivity
  have hrpos : 0 < r := lt_of_lt_of_le (by positivity) hr
  have hhalf : x / (2 * 10 ^ p) < (10 : ℚ) ^ k / 2 := by
    rw [div_lt_iff₀ (by positivity)]
    linarith
  -- The number is at least one unit below the next power of ten.
  have htop : x + (10 : ℚ) ^ k ≤ (10 : ℚ) ^ k * 10 ^ p := by
    have hlt : (m : ℚ) * (10 : ℚ) ^ k < 10 ^ p * (10 : ℚ) ^ k := by
      rw [← hm, mul_comm]
      exact hhigh
    have hint : m < 10 ^ p := by exact_mod_cast lt_of_mul_lt_mul_right hlt hunit.le
    have hle : (m : ℚ) + 1 ≤ 10 ^ p := by exact_mod_cast hint
    calc x + (10 : ℚ) ^ k = (m + 1) * (10 : ℚ) ^ k := by rw [hm]; ring
      _ ≤ 10 ^ p * (10 : ℚ) ^ k := mul_le_mul_of_nonneg_right hle hunit.le
      _ = _ := mul_comm _ _
  have hlast : lastUnit p r = (10 : ℚ) ^ k := by
    apply lastUnit_eq hp
    · rw [abs_of_pos hrpos]
      exact hr
    · rw [abs_of_pos hrpos]
      linarith [(abs_lt.1 hnear).2]
  have hunits : |r - m * lastUnit p r| < lastUnit p r / 2 := by
    rw [hlast, ← hm]
    exact hnear.trans hhalf
  rw [significant_eq_of_units hrpos.ne' hunits, hlast, ← hm]

/-- Only a power of ten has a number below it that is as near and has a smaller unit. -/
theorem significant_eq_of_near_below (hlow : (10 : ℚ) ^ k * 10 ^ (p - 1) ≤ x)
    (hr : r < (10 : ℚ) ^ k * 10 ^ (p - 1)) : significant p r = x := by
  have hunit : (0 : ℚ) < (10 : ℚ) ^ k := by positivity
  have hxpos : 0 < x := lt_of_lt_of_le (by positivity) hlow
  have hten : (10 : ℚ) ^ p = 10 * 10 ^ (p - 1) := by
    rw [← pow_succ']
    congr 1
    omega
  have hbase : (1 : ℚ) ≤ 10 ^ (p - 1) := one_le_pow₀ (by norm_num)
  have hbounds := abs_lt.1 hnear
  have hhalf : x / (2 * 10 ^ p) < (10 : ℚ) ^ k / 2 := by
    rw [div_lt_iff₀ (by positivity)]
    linarith
  have hsmall : x / (2 * 10 ^ p) ≤ x / 2 := by
    apply div_le_div_of_nonneg_left hxpos.le (by norm_num)
    linarith
  have hrpos : 0 < r := by linarith [hbounds.1]
  have hpower : x = (10 : ℚ) ^ k * 10 ^ (p - 1) := by
    by_contra hne
    have hlt : (10 : ℚ) ^ k * 10 ^ (p - 1) < x := lt_of_le_of_ne hlow (Ne.symm hne)
    have hcount : (10 : ℚ) ^ (p - 1) * (10 : ℚ) ^ k < m * (10 : ℚ) ^ k := by
      rw [← hm, mul_comm]
      exact hlt
    have hint : (10 : ℤ) ^ (p - 1) < m := by
      exact_mod_cast lt_of_mul_lt_mul_right hcount hunit.le
    have hle : (10 : ℚ) ^ (p - 1) + 1 ≤ m := by exact_mod_cast hint
    have hgap : (10 : ℚ) ^ k * 10 ^ (p - 1) + (10 : ℚ) ^ k ≤ x := by
      calc (10 : ℚ) ^ k * 10 ^ (p - 1) + (10 : ℚ) ^ k
          = (10 ^ (p - 1) + 1) * (10 : ℚ) ^ k := by ring
        _ ≤ m * (10 : ℚ) ^ k := mul_le_mul_of_nonneg_right hle hunit.le
        _ = x := hm.symm
    linarith [hbounds.1]
  have hprevious : (10 : ℚ) ^ (k - 1) = (10 : ℚ) ^ k / 10 := by
    rw [zpow_sub₀ (by norm_num), zpow_one]
  have hlast : lastUnit p r = (10 : ℚ) ^ (k - 1) := by
    apply lastUnit_eq hp
    · rw [abs_of_pos hrpos, hprevious]
      linarith [hbounds.1]
    · rw [abs_of_pos hrpos, hprevious, hten]
      linarith
  have hxunits : x = ((10 ^ p : ℤ) : ℚ) * (10 : ℚ) ^ (k - 1) := by
    rw [hpower, hprevious]
    push_cast
    rw [hten]
    ring
  have hunits : |r - ((10 ^ p : ℤ) : ℚ) * lastUnit p r| < lastUnit p r / 2 := by
    rw [hlast, ← hxunits]
    apply hnear.trans_le
    rw [div_le_iff₀ (by positivity), hten, hprevious]
    have hexact : (10 : ℚ) ^ k / 10 / 2 * (2 * (10 * 10 ^ (p - 1))) = x := by
      rw [hpower]
      ring
    exact hexact.ge
  rw [significant_eq_of_units hrpos.ne' hunits, hlast, ← hxunits]

end Near

theorem significant_eq_of_near_pos {r : ℚ} (hp : 0 < p) (hx : 0 < x) (hdigits : HasDigits p x)
    (hnear : |r - x| < x / (2 * 10 ^ p)) : significant p r = x := by
  obtain ⟨m, hm⟩ := hdigits.exists_units
  have hlow := lastUnit_mul_pow_le hp hx.ne'
  have hhigh := lt_lastUnit_mul_pow p x
  rw [abs_of_pos hx] at hlow hhigh
  rcases le_or_gt (lastUnit p x * 10 ^ (p - 1)) r with habove | hbelow
  · exact significant_eq_of_near_above hp hm hhigh hnear habove
  · exact significant_eq_of_near_below hp hm hhigh hnear hlow hbelow

/-- A number of at most `p` digits attracts what is nearer to it than half a unit in the digit behind
the last one. -/
theorem significant_eq_of_near {r : ℚ} (hp : 0 < p) (hdigits : HasDigits p x)
    (hnear : |r - x| < |x| / (2 * 10 ^ p)) : significant p r = x := by
  rcases lt_trichotomy x 0 with hneg | hzero | hpos
  · have hflip : |-r - -x| < -x / (2 * 10 ^ p) := by
      rw [neg_sub_neg, abs_sub_comm, ← abs_of_neg hneg]
      exact hnear
    have hopposite := significant_eq_of_near_pos hp (neg_pos.2 hneg) hdigits.neg hflip
    rw [significant_neg] at hopposite
    exact neg_inj.1 hopposite
  · rw [hzero, abs_zero, zero_div] at hnear
    exact absurd hnear (not_lt.2 (abs_nonneg _))
  · rw [abs_of_pos hpos] at hnear
    exact significant_eq_of_near_pos hp hpos hdigits hnear

/-- A positive number keeps its sign. -/
theorem significant_pos (hp : 0 < p) (hx : 0 < x) : 0 < significant p x := by
  have hlow := lastUnit_mul_pow_le hp hx.ne'
  have hunit := lastUnit_pos p x
  have herror := (abs_le.1 (abs_significant_sub_le p x)).1
  have hbase : (1 : ℚ) ≤ 10 ^ (p - 1) := one_le_pow₀ (by norm_num)
  rw [abs_of_pos hx] at hlow
  have hle : lastUnit p x ≤ x := (le_mul_of_one_le_right hunit.le hbase).trans hlow
  linarith

/-- Rounding is off by at most the fraction `roundoff` of the number. -/
theorem abs_significant_sub_le_roundoff (hp : 0 < p) (x : ℚ) :
    |significant p x - x| ≤ Decimal.roundoff p * |x| := by
  by_cases hzero : x = 0
  · simp [hzero]
  · have hlow := lastUnit_mul_pow_le hp hzero
    apply (abs_significant_sub_le p x).trans
    rw [Decimal.roundoff, div_mul_eq_mul_div, one_mul, le_div_iff₀ (by positivity)]
    calc lastUnit p x / 2 * (2 * 10 ^ (p - 1)) = lastUnit p x * 10 ^ (p - 1) := by ring
      _ ≤ |x| := hlow

end Magnitude

/-! ## Sums -/

/-- A sum that is rounded after every summand. -/
def runningSum (p : Nat) (xs : List ℚ) : ℚ := xs.foldl (fun total x => significant p (total + x)) 0

@[simp] theorem runningSum_nil (p : Nat) : runningSum p [] = 0 := rfl

theorem runningSum_concat (p : Nat) (xs : List ℚ) (x : ℚ) :
    runningSum p (xs ++ [x]) = significant p (runningSum p xs + x) := by
  simp [runningSum]

/-- The sum is exact when every partial sum has few enough digits. -/
theorem runningSum_eq_sum {p : Nat} {xs : List ℚ}
    (h : ∀ before after, xs = before ++ after → HasDigits p before.sum) :
    runningSum p xs = xs.sum := by
  induction xs using List.reverseRecOn with
  | nil => rfl
  | append_singleton xs x ih =>
    have hprefix : ∀ before after, xs = before ++ after → HasDigits p before.sum := by
      intro before after hsplit
      exact h before (after ++ [x]) (by rw [hsplit, List.append_assoc])
    have hall := h (xs ++ [x]) [] (by simp)
    rw [runningSum_concat, ih hprefix]
    rw [List.sum_append, List.sum_singleton] at hall ⊢
    exact significant_eq_self hall

/-! ## Decimals -/

namespace Decimal

theorem roundHalfEven_natCast_div {n m : Nat} (hm : 0 < m) :
    roundHalfEven ((n : ℚ) / m) = divideHalfEven n m := by
  have hmq : (0 : ℚ) < m := by exact_mod_cast hm
  have hfloor : ⌊(n : ℚ) / m⌋ = ((n / m : Nat) : ℤ) := by
    rw [Rat.floor_natCast_div_natCast]
    rfl
  have hfract : Int.fract ((n : ℚ) / m) = ((n % m : Nat) : ℚ) / m := by
    have hsplit : (n : ℚ) = m * ((n / m : Nat) : ℚ) + ((n % m : Nat) : ℚ) := by
      exact_mod_cast (Nat.div_add_mod n m).symm
    rw [Int.fract, hfloor, Int.cast_natCast, eq_div_iff hmq.ne', sub_mul, div_mul_cancel₀ _ hmq.ne']
    linarith
  have hmore : 1 / 2 < Int.fract ((n : ℚ) / m) ↔ m < 2 * (n % m) := by
    rw [hfract, div_lt_div_iff₀ (by norm_num) hmq, one_mul, mul_comm]
    exact_mod_cast Iff.rfl
  have htie : Int.fract ((n : ℚ) / m) = 1 / 2 ↔ 2 * (n % m) = m := by
    rw [hfract, div_eq_div_iff hmq.ne' (by norm_num), one_mul, mul_comm]
    exact_mod_cast Iff.rfl
  have hodd : ⌊(n : ℚ) / m⌋ % 2 = 1 ↔ n / m % 2 = 1 := by
    rw [hfloor]
    omega
  have hup : (1 / 2 < Int.fract ((n : ℚ) / m) ∨
      (Int.fract ((n : ℚ) / m) = 1 / 2 ∧ ⌊(n : ℚ) / m⌋ % 2 = 1)) ↔
        (m < 2 * (n % m) ∨ (2 * (n % m) = m ∧ n / m % 2 = 1)) := by
    rw [hmore, htie, hodd]
  unfold roundHalfEven divideHalfEven
  by_cases h : m < 2 * (n % m) ∨ (2 * (n % m) = m ∧ n / m % 2 = 1)
  · rw [if_pos h, if_pos (hup.2 h), hfloor]
    push_cast
    rfl
  · rw [if_neg h, if_neg (mt hup.1 h), hfloor]

/-- Rounding a decimal rounds its value. -/
theorem value_round {precision : Nat} (hprecision : 0 < precision) (d : Decimal) :
    (d.round precision).value = significant precision d.value := by
  by_cases hcount : digitCount d.coefficient.natAbs ≤ precision
  · have hsame : d.round precision = d := by simp [round, hcount]
    have hdigits : HasDigits precision d.value := by
      refine ⟨d.coefficient, d.exponent, ?_, rfl⟩
      have hlt := (lt_pow_digitCount d.coefficient.natAbs).trans_le
        (Nat.pow_le_pow_right (by decide) hcount)
      rw [Int.abs_eq_natAbs]
      exact_mod_cast hlt
    rw [hsame, significant_eq_self hdigits]
  · have hlt := not_le.1 hcount
    set count := digitCount d.coefficient.natAbs with hcountEq
    have hpos : (0 : ℚ) < (10 : ℚ) ^ d.exponent := by positivity
    have hne : d.coefficient ≠ 0 := by
      intro hzero
      have hone : digitCount 0 = 1 := by decide
      rw [hcountEq, hzero, Int.natAbs_zero, hone] at hlt
      omega
    have hvalue : |d.value| = d.coefficient.natAbs * (10 : ℚ) ^ d.exponent := by
      rw [value, abs_mul, abs_of_pos hpos, Nat.cast_natAbs, Int.cast_abs]
    have hunit : lastUnit precision d.value = (10 : ℚ) ^ (d.exponent + (count - precision : Nat)) := by
      apply lastUnit_eq hprecision
      · have hlead : (10 : ℚ) ^ (count - 1) ≤ d.coefficient.natAbs := by
          exact_mod_cast pow_digitCount_le (Int.natAbs_ne_zero.2 hne)
        have hsplit : (10 : ℚ) ^ (d.exponent + (count - precision : Nat)) * 10 ^ (precision - 1) =
            10 ^ (count - 1) * (10 : ℚ) ^ d.exponent := by
          rw [← zpow_natCast, ← zpow_natCast, ← zpow_add₀ (by norm_num),
            ← zpow_add₀ (by norm_num)]
          congr 1
          omega
        rw [hvalue, hsplit]
        exact mul_le_mul_of_nonneg_right hlead hpos.le
      · have htop : (d.coefficient.natAbs : ℚ) < 10 ^ count := by
          exact_mod_cast lt_pow_digitCount d.coefficient.natAbs
        have hsplit : (10 : ℚ) ^ (d.exponent + (count - precision : Nat)) * 10 ^ precision =
            10 ^ count * (10 : ℚ) ^ d.exponent := by
          rw [← zpow_natCast, ← zpow_natCast, ← zpow_add₀ (by norm_num),
            ← zpow_add₀ (by norm_num)]
          congr 1
          omega
        rw [hvalue, hsplit]
        exact mul_lt_mul_of_pos_right htop hpos
    have hdrop : 0 < 10 ^ (count - precision) := by positivity
    have hzero : d.value ≠ 0 := by
      intro hzero
      rw [hzero, abs_zero] at hvalue
      have hnat : (0 : ℚ) < d.coefficient.natAbs := by exact_mod_cast Int.natAbs_pos.2 hne
      exact absurd hvalue (mul_pos hnat hpos).ne
    have hquotient : d.value / lastUnit precision d.value =
        d.coefficient.sign * ((d.coefficient.natAbs : ℚ) / (10 ^ (count - precision) : Nat)) := by
      rw [hunit, value, coefficient_eq d, zpow_add₀ (by norm_num), zpow_natCast]
      push_cast
      field_simp
    have hrounded : roundHalfEven (d.value / lastUnit precision d.value) =
        d.coefficient.sign * divideHalfEven d.coefficient.natAbs (10 ^ (count - precision)) := by
      rw [hquotient, ← roundHalfEven_natCast_div hdrop]
      rcases lt_or_gt_of_ne hne with hneg | hpositive
      · rw [Int.sign_eq_neg_one_of_neg hneg, Int.cast_neg, Int.cast_one, neg_one_mul, neg_one_mul,
          roundHalfEven_neg]
      · rw [Int.sign_eq_one_of_pos hpositive, Int.cast_one, one_mul, one_mul]
    rw [value_round_of_lt hprecision hlt, significant, if_neg hzero, hrounded, hunit,
      zpow_add₀ (by norm_num), zpow_natCast]
    push_cast
    ring

section Operations

variable {precision : Nat} (hprecision : 0 < precision) (x y : Decimal)
include hprecision

theorem value_add_eq : (add precision x y).value = significant precision (x.value + y.value) := by
  rw [add, value_round hprecision, value_sum]

theorem value_sub_eq : (sub precision x y).value = significant precision (x.value - y.value) := by
  rw [sub, value_round hprecision, value_sum, value_neg, sub_eq_add_neg]

theorem value_mul_eq : (mul precision x y).value = significant precision (x.value * y.value) := by
  have hvalue : value ⟨x.coefficient * y.coefficient, x.exponent + y.exponent⟩ =
      x.value * y.value := by
    simp only [value]
    rw [zpow_add₀ (by norm_num)]
    push_cast
    ring
  rw [mul, value_round hprecision, hvalue]

end Operations

end Decimal

end Foundation
