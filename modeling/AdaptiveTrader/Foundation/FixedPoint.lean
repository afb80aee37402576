import AdaptiveTrader.Foundation.Calendar
import AdaptiveTrader.Foundation.Decimal
import Mathlib.Data.List.DropRight

/-!
# Fixed-point text of decimals

`plainChars` writes a nonzero decimal without a power of ten and without zeros behind the last digit
of its fraction; `readDecimal` reads a number with an optional point and an optional power of ten.
Writing depends on the value alone and reading gives the value back, so two decimals have one text
exactly when they are equal as numbers (`plainChars_eq_iff`).
-/

set_option autoImplicit false

namespace Foundation

namespace Decimal

/-! ## Writing -/

/-- The sign of a negative number. -/
def signChars (d : Decimal) : List Char := if d.coefficient < 0 then ['-'] else []

/-- `format(d, "f")` for a nonzero decimal. -/
def fixedChars (d : Decimal) : List Char :=
  d.signChars ++
    match d.exponent with
    | .ofNat zeros => Nat.toDigits 10 d.coefficient.natAbs ++ List.replicate zeros '0'
    | .negSucc k =>
        Nat.toDigits 10 (d.coefficient.natAbs / 10 ^ (k + 1)) ++
          '.' :: padded (k + 1) (d.coefficient.natAbs % 10 ^ (k + 1))

/-- `text.rstrip("0").rstrip(".")` where the text has a point. -/
def stripFraction (text : List Char) : List Char :=
  if '.' ∈ text then (text.rdropWhile fun c => c = '0').rdropWhile fun c => c = '.' else text

/-- The fixed-point text without trailing zeros. -/
def plainChars (d : Decimal) : List Char := stripFraction d.fixedChars

example : (⟨-12300, -4⟩ : Decimal).plainChars = ['-', '1', '.', '2', '3'] := by decide

/-! ## Reading -/

/-- A leading sign, and what follows it. -/
def readSign : List Char → Bool × List Char
  | '-' :: rest => (true, rest)
  | '+' :: rest => (false, rest)
  | rest => (false, rest)

/-- The power of ten at the end of a number. -/
def readExponent : List Char → Option Int
  | [] => some 0
  | e :: rest =>
      let (negative, digits) := readSign rest
      if (e = 'e' ∨ e = 'E') ∧ digits ≠ [] ∧ digits.all Char.isDigit = true then
        let n : Int := Nat.ofDigitChars 10 digits 0
        some (if negative then -n else n)
      else none

/-- `Decimal(text)` for a text of a sign, digits, a point and a power of ten. -/
def readDecimal (text : List Char) : Option Decimal :=
  let (negative, body) := readSign text
  let whole := body.takeWhile Char.isDigit
  let rest := body.dropWhile Char.isDigit
  let pointed := rest.head? = some '.'
  let fraction := if pointed then (rest.drop 1).takeWhile Char.isDigit else []
  let power := if pointed then (rest.drop 1).dropWhile Char.isDigit else rest
  if whole ++ fraction = [] then none
  else
    let n : Int := Nat.ofDigitChars 10 (whole ++ fraction) 0
    (readExponent power).map fun e => ⟨if negative then -n else n, e - fraction.length⟩

/-! ## The shape of a text -/

theorem length_padded {width n : Nat} (hwidth : 0 < width) (h : n < 10 ^ width) :
    (padded width n).length = width := by
  have hlength := (Nat.length_toDigits_le_iff (by decide : 1 < 10) hwidth).2 h
  rw [padded, List.length_append, List.length_replicate]
  omega

theorem isDigit_of_mem_toDigits {n : Nat} {c : Char} (h : c ∈ Nat.toDigits 10 n) :
    c.isDigit = true :=
  Nat.isDigit_of_mem_toDigits (by decide) (by decide) h

theorem point_not_mem {digits : List Char} (h : ∀ c ∈ digits, c.isDigit = true) :
    '.' ∉ digits := by
  intro hmem
  have hpoint := h '.' hmem
  cases hpoint

theorem point_not_mem_signChars (d : Decimal) : '.' ∉ d.signChars := by
  unfold signChars
  split
  · decide
  · exact List.not_mem_nil

/-- A fraction with its point. -/
def pointed (fraction : List Char) : List Char :=
  if fraction = [] then [] else '.' :: fraction

theorem stripFraction_of_not_mem {text : List Char} (h : '.' ∉ text) : stripFraction text = text :=
  if_neg h

/-- Zeros at the end of a fraction do not show. -/
theorem stripFraction_append_zeros {text : List Char} (h : '.' ∈ text) (zeros : Nat) :
    stripFraction (text ++ List.replicate zeros '0') = stripFraction text := by
  have hstrip : (text ++ List.replicate zeros '0').rdropWhile (fun c => c = '0') =
      text.rdropWhile fun c => c = '0' := by
    induction zeros with
    | zero => rw [List.replicate_zero, List.append_nil]
    | succ zeros ih =>
        rw [List.replicate_succ', ← List.append_assoc, List.rdropWhile_concat_pos _ _ _ (by simp),
          ih]
  rw [stripFraction, stripFraction, if_pos h, if_pos (List.mem_append_left _ h), hstrip]

/-- A fraction that does not end in a zero stays; an empty one goes with its point. -/
theorem stripFraction_pointed {whole fraction : List Char} (hwhole : '.' ∉ whole)
    (hfraction : '.' ∉ fraction) (hlast : ∀ h : fraction ≠ [], fraction.getLast h ≠ '0') :
    stripFraction (whole ++ '.' :: fraction) = whole ++ pointed fraction := by
  have hmem : '.' ∈ whole ++ '.' :: fraction := by simp
  have hno : ∀ {text : List Char}, '.' ∉ text → ∀ h : text ≠ [], text.getLast h ≠ '.' :=
    fun htext h heq => htext (heq ▸ List.getLast_mem h)
  rw [stripFraction, if_pos hmem, pointed]
  by_cases hempty : fraction = []
  · subst hempty
    have hkeep : (whole ++ ['.']).rdropWhile (fun c => c = '0') = whole ++ ['.'] :=
      List.rdropWhile_concat_neg _ _ _ (by decide)
    have hdrop : whole.rdropWhile (fun c => c = '.') = whole := by
      rw [List.rdropWhile_eq_self_iff]
      intro hne
      simpa using hno hwhole hne
    rw [hkeep, List.rdropWhile_concat_pos _ _ _ (by decide), hdrop, if_pos rfl, List.append_nil]
  · have hsplit : whole ++ '.' :: fraction =
        (whole ++ '.' :: fraction.dropLast) ++ [fraction.getLast hempty] := by
      rw [List.append_assoc, List.cons_append, List.dropLast_append_getLast hempty]
    have hzero := hlast hempty
    have hpoint := hno hfraction hempty
    rw [hsplit, List.rdropWhile_concat_neg _ _ _ (by simpa using hzero),
      List.rdropWhile_concat_neg _ _ _ (by simpa using hpoint), ← hsplit, if_neg hempty]

/-- The digits of a plain text: sign, whole part and fraction, and the number they stand for. -/
theorem exists_plainChars (d : Decimal) : ∃ whole fraction : List Char,
    d.plainChars = d.signChars ++ (whole ++ pointed fraction) ∧ whole ≠ [] ∧
    (∀ c ∈ whole, c.isDigit = true) ∧ (∀ c ∈ fraction, c.isDigit = true) ∧
    (d.coefficient.natAbs : ℚ) * 10 ^ d.exponent =
      Nat.ofDigitChars 10 (whole ++ fraction) 0 * (10 : ℚ) ^ (-(fraction.length : ℤ)) := by
  cases hexponent : d.exponent with
  | ofNat zeros =>
      have hdigits : ∀ c ∈ Nat.toDigits 10 d.coefficient.natAbs ++ List.replicate zeros '0',
          c.isDigit = true := by
        intro c hc
        rcases List.mem_append.1 hc with hc | hc
        · exact isDigit_of_mem_toDigits hc
        · rw [List.eq_of_mem_replicate hc]
          rfl
      refine ⟨Nat.toDigits 10 d.coefficient.natAbs ++ List.replicate zeros '0', [], ?_, ?_, hdigits,
        by simp, ?_⟩
      · have hpoint : '.' ∉ d.fixedChars := by
          rw [fixedChars, hexponent]
          exact List.not_mem_append (point_not_mem_signChars d) (point_not_mem hdigits)
        rw [plainChars, stripFraction_of_not_mem hpoint, fixedChars, hexponent, pointed, if_pos rfl,
          List.append_nil]
      · exact fun h => Nat.toDigits_ne_nil (List.append_eq_nil_iff.1 h).1
      · rw [List.append_nil, Nat.ofDigitChars_append, Nat.ofDigitChars_replicate_zero,
          Nat.ofDigitChars_ten_toDigits]
        push_cast
        simp [mul_comm]
  | negSucc k =>
      set n := d.coefficient.natAbs with hn
      have hsmall : n % 10 ^ (k + 1) < 10 ^ (k + 1) := Nat.mod_lt _ (by positivity)
      set shown := padded (k + 1) (n % 10 ^ (k + 1)) with hshown
      have hshownDigits : ∀ c ∈ shown, c.isDigit = true := fun _ => isDigit_of_mem_padded
      -- The fraction is what is shown without its zeros at the end.
      obtain ⟨zeros, hzeros⟩ : ∃ zeros, shown =
          shown.rdropWhile (fun c => c = '0') ++ List.replicate zeros '0' := by
        refine ⟨(shown.rtakeWhile fun c => c = '0').length, ?_⟩
        have hall : shown.rtakeWhile (fun c => c = '0') =
            List.replicate (shown.rtakeWhile fun c => c = '0').length '0' := by
          rw [List.eq_replicate_iff]
          refine ⟨rfl, fun c hc => ?_⟩
          simpa using List.mem_rtakeWhile_imp hc
        rw [← hall, List.rdropWhile_append_rtakeWhile]
      set fraction := shown.rdropWhile fun c => c = '0' with hfraction
      have hfractionDigits : ∀ c ∈ fraction, c.isDigit = true := fun c hc =>
        hshownDigits c ((List.rdropWhile_prefix _ shown).subset hc)
      have hlast : ∀ h : fraction ≠ [], fraction.getLast h ≠ '0' := by
        intro h heq
        exact List.rdropWhile_last_not _ _ h (by simpa using heq)
      have hwholeDigits : ∀ c ∈ Nat.toDigits 10 (n / 10 ^ (k + 1)), c.isDigit = true :=
        fun _ => isDigit_of_mem_toDigits
      refine ⟨Nat.toDigits 10 (n / 10 ^ (k + 1)), fraction, ?_, Nat.toDigits_ne_nil, hwholeDigits,
        hfractionDigits, ?_⟩
      · have hsplit : d.fixedChars = (d.signChars ++ Nat.toDigits 10 (n / 10 ^ (k + 1))) ++
            '.' :: fraction ++ List.replicate zeros '0' := by
          rw [fixedChars, hexponent]
          show d.signChars ++ (Nat.toDigits 10 (n / 10 ^ (k + 1)) ++ '.' :: shown) = _
          rw [hzeros]
          simp only [List.append_assoc, List.cons_append]
        have hbefore : '.' ∉ d.signChars ++ Nat.toDigits 10 (n / 10 ^ (k + 1)) :=
          List.not_mem_append (point_not_mem_signChars d) (point_not_mem hwholeDigits)
        rw [plainChars, hsplit, stripFraction_append_zeros (by simp),
          stripFraction_pointed hbefore (point_not_mem hfractionDigits) hlast, List.append_assoc]
      · have hlength : fraction.length + zeros = k + 1 := by
          have h := congrArg List.length hzeros
          rw [hshown, length_padded (Nat.succ_pos k) hsmall, List.length_append,
            List.length_replicate] at h
          exact h.symm
        have hvalue : n = Nat.ofDigitChars 10 (Nat.toDigits 10 (n / 10 ^ (k + 1)) ++ fraction) 0 *
            10 ^ zeros := by
          have hread : Nat.ofDigitChars 10 (Nat.toDigits 10 (n / 10 ^ (k + 1)) ++ shown) 0 = n := by
            rw [Nat.ofDigitChars_append, Nat.ofDigitChars_ten_toDigits,
              Nat.ofDigitChars_eq_ofDigitChars_zero, ofDigitChars_padded, hshown,
              length_padded (Nat.succ_pos k) hsmall]
            exact Nat.div_add_mod n (10 ^ (k + 1))
          conv_lhs => rw [← hread, hzeros, ← List.append_assoc, Nat.ofDigitChars_append,
            Nat.ofDigitChars_replicate_zero]
          exact Nat.mul_comm _ _
        have hpow : (10 : ℚ) ^ zeros * (10 : ℚ) ^ Int.negSucc k =
            (10 : ℚ) ^ (-(fraction.length : ℤ)) := by
          rw [← zpow_natCast, ← zpow_add₀ (by norm_num)]
          congr 1
          omega
        conv_lhs => rw [hvalue]
        push_cast
        rw [mul_assoc, hpow]

/-! ## Reading inverts writing -/

theorem dropWhile_digits {ds r : List Char} (hds : ∀ c ∈ ds, c.isDigit = true)
    (hr : Json.NoDigit r) : (ds ++ r).dropWhile Char.isDigit = r := by
  induction ds with
  | nil =>
      cases r with
      | nil => rfl
      | cons c rest =>
          rw [List.nil_append, List.dropWhile_cons_of_neg (by simp [hr c rest rfl])]
  | cons c ds ih =>
      rw [List.cons_append, List.dropWhile_cons_of_pos (hds c List.mem_cons_self)]
      exact ih fun c hc => hds c (List.mem_cons_of_mem _ hc)

theorem noDigit_pointed (fraction : List Char) : Json.NoDigit (pointed fraction) := by
  unfold pointed
  split
  · exact Json.NoDigit.nil
  · exact Json.NoDigit.cons rfl

theorem readSign_signChars (d : Decimal) {body : List Char}
    (hdigit : ∀ c rest, body = c :: rest → c.isDigit = true) :
    readSign (d.signChars ++ body) = (decide (d.coefficient < 0), body) := by
  unfold signChars
  split
  · next h => simp [readSign, h]
  · next h =>
      rw [List.nil_append, readSign.eq_def]
      split
      · next rest => cases hdigit _ rest rfl
      · next rest => cases hdigit _ rest rfl
      · simp [h]

/-- Reading a plain text gives a decimal of the same value. -/
theorem readDecimal_plainChars (d : Decimal) :
    ∃ r, readDecimal d.plainChars = some r ∧ r.value = d.value := by
  obtain ⟨whole, fraction, hplain, hwhole, hwholeDigits, hfractionDigits, hvalue⟩ :=
    exists_plainChars d
  set n := Nat.ofDigitChars 10 (whole ++ fraction) 0 with hn
  have hsign : readSign (d.signChars ++ (whole ++ pointed fraction)) =
      (decide (d.coefficient < 0), whole ++ pointed fraction) := by
    obtain ⟨first, others, rfl⟩ := List.exists_cons_of_ne_nil hwhole
    apply readSign_signChars
    intro c rest heq
    rw [← (List.cons.inj heq).1]
    exact hwholeDigits first List.mem_cons_self
  have htake : (whole ++ pointed fraction).takeWhile Char.isDigit = whole :=
    Json.takeWhile_digits hwholeDigits (noDigit_pointed fraction)
  have hdrop : (whole ++ pointed fraction).dropWhile Char.isDigit = pointed fraction :=
    dropWhile_digits hwholeDigits (noDigit_pointed fraction)
  have hread : readDecimal d.plainChars =
      some ⟨if d.coefficient < 0 then -(n : Int) else n, -fraction.length⟩ := by
    simp only [readDecimal, hplain, hsign, htake, hdrop]
    by_cases hempty : fraction = []
    · subst hempty
      simp [pointed, readExponent, hwhole, hn]
    · have htail : fraction.takeWhile Char.isDigit = fraction := by
        simpa using Json.takeWhile_digits hfractionDigits Json.NoDigit.nil
      have hend : fraction.dropWhile Char.isDigit = [] := by
        simpa using dropWhile_digits hfractionDigits Json.NoDigit.nil
      simp [pointed, hempty, htail, hend, readExponent, hn]
  refine ⟨_, hread, ?_⟩
  have habs : (n : ℚ) * (10 : ℚ) ^ (-(fraction.length : ℤ)) =
      |(d.coefficient : ℚ)| * 10 ^ d.exponent := by
    rw [← hvalue, Nat.cast_natAbs, Int.cast_abs]
  rw [value, value]
  dsimp only
  split
  · next h =>
      have hneg : |(d.coefficient : ℚ)| = -d.coefficient := abs_of_neg (by exact_mod_cast h)
      push_cast
      rw [neg_mul, habs, hneg]
      ring
  · next h =>
      have hpos : |(d.coefficient : ℚ)| = d.coefficient :=
        abs_of_nonneg (by exact_mod_cast not_lt.1 h)
      push_cast
      rw [habs, hpos]

/-! ## Equal numbers have one text -/

/-- The same number with one more digit. -/
def tenfold (d : Decimal) : Decimal := ⟨d.coefficient * 10, d.exponent - 1⟩

theorem signChars_tenfold (d : Decimal) : d.tenfold.signChars = d.signChars := by
  unfold signChars tenfold
  dsimp only
  congr 1
  rw [eq_iff_iff]
  omega

theorem toDigits_mul_ten {n : Nat} (h : 0 < n) :
    Nat.toDigits 10 (n * 10) = Nat.toDigits 10 n ++ ['0'] := by
  rw [Nat.toDigits_of_base_le (by decide) (by omega), Nat.mul_div_cancel n (by decide),
    Nat.mul_mod_left]
  rfl

theorem padded_mul_ten {width : Nat} (hwidth : 0 < width) (n : Nat) :
    padded (width + 1) (n * 10) = padded width n ++ ['0'] := by
  rcases Nat.eq_zero_or_pos n with rfl | hpos
  · obtain ⟨width, rfl⟩ := Nat.exists_eq_succ_of_ne_zero (Nat.ne_of_gt hwidth)
    simp [padded, List.replicate_succ']
  · rw [padded, padded, toDigits_mul_ten hpos, List.length_append, List.length_singleton,
      Nat.add_sub_add_right, List.append_assoc]

/-- One more digit does not show. -/
theorem plainChars_tenfold {d : Decimal} (h : d.coefficient ≠ 0) :
    d.tenfold.plainChars = d.plainChars := by
  have habs : d.tenfold.coefficient.natAbs = d.coefficient.natAbs * 10 := Int.natAbs_mul _ _
  have hpos : 0 < d.coefficient.natAbs := Int.natAbs_pos.2 h
  set n := d.coefficient.natAbs with hn
  cases hexponent : d.exponent with
  | ofNat zeros =>
      cases zeros with
      | succ zeros =>
          have hfixed : d.tenfold.fixedChars = d.fixedChars := by
            have hshift : d.tenfold.exponent = Int.ofNat zeros := by
              show d.exponent - 1 = _
              rw [hexponent]
              simp
            rw [fixedChars, fixedChars, hshift, hexponent, signChars_tenfold, habs, ← hn]
            dsimp only
            rw [toDigits_mul_ten hpos, List.append_assoc, List.replicate_succ, List.singleton_append]
          rw [plainChars, plainChars, hfixed]
      | zero =>
          have hshift : d.tenfold.exponent = Int.negSucc 0 := by
            show d.exponent - 1 = _
            rw [hexponent]
            rfl
          have hfixed : d.fixedChars = d.signChars ++ Nat.toDigits 10 n := by
            rw [fixedChars, hexponent]
            dsimp only
            rw [List.replicate_zero, List.append_nil]
          have hpoint : '.' ∉ d.fixedChars := by
            rw [hfixed]
            exact List.not_mem_append (point_not_mem_signChars d)
              (point_not_mem fun _ => isDigit_of_mem_toDigits)
          have htenfold : d.tenfold.fixedChars = d.fixedChars ++ '.' :: [] ++
              List.replicate 1 '0' := by
            rw [fixedChars, hshift, signChars_tenfold, habs, hfixed]
            dsimp only
            rw [Nat.zero_add, Nat.pow_one, Nat.mul_div_cancel n (by decide), Nat.mul_mod_left]
            simp [padded]
          rw [plainChars, htenfold, stripFraction_append_zeros (by simp),
            stripFraction_pointed hpoint (by simp) (by simp), pointed, if_pos rfl, List.append_nil,
            plainChars, stripFraction_of_not_mem hpoint]
  | negSucc k =>
      have hshift : d.tenfold.exponent = Int.negSucc (k + 1) := by
        show d.exponent - 1 = _
        rw [hexponent]
        rfl
      have hquotient : n * 10 / 10 ^ (k + 1 + 1) = n / 10 ^ (k + 1) := by
        rw [Nat.pow_succ, Nat.mul_div_mul_right _ _ (by decide)]
      have hremainder : n * 10 % 10 ^ (k + 1 + 1) = n % 10 ^ (k + 1) * 10 := by
        rw [Nat.pow_succ, Nat.mul_mod_mul_right]
      have htenfold : d.tenfold.fixedChars = d.fixedChars ++ List.replicate 1 '0' := by
        rw [fixedChars, fixedChars, hshift, hexponent, signChars_tenfold, habs, ← hn]
        dsimp only
        rw [hquotient, hremainder, padded_mul_ten (Nat.succ_pos k)]
        simp only [List.append_assoc, List.cons_append, List.replicate_one]
      have hpoint : '.' ∈ d.fixedChars := by
        rw [fixedChars, hexponent]
        simp
      rw [plainChars, htenfold, stripFraction_append_zeros hpoint, plainChars]

theorem coefficient_eq_zero_iff {d : Decimal} : d.coefficient = 0 ↔ d.value = 0 := by
  rw [value, mul_eq_zero, or_iff_left (zpow_ne_zero _ (by norm_num)), Int.cast_eq_zero]

/-- A decimal at a lower exponent has the same text. -/
theorem plainChars_of_lower {d : Decimal} (h : d.coefficient ≠ 0) (k : Nat) :
    plainChars ⟨d.coefficient * 10 ^ k, d.exponent - k⟩ = d.plainChars := by
  induction k with
  | zero => simp
  | succ k ih =>
      have hne : d.coefficient * 10 ^ k ≠ 0 := mul_ne_zero h (by positivity)
      have hten := @plainChars_tenfold ⟨d.coefficient * 10 ^ k, d.exponent - k⟩ hne
      rw [← ih, ← hten]
      congr 1
      rw [tenfold, mk.injEq]
      constructor
      · rw [pow_succ, mul_assoc]
      · push_cast
        ring

theorem plainChars_eq_of_value_eq {d e : Decimal} (hd : d.coefficient ≠ 0)
    (h : d.value = e.value) : d.plainChars = e.plainChars := by
  have he : e.coefficient ≠ 0 := fun hzero =>
    hd (coefficient_eq_zero_iff.2 (h.trans (coefficient_eq_zero_iff.1 hzero)))
  -- The decimal with the lower exponent is the other one with more digits.
  have hlower : ∀ {x y : Decimal}, x.coefficient ≠ 0 → x.value = y.value →
      y.exponent ≤ x.exponent → y.plainChars = x.plainChars := by
    intro x y hx hxy hexponent
    obtain ⟨k, hk⟩ := Int.le.dest hexponent
    have hcoefficient : y.coefficient = x.coefficient * 10 ^ k := by
      have hpow : (10 : ℚ) ^ x.exponent = 10 ^ k * 10 ^ y.exponent := by
        rw [← hk, add_comm, zpow_add₀ (by norm_num), zpow_natCast]
      have hne : (10 : ℚ) ^ y.exponent ≠ 0 := zpow_ne_zero _ (by norm_num)
      rw [value, value, hpow, ← mul_assoc] at hxy
      have hq := mul_right_cancel₀ hne hxy
      exact_mod_cast hq.symm
    rw [← plainChars_of_lower hx k]
    congr 1
    rw [← hcoefficient, ← hk, add_sub_cancel_right]
  rcases le_total e.exponent d.exponent with hle | hle
  · exact (hlower hd h hle).symm
  · exact hlower he h.symm hle

/-- Two nonzero decimals have one text exactly when they are equal as numbers. -/
theorem plainChars_eq_iff {d e : Decimal} (hd : d.coefficient ≠ 0) :
    d.plainChars = e.plainChars ↔ d.value = e.value := by
  constructor
  · intro h
    obtain ⟨r, hr, hvalue⟩ := readDecimal_plainChars d
    obtain ⟨s, hs, hvalue'⟩ := readDecimal_plainChars e
    rw [h, hs, Option.some.injEq] at hr
    rw [← hvalue, ← hvalue', hr]
  · exact plainChars_eq_of_value_eq hd

end Decimal

end Foundation
