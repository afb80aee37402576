import AdaptiveTrader.Foundation.Json

/-!
# Civil dates and the ISO text of an instant

Days are numbered from the first of January of year one, which is day one. `ordinalDate` turns a
day's number into year, month and day by the cycles of 400, 100, 4 and 1 years; `dateOrdinal` is the
number of a date, and inverts it (`dateOrdinal_ordinalDate`).

An instant counts microseconds from the start of 1970. Its ISO text determines it
(`isoChars_injective`). Years before year zero have a sign.
-/

set_option autoImplicit false

namespace Foundation

/-! ## Dates -/

structure CivilDate where
  year : Int
  month : Nat
  day : Nat
  deriving DecidableEq

def isLeapYear (year : Int) : Bool := year % 4 = 0 ∧ (year % 100 ≠ 0 ∨ year % 400 = 0)

/-- The days before the first of January. -/
def daysBeforeYear (year : Int) : Int :=
  (year - 1) * 365 + (year - 1) / 4 - (year - 1) / 100 + (year - 1) / 400

/-- The days of a year before the first of a month. -/
def daysBeforeMonth (leap : Bool) (month : Nat) : Nat :=
  [0, 0, 31, 59, 90, 120, 151, 181, 212, 243, 273, 304, 334].getD month 0 +
    if 2 < month then leap.toNat else 0

/-- Month and day of the `n`-th day of a year, counted from zero. The first guess of the month is at
most one too late. -/
def monthDay (leap : Bool) (n : Nat) : Nat × Nat :=
  let month := (n + 50) / 32
  if n < daysBeforeMonth leap month then (month - 1, n - daysBeforeMonth leap (month - 1) + 1)
  else (month, n - daysBeforeMonth leap month + 1)

/-- The date of a day. -/
def ordinalDate (ordinal : Int) : CivilDate :=
  let n := ordinal - 1
  let n400 := n / 146097
  let n := n % 146097
  let n100 := n / 36524
  let n := n % 36524
  let n4 := n / 1461
  let n := n % 1461
  let n1 := n / 365
  let n := n % 365
  let year := n400 * 400 + 1 + n100 * 100 + n4 * 4 + n1
  if n1 = 4 ∨ n100 = 4 then ⟨year - 1, 12, 31⟩
  else
    let found := monthDay (decide (n1 = 3 ∧ (n4 ≠ 24 ∨ n100 = 3))) n.toNat
    ⟨year, found.1, found.2⟩

/-- The number of a date. -/
def dateOrdinal (d : CivilDate) : Int :=
  daysBeforeYear d.year + daysBeforeMonth (isLeapYear d.year) d.month + d.day

theorem daysBeforeMonth_monthDay : ∀ leap : Bool, ∀ n < 365,
    daysBeforeMonth leap (monthDay leap n).1 + (monthDay leap n).2 = n + 1 := by
  decide +kernel

/-- The last day of a leap year is the thirty-first of December. -/
theorem daysBeforeMonth_december : daysBeforeMonth true 12 = 335 := by decide

/-- The days before a year, by the cycles its number consists of. -/
theorem daysBeforeYear_cycles {a b c d year : Int} (hyear : year = a * 400 + 1 + b * 100 + c * 4 + d)
    (hb : 0 ≤ b ∧ b ≤ 3) (hc : 0 ≤ c ∧ c ≤ 24) (hd : 0 ≤ d ∧ d ≤ 3) :
    daysBeforeYear year = 146097 * a + 36524 * b + 1461 * c + 365 * d := by
  have h4 : (year - 1) / 4 = 100 * a + 25 * b + c := by omega
  have h100 : (year - 1) / 100 = 4 * a + b := by omega
  have h400 : (year - 1) / 400 = a := by omega
  rw [daysBeforeYear, h4, h100, h400, hyear]
  ring

/-- A year is a leap year when it ends a cycle of four years that does not end a century, or ends
four centuries. -/
theorem isLeapYear_cycles {a b c d year : Int} (hyear : year = a * 400 + 1 + b * 100 + c * 4 + d)
    (hb : 0 ≤ b ∧ b ≤ 3) (hc : 0 ≤ c ∧ c ≤ 24) (hd : 0 ≤ d ∧ d ≤ 3) :
    isLeapYear year = decide (d = 3 ∧ (c ≠ 24 ∨ b = 3)) := by
  simp only [isLeapYear, decide_eq_decide]
  omega

/-- The number of a day's date is the day. -/
theorem dateOrdinal_ordinalDate (ordinal : Int) : dateOrdinal (ordinalDate ordinal) = ordinal := by
  obtain ⟨n, hn⟩ : ∃ n, n = ordinal - 1 := ⟨_, rfl⟩
  obtain ⟨n400, h400⟩ : ∃ k, k = n / 146097 := ⟨_, rfl⟩
  obtain ⟨r400, hr400⟩ : ∃ r, r = n % 146097 := ⟨_, rfl⟩
  obtain ⟨n100, h100⟩ : ∃ k, k = r400 / 36524 := ⟨_, rfl⟩
  obtain ⟨r100, hr100⟩ : ∃ r, r = r400 % 36524 := ⟨_, rfl⟩
  obtain ⟨n4, h4⟩ : ∃ k, k = r100 / 1461 := ⟨_, rfl⟩
  obtain ⟨r4, hr4⟩ : ∃ r, r = r100 % 1461 := ⟨_, rfl⟩
  obtain ⟨n1, h1⟩ : ∃ k, k = r4 / 365 := ⟨_, rfl⟩
  obtain ⟨r1, hr1⟩ : ∃ r, r = r4 % 365 := ⟨_, rfl⟩
  have hsplit : n = 146097 * n400 + 36524 * n100 + 1461 * n4 + 365 * n1 + r1 := by omega
  have hb4 : 0 ≤ n4 ∧ n4 ≤ 24 := by omega
  have hbr : 0 ≤ r1 ∧ r1 < 365 := by omega
  unfold ordinalDate
  simp only [← hn, ← h400, ← hr400, ← h100, ← hr100, ← h4, ← hr4, ← h1, ← hr1]
  split
  · next hlast =>
      rcases hlast with hfour | hcentury
      · -- the day behind four years
        have hb100 : 0 ≤ n100 ∧ n100 ≤ 3 := by omega
        have hcommon : n4 ≠ 24 ∨ n100 = 3 := by omega
        have hyear : n400 * 400 + 1 + n100 * 100 + n4 * 4 + n1 - 1 =
          n400 * 400 + 1 + n100 * 100 + n4 * 4 + 3 := by omega
        have hleap := isLeapYear_cycles hyear hb100 hb4 ⟨by decide, le_refl 3⟩
        have hdays := daysBeforeYear_cycles hyear hb100 hb4 ⟨by decide, le_refl 3⟩
        simp only [hcommon, and_self, decide_true] at hleap
        simp only [dateOrdinal, hleap, hdays, daysBeforeMonth_december]
        omega
      · -- the day behind four centuries
        have hyear : n400 * 400 + 1 + n100 * 100 + n4 * 4 + n1 - 1 =
          n400 * 400 + 1 + 3 * 100 + 24 * 4 + 3 := by omega
        have hleap := isLeapYear_cycles hyear ⟨by decide, le_refl 3⟩ ⟨by decide, le_refl 24⟩
          ⟨by decide, le_refl 3⟩
        have hdays := daysBeforeYear_cycles hyear ⟨by decide, le_refl 3⟩ ⟨by decide, le_refl 24⟩
          ⟨by decide, le_refl 3⟩
        simp only [or_true, and_self, decide_true] at hleap
        simp only [dateOrdinal, hleap, hdays, daysBeforeMonth_december]
        omega
  · next hlast =>
      have hb100 : 0 ≤ n100 ∧ n100 ≤ 3 := by omega
      have hb1 : 0 ≤ n1 ∧ n1 ≤ 3 := by omega
      obtain ⟨year, hyear⟩ : ∃ y, y = n400 * 400 + 1 + n100 * 100 + n4 * 4 + n1 := ⟨_, rfl⟩
      have hleap := isLeapYear_cycles hyear hb100 hb4 hb1
      have hdays := daysBeforeYear_cycles hyear hb100 hb4 hb1
      have hmonth := daysBeforeMonth_monthDay (decide (n1 = 3 ∧ (n4 ≠ 24 ∨ n100 = 3))) r1.toNat
        (by omega)
      simp only [dateOrdinal, ← hyear, hleap, hdays]
      omega

/-! ## Texts -/

/-- A number with leading zeros: `format(n, "0{width}d")`. -/
def padded (width n : Nat) : List Char :=
  List.replicate (width - (Nat.toDigits 10 n).length) '0' ++ Nat.toDigits 10 n

/-- A year with four digits. -/
def yearChars (year : Int) : List Char :=
  if year < 0 then '-' :: padded 4 year.natAbs else padded 4 year.natAbs

/-- The microseconds of a day. -/
def dayMicroseconds : Int := 86400000000

/-- `instant.isoformat(timespec="microseconds")` with `Z` for the offset. -/
def isoChars (instant : Int) : List Char :=
  let date := ordinalDate (instant / dayMicroseconds + 719163)
  let time := (instant % dayMicroseconds).toNat
  yearChars date.year ++ '-' :: (padded 2 date.month ++ '-' :: (padded 2 date.day ++ 'T' ::
    (padded 2 (time / 3600000000) ++ ':' :: (padded 2 (time / 60000000 % 60) ++ ':' ::
      (padded 2 (time / 1000000 % 60) ++ '.' :: (padded 6 (time % 1000000) ++ ['Z']))))))

/-- Leading zeros do not change the number. -/
theorem ofDigitChars_padded (width n : Nat) : Nat.ofDigitChars 10 (padded width n) 0 = n := by
  rw [padded, Nat.ofDigitChars_append, Nat.ofDigitChars_replicate_zero, Nat.mul_zero,
    Nat.ofDigitChars_ten_toDigits]

theorem isDigit_of_mem_padded {width n : Nat} {c : Char} (h : c ∈ padded width n) :
    c.isDigit = true := by
  rcases List.mem_append.1 h with hzero | hdigit
  · rw [List.eq_of_mem_replicate hzero]
    rfl
  · exact Nat.isDigit_of_mem_toDigits (by decide) (by decide) hdigit

/-- A padded number ends where its digits end. -/
theorem padded_append_inj {width m n : Nat} {r s : List Char} (hr : Json.NoDigit r)
    (hs : Json.NoDigit s) (h : padded width m ++ r = padded width n ++ s) : m = n ∧ r = s := by
  have hprefix := congrArg (List.takeWhile Char.isDigit) h
  rw [Json.takeWhile_digits (fun _ => isDigit_of_mem_padded) hr,
    Json.takeWhile_digits (fun _ => isDigit_of_mem_padded) hs] at hprefix
  have hvalue := congrArg (fun ds => Nat.ofDigitChars 10 ds 0) hprefix
  simp only [ofDigitChars_padded] at hvalue
  subst hvalue
  exact ⟨rfl, List.append_cancel_left h⟩

theorem padded_ne_minus {width n : Nat} {r s : List Char} : padded width n ++ r ≠ '-' :: s := by
  intro h
  cases hdigits : padded width n with
  | nil =>
      have hne : Nat.toDigits 10 n ≠ [] := Nat.toDigits_ne_nil
      exact hne (List.append_eq_nil_iff.1 hdigits).2
  | cons c rest =>
      rw [hdigits, List.cons_append, List.cons.injEq] at h
      have hc : c.isDigit = true := isDigit_of_mem_padded (hdigits ▸ List.mem_cons_self)
      rw [h.1] at hc
      cases hc

theorem yearChars_append_inj {m n : Int} {r s : List Char} (hr : Json.NoDigit r)
    (hs : Json.NoDigit s) (h : yearChars m ++ r = yearChars n ++ s) : m = n ∧ r = s := by
  unfold yearChars at h
  split at h
  · split at h
    · rw [List.cons_append, List.cons_append, List.cons.injEq] at h
      obtain ⟨habs, hrs⟩ := padded_append_inj hr hs h.2
      exact ⟨by omega, hrs⟩
    · exact absurd h.symm padded_ne_minus
  · split at h
    · exact absurd h padded_ne_minus
    · obtain ⟨habs, hrs⟩ := padded_append_inj hr hs h
      exact ⟨by omega, hrs⟩

/-- One field of an ISO text with its separator. -/
theorem padded_cons_inj {width m n : Nat} {c : Char} {r s : List Char} (hc : c.isDigit = false)
    (h : padded width m ++ c :: r = padded width n ++ c :: s) : m = n ∧ r = s := by
  obtain ⟨hmn, hrs⟩ := padded_append_inj (Json.NoDigit.cons hc) (Json.NoDigit.cons hc) h
  exact ⟨hmn, (List.cons.inj hrs).2⟩

/-- The text determines the instant. -/
theorem isoChars_injective : Function.Injective isoChars := by
  intro a b h
  simp only [isoChars] at h
  obtain ⟨hyear, h⟩ := yearChars_append_inj (Json.NoDigit.cons rfl) (Json.NoDigit.cons rfl) h
  obtain ⟨hmonth, h⟩ := padded_cons_inj rfl (List.cons.inj h).2
  obtain ⟨hday, h⟩ := padded_cons_inj rfl h
  obtain ⟨hhour, h⟩ := padded_cons_inj rfl h
  obtain ⟨hminute, h⟩ := padded_cons_inj rfl h
  obtain ⟨hsecond, h⟩ := padded_cons_inj rfl h
  obtain ⟨hmicro, -⟩ := padded_cons_inj rfl h
  have hdate : ordinalDate (a / dayMicroseconds + 719163) =
      ordinalDate (b / dayMicroseconds + 719163) := by
    rw [CivilDate.mk.injEq]
    exact ⟨hyear, hmonth, hday⟩
  have hdays := congrArg dateOrdinal hdate
  rw [dateOrdinal_ordinalDate, dateOrdinal_ordinalDate] at hdays
  unfold dayMicroseconds at *
  omega

end Foundation
