/-
**Python's UTC datetimes.**

An instant is its number of microseconds since the Unix epoch; a Python `datetime` in UTC is an
instant of the years 1 to 9999.  The module has the proleptic Gregorian calendar and the ISO 8601
text a validation library writes for such a datetime, `2026-01-02T03:04:05.060708Z`, the fraction
only where there is one.  Years run from March, so that a leap day is the last of its year.

Main definitions:

* `Python.Civil`, `Python.civil`, `Python.Civil.days` — the dates of the calendar and their days;
* `Python.Representable` — the instants a `datetime` can be;
* `Python.isoDatetime`, `Python.parseIsoDatetime` — the text of an instant, and its reading.

Main results:

* `Python.days_civil` — a day is found again from its date;
* `Python.parseIsoDatetime_isoDatetime` — **an instant is read back from its text**.
-/

import Mathlib.Algebra.Group.Nat.Defs
import Mathlib.Algebra.Order.Group.Int
import Mathlib.Order.Lattice
import Mathlib.Data.Nat.Notation
import Mathlib.Tactic.SplitIfs

set_option relaxedAutoImplicit false
set_option autoImplicit false

namespace Python

/-! ### The calendar -/

/-- A date. -/
structure Civil where
  year : ℤ
  month : ℤ
  day : ℤ
  deriving DecidableEq

/-- The date of a day, counted from the Unix epoch.  400 years have 146097 days, a century has
36524 and a last one of the 400 years one more, four years have 1461 and a year has 365. -/
def civil (days : ℤ) : Civil :=
  let era := (days + 719468) / 146097
  let ofEra := (days + 719468) % 146097
  let century := min (ofEra / 36524) 3
  let ofCentury := ofEra - century * 36524
  let quad := ofCentury / 1461
  let ofQuad := ofCentury - quad * 1461
  let year := min (ofQuad / 365) 3
  let ofYear := ofQuad - year * 365
  let march := (5 * ofYear + 2) / 153
  { year := era * 400 + century * 100 + quad * 4 + year + if march < 10 then 0 else 1
    month := if march < 10 then march + 3 else march - 9
    day := ofYear - (153 * march + 2) / 5 + 1 }

namespace Civil

/-- The months since March, and the year they are counted in. -/
def march (date : Civil) : ℤ := if date.month ≤ 2 then date.month + 9 else date.month - 3

def marchYear (date : Civil) : ℤ := if date.month ≤ 2 then date.year - 1 else date.year

/-- The day of a date, counted from the Unix epoch. -/
def days (date : Civil) : ℤ :=
  date.marchYear * 365 + date.marchYear / 4 - date.marchYear / 100 + date.marchYear / 400
    + (153 * date.march + 2) / 5 + date.day - 1 - 719468

end Civil

/-- The day of a year since March, from its month and day. -/
theorem march_bounds {ofYear : ℤ} (h₀ : 0 ≤ ofYear) (h₁ : ofYear ≤ 365) :
    0 ≤ (5 * ofYear + 2) / 153 ∧ (5 * ofYear + 2) / 153 ≤ 11 ∧
      1 ≤ ofYear - (153 * ((5 * ofYear + 2) / 153) + 2) / 5 + 1 ∧
      ofYear - (153 * ((5 * ofYear + 2) / 153) + 2) / 5 + 1 ≤ 31 := by
  refine ⟨?_, ?_, ?_, ?_⟩ <;> omega

/-- The years of an era, its day, and what makes them up. -/
theorem era_bounds {ofEra century quad year ofYear : ℤ} (h₀ : 0 ≤ ofEra) (h₁ : ofEra < 146097)
    (hcentury : century = min (ofEra / 36524) 3)
    (hquad : quad = (ofEra - century * 36524) / 1461)
    (hyear : year = min ((ofEra - century * 36524 - quad * 1461) / 365) 3)
    (hofYear : ofYear = ofEra - century * 36524 - quad * 1461 - year * 365) :
    0 ≤ century ∧ century ≤ 3 ∧ 0 ≤ quad ∧ quad ≤ 24 ∧ 0 ≤ year ∧ year ≤ 3 ∧
      0 ≤ ofYear ∧ ofYear ≤ 365 := by
  have hc : 0 ≤ century ∧ century ≤ 3 ∧ 0 ≤ ofEra - century * 36524 ∧
      ofEra - century * 36524 ≤ 36524 := by omega
  have hq : 0 ≤ quad ∧ quad ≤ 24 ∧ 0 ≤ ofEra - century * 36524 - quad * 1461 ∧
      ofEra - century * 36524 - quad * 1461 ≤ 1460 := by omega
  omega

/-- The day of the year a date is counted in. -/
theorem days_eq {era century quad year : ℤ} {date : Civil}
    (hyear : date.marchYear = era * 400 + century * 100 + quad * 4 + year)
    (hc : 0 ≤ century ∧ century ≤ 3) (hq : 0 ≤ quad ∧ quad ≤ 24) (hy : 0 ≤ year ∧ year ≤ 3) :
    date.days = era * 146097 + century * 36524 + quad * 1461 + year * 365
      + (153 * date.march + 2) / 5 + date.day - 1 - 719468 := by
  have h4 : date.marchYear / 4 = era * 100 + century * 25 + quad := by omega
  have h100 : date.marchYear / 100 = era * 4 + century := by omega
  have h400 : date.marchYear / 400 = era := by omega
  rw [Civil.days, h4, h100, h400, hyear]
  omega

/-- A day by its era, century, leap cycle, year and day of the year. -/
theorem exists_civil (days : ℤ) : ∃ era century quad year ofYear : ℤ,
    (0 ≤ century ∧ century ≤ 3) ∧ (0 ≤ quad ∧ quad ≤ 24) ∧ (0 ≤ year ∧ year ≤ 3) ∧
      (0 ≤ ofYear ∧ ofYear ≤ 365) ∧
      era * 146097 + century * 36524 + quad * 1461 + year * 365 + ofYear = days + 719468 ∧
      civil days = {
        year := era * 400 + century * 100 + quad * 4 + year
          + if (5 * ofYear + 2) / 153 < 10 then 0 else 1
        month := if (5 * ofYear + 2) / 153 < 10 then (5 * ofYear + 2) / 153 + 3
          else (5 * ofYear + 2) / 153 - 9
        day := ofYear - (153 * ((5 * ofYear + 2) / 153) + 2) / 5 + 1 } := by
  obtain ⟨era, hera⟩ : ∃ e, e = (days + 719468) / 146097 := ⟨_, rfl⟩
  obtain ⟨ofEra, hofEra⟩ : ∃ e, e = (days + 719468) % 146097 := ⟨_, rfl⟩
  obtain ⟨century, hcentury⟩ : ∃ c, c = min (ofEra / 36524) 3 := ⟨_, rfl⟩
  obtain ⟨quad, hquad⟩ : ∃ q, q = (ofEra - century * 36524) / 1461 := ⟨_, rfl⟩
  obtain ⟨year, hyear⟩ : ∃ y, y = min ((ofEra - century * 36524 - quad * 1461) / 365) 3 :=
    ⟨_, rfl⟩
  obtain ⟨ofYear, hofYear⟩ : ∃ y, y = ofEra - century * 36524 - quad * 1461 - year * 365 :=
    ⟨_, rfl⟩
  obtain ⟨hc₀, hc₁, hq₀, hq₁, hy₀, hy₁, hd₀, hd₁⟩ :=
    era_bounds (by omega) (by omega) hcentury hquad hyear hofYear
  refine ⟨era, century, quad, year, ofYear, ⟨hc₀, hc₁⟩, ⟨hq₀, hq₁⟩, ⟨hy₀, hy₁⟩, ⟨hd₀, hd₁⟩,
    by omega, ?_⟩
  subst hofYear hyear hquad hcentury hofEra hera
  rfl

/-- **A day is found again from its date.** -/
theorem days_civil (days : ℤ) : (civil days).days = days := by
  obtain ⟨era, century, quad, year, ofYear, hc, hq, hy, hd, hsum, hdate⟩ := exists_civil days
  obtain ⟨hm₀, hm₁, -, -⟩ := march_bounds hd.1 hd.2
  have hmarch : (civil days).march = (5 * ofYear + 2) / 153 := by
    rw [hdate, Civil.march]
    dsimp only
    split_ifs <;> omega
  have hmarchYear : (civil days).marchYear = era * 400 + century * 100 + quad * 4 + year := by
    rw [hdate, Civil.marchYear]
    dsimp only
    split_ifs <;> omega
  have hday : (civil days).day = ofYear - (153 * ((5 * ofYear + 2) / 153) + 2) / 5 + 1 := by
    rw [hdate]
  rw [days_eq hmarchYear hc hq hy, hmarch, hday]
  omega

theorem civil_bounds (days : ℤ) : 1 ≤ (civil days).month ∧ (civil days).month ≤ 12 ∧
    1 ≤ (civil days).day ∧ (civil days).day ≤ 31 := by
  obtain ⟨era, century, quad, year, ofYear, -, -, -, hd, -, hdate⟩ := exists_civil days
  obtain ⟨hm₀, hm₁, hday₀, hday₁⟩ := march_bounds hd.1 hd.2
  rw [hdate]
  dsimp only
  split_ifs <;> omega

/-- From the first of January of the year 1 to the last of December of 9999. -/
theorem civil_year_bounds (days : ℤ) (h₀ : -719162 ≤ days) (h₁ : days ≤ 2932896) :
    1 ≤ (civil days).year ∧ (civil days).year ≤ 9999 := by
  obtain ⟨era, century, quad, year, ofYear, hc, hq, hy, hd, hsum, hdate⟩ := exists_civil days
  rw [hdate]
  dsimp only
  split_ifs <;> omega

example : civil 20455 = ⟨2026, 1, 2⟩ := by decide

/-! ### Datetimes -/

/-- The microseconds of a day. -/
def dayMicros : ℤ := 86400000000

/-- The instants a UTC `datetime` can be: the years 1 to 9999. -/
def Representable (t : ℤ) : Prop := -719162 * dayMicros ≤ t ∧ t < 2932897 * dayMicros

instance (t : ℤ) : Decidable (Representable t) := inferInstanceAs (Decidable (_ ∧ _))

/-- A number in as many decimal digits. -/
def padded : ℕ → ℕ → List Char
  | 0, _ => []
  | width + 1, n => padded width (n / 10) ++ [Nat.digitChar (n % 10)]

/-- The text of a UTC datetime. -/
def isoDatetime (t : ℤ) : String :=
  let date := civil (t / dayMicros)
  let micros := (t % dayMicros).toNat
  String.ofList (padded 4 date.year.toNat ++ '-' :: (padded 2 date.month.toNat ++ '-' ::
    (padded 2 date.day.toNat ++ 'T' :: (padded 2 (micros / 3600000000) ++ ':' ::
      (padded 2 (micros / 60000000 % 60) ++ ':' :: (padded 2 (micros / 1000000 % 60) ++
        ((if micros % 1000000 = 0 then [] else '.' :: padded 6 (micros % 1000000)) ++ ['Z'])))))))

/-- The number a text of digits stands for. -/
def number (text : List Char) : ℕ := Nat.ofDigitChars 10 text 0

/-- The text of a datetime has 20 characters, and seven more for a fraction. -/
theorem length_isoDatetime (t : ℤ) : (isoDatetime t).length ≤ 27 := by
  rw [← String.length_toList, isoDatetime, String.toList_ofList]
  split <;> simp [padded]

example : isoDatetime 1767319445060708 = "2026-01-02T02:04:05.060708Z" := by decide +kernel

/-- The number the characters of a text from `start` on stand for. -/
def field (text : List Char) (start width : ℕ) : ℕ := number ((text.drop start).take width)

/-- Read the text of a UTC datetime; no other text is one. -/
def parseIsoDatetime (text : String) : Option ℤ :=
  let chars := text.toList
  let date : Civil := ⟨field chars 0 4, field chars 5 2, field chars 8 2⟩
  let fraction := if chars.length = 20 then 0 else field chars 20 6
  let t := date.days * dayMicros + field chars 11 2 * 3600000000 + field chars 14 2 * 60000000
    + field chars 17 2 * 1000000 + fraction
  if isoDatetime t = text then some t else none

/-- A number that fits is read back. -/
theorem number_padded (width : ℕ) {n : ℕ} (h : n < 10 ^ width) :
    number (padded width n) = n := by
  induction width generalizing n with
  | zero =>
      obtain rfl : n = 0 := by simpa using h
      rfl
  | succ width ih =>
      have hdiv : n / 10 < 10 ^ width := by
        rw [Nat.div_lt_iff_lt_mul (by omega), ← Nat.pow_succ]
        exact h
      have hread := ih hdiv
      rw [number] at hread ⊢
      rw [padded, Nat.ofDigitChars_append, hread,
        Nat.ofDigitChars_cons_digitChar_of_lt_ten (Nat.mod_lt _ (by omega)), Nat.ofDigitChars_nil]
      omega

/-- The fields of the text of a datetime. -/
theorem field_iso (year month day hour minute second : ℕ) (rest : List Char)
    (hyear : year < 10000) (hmonth : month < 100) (hday : day < 100) (hhour : hour < 100)
    (hminute : minute < 100) (hsecond : second < 100) :
    let text := padded 4 year ++ '-' :: (padded 2 month ++ '-' :: (padded 2 day ++ 'T' ::
      (padded 2 hour ++ ':' :: (padded 2 minute ++ ':' :: (padded 2 second ++ rest)))))
    field text 0 4 = year ∧ field text 5 2 = month ∧ field text 8 2 = day ∧
      field text 11 2 = hour ∧ field text 14 2 = minute ∧ field text 17 2 = second ∧
      text.length = 19 + rest.length ∧ text.drop 19 = rest :=
  ⟨number_padded 4 hyear, number_padded 2 hmonth,
    number_padded 2 hday, number_padded 2 hhour,
    number_padded 2 hminute, number_padded 2 hsecond, by simp [padded]; omega,
    rfl⟩

/-- **An instant is read back from its text.** -/
theorem parseIsoDatetime_isoDatetime {t : ℤ} (h : Representable t) :
    parseIsoDatetime (isoDatetime t) = some t := by
  obtain ⟨h₀, h₁⟩ := h
  rw [dayMicros] at h₀ h₁
  obtain ⟨days, hdays⟩ : ∃ d, d = t / dayMicros := ⟨_, rfl⟩
  obtain ⟨micros, hmicros⟩ : ∃ m, m = (t % dayMicros).toNat := ⟨_, rfl⟩
  have ht : t = days * dayMicros + micros ∧ micros < 86400000000 := by
    rw [dayMicros] at hdays hmicros ⊢
    omega
  obtain ⟨hy₀, hy₁⟩ := civil_year_bounds days (by rw [dayMicros] at hdays; omega)
    (by rw [dayMicros] at hdays; omega)
  obtain ⟨hm₀, hm₁, hd₀, hd₁⟩ := civil_bounds days
  have hcivil := days_civil days
  have hdate : (⟨(civil days).year.toNat, (civil days).month.toNat, (civil days).day.toNat⟩ : Civil)
      = civil days := by
    rw [Int.toNat_of_nonneg (by omega), Int.toNat_of_nonneg (by omega),
      Int.toNat_of_nonneg (by omega)]
  obtain ⟨fraction, hfraction⟩ : ∃ f, f = if micros % 1000000 = 0 then []
    else '.' :: padded 6 (micros % 1000000) := ⟨_, rfl⟩
  have htext : (isoDatetime t).toList = padded 4 (civil days).year.toNat ++ '-' ::
      (padded 2 (civil days).month.toNat ++ '-' :: (padded 2 (civil days).day.toNat ++ 'T' ::
        (padded 2 (micros / 3600000000) ++ ':' :: (padded 2 (micros / 60000000 % 60) ++ ':' ::
          (padded 2 (micros / 1000000 % 60) ++ (fraction ++ ['Z'])))))) := by
    rw [hfraction, hmicros, hdays]
    exact String.toList_ofList
  obtain ⟨hf₁, hf₂, hf₃, hf₄, hf₅, hf₆, hlen, hrest⟩ := field_iso
    (civil days).year.toNat (civil days).month.toNat (civil days).day.toNat (micros / 3600000000)
    (micros / 60000000 % 60) (micros / 1000000 % 60) (fraction ++ ['Z']) (by omega) (by omega)
    (by omega) (by omega) (by omega) (by omega)
  rw [← htext] at hf₁ hf₂ hf₃ hf₄ hf₅ hf₆ hlen hrest
  have hmicro : (if (isoDatetime t).toList.length = 20 then 0
      else field (isoDatetime t).toList 20 6) = micros % 1000000 := by
    by_cases hzero : micros % 1000000 = 0
    · rw [hlen, hfraction, if_pos hzero, hzero]
      rfl
    · rw [if_neg hzero] at hfraction
      have hdrop : (isoDatetime t).toList.drop 20 = padded 6 (micros % 1000000) ++ ['Z'] := by
        rw [← List.drop_drop (i := 1) (j := 19), hrest, hfraction]
        rfl
      rw [hlen, if_neg (by simp [hfraction, padded]), field, hdrop]
      exact number_padded 6 (Nat.mod_lt _ (by omega))
  rw [parseIsoDatetime]
  rw [hf₁, hf₂, hf₃, hf₄, hf₅, hf₆, hmicro, hdate, hcivil]
  have hsum : days * dayMicros + ((micros / 3600000000 : ℕ) : ℤ) * 3600000000
      + ((micros / 60000000 % 60 : ℕ) : ℤ) * 60000000 + ((micros / 1000000 % 60 : ℕ) : ℤ) * 1000000
      + ((micros % 1000000 : ℕ) : ℤ) = t := by
    rw [ht.1]
    omega
  rw [hsum, if_pos rfl]

end Python
