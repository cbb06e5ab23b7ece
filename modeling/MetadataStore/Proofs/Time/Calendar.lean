import Mathlib.Order.Compare
import MetadataStore.Proofs.Digest

/-!
# `Proofs.Time.Calendar` — moments as numbers

A date is a number of days and a moment a number of seconds with a fraction, which is what makes one of
them earlier than another. The parts of a date-time tell the same when they are compared one after the
other: no month has more days than lie before the next one, no year more than lie before the next year,
and hours, minutes and seconds never reach the next greater unit.

## Contents
- `Date.dayNumber`, `DateTime.seconds`; `DateTime.compare`, the order of moments.
- `Date.compare_dayNumber`, `TimeOfDay.compare_secondOfDay`, `DateTime.compare_eq`: the order by parts.
-/

namespace MetadataStore

/-! ## Days -/

/-- The days from the start of the year 1 to the start of a year. -/
def daysBeforeYear (year : Int) : Int :=
  let past := year - 1
  365 * past + past / 4 - past / 100 + past / 400

/-- The number of a date, counted from the first of January 1970. -/
def Date.dayNumber (date : Date) : Int :=
  daysBeforeYear date.year + Digest.dayOfYear date - 719163

example : Date.dayNumber ⟨1970, 1, 1, by decide⟩ = 0 := by decide

/-- The days of all months of a year. -/
theorem daysInMonths_twelve (year : Int) :
    Digest.daysInMonths year 12 = if isLeapYear year then 366 else 365 := by
  by_cases hleap : isLeapYear year = true <;> simp [Digest.daysInMonths, daysInMonth, hleap]

/-- The years before a year last as long as their months. -/
theorem daysBeforeYear_succ (year : Int) :
    daysBeforeYear (year + 1) = daysBeforeYear year + Digest.daysInMonths year 12 := by
  rw [daysInMonths_twelve]
  unfold daysBeforeYear
  simp only
  by_cases hleap : isLeapYear year = true
  · rw [if_pos hleap]
    simp only [isLeapYear, Bool.and_eq_true, Bool.or_eq_true, beq_iff_eq, bne_iff_ne] at hleap
    omega
  · rw [if_neg hleap]
    simp only [isLeapYear, Bool.and_eq_true, Bool.or_eq_true, beq_iff_eq, bne_iff_ne] at hleap
    omega

theorem daysBeforeYear_le {y z : Int} (h : y ≤ z) : daysBeforeYear y ≤ daysBeforeYear z := by
  unfold daysBeforeYear
  simp only
  omega

namespace Date

theorem dayOfYear_pos (date : Date) : 0 < Digest.dayOfYear date := by
  obtain ⟨-, -, -, -, hday, -⟩ := date.valid
  unfold Digest.dayOfYear
  omega

/-- The days of a month come before the month after it. -/
theorem dayOfYear_le_daysInMonths {date : Date} {month : Nat} (h : date.month ≤ month) :
    Digest.dayOfYear date ≤ Digest.daysInMonths date.year month := by
  obtain ⟨-, -, hmonth, -, -, hday⟩ := date.valid
  have hsucc : date.month - 1 + 1 = date.month := by omega
  have hmonths := Digest.daysInMonths_le date.year (show date.month - 1 < month by omega)
  rw [Digest.daysInMonths, hsucc] at hmonths
  unfold Digest.dayOfYear
  omega

theorem dayNumber_lt_of_year {a b : Date} (h : a.year < b.year) : a.dayNumber < b.dayNumber := by
  have hend : Digest.dayOfYear a ≤ Digest.daysInMonths a.year 12 :=
    dayOfYear_le_daysInMonths a.valid.2.2.2.1
  have hnext := daysBeforeYear_succ a.year
  have hyears : daysBeforeYear (a.year + 1) ≤ daysBeforeYear b.year := daysBeforeYear_le h
  have hstart := b.dayOfYear_pos
  unfold dayNumber
  omega

theorem dayNumber_lt_of_month {a b : Date} (hyear : a.year = b.year) (h : a.month < b.month) :
    a.dayNumber < b.dayNumber := by
  have hend : Digest.dayOfYear a ≤ Digest.daysInMonths a.year (b.month - 1) :=
    dayOfYear_le_daysInMonths (by omega)
  have hday := b.valid.2.2.2.2.1
  have hb : Digest.dayOfYear b = Digest.daysInMonths b.year (b.month - 1) + b.day := rfl
  rw [hyear] at hend
  unfold dayNumber
  rw [hyear]
  omega

theorem dayNumber_lt_of_day {a b : Date} (hyear : a.year = b.year) (hmonth : a.month = b.month)
    (h : a.day < b.day) : a.dayNumber < b.dayNumber := by
  unfold dayNumber Digest.dayOfYear
  rw [hyear, hmonth]
  omega

/-- The earlier date has the smaller year, or the smaller month, or the smaller day. -/
theorem compare_dayNumber (a b : Date) :
    compare a.dayNumber b.dayNumber =
      (compare a.year b.year).then ((compare a.month b.month).then (compare a.day b.day)) := by
  rcases lt_trichotomy a.year b.year with hyear | hyear | hyear
  · rw [compare_lt_iff_lt.2 (dayNumber_lt_of_year hyear), compare_lt_iff_lt.2 hyear]
    rfl
  · rw [compare_eq_iff_eq.2 hyear, Ordering.eq_then]
    rcases lt_trichotomy a.month b.month with hmonth | hmonth | hmonth
    · rw [compare_lt_iff_lt.2 (dayNumber_lt_of_month hyear hmonth), compare_lt_iff_lt.2 hmonth]
      rfl
    · rw [compare_eq_iff_eq.2 hmonth, Ordering.eq_then]
      rcases lt_trichotomy a.day b.day with hday | hday | hday
      · rw [compare_lt_iff_lt.2 (dayNumber_lt_of_day hyear hmonth hday), compare_lt_iff_lt.2 hday]
      · have hsame : a.dayNumber = b.dayNumber := by
          unfold dayNumber Digest.dayOfYear
          rw [hyear, hmonth, hday]
        rw [compare_eq_iff_eq.2 hsame, compare_eq_iff_eq.2 hday]
      · rw [compare_gt_iff_gt.2 (dayNumber_lt_of_day hyear.symm hmonth.symm hday),
          compare_gt_iff_gt.2 hday]
    · rw [compare_gt_iff_gt.2 (dayNumber_lt_of_month hyear.symm hmonth), compare_gt_iff_gt.2 hmonth]
      rfl
  · rw [compare_gt_iff_gt.2 (dayNumber_lt_of_year hyear), compare_gt_iff_gt.2 hyear]
    rfl

/-- No two dates have the same number. -/
theorem eq_of_dayNumber {a b : Date} (h : a.dayNumber = b.dayNumber) : a = b := by
  have hparts := compare_dayNumber a b
  rw [compare_eq_iff_eq.2 h, eq_comm, Ordering.then_eq_eq, Ordering.then_eq_eq, compare_eq_iff_eq,
    compare_eq_iff_eq, compare_eq_iff_eq] at hparts
  obtain ⟨hyear, hmonth, hday⟩ := hparts
  cases a
  cases b
  simp only at hyear hmonth hday
  subst hyear hmonth hday
  rfl

end Date

/-! ## Seconds -/

/-- The seconds of the day that have passed. -/
def TimeOfDay.secondOfDay (t : TimeOfDay) : Nat :=
  60 * (60 * t.hour + t.minute) + t.second

theorem TimeOfDay.secondOfDay_lt (t : TimeOfDay) : t.secondOfDay < 86400 := by
  obtain ⟨hhour, hminute, hsecond, -⟩ := t.valid
  unfold secondOfDay
  omega

theorem TimeOfDay.compare_secondOfDay (t u : TimeOfDay) :
    compare t.secondOfDay u.secondOfDay =
      (compare t.hour u.hour).then ((compare t.minute u.minute).then (compare t.second u.second)) := by
  obtain ⟨-, htm, hts, -⟩ := t.valid
  obtain ⟨-, hum, hus, -⟩ := u.valid
  unfold secondOfDay
  rw [Text.compare_mul_add hts hus, Text.compare_mul_add htm hum, Ordering.then_assoc]

namespace DateTime

/-- The seconds since the first moment of 1970. A leap second counts with the second before it. -/
def seconds (t : DateTime) : Int :=
  86400 * t.date.dayNumber + t.time.secondOfDay

/-- The order of moments: by their seconds, then by the fraction, which in a leap second goes on beyond
that of any other. -/
protected def compare (t u : DateTime) : Ordering :=
  (compare t.seconds u.seconds).then (compare t.time.nano u.time.nano)

theorem compare_seconds (t u : DateTime) :
    compare t.seconds u.seconds = (compare t.date.dayNumber u.date.dayNumber).then
      (compare t.time.secondOfDay u.time.secondOfDay) := by
  have ht := t.time.secondOfDay_lt
  have hu := u.time.secondOfDay_lt
  unfold seconds
  rcases lt_trichotomy t.date.dayNumber u.date.dayNumber with h | h | h
  · rw [compare_lt_iff_lt.2 h, compare_lt_iff_lt.2 (by omega)]
    rfl
  · rw [compare_eq_iff_eq.2 h, h, Ordering.eq_then]
    rcases lt_trichotomy t.time.secondOfDay u.time.secondOfDay with hs | hs | hs
    · rw [compare_lt_iff_lt.2 hs, compare_lt_iff_lt.2 (by omega)]
    · rw [compare_eq_iff_eq.2 hs, hs, compare_eq_iff_eq.2 rfl]
    · rw [compare_gt_iff_gt.2 hs, compare_gt_iff_gt.2 (show _ < _ by omega)]
  · rw [compare_gt_iff_gt.2 h, compare_gt_iff_gt.2 (show _ < _ by omega)]
    rfl

/-- The order of moments by their parts. -/
theorem compare_eq (t u : DateTime) :
    t.compare u = (compare t.date.year u.date.year).then ((compare t.date.month u.date.month).then
      ((compare t.date.day u.date.day).then ((compare t.time.hour u.time.hour).then
        ((compare t.time.minute u.time.minute).then ((compare t.time.second u.time.second).then
          (compare t.time.nano u.time.nano)))))) := by
  simp only [DateTime.compare, compare_seconds, Date.compare_dayNumber, TimeOfDay.compare_secondOfDay,
    Ordering.then_assoc]

end DateTime

end MetadataStore
