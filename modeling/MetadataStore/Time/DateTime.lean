/-!
# `Time.DateTime` — points in time without a zone

Dates of the proleptic Gregorian calendar and times of day to the nanosecond. A leap second is held as
second 59 with a nanosecond of one to two thousand million. Validity is part of the types, so every
date-time in the library names a moment.

## Contents
- `Date`, `TimeOfDay`, `DateTime`, each with its checked constructor.
- `DateTime.truncate`, the cut to milliseconds that times undergo on their way into storage.
-/

namespace MetadataStore

/-! ## Dates -/

/-- Whether a year has a twenty-ninth of February. -/
def isLeapYear (year : Int) : Bool :=
  year % 4 == 0 && (year % 100 != 0 || year % 400 == 0)

/-- The number of days of a month. -/
def daysInMonth (year : Int) (month : Nat) : Nat :=
  if month = 2 then (if isLeapYear year then 29 else 28)
  else if month = 4 ∨ month = 6 ∨ month = 9 ∨ month = 11 then 30
  else 31

/-- The first year that a date can have. -/
def minYear : Int := -262143

/-- The last year that a date can have. -/
def maxYear : Int := 262142

/-- Whether year, month and day name a date in range. -/
def Date.IsValid (year : Int) (month day : Nat) : Prop :=
  minYear ≤ year ∧ year ≤ maxYear ∧ 1 ≤ month ∧ month ≤ 12 ∧ 1 ≤ day ∧ day ≤ daysInMonth year month

instance (year : Int) (month day : Nat) : Decidable (Date.IsValid year month day) := by
  unfold Date.IsValid
  infer_instance

/-- A date of the Gregorian calendar. -/
structure Date where
  year : Int
  month : Nat
  day : Nat
  valid : Date.IsValid year month day
  deriving DecidableEq

/-- The date of the given parts, if there is one. -/
def Date.ofParts? (year : Int) (month day : Nat) : Option Date :=
  if h : Date.IsValid year month day then some ⟨year, month, day, h⟩ else none

/-! ## Times of day -/

/-- Nanoseconds to a second. -/
def nanosPerSecond : Nat := 1000000000

/-- Nanoseconds to a millisecond. -/
def nanosPerMilli : Nat := 1000000

/-- Whether the parts name a time of day; a fraction beyond one second is a leap second's, and stands behind
second 59 alone, as when a time is made of its parts or read from its text. (By itself it may be set behind any
second, with chrono's `with_nanosecond`. Such times are left out.) -/
def TimeOfDay.IsValid (hour minute second nano : Nat) : Prop :=
  hour < 24 ∧ minute < 60 ∧ second < 60 ∧
    (nano < nanosPerSecond ∨ (second = 59 ∧ nano < 2 * nanosPerSecond))

instance (hour minute second nano : Nat) : Decidable (TimeOfDay.IsValid hour minute second nano) := by
  unfold TimeOfDay.IsValid
  infer_instance

/-- A time of day. -/
structure TimeOfDay where
  hour : Nat
  minute : Nat
  second : Nat
  nano : Nat
  valid : TimeOfDay.IsValid hour minute second nano
  deriving DecidableEq

namespace TimeOfDay

/-- The time of the given parts, if there is one. -/
def ofParts? (hour minute second nano : Nat) : Option TimeOfDay :=
  if h : IsValid hour minute second nano then some ⟨hour, minute, second, nano, h⟩ else none

/-- The start of a day. -/
def midnight : TimeOfDay :=
  ⟨0, 0, 0, 0, by decide⟩

/-- The milliseconds of the fraction, a thousand or more within a leap second. -/
def millis (t : TimeOfDay) : Nat :=
  t.nano / nanosPerMilli

/-- Whether the time lies in a leap second. -/
def isLeap (t : TimeOfDay) : Bool :=
  nanosPerSecond ≤ t.nano

/-- The fraction cut to whole milliseconds. -/
def truncate (t : TimeOfDay) : TimeOfDay :=
  { t with
    nano := t.millis * nanosPerMilli
    valid := by
      have h := t.valid
      have := Nat.div_mul_le_self t.nano nanosPerMilli
      unfold IsValid at *
      unfold millis
      omega }

@[simp] theorem millis_truncate (t : TimeOfDay) : t.truncate.millis = t.millis :=
  Nat.mul_div_cancel _ (by decide)

/-- Whole milliseconds are not cut. -/
theorem truncate_eq_self {t : TimeOfDay} (h : nanosPerMilli ∣ t.nano) : t.truncate = t := by
  have hnano : t.millis * nanosPerMilli = t.nano := Nat.div_mul_cancel h
  unfold truncate
  simp only [hnano]

/-- A second cut changes nothing. -/
@[simp] theorem truncate_truncate (t : TimeOfDay) : t.truncate.truncate = t.truncate :=
  truncate_eq_self (Nat.dvd_mul_left nanosPerMilli t.millis)

end TimeOfDay

/-! ## Date-times -/

/-- A date and a time of day. -/
structure DateTime where
  date : Date
  time : TimeOfDay
  deriving DecidableEq

namespace DateTime

/-- The date-time of the given parts, if there is one. -/
def ofParts? (year : Int) (month day hour minute second nano : Nat) : Option DateTime := do
  let date ← Date.ofParts? year month day
  let time ← TimeOfDay.ofParts? hour minute second nano
  pure ⟨date, time⟩

/-- The date-time cut to whole milliseconds. -/
def truncate (t : DateTime) : DateTime :=
  { t with time := t.time.truncate }

/-- The same date at midnight. -/
def startOfDay (t : DateTime) : DateTime :=
  { t with time := TimeOfDay.midnight }

/-- The first moment of 1970. -/
def epoch : DateTime :=
  ⟨⟨1970, 1, 1, by decide⟩, TimeOfDay.midnight⟩

@[simp] theorem truncate_truncate (t : DateTime) : t.truncate.truncate = t.truncate := by
  simp [truncate]

end DateTime

end MetadataStore
