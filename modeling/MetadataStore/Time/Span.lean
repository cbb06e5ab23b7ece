import MetadataStore.Time.DateTime

/-!
# `Time.Span` — the span a coarse time stands for

A time given to the day, hour, minute or second stands for everything from that moment to the last
millisecond before the next one. The width is settled by the last component that is not zero, so a
time given to the millisecond stands for itself alone.

## Contents
- `Grain`, `TimeOfDay.grain`: the component down to which a time is given.
- `TimeOfDay.lastOf`: the last millisecond that agrees with a time down to a grain.
- `DateTime.span?`.
-/

namespace MetadataStore

/-- The component down to which a time is given. -/
inductive Grain where
  | day | hour | minute | second
  deriving DecidableEq, Repr

namespace TimeOfDay

/-- The last component of a time that is not zero; the day when all are. -/
def grain (t : TimeOfDay) : Grain :=
  if t.second ≠ 0 then .second
  else if t.minute ≠ 0 then .minute
  else if t.hour ≠ 0 then .hour
  else .day

/-- The time without its fraction. -/
def wholeSecond (t : TimeOfDay) : TimeOfDay :=
  { t with
    nano := 0
    valid := by
      have h := t.valid
      unfold IsValid nanosPerSecond at *
      omega }

/-- The last millisecond that agrees with the time down to the grain. -/
def lastOf (t : TimeOfDay) (grain : Grain) : TimeOfDay :=
  { hour := if grain = .day then 23 else t.hour
    minute := if grain = .day ∨ grain = .hour then 59 else t.minute
    second := if grain = .second then t.second else 59
    nano := 999 * nanosPerMilli
    valid := by
      have h := t.valid
      unfold IsValid nanosPerSecond nanosPerMilli at *
      refine ⟨?_, ?_, ?_, Or.inl (by decide)⟩ <;> split <;> omega }

end TimeOfDay

namespace DateTime

/-- The closed interval covered by the trailing zero components of a time; a time with a fraction of
a millisecond or more has none, and neither has a leap second. The end is found within the day, so that a time
of the last day of the calendar has an interval too. (Adding the width to a time of that day runs past the
calendar when the interval ends with it, and there chrono panics.) -/
def span? (t : DateTime) : Option (DateTime × DateTime) :=
  if t.time.millis = 0 then
    some ({ t with time := t.time.wholeSecond }, { t with time := t.time.lastOf t.time.grain })
  else none

theorem span?_isSome_iff (t : DateTime) : t.span?.isSome ↔ t.time.millis = 0 := by
  unfold span?
  split <;> simp_all

end DateTime

end MetadataStore
