import MetadataStore.Proofs.Time.Calendar
import MetadataStore.Time.Span

/-!
# `Proofs.Time.Span` — what the span of a coarse time holds

The span begins with the time itself and ends a millisecond before the next unit of the grain begins,
which is the next day at the latest. As the time is a multiple of its grain, the moments in between are
those that share the date and every component down to the grain.

## Contents
- `Grain.seconds`, `DateTime.elapsedMillis`; `TimeOfDay.secondOfDay_lastOf`, the end of the span by
  arithmetic, and `DateTime.exists_next`, that a moment follows it.
- `DateTime.AgreesAsGiven`; `DateTime.seconds_mem_span_iff`, the moments in between.
-/

namespace MetadataStore

/-- How many seconds a unit of a grain lasts. -/
def Grain.seconds : Grain → Nat
  | .day => 86400
  | .hour => 3600
  | .minute => 60
  | .second => 1

/-! ## The ends -/

namespace TimeOfDay

/-- Behind the grain of a time all of its components are zero, and unless it is a day the one at the grain
is not. -/
theorem grain_cases (t : TimeOfDay) :
    (t.grain = .second ∧ t.second ≠ 0) ∨
    (t.grain = .minute ∧ t.second = 0 ∧ t.minute ≠ 0) ∨
    (t.grain = .hour ∧ t.second = 0 ∧ t.minute = 0 ∧ t.hour ≠ 0) ∨
    (t.grain = .day ∧ t.second = 0 ∧ t.minute = 0 ∧ t.hour = 0) := by
  unfold grain
  by_cases hsecond : t.second = 0 <;> by_cases hminute : t.minute = 0 <;>
    by_cases hhour : t.hour = 0 <;> simp [hsecond, hminute, hhour]

/-- The last second that agrees with a time down to its grain is the one before the next unit. -/
theorem secondOfDay_lastOf (t : TimeOfDay) :
    (t.lastOf t.grain).secondOfDay + 1 = t.secondOfDay + t.grain.seconds := by
  rcases t.grain_cases with ⟨h, hs⟩ | ⟨h, hs, hm⟩ | ⟨h, hs, hm, hh⟩ | ⟨h, hs, hm, hh⟩ <;>
    simp [secondOfDay, lastOf, Grain.seconds, *]
  all_goals omega

/-- A time is a whole number of units of its grain. -/
theorem seconds_dvd_secondOfDay (t : TimeOfDay) : t.grain.seconds ∣ t.secondOfDay := by
  rcases t.grain_cases with ⟨h, hs⟩ | ⟨h, hs, hm⟩ | ⟨h, hs, hm, hh⟩ | ⟨h, hs, hm, hh⟩ <;>
    simp [secondOfDay, Grain.seconds, *]
  all_goals omega

/-- So the unit ends with the day at the latest. -/
theorem secondOfDay_add_seconds_le (t : TimeOfDay) : t.secondOfDay + t.grain.seconds ≤ 86400 := by
  have hlt := t.secondOfDay_lt
  have hdvd := t.seconds_dvd_secondOfDay
  cases hgrain : t.grain <;> simp only [hgrain, Grain.seconds] at hdvd ⊢ <;> omega

/-- The time of a second of the day. -/
def ofSecond (n : Nat) (h : n < 86400) : TimeOfDay :=
  { hour := n / 3600
    minute := n / 60 % 60
    second := n % 60
    nano := 0
    valid := by
      unfold IsValid nanosPerSecond
      omega }

theorem secondOfDay_ofSecond {n : Nat} (h : n < 86400) : (ofSecond n h).secondOfDay = n := by
  unfold secondOfDay ofSecond
  simp only
  omega

end TimeOfDay

namespace DateTime

/-- The milliseconds since the first moment of 1970. -/
def elapsedMillis (t : DateTime) : Int :=
  1000 * t.seconds + t.time.millis

/-- If the next day has a date, some whole second follows a unit that begins with a time. -/
theorem exists_next {t : DateTime} {following : Date}
    (h : following.dayNumber = t.date.dayNumber + 1) :
    ∃ next : DateTime, next.seconds = t.seconds + t.time.grain.seconds ∧ next.time.nano = 0 := by
  have hend := t.time.secondOfDay_add_seconds_le
  by_cases hday : t.time.secondOfDay + t.time.grain.seconds < 86400
  · refine ⟨⟨t.date, .ofSecond _ hday⟩, ?_, rfl⟩
    show 86400 * t.date.dayNumber + ((TimeOfDay.ofSecond _ hday).secondOfDay : Int) = _
    rw [TimeOfDay.secondOfDay_ofSecond, seconds]
    omega
  · refine ⟨⟨following, .midnight⟩, ?_, rfl⟩
    have hmidnight : TimeOfDay.midnight.secondOfDay = 0 := rfl
    unfold seconds
    rw [h, hmidnight]
    omega

/-! ## The moments in between -/

/-- A moment has the date of a time and every component of its time of day down to the last one that is
not zero. -/
def AgreesAsGiven (v t : DateTime) : Prop :=
  v.date = t.date ∧
    (t.time.hour ≠ 0 ∨ t.time.minute ≠ 0 ∨ t.time.second ≠ 0 → v.time.hour = t.time.hour) ∧
    (t.time.minute ≠ 0 ∨ t.time.second ≠ 0 → v.time.minute = t.time.minute) ∧
    (t.time.second ≠ 0 → v.time.second = t.time.second)

/-- The seconds of a unit are those that agree with its first one. -/
theorem seconds_mem_span_iff (v t : DateTime) :
    t.seconds ≤ v.seconds ∧ v.seconds < t.seconds + t.time.grain.seconds ↔ v.AgreesAsGiven t := by
  have hv := v.time.secondOfDay_lt
  have hend := t.time.secondOfDay_add_seconds_le
  have hday : t.seconds ≤ v.seconds ∧ v.seconds < t.seconds + t.time.grain.seconds ↔
      v.date = t.date ∧ t.time.secondOfDay ≤ v.time.secondOfDay ∧
        v.time.secondOfDay < t.time.secondOfDay + t.time.grain.seconds := by
    unfold seconds
    constructor
    · rintro ⟨hlow, hhigh⟩
      exact ⟨Date.eq_of_dayNumber (by omega), by omega, by omega⟩
    · rintro ⟨hdate, hlow, hhigh⟩
      rw [hdate]
      omega
  rw [hday]
  refine and_congr_right fun _ => ?_
  obtain ⟨hvh, hvm, hvs, -⟩ := v.time.valid
  obtain ⟨hth, htm, hts, -⟩ := t.time.valid
  rcases t.time.grain_cases with ⟨h, hs⟩ | ⟨h, hs, hm⟩ | ⟨h, hs, hm, hh⟩ | ⟨h, hs, hm, hh⟩ <;>
    simp only [TimeOfDay.secondOfDay, Grain.seconds, h] <;> omega

/-! ## The order of moments -/

/-- A moment is not before a whole second exactly when its own second is not. -/
theorem compare_ne_lt_iff {v low : DateTime} (h : low.time.nano = 0) :
    v.compare low ≠ .lt ↔ low.seconds ≤ v.seconds := by
  unfold DateTime.compare
  rw [h, Ne, Ordering.then_eq_lt, compare_lt_iff_lt, compare_lt_iff_lt]
  omega

/-- A moment is not after one with a fraction as great exactly when its second is not. -/
theorem compare_ne_gt_iff {v high : DateTime} (h : v.time.nano ≤ high.time.nano) :
    v.compare high ≠ .gt ↔ v.seconds ≤ high.seconds := by
  unfold DateTime.compare
  rw [Ne, Ordering.then_eq_gt, compare_gt_iff_gt, compare_gt_iff_gt]
  omega

/-- A span is as long as a unit of the grain, its end counting in: the end is the last millisecond before
the moment at which the next unit begins. -/
theorem span?_spec {t low high : DateTime} (h : t.span? = some (low, high)) :
    low.truncate = low ∧ high.truncate = high ∧ low.date = t.date ∧ high.date = t.date ∧
      low.time.nano = 0 ∧ low.seconds = t.seconds ∧ high.time.millis = 999 ∧
      high.seconds + 1 = t.seconds + t.time.grain.seconds := by
  unfold span? at h
  split at h
  · cases h
    have hlast := t.time.secondOfDay_lastOf
    have hlow : t.time.wholeSecond.truncate = t.time.wholeSecond :=
      TimeOfDay.truncate_eq_self (Nat.dvd_zero _)
    have hhigh : (t.time.lastOf t.time.grain).truncate = t.time.lastOf t.time.grain :=
      TimeOfDay.truncate_eq_self (Nat.dvd_mul_left _ _)
    have hmillis : (t.time.lastOf t.time.grain).millis = 999 :=
      Nat.mul_div_cancel 999 (by decide)
    refine ⟨congrArg _ hlow, congrArg _ hhigh, rfl, rfl, rfl, rfl, hmillis, ?_⟩
    unfold seconds
    simp only
    omega
  · cases h

/-- The moments of a span, leap seconds aside, are those that agree with the time as it is given. -/
theorem mem_span_iff {t low high v : DateTime} (h : t.span? = some (low, high))
    (hleap : v.time.isLeap = false) :
    v.truncate.compare low.truncate ≠ .lt ∧ v.truncate.compare high.truncate ≠ .gt ↔
      v.AgreesAsGiven t := by
  obtain ⟨hlow, hhigh, -, -, hwhole, hfirst, hmillis, hlast⟩ := span?_spec h
  have hnano : v.truncate.time.nano ≤ high.time.nano := by
    have hcut : v.truncate.time.nano = v.time.nano / nanosPerMilli * nanosPerMilli := rfl
    have hmillis : high.time.nano / nanosPerMilli = 999 := hmillis
    have hshort : ¬ nanosPerSecond ≤ v.time.nano := by simpa [TimeOfDay.isLeap] using hleap
    unfold nanosPerMilli at hcut hmillis
    unfold nanosPerSecond at hshort
    omega
  have hsame : v.truncate.seconds = v.seconds := rfl
  rw [hlow, hhigh, compare_ne_lt_iff hwhole, compare_ne_gt_iff hnano, hsame, hfirst,
    ← seconds_mem_span_iff]
  omega

end DateTime

end MetadataStore
