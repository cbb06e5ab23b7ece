import MetadataStore.Proofs.Text.Order
import MetadataStore.Proofs.Time.Calendar
import MetadataStore.Proofs.Time.Reading

/-!
# `Proofs.Time.Order` — how stored times compare

All parts of a stored time but its year have a fixed width and come from the greatest to the smallest, so
times of one year compare as texts just as they do in time; the leap second, written as second 60, stands
where it belongs. Years are another matter. Those with four digits compare as numbers and come after
the negative ones, but a plus sign comes before a minus sign and both before any digit, the years below
zero run backwards, and among signed years one with fewer digits counts as if it were filled up from the
right.

## Contents
- `compareYears`, the order of written years; `compare_yearText_append`, years in front of the rest.
- `YearsInOrder`, `YearsKeepOrder`; `compareYears_eq_iff`: which years are written in their order.
- `TimeOfDay.compare_written`, the second and the fraction.
- `DateTime.compare_chars_eq_iff`: which times compare as texts as they do in time.
-/

namespace MetadataStore

/-! ## Years -/

/-- How many digits a year is written with. -/
def yearWidth (year : Int) : Nat :=
  (Text.padded 4 year.natAbs).length

/-- The order of written years, each with the mark behind it. -/
def compareYears (y z : Int) : Ordering :=
  compare (yearText y ++ ['-']) (yearText z ++ ['-'])

/-- The earlier of two years is written as the text that comes first: the later has no sign and the
earlier no plus, or both have a plus and the earlier, filled up with zeros from the right, is still not
the greater number, or both have a minus and the later, filled up so, is the greater number. -/
def YearsInOrder (earlier later : Int) : Prop :=
  (earlier ≤ 9999 ∧ 0 ≤ later ∧ later ≤ 9999) ∨
  (9999 < earlier ∧ earlier * 10 ^ (yearWidth later - yearWidth earlier) ≤ later) ∨
  (later < 0 ∧ -earlier < -later * 10 ^ (yearWidth earlier - yearWidth later))

instance (earlier later : Int) : Decidable (YearsInOrder earlier later) := by
  unfold YearsInOrder
  infer_instance

/-- Two years are written in their order. -/
def YearsKeepOrder (y z : Int) : Prop :=
  (y < z → YearsInOrder y z) ∧ (z < y → YearsInOrder z y)

theorem yearText_plain {y : Int} (h : 0 ≤ y ∧ y ≤ 9999) : yearText y = Text.padded 4 y.natAbs :=
  if_pos h

theorem yearText_minus {y : Int} (h : y < 0) : yearText y = '-' :: Text.padded 4 y.natAbs := by
  unfold yearText
  rw [if_neg (by omega), if_pos h]

theorem yearText_plus {y : Int} (h : 9999 < y) : yearText y = '+' :: Text.padded 4 y.natAbs := by
  unfold yearText
  rw [if_neg (by omega), if_neg (by omega)]

/-- A year shows where it ends. -/
theorem yearText_append_injective {y z : Int} {a b : List Char}
    (h : yearText y ++ '-' :: a = yearText z ++ '-' :: b) : y = z := by
  have hread := TimeText.signed_yearText y a
  rw [h, TimeText.signed_yearText] at hread
  exact (Prod.mk.inj (Except.ok.inj hread)).1.symm

theorem eq_of_yearText_begins {y z : Int} (h : yearText y ++ ['-'] <+: yearText z ++ ['-']) : y = z := by
  obtain ⟨rest, hrest⟩ := h
  rw [List.append_assoc] at hrest
  exact yearText_append_injective hrest

theorem compareYears_eq_eq_iff {y z : Int} : compareYears y z = .eq ↔ y = z := by
  rw [compareYears, Std.compare_eq_eq_iff_eq]
  exact ⟨yearText_append_injective, fun h => by rw [h]⟩

theorem compareYears_swap (y z : Int) : (compareYears y z).swap = compareYears z y :=
  (Std.OrientedOrd.eq_swap).symm

/-- Years in front decide first. -/
theorem compare_yearText_append (y z : Int) (a b : List Char) :
    compare (yearText y ++ '-' :: a) (yearText z ++ '-' :: b) =
      (compareYears y z).then (compare a b) := by
  have happend := Text.compare_append (fun h => by rw [eq_of_yearText_begins h])
    (fun h : yearText z ++ ['-'] <+: yearText y ++ ['-'] => by rw [eq_of_yearText_begins h]) a b
  rwa [List.append_assoc, List.append_assoc] at happend

/-- The digits of two years compare by their number up to where the shorter ends. -/
theorem compare_yearDigits {y z : Int} (h : y.natAbs < z.natAbs) :
    compare (Text.padded 4 y.natAbs ++ ['-']) (Text.padded 4 z.natAbs ++ ['-']) =
      if y.natAbs * 10 ^ (yearWidth z - yearWidth y) ≤ z.natAbs then .lt else .gt := by
  have hwidth : yearWidth y ≤ yearWidth z := Text.length_padded_mono h.le
  rcases Nat.lt_or_eq_of_le hwidth with hlt | heq
  · exact Text.compare_stopped (by decide) hlt (Text.readDigitsFrom?_padded 4 _)
      (Text.readDigitsFrom?_padded 4 _) _ _
  · rw [Text.compare_append_of_length heq, Text.compare_padded_of_length heq, heq,
      Nat.compare_eq_lt.2 h, Nat.sub_self, if_pos (by omega)]
    rfl

/-- A sign comes before any digit. -/
theorem compare_sign_padded {sign : Char} (h : sign.toNat < 48) (width n : Nat)
    (a b : List Char) : compare (sign :: a) (Text.padded width n ++ b) = .lt := by
  cases hds : Text.padded width n with
  | nil => exact absurd hds (TimeText.padded_ne_nil width n)
  | cons d ds =>
    have hmem : d ∈ Text.padded width n := hds ▸ List.mem_cons_self
    obtain ⟨k, hk⟩ := Option.isSome_iff_exists.1 (Text.asciiDigit?_of_mem_padded hmem)
    exact Text.compare_mark_digit h hk a (ds ++ b)

theorem yearsInOrder_iff_of_plus {y z : Int} (hy : 9999 < y) (h : y < z) :
    YearsInOrder y z ↔ y.natAbs * 10 ^ (yearWidth z - yearWidth y) ≤ z.natAbs := by
  have hcast : (y.natAbs : Int) = y := by omega
  have hcast' : (z.natAbs : Int) = z := by omega
  rw [← Int.ofNat_le, Int.natCast_mul, hcast, hcast', Int.natCast_pow]
  unfold YearsInOrder
  constructor
  · rintro (⟨hle, -⟩ | ⟨-, hle⟩ | ⟨hneg, -⟩)
    · omega
    · exact hle
    · omega
  · exact fun hle => Or.inr (Or.inl ⟨hy, hle⟩)

theorem yearsInOrder_iff_of_minus {y z : Int} (hz : z < 0) (h : y < z) :
    YearsInOrder y z ↔ ¬ z.natAbs * 10 ^ (yearWidth y - yearWidth z) ≤ y.natAbs := by
  have hcast : (y.natAbs : Int) = -y := by omega
  have hcast' : (z.natAbs : Int) = -z := by omega
  rw [← Int.ofNat_le, Int.natCast_mul, hcast, hcast', Int.natCast_pow, Int.not_le]
  unfold YearsInOrder
  constructor
  · rintro (⟨-, hpos, -⟩ | ⟨hpos, -⟩ | ⟨-, hlt⟩)
    · omega
    · omega
    · exact hlt
  · exact fun hlt => Or.inr (Or.inr ⟨hz, hlt⟩)

/-- Of two years the earlier is written first exactly when signs and widths let it be. -/
theorem compareYears_of_lt {y z : Int} (h : y < z) :
    compareYears y z = if YearsInOrder y z then .lt else .gt := by
  unfold compareYears
  by_cases hplain : 0 ≤ z ∧ z ≤ 9999
  · -- the later year has no sign
    have horder : YearsInOrder y z := Or.inl ⟨by omega, hplain⟩
    rw [if_pos horder, yearText_plain hplain]
    by_cases hminus : y < 0
    · rw [yearText_minus hminus]
      exact compare_sign_padded (by decide) _ _ _ _
    · rw [yearText_plain ⟨by omega, by omega⟩, compare_yearDigits (by omega), yearWidth, yearWidth,
        Text.length_padded (by decide) (by omega), Text.length_padded (by decide) (by omega),
        if_pos (by omega)]
  by_cases hplus : 9999 < z
  · -- the later year has a plus
    rw [yearText_plus hplus]
    by_cases hboth : 9999 < y
    · rw [yearText_plus hboth, List.cons_append, List.cons_append, Text.compare_cons_self,
        compare_yearDigits (by omega)]
      simp only [yearsInOrder_iff_of_plus hboth h]
    · have horder : ¬ YearsInOrder y z := by
        unfold YearsInOrder
        omega
      rw [if_neg horder]
      by_cases hminus : y < 0
      · rw [yearText_minus hminus]
        rfl
      · rw [yearText_plain ⟨by omega, by omega⟩, Std.OrientedOrd.eq_swap, List.cons_append,
          compare_sign_padded (by decide)]
        rfl
  · -- both years have a minus
    have hminus : z < 0 := by omega
    rw [yearText_minus hminus, yearText_minus (by omega), List.cons_append, List.cons_append,
      Text.compare_cons_self, Std.OrientedOrd.eq_swap, compare_yearDigits (by omega)]
    simp only [yearsInOrder_iff_of_minus hminus h, ite_not]
    split <;> rfl

/-- Years compare as texts as they do as numbers exactly when they are written in their order. -/
theorem compareYears_eq_iff (y z : Int) : compareYears y z = compare y z ↔ YearsKeepOrder y z := by
  unfold YearsKeepOrder
  rcases lt_trichotomy y z with h | h | h
  · rw [compareYears_of_lt h, compare_lt_iff_lt.2 h]
    have hback : ¬ z < y := by omega
    simp [h, hback]
  · rw [compareYears_eq_eq_iff.2 h, compare_eq_iff_eq.2 h]
    have hback : ¬ z < y ∧ ¬ y < z := by omega
    simp [hback]
  · rw [← compareYears_swap, compareYears_of_lt h, compare_gt_iff_gt.2 h]
    have hback : ¬ y < z := by omega
    by_cases horder : YearsInOrder z y <;> simp [h, hback, horder]

/-! ## Times of day -/

namespace TimeOfDay

/-- A leap second is written as the second after, so what it has beyond a second counts there. -/
theorem written_eq (t : TimeOfDay) :
    1000 * t.writtenSecond + t.writtenMillis = 1000 * t.second + t.millis := by
  obtain ⟨-, -, hsecond, hnano⟩ := t.valid
  have hmillis : t.millis = t.nano / nanosPerMilli := rfl
  unfold nanosPerSecond at hnano
  unfold nanosPerMilli at hmillis
  unfold writtenSecond writtenMillis isLeap nanosPerSecond
  by_cases hleap : 1000000000 ≤ t.nano
  · simp only [hleap, decide_true, if_true]
    omega
  · simp only [hleap, decide_false, Bool.false_eq_true, if_false]
    omega

/-- Only the last second of a minute can be a leap second. -/
theorem millis_lt_of_second {t : TimeOfDay} (h : t.second < 59) : t.millis < 1000 := by
  obtain ⟨-, -, -, hnano⟩ := t.valid
  unfold nanosPerSecond at hnano
  unfold millis nanosPerMilli
  omega

/-- The second and the milliseconds compare as written as they do in time. -/
theorem compare_written (t u : TimeOfDay) :
    (compare t.writtenSecond u.writtenSecond).then (compare t.writtenMillis u.writtenMillis) =
      (compare t.second u.second).then (compare t.truncate.nano u.truncate.nano) := by
  have hwritten : ∀ v : TimeOfDay, v.writtenMillis < 1000 := fun v => Nat.mod_lt _ (by decide)
  have hcut : compare t.truncate.nano u.truncate.nano = compare t.millis u.millis := by
    show compare (t.millis * nanosPerMilli) (u.millis * nanosPerMilli) = _
    simp only [Nat.compare_eq_ite_lt, Nat.mul_lt_mul_right (show 0 < nanosPerMilli by decide)]
  rw [← Text.compare_mul_add (hwritten t) (hwritten u), written_eq, written_eq, hcut]
  have hts := t.valid.2.2.1
  have hus := u.valid.2.2.1
  rcases Nat.lt_trichotomy t.second u.second with h | h | h
  · have hroom : t.millis < 1000 := millis_lt_of_second (by omega)
    rw [Nat.compare_eq_lt.2 h, Nat.compare_eq_lt.2 (by omega)]
    rfl
  · rw [h, Nat.compare_eq_eq.2 rfl, Ordering.eq_then]
    simp only [Nat.compare_eq_ite_lt, Nat.add_lt_add_iff_left]
  · have hroom : u.millis < 1000 := millis_lt_of_second (by omega)
    rw [Nat.compare_eq_gt.2 h, Nat.compare_eq_gt.2 (by omega)]
    rfl

end TimeOfDay

/-! ## Date-times -/

namespace DateTime

/-- The parts of a stored time decide in the order in which they are written. -/
theorem compare_chars (t u : DateTime) :
    compare t.chars u.chars = (compareYears t.date.year u.date.year).then
      ((compare t.date.month u.date.month).then ((compare t.date.day u.date.day).then
        ((compare t.time.hour u.time.hour).then ((compare t.time.minute u.time.minute).then
          ((compare t.time.second u.time.second).then
            (compare t.time.truncate.nano u.time.truncate.nano)))))) := by
  have hmonth : ∀ v : DateTime, v.date.month < 10 ^ 2 := fun v => by
    have := v.date.valid.2.2.2.1
    omega
  have hday : ∀ v : DateTime, v.date.day < 10 ^ 2 := fun v => by
    have hlast := v.date.valid.2.2.2.2.2
    have := Digest.daysInMonth_le v.date.year v.date.month
    omega
  have hhour : ∀ v : DateTime, v.time.hour < 10 ^ 2 := fun v => by
    have := v.time.valid.1
    omega
  have hminute : ∀ v : DateTime, v.time.minute < 10 ^ 2 := fun v => by
    have := v.time.valid.2.1
    omega
  have hsecond : ∀ v : DateTime, v.time.writtenSecond < 10 ^ 2 := fun v => by
    have := v.time.valid.2.2.1
    unfold TimeOfDay.writtenSecond
    split <;> omega
  have hmillis : ∀ v : DateTime, v.time.writtenMillis < 10 ^ 3 := fun v => Nat.mod_lt _ (by decide)
  have hlast := Text.compare_padded_append (by decide) (hmillis t) (hmillis u) [] []
  have hempty : compare ([] : List Char) [] = .eq := rfl
  rw [List.append_nil, List.append_nil, hempty, Ordering.then_eq] at hlast
  unfold chars
  simp only [List.append_assoc, List.cons_append]
  rw [compare_yearText_append, Text.compare_padded_append (by decide) (hmonth t) (hmonth u),
    Text.compare_cons_self, Text.compare_padded_append (by decide) (hday t) (hday u),
    Text.compare_cons_self, Text.compare_padded_append (by decide) (hhour t) (hhour u),
    Text.compare_cons_self, Text.compare_padded_append (by decide) (hminute t) (hminute u),
    Text.compare_cons_self, Text.compare_padded_append (by decide) (hsecond t) (hsecond u),
    Text.compare_cons_self, hlast, TimeOfDay.compare_written]

/-- Stored times and the moments cut to milliseconds compare alike but for their years. -/
theorem compare_behind_years (t u : DateTime) : ∃ rest,
    compare t.chars u.chars = (compareYears t.date.year u.date.year).then rest ∧
      t.truncate.compare u.truncate = (compare t.date.year u.date.year).then rest :=
  ⟨_, compare_chars t u, compare_eq t.truncate u.truncate⟩

/-- Times of different years compare as their years. -/
theorem compare_of_year_ne {t u : DateTime} (h : t.date.year ≠ u.date.year) :
    compare t.chars u.chars = compareYears t.date.year u.date.year ∧
      t.truncate.compare u.truncate = compare t.date.year u.date.year := by
  obtain ⟨rest, hchars, htimes⟩ := compare_behind_years t u
  have hwritten : compareYears t.date.year u.date.year ≠ .eq := fun heq =>
    h (compareYears_eq_eq_iff.1 heq)
  have hyears : compare t.date.year u.date.year ≠ .eq := fun heq => h (compare_eq_iff_eq.1 heq)
  have hskip : ∀ {o : Ordering}, o ≠ .eq → o.then rest = o := by
    intro o ho
    cases o with
    | eq => exact absurd rfl ho
    | lt | gt => rfl
  exact ⟨by rw [hchars, hskip hwritten], by rw [htimes, hskip hyears]⟩

/-- Times of one year compare as texts as they do in time. -/
theorem compare_of_year_eq {t u : DateTime} (h : t.date.year = u.date.year) :
    compare t.chars u.chars = t.truncate.compare u.truncate := by
  obtain ⟨rest, hchars, htimes⟩ := compare_behind_years t u
  rw [hchars, htimes, compareYears_eq_eq_iff.2 h, compare_eq_iff_eq.2 h]

/-- Stored times compare as the moments cut to milliseconds exactly when their years are written in
their order. -/
theorem compare_chars_eq_iff (t u : DateTime) :
    compare t.chars u.chars = t.truncate.compare u.truncate ↔
      YearsKeepOrder t.date.year u.date.year := by
  rw [← compareYears_eq_iff]
  by_cases h : t.date.year = u.date.year
  · rw [compareYears_eq_eq_iff.2 h, compare_eq_iff_eq.2 h]
    exact ⟨fun _ => rfl, fun _ => compare_of_year_eq h⟩
  · obtain ⟨hchars, htimes⟩ := compare_of_year_ne h
    rw [hchars, htimes]

/-- Two times have one stored form exactly when they are the same moment, cut to milliseconds. -/
theorem compare_chars_eq_eq_iff (t u : DateTime) :
    compare t.chars u.chars = .eq ↔ t.truncate.compare u.truncate = .eq := by
  obtain ⟨rest, hchars, htimes⟩ := compare_behind_years t u
  rw [hchars, htimes, Ordering.then_eq_eq, Ordering.then_eq_eq, compareYears_eq_eq_iff,
    compare_eq_iff_eq]

/-- The stored form has ASCII characters only. -/
theorem toNat_lt_of_mem_chars {t : DateTime} {c : Char} (h : c ∈ t.chars) : c.toNat < 128 := by
  have hyear : ∀ {y : Int}, c ∈ yearText y → c.toNat < 128 := by
    intro y hc
    unfold yearText at hc
    split at hc
    · exact Text.toNat_lt_of_mem_padded hc
    · rcases List.mem_cons.1 hc with rfl | hc
      · split <;> decide
      · exact Text.toNat_lt_of_mem_padded hc
  have hpart : ∀ {mark : Char} {width n : Nat}, mark.toNat < 128 →
      c = mark ∨ c ∈ Text.padded width n → c.toNat < 128 := by
    rintro mark width n hmark (rfl | hc)
    · exact hmark
    · exact Text.toNat_lt_of_mem_padded hc
  unfold chars at h
  simp only [List.mem_append, List.mem_cons] at h
  -- behind the year every part is a mark and a number
  rcases h with (((((h | h) | h) | h) | h) | h) | h
  · exact hyear h
  all_goals exact hpart (by decide) h

/-- Stored times compare byte by byte as by their characters. -/
theorem compare_toUTF8 (t u : DateTime) :
    compare t.text.toUTF8.data.toList u.text.toUTF8.data.toList = compare t.chars u.chars := by
  rw [Text.toUTF8_toList, Text.toUTF8_toList, text, text, String.toList_ofList, String.toList_ofList,
    Text.compare_utf8Encode (fun _ => toNat_lt_of_mem_chars) fun _ => toNat_lt_of_mem_chars]

end DateTime

end MetadataStore
