import MetadataStore.Proofs.Text.Digits
import MetadataStore.Time.Text

/-!
# `Proofs.Time.Reading` — the stored form of a time is read back

Each part of a written time has its full width and is followed by something that is no digit, so the
reader, which takes as many digits as it may, takes exactly that part. What is read is the time cut to
milliseconds, since that is all that is written.

## Contents
- `DateTime.ofParts?_eq_some`: a time is the one of its parts.
- `TimeText.number_append`, a run of digits; `year_yearText`, `bounded_padded`, `fraction_padded`, the
  parts; `assemble_written`, the parts put together.
- `DateTime.ofText_text`: the whole.
-/

namespace MetadataStore

/-- A time is the one of its parts. -/
theorem DateTime.ofParts?_eq_some {year : Int} {month day hour minute second nano : Nat} {t : DateTime} :
    ofParts? year month day hour minute second nano = some t ↔
      t.date.year = year ∧ t.date.month = month ∧ t.date.day = day ∧ t.time.hour = hour ∧
        t.time.minute = minute ∧ t.time.second = second ∧ t.time.nano = nano := by
  constructor
  · intro h
    obtain ⟨date, hdate, hrest⟩ := Option.bind_eq_some_iff.1 h
    obtain ⟨time, htime, hmake⟩ := Option.bind_eq_some_iff.1 hrest
    cases hmake
    unfold Date.ofParts? at hdate
    unfold TimeOfDay.ofParts? at htime
    split at hdate
    · split at htime
      · cases hdate
        cases htime
        exact ⟨rfl, rfl, rfl, rfl, rfl, rfl, rfl⟩
      · cases htime
    · cases hdate
  · obtain ⟨date, time⟩ := t
    rintro ⟨rfl, rfl, rfl, rfl, rfl, rfl, rfl⟩
    simp only [ofParts?, Date.ofParts?, TimeOfDay.ofParts?, dif_pos date.valid, dif_pos time.valid]
    rfl

namespace TimeText

/-! ## Runs of digits -/

theorem isAsciiDigit_of_mem_padded {width n : Nat} {c : Char} (h : c ∈ Text.padded width n) :
    isAsciiDigit c = true :=
  Text.asciiDigit?_of_mem_padded h

theorem worth_padded (width n : Nat) : worth (Text.padded width n) = n := by
  rw [worth, Text.readDigitsFrom?_padded]
  rfl

theorem padded_ne_nil (width n : Nat) : Text.padded width n ≠ [] := by
  intro h
  exact Text.digits_ne_nil n (List.append_eq_nil_iff.1 h).2

/-- No digit stands at the front. -/
def StopsDigits (rest : List Char) : Prop :=
  ∀ c ∈ rest.head?, isAsciiDigit c = false

/-- A run of digits that something stops, or that has all the digits allowed, is read whole. -/
theorem number_append {width : Nat} {ds rest : List Char} (hne : ds ≠ [])
    (hdigits : ∀ c ∈ ds, isAsciiDigit c = true) (hlen : ds.length ≤ width)
    (hstop : ds.length = width ∨ StopsDigits rest) :
    number width (ds ++ rest) = .ok (worth ds, rest) := by
  have htake := Text.takeWhile_take_append hdigits hlen hstop
  cases ds with
  | nil => exact absurd rfl hne
  | cons d ds =>
    have hd := hdigits d List.mem_cons_self
    simp only [List.cons_append] at htake ⊢
    simp only [number, hd, if_true, htake]
    rw [List.length_cons, List.drop_succ_cons, List.drop_left]

/-! ## Parts -/

theorem isBlank_of_isAsciiDigit {c : Char} (h : isAsciiDigit c = true) : Text.isBlank c = false := by
  obtain ⟨d, hd⟩ := Option.isSome_iff_exists.1 h
  have := Text.toNat_of_asciiDigit? hd
  simp only [Text.isBlank, Bool.or_eq_false_iff, Bool.and_eq_false_iff, decide_eq_false_iff_not,
    beq_eq_false_iff_ne]
  omega

theorem trimStart_padded (width n : Nat) (rest : List Char) :
    Text.trimStart (Text.padded width n ++ rest) = Text.padded width n ++ rest := by
  cases hds : Text.padded width n with
  | nil => exact absurd hds (padded_ne_nil width n)
  | cons d ds =>
    have hmem : d ∈ Text.padded width n := by simp [hds]
    have hd : isAsciiDigit d = true := isAsciiDigit_of_mem_padded hmem
    exact Text.trimStart_cons_ink _ (isBlank_of_isAsciiDigit hd)

/-- A number of two digits within bounds is read as such. -/
theorem bounded_padded {low high n : Nat} (hlow : low ≤ n) (hhigh : n ≤ high) (hn : n < 100)
    (rest : List Char) : bounded low high (Text.padded 2 n ++ rest) = .ok (n, rest) := by
  have hlen : (Text.padded 2 n).length = 2 := Text.length_padded (by decide) (by omega)
  have hnumber : number 2 (Text.padded 2 n ++ rest) = .ok (n, rest) := by
    rw [number_append (padded_ne_nil 2 n) (fun c => isAsciiDigit_of_mem_padded) (by omega)
      (Or.inl hlen), worth_padded]
  simp only [bounded, trimStart_padded, hnumber, bind, Except.bind]
  rw [if_pos ⟨hlow, hhigh⟩]

@[simp] theorem mark_cons (c : Char) (rest : List Char) : mark c (c :: rest) = .ok ((), rest) := by
  simp [mark]

/-- Four digits without sign are read as a number. -/
theorem signed_of_digits {ds : List Char} (rest : List Char) (hne : ds ≠ [])
    (hdigits : ∀ c ∈ ds, isAsciiDigit c = true) (hlen : ds.length = 4) :
    signed (ds ++ rest) = .ok ((worth ds : Int), rest) := by
  have hnumber : number 4 (ds ++ rest) = .ok (worth ds, rest) :=
    number_append hne hdigits (by omega) (Or.inl hlen)
  cases ds with
  | nil => exact absurd rfl hne
  | cons d ds =>
    have hd := hdigits d List.mem_cons_self
    simp only [List.cons_append] at hnumber ⊢
    unfold signed
    -- a digit is neither of the signs
    split
    · rename_i heq
      cases heq
      exact absurd hd (by decide)
    · rename_i heq
      cases heq
      exact absurd hd (by decide)
    · rw [hnumber]
      rfl

/-- Digits after a sign are read up to the first character that is none. -/
theorem number_of_stopped {ds rest : List Char} (hne : ds ≠ [])
    (hdigits : ∀ c ∈ ds, isAsciiDigit c = true) (hstop : StopsDigits rest) :
    number (ds ++ rest).length (ds ++ rest) = .ok (worth ds, rest) :=
  number_append hne hdigits (by simp) (Or.inr hstop)

theorem signed_minus {ds rest : List Char} (hne : ds ≠ [])
    (hdigits : ∀ c ∈ ds, isAsciiDigit c = true) (hstop : StopsDigits rest) :
    signed ('-' :: (ds ++ rest)) = .ok (-(worth ds : Int), rest) := by
  rw [signed, number_of_stopped hne hdigits hstop]
  rfl

theorem signed_plus {ds rest : List Char} (hne : ds ≠ [])
    (hdigits : ∀ c ∈ ds, isAsciiDigit c = true) (hstop : StopsDigits rest) :
    signed ('+' :: (ds ++ rest)) = .ok ((worth ds : Int), rest) := by
  rw [signed, number_of_stopped hne hdigits hstop]
  rfl

/-- A year is read up to the mark after it, with its sign if it has one. -/
theorem signed_yearText (y : Int) (rest : List Char) :
    signed (yearText y ++ '-' :: rest) = .ok (y, '-' :: rest) := by
  have hstop : StopsDigits ('-' :: rest) := by
    intro c hc
    cases hc
    decide
  have hne := padded_ne_nil 4 y.natAbs
  have hdigits : ∀ c ∈ Text.padded 4 y.natAbs, isAsciiDigit c = true := fun c =>
    isAsciiDigit_of_mem_padded
  unfold yearText
  split
  · rename_i hplain
    have hlen : (Text.padded 4 y.natAbs).length = 4 := Text.length_padded (by decide) (by omega)
    rw [signed_of_digits _ hne hdigits hlen, worth_padded, Int.natAbs_of_nonneg hplain.1]
  · split
    · rw [List.cons_append, signed_minus hne hdigits hstop, worth_padded]
      rw [show -(y.natAbs : Int) = y by omega]
    · rw [List.cons_append, signed_plus hne hdigits hstop, worth_padded]
      rw [show (y.natAbs : Int) = y by omega]

theorem trimStart_yearText (y : Int) (rest : List Char) :
    Text.trimStart (yearText y ++ rest) = yearText y ++ rest := by
  unfold yearText
  split
  · exact trimStart_padded 4 y.natAbs rest
  · split
    · exact Text.trimStart_cons_ink _ (by decide)
    · exact Text.trimStart_cons_ink _ (by decide)

theorem year_yearText {y : Int} (hlow : minYear ≤ y) (hhigh : y ≤ maxYear) (rest : List Char) :
    year (yearText y ++ '-' :: rest) = .ok (y, '-' :: rest) := by
  have hrange : Int32.minValue.toInt ≤ y ∧ y ≤ Int32.maxValue.toInt := by
    have hminimum : Int32.minValue.toInt ≤ minYear := by decide
    have hmaximum : maxYear ≤ Int32.maxValue.toInt := by decide
    omega
  rw [year, trimStart_yearText, signed_yearText]
  simp only
  rw [if_pos hrange]

theorem length_le_utf8Length (cs : List Char) : cs.length ≤ utf8Length cs := by
  induction cs with
  | nil => exact Nat.le_refl 0
  | cons c cs ih =>
    rw [List.length_cons, utf8Length]
    have := c.utf8Size_pos
    omega

/-- Three digits after the point are the milliseconds. -/
theorem fraction_padded {millis : Nat} (h : millis < 1000) :
    fraction ('.' :: Text.padded 3 millis) = .ok (millis, []) := by
  have hlen : (Text.padded 3 millis).length = 3 := Text.length_padded (by decide) (by omega)
  have hsize : ¬ utf8Length (Text.padded 3 millis) < 3 := by
    have := length_le_utf8Length (Text.padded 3 millis)
    omega
  have htake : (Text.padded 3 millis).take 3 = Text.padded 3 millis :=
    List.take_of_length_le (by omega)
  have hall : (Text.padded 3 millis).all isAsciiDigit = true :=
    List.all_eq_true.2 fun c => isAsciiDigit_of_mem_padded
  simp only [fraction, hsize, if_false, htake, hall, hlen, worth_padded]
  rw [List.drop_of_length_le (by omega)]
  rfl

theorem bounded_blank (low high : Nat) (cs : List Char) :
    bounded low high (' ' :: cs) = bounded low high cs := by
  rw [bounded, bounded, Text.trimStart_cons_blank cs (by decide)]

/-- The written parts of a time make that time, cut to milliseconds. -/
theorem assemble_written (t : DateTime) :
    assemble t.date.year t.date.month t.date.day t.time.hour t.time.minute t.time.writtenSecond
      t.time.writtenMillis = .ok t.truncate := by
  obtain ⟨date, time⟩ := t
  have hparts : DateTime.ofParts? date.year date.month date.day time.hour time.minute time.second
      (time.millis * nanosPerMilli) = some ⟨date, time.truncate⟩ :=
    DateTime.ofParts?_eq_some.2 ⟨rfl, rfl, rfl, rfl, rfl, rfl, rfl⟩
  obtain ⟨-, -, hsecond, hnano⟩ := time.valid
  have hsplit : time.nano / nanosPerMilli = time.millis := rfl
  unfold nanosPerSecond at hnano
  unfold assemble TimeOfDay.writtenSecond TimeOfDay.writtenMillis
  by_cases hleap : time.isLeap = true
  · -- written as second 60: the whole second more goes back into the nanoseconds
    have hge : nanosPerSecond ≤ time.nano := by simpa [TimeOfDay.isLeap] using hleap
    unfold nanosPerSecond at hge
    unfold nanosPerMilli at hsplit hparts
    have h59 : time.second = 59 := by omega
    have htotal : nanosPerSecond + time.millis % 1000 * nanosPerMilli = time.millis * 1000000 := by
      unfold nanosPerSecond nanosPerMilli
      omega
    simp only [hleap, if_true]
    rw [htotal, ← h59, hparts]
    rfl
  · have hlt : ¬ nanosPerSecond ≤ time.nano := by simpa [TimeOfDay.isLeap] using hleap
    unfold nanosPerSecond at hlt
    unfold nanosPerMilli at hsplit hparts
    have hne : ¬ time.second = 60 := by omega
    have htotal : 0 + time.millis % 1000 * nanosPerMilli = time.millis * 1000000 := by
      unfold nanosPerMilli
      omega
    simp only [hleap, Bool.false_eq_true, if_false, hne]
    rw [htotal, hparts]
    rfl

end TimeText

open TimeText

/-- **Reading the stored form of a time gives the time cut to milliseconds.** -/
theorem DateTime.ofText_text (t : DateTime) : DateTime.ofText t.text = .ok t.truncate := by
  obtain ⟨hyl, hyh, hml, hmh, hdl, hdh⟩ := t.date.valid
  have hdays : daysInMonth t.date.year t.date.month ≤ 31 := by
    unfold daysInMonth
    split <;> (try split) <;> omega
  obtain ⟨hhour, hminute, hsecond, -⟩ := t.time.valid
  have hwritten : t.time.writtenSecond ≤ 60 := by
    unfold TimeOfDay.writtenSecond
    split <;> omega
  have hmillis : t.time.writtenMillis < 1000 := Nat.mod_lt _ (by decide)
  unfold DateTime.ofText DateTime.text DateTime.chars
  rw [String.toList_ofList]
  simp only [List.append_assoc, List.cons_append]
  unfold parse
  simp only [year_yearText hyl hyh, mark_cons, bounded_blank,
    bounded_padded hml hmh (by omega), bounded_padded hdl (Nat.le_trans hdh hdays) (by omega),
    bounded_padded (Nat.zero_le _) (Nat.le_of_lt_succ hhour) (by omega),
    bounded_padded (Nat.zero_le _) (Nat.le_of_lt_succ hminute) (by omega),
    bounded_padded (Nat.zero_le _) hwritten (by omega), fraction_padded hmillis, bind, Except.bind,
    List.isEmpty_nil, if_true]
  exact assemble_written t

/-- What the cut takes off is not written. -/
theorem DateTime.text_truncate (t : DateTime) : t.truncate.text = t.text := by
  have hleap : t.time.truncate.isLeap = t.time.isLeap := by
    have hmillis : t.time.millis = t.time.nano / nanosPerMilli := rfl
    have hnano : t.time.truncate.nano = t.time.millis * nanosPerMilli := rfl
    unfold TimeOfDay.isLeap
    rw [decide_eq_decide, hnano, hmillis]
    unfold nanosPerSecond nanosPerMilli
    omega
  have hsecond : t.time.truncate.writtenSecond = t.time.writtenSecond := by
    unfold TimeOfDay.writtenSecond
    rw [hleap]
    rfl
  have hwritten : t.time.truncate.writtenMillis = t.time.writtenMillis := by
    unfold TimeOfDay.writtenMillis
    rw [TimeOfDay.millis_truncate]
  unfold DateTime.text DateTime.chars DateTime.truncate
  rw [hsecond, hwritten]
  rfl

end MetadataStore
