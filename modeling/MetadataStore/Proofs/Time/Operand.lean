import MetadataStore.Proofs.Time.Order
import MetadataStore.Proofs.Time.Spelling

/-!
# `Proofs.Time.Operand` — what a time operand means

The pattern of time operands knows the digits of every script, but what a part is worth is read from
ASCII digits only. A year in other digits is no year, and a month or a day in other digits counts as zero
and makes no date: such operands are refused. An hour, a minute, a second or a fraction in other digits
counts as if it were left out, and the operand is accepted for a time that it does not spell.

## Contents
- `TimePattern.Denotes`, the time that the parts denote; `time?_eq_some`: what is read of them.
- `DateLegible`, `ClockLegible`: where digits of other scripts do no harm.
- `DateTime.ofOperand?_eq_some`, the meaning of an operand; `meansWhatItSpells_iff`: when it is what the
  operand spells.
- `DateTime.ofOperand?_text`: a time is read back from its stored form.
-/

namespace MetadataStore

namespace TimePattern

open Text

/-! ## What parts are worth -/

theorem worth_eq (ds : List Char) : worth ds = denoted (legible ds) := by
  unfold legible
  split
  · rename_i hascii
    unfold worth readDigits?
    split
    · rename_i hempty
      rw [List.isEmpty_iff.1 hempty]
      rfl
    · rw [readDigitsFrom?_eq_some.2 ⟨hascii, rfl⟩]
      rfl
  · rename_i hforeign
    have hnone : readDigitsFrom? 0 ds = none :=
      Option.eq_none_iff_forall_ne_some.2 fun n h => hforeign (readDigitsFrom?_eq_some.1 h).1
    unfold worth readDigits?
    split
    · rfl
    · rw [hnone]
      rfl

/-- The nanoseconds of a fraction are what its digits denote after the point. -/
theorem fractionNanos_eq {ds : List Char} (h : ds.length ≤ 3) :
    fractionNanos ds * 10 ^ (legible ds).length = denoted (legible ds) * nanosPerSecond := by
  have hzeros : IsAscii (List.replicate (3 - ds.length) '0') := fun c hc => by
    rw [List.eq_of_mem_replicate hc]
    decide
  have hfilled : IsAscii (ds ++ List.replicate (3 - ds.length) '0') ↔ IsAscii ds := by
    unfold IsAscii at hzeros ⊢
    rw [List.forall_mem_append]
    exact and_iff_left hzeros
  unfold fractionNanos
  rw [worth_eq]
  unfold legible
  by_cases hascii : IsAscii ds
  · rw [if_pos (hfilled.2 hascii), if_pos hascii, denoted, denotedFrom_append_zeros]
    have hthree : 10 ^ (3 - ds.length) * 10 ^ ds.length = 1000 := by
      rw [← Nat.pow_add, Nat.sub_add_cancel h]
    calc denotedFrom 0 ds * 10 ^ (3 - ds.length) * nanosPerMilli * 10 ^ ds.length
        = denotedFrom 0 ds * (10 ^ (3 - ds.length) * 10 ^ ds.length * nanosPerMilli) := by
          simp only [Nat.mul_assoc, Nat.mul_comm nanosPerMilli]
      _ = denoted ds * nanosPerSecond := by
          rw [hthree]
          rfl
  · rw [if_neg (mt hfilled.1 hascii), if_neg hascii]
    rfl

/-! ## The time that parts denote -/

/-- The parts denote a time, in whatever digits. What is left out is zero, and a fraction counts behind the
point. -/
structure Denotes (p : TimePattern) (t : DateTime) : Prop where
  year : t.date.year = denoted p.year
  month : t.date.month = denoted p.month
  day : t.date.day = denoted p.day
  hour : t.time.hour = denoted p.hour
  minute : t.time.minute = denoted p.minute
  second : t.time.second = denoted p.second
  fraction : t.time.nano * 10 ^ p.fraction.length = denoted p.fraction * nanosPerSecond

variable {p : TimePattern} {t u : DateTime} {cs : List Char}

theorem Denotes.unique (ht : p.Denotes t) (hu : p.Denotes u) : t = u := by
  have hnano : t.time.nano = u.time.nano :=
    Nat.eq_of_mul_eq_mul_right (Nat.pow_pos (by decide)) (ht.fraction.trans hu.fraction.symm)
  have hsame := DateTime.ofParts?_eq_some.2 ⟨ht.year, ht.month, ht.day, ht.hour, ht.minute, ht.second, rfl⟩
  rw [DateTime.ofParts?_eq_some.2 ⟨hu.year, hu.month, hu.day, hu.hour, hu.minute, hu.second, hnano.symm⟩]
    at hsame
  exact (Option.some.inj hsame).symm

/-- A fraction is less than a second. -/
theorem Denotes.nano_lt (h : p.Denotes t) : t.time.nano < nanosPerSecond := by
  have hpos : 0 < 10 ^ p.fraction.length := Nat.pow_pos (by decide)
  refine Nat.lt_of_mul_lt_mul_right (a := 10 ^ p.fraction.length) ?_
  rw [h.fraction, Nat.mul_comm]
  exact Nat.mul_lt_mul_of_pos_left (denoted_lt _) (by decide)

/-- The parts with those that cannot be read left out. A year is never left out. -/
def readable (p : TimePattern) : TimePattern :=
  ⟨p.year, legible p.month, legible p.day, legible p.hour, legible p.minute, legible p.second,
    legible p.fraction⟩

/-- **What is read of the parts is what those that can be read denote**, as long as the year can be. -/
theorem time?_eq_some (h : p.Spells cs) :
    p.time? = some t ↔ IsAscii p.year ∧ p.readable.Denotes t := by
  have hyear : p.year.isEmpty = false := by
    cases hempty : p.year with
    | nil => exact absurd (hempty ▸ h.year.atLeast) (by decide)
    | cons c ds => rfl
  have hfraction : t.time.nano = fractionNanos p.fraction ↔
      t.time.nano * 10 ^ (legible p.fraction).length = denoted (legible p.fraction) * nanosPerSecond := by
    rw [← fractionNanos_eq h.length_fraction]
    exact ⟨fun heq => by rw [heq], Nat.eq_of_mul_eq_mul_right (Nat.pow_pos (by decide))⟩
  unfold time?
  rw [readDigits?, hyear, if_neg Bool.false_ne_true]
  simp only [bind, Option.bind_eq_some_iff, readDigitsFrom?_eq_some, DateTime.ofParts?_eq_some, worth_eq,
    hfraction]
  constructor
  · rintro ⟨_, ⟨hascii, rfl⟩, hy, hm, hd, hh, hmin, hs, hf⟩
    exact ⟨hascii, hy, hm, hd, hh, hmin, hs, hf⟩
  · rintro ⟨hascii, hy, hm, hd, hh, hmin, hs, hf⟩
    exact ⟨_, ⟨hascii, rfl⟩, hy, hm, hd, hh, hmin, hs, hf⟩

/-! ## Parts in other digits -/

/-- Year, month and day are written in ASCII digits. -/
def DateLegible (p : TimePattern) : Prop :=
  IsAscii p.year ∧ IsAscii p.month ∧ IsAscii p.day

/-- Hour, minute, second and fraction are written in ASCII digits, or else denote zero. -/
def ClockLegible (p : TimePattern) : Prop :=
  ∀ part ∈ [p.hour, p.minute, p.second, p.fraction], IsAscii part ∨ denoted part = 0

/-- There is no date in a month or on a day that cannot be read. -/
theorem Denotes.dateLegible (h : p.readable.Denotes t) (hyear : IsAscii p.year) : p.DateLegible := by
  have hascii : ∀ {ds : List Char}, 1 ≤ denoted (legible ds) → IsAscii ds := by
    intro ds hpos
    unfold legible at hpos
    split at hpos
    · assumption
    · exact absurd hpos (by decide)
  obtain ⟨-, -, hmonth, -, hday, -⟩ := t.date.valid
  exact ⟨hyear, hascii (h.month ▸ hmonth), hascii (h.day ▸ hday)⟩

/-- Parts that denote zero may as well be left out. -/
theorem denotes_readable (hdate : p.DateLegible) (hclock : p.ClockLegible) :
    p.readable.Denotes t ↔ p.Denotes t := by
  have hmonth := denoted_legible (Or.inl hdate.2.1)
  have hday := denoted_legible (Or.inl hdate.2.2)
  have hhour := denoted_legible (hclock p.hour (by simp))
  have hminute := denoted_legible (hclock p.minute (by simp))
  have hsecond := denoted_legible (hclock p.second (by simp))
  have hfraction : t.time.nano * 10 ^ (legible p.fraction).length =
        denoted (legible p.fraction) * nanosPerSecond ↔
      t.time.nano * 10 ^ p.fraction.length = denoted p.fraction * nanosPerSecond := by
    rw [denoted_legible (hclock p.fraction (by simp))]
    rcases hclock p.fraction (by simp) with hascii | hzero
    · rw [legible, if_pos hascii]
    · -- nothing behind the point is nothing, however many digits it has
      simp [hzero]
  constructor
  · rintro ⟨hy, hm, hd, hh, hmin, hs, hf⟩
    exact ⟨hy, hm.trans hmonth, hd.trans hday, hh.trans hhour, hmin.trans hminute, hs.trans hsecond,
      hfraction.1 hf⟩
  · rintro ⟨hy, hm, hd, hh, hmin, hs, hf⟩
    exact ⟨hy, hm.trans hmonth.symm, hd.trans hday.symm, hh.trans hhour.symm, hmin.trans hminute.symm,
      hs.trans hsecond.symm, hfraction.2 hf⟩

/-- A time of which some parts are left out is a time. -/
theorem Denotes.exists_readable (h : p.Denotes t) (hdate : p.DateLegible) :
    ∃ u, p.readable.Denotes u := by
  have hle : ∀ ds : List Char, denoted (legible ds) ≤ denoted ds := by
    intro ds
    unfold legible
    split
    · exact Nat.le_refl _
    · exact Nat.zero_le _
  obtain ⟨hhour, hminute, hsecond, -⟩ := t.time.valid
  have hnano := h.nano_lt
  have hh := hle p.hour
  have hmin := hle p.minute
  have hs := hle p.second
  rw [← h.hour] at hh
  rw [← h.minute] at hmin
  rw [← h.second] at hs
  let nano := if IsAscii p.fraction then t.time.nano else 0
  have hvalid : TimeOfDay.IsValid (denoted (legible p.hour)) (denoted (legible p.minute))
      (denoted (legible p.second)) nano := by
    refine ⟨by omega, by omega, by omega, Or.inl ?_⟩
    show (if IsAscii p.fraction then t.time.nano else 0) < nanosPerSecond
    split
    · exact hnano
    · decide
  refine ⟨⟨t.date, ⟨_, _, _, _, hvalid⟩⟩, h.year, ?_, ?_, rfl, rfl, rfl, ?_⟩
  · exact h.month.trans (denoted_legible (Or.inl hdate.2.1)).symm
  · exact h.day.trans (denoted_legible (Or.inl hdate.2.2)).symm
  · show (if IsAscii p.fraction then t.time.nano else 0) * 10 ^ (legible p.fraction).length =
      denoted (legible p.fraction) * nanosPerSecond
    unfold legible
    split
    · exact h.fraction
    · rfl

/-- When what is read is what the parts denote, those left out denote zero. -/
theorem Denotes.clockLegible (h : p.Denotes t) (hread : p.readable.Denotes t) : p.ClockLegible := by
  have hzero : ∀ {ds : List Char}, denoted ds = denoted (legible ds) → IsAscii ds ∨ denoted ds = 0 := by
    intro ds hsame
    unfold legible at hsame
    split at hsame
    · exact Or.inl (by assumption)
    · exact Or.inr hsame
  intro part hpart
  simp only [List.mem_cons, List.not_mem_nil, or_false] at hpart
  rcases hpart with rfl | rfl | rfl | rfl
  · exact hzero (h.hour.symm.trans hread.hour)
  · exact hzero (h.minute.symm.trans hread.minute)
  · exact hzero (h.second.symm.trans hread.second)
  · by_cases hascii : IsAscii p.fraction
    · exact Or.inl hascii
    · have hnone : legible p.fraction = [] := if_neg hascii
      have hnano : t.time.nano * 10 ^ (legible p.fraction).length =
        denoted (legible p.fraction) * nanosPerSecond := hread.fraction
      have hsame := h.fraction
      rw [hnone] at hnano
      refine Or.inr ?_
      have hn : t.time.nano = 0 := by simpa [denoted, denotedFrom] using hnano
      rw [hn, Nat.zero_mul] at hsame
      exact (Nat.mul_eq_zero.1 hsame.symm).resolve_right (by decide)

end TimePattern

/-! ## Operands -/

/-- A text that names the present or its day. -/
def IsTimeWord (s : String) : Prop :=
  Text.lower s ∈ ["n", "now", "d", "t", "today"]

instance : DecidablePred IsTimeWord := fun s =>
  inferInstanceAs (Decidable (Text.lower s ∈ ["n", "now", "d", "t", "today"]))

namespace DateTime

open Text TimePattern

variable {now t : DateTime} {s : String} {p : TimePattern}

/-- No word spells a time: lowering loses no characters, and a date has more of them than any word. -/
theorem not_isTimeWord_of_spells (h : p.Spells s.toList) : ¬IsTimeWord s := by
  intro hword
  have hwords : ∀ w ∈ ["n", "now", "d", "t", "today"], w.toList.length ≤ 5 := by decide
  have hshort := hwords _ hword
  obtain ⟨hyear, hmonth, hday, rest, -, hs⟩ := h
  have hlower := length_le_length_lowerFrom [] s.toList
  have hlen := congrArg List.length hs
  simp only [List.length_append, List.length_cons] at hlen
  have hyears := hyear.atLeast
  have hmonths := hmonth.atLeast
  have hdays := hday.atLeast
  rw [lower, lowerChars, String.toList_ofList] at hshort
  omega

/-- **An operand that is no word is accepted if it spells a time of which the year can be read, and then
for what those of its parts denote that can be read.** -/
theorem ofOperand?_eq_some (hword : ¬IsTimeWord s) :
    ofOperand? now s = some t ↔
      ∃ p : TimePattern, p.Spells s.toList ∧ IsAscii p.year ∧ p.readable.Denotes t := by
  have hother : ofOperand? now s = (ofChars? s.toList).bind time? := by
    simp only [IsTimeWord, List.mem_cons, List.not_mem_nil, or_false, not_or] at hword
    simp [ofOperand?, hword]
  rw [hother, Option.bind_eq_some_iff]
  refine exists_congr fun p => ?_
  rw [ofChars?_eq_some]
  exact and_congr_right fun hspells => time?_eq_some hspells

/-- The operand is accepted just if it spells a time, and then for that time. -/
def MeansWhatItSpells (now : DateTime) (s : String) : Prop :=
  ∀ t, ofOperand? now s = some t ↔ ∃ p : TimePattern, p.Spells s.toList ∧ p.Denotes t

/-- **An operand means what it spells** unless it has digits of other scripts where that matters: in the
date of a time that it spells, or, if it is accepted, in a part of the time that does not denote zero. -/
theorem meansWhatItSpells_iff (hword : ¬IsTimeWord s) :
    MeansWhatItSpells now s ↔
      ∀ p : TimePattern, p.Spells s.toList →
        ((∃ t, p.Denotes t) → p.DateLegible) ∧ ((∃ t, ofOperand? now s = some t) → p.ClockLegible) := by
  have hread : ∀ {p : TimePattern}, p.Spells s.toList → ∀ t,
      ofOperand? now s = some t ↔ IsAscii p.year ∧ p.readable.Denotes t := by
    intro p hp t
    rw [ofOperand?_eq_some hword]
    constructor
    · rintro ⟨q, hq, hmeaning⟩
      rwa [hp.unique hq]
    · exact fun hmeaning => ⟨p, hp, hmeaning⟩
  constructor
  · intro h p hp
    constructor
    · rintro ⟨t, ht⟩
      obtain ⟨hyear, hreadable⟩ := (hread hp t).1 ((h t).2 ⟨p, hp, ht⟩)
      exact hreadable.dateLegible hyear
    · rintro ⟨t, ht⟩
      obtain ⟨q, hq, hdenotes⟩ := (h t).1 ht
      obtain rfl := hp.unique hq
      exact hdenotes.clockLegible ((hread hp t).1 ht).2
  · intro h t
    constructor
    · intro ht
      obtain ⟨p, hp, hyear, hreadable⟩ := (ofOperand?_eq_some hword).1 ht
      have hclock := (h p hp).2 ⟨t, ht⟩
      exact ⟨p, hp, (denotes_readable (hreadable.dateLegible hyear) hclock).1 hreadable⟩
    · rintro ⟨p, hp, ht⟩
      have hdate := (h p hp).1 ⟨t, ht⟩
      -- with its other parts left out it is accepted in any case, so there are none
      obtain ⟨u, hu⟩ := ht.exists_readable hdate
      have hclock := (h p hp).2 ⟨u, (hread hp u).2 ⟨hdate.1, hu⟩⟩
      exact (hread hp t).2 ⟨hdate.1, (denotes_readable hdate hclock).2 ht⟩

/-- Operands of ASCII characters mean what they spell. -/
theorem meansWhatItSpells_of_ascii (hword : ¬IsTimeWord s) (hascii : ∀ c ∈ s.toList, c.toNat < 128) :
    MeansWhatItSpells now s := by
  refine (meansWhatItSpells_iff hword).2 fun p hp => ?_
  have hpart : ∀ part ∈ [p.year, p.month, p.day, p.hour, p.minute, p.second, p.fraction],
      IsAscii part := by
    intro part hpart c hc
    obtain ⟨hmem, hdigit⟩ := hp.mem_of_mem_part hpart hc
    exact isSome_asciiDigit? hdigit (hascii c hmem)
  refine ⟨fun _ => ⟨hpart _ (by simp), hpart _ (by simp), hpart _ (by simp)⟩, fun _ part hclock => ?_⟩
  exact Or.inl (hpart part (List.mem_append_right [p.year, p.month, p.day] hclock))

/-! ## Stored forms -/

/-- The parts of the stored form of a time. -/
def pattern (t : DateTime) : TimePattern :=
  ⟨padded 4 t.date.year.natAbs, padded 2 t.date.month, padded 2 t.date.day, padded 2 t.time.hour,
    padded 2 t.time.minute, padded 2 t.time.second, padded 3 t.time.millis⟩

theorem isRun_padded {width n : Nat} (hpos : 0 < width) (h : n < 10 ^ width) (low : Nat)
    (hlow : low ≤ width) : IsRun low width (padded width n) := by
  have hlen := length_padded hpos h
  exact ⟨by omega, by omega, fun c hc => isDigit_of_asciiDigit? (asciiDigit?_of_mem_padded hc)⟩

/-- Outside of leap seconds milliseconds are no second. -/
theorem millis_lt (hleap : t.time.isLeap = false) : t.time.millis < 1000 := by
  have hnano : t.time.nano < nanosPerSecond := by simpa [TimeOfDay.isLeap] using hleap
  exact Nat.div_lt_of_lt_mul hnano

/-- The stored form of a time is that of its parts. -/
theorem spells_chars (hleap : t.time.isLeap = false) (hyear : 0 ≤ t.date.year ∧ t.date.year ≤ 9999) :
    t.pattern.Spells t.chars := by
  obtain ⟨-, -, -, hmonth, -, hday⟩ := t.date.valid
  have hdays := Digest.daysInMonth_le t.date.year t.date.month
  obtain ⟨hhour, hminute, hsecond, -⟩ := t.time.valid
  have hmillis := millis_lt hleap
  have htwo : ∀ {n low : Nat}, n < 100 → low ≤ 2 → IsRun low 2 (padded 2 n) := fun hn hlow =>
    isRun_padded (by decide) hn _ hlow
  refine ⟨isRun_padded (by decide) (by omega) _ (by decide), htwo (by omega) (by decide),
    htwo (by omega) (by decide), _, Or.inr ⟨htwo (by omega) (by decide), htwo (by omega) (by decide), ' ', _,
      Or.inl rfl, Or.inr ⟨htwo (by omega) (by decide), _,
        Or.inr ⟨isRun_padded (by decide) hmillis _ (by decide), rfl⟩, rfl⟩, rfl⟩, ?_⟩
  simp only [chars, pattern, yearText_plain hyear, TimeOfDay.writtenSecond, TimeOfDay.writtenMillis, hleap,
    Nat.mod_eq_of_lt hmillis, List.append_assoc, List.cons_append, Bool.false_eq_true, if_false]

/-- Whole milliseconds are what the parts of the stored form denote. -/
theorem denotes_pattern (hcut : t.truncate = t) (hleap : t.time.isLeap = false) (hyear : 0 ≤ t.date.year) :
    t.pattern.Denotes t := by
  have hnano : t.time.millis * nanosPerMilli = t.time.nano := congrArg (fun u => u.time.nano) hcut
  have hlen : (padded 3 t.time.millis).length = 3 := length_padded (by decide) (millis_lt hleap)
  refine ⟨?_, (denoted_padded _ _).symm, (denoted_padded _ _).symm, (denoted_padded _ _).symm,
    (denoted_padded _ _).symm, (denoted_padded _ _).symm, ?_⟩
  · show t.date.year = (denoted (padded 4 t.date.year.natAbs) : Int)
    rw [denoted_padded]
    omega
  · show t.time.nano * 10 ^ (padded 3 t.time.millis).length =
      denoted (padded 3 t.time.millis) * nanosPerSecond
    rw [hlen, denoted_padded, ← hnano, Nat.mul_assoc]
    rfl

/-- **A time in whole milliseconds is read back from its stored form**, outside of leap seconds and as long
as its year is written without a sign. -/
theorem ofOperand?_text (hcut : t.truncate = t) (hleap : t.time.isLeap = false)
    (hyear : 0 ≤ t.date.year ∧ t.date.year ≤ 9999) : ofOperand? now t.text = some t := by
  have hspells : t.pattern.Spells t.text.toList := by
    rw [text, String.toList_ofList]
    exact spells_chars hleap hyear
  have hdate : t.pattern.DateLegible := ⟨isAscii_padded _ _, isAscii_padded _ _, isAscii_padded _ _⟩
  have hclock : t.pattern.ClockLegible := by
    intro part hpart
    simp only [pattern, List.mem_cons, List.not_mem_nil, or_false] at hpart
    rcases hpart with rfl | rfl | rfl | rfl <;> exact Or.inl (isAscii_padded _ _)
  exact (ofOperand?_eq_some (not_isTimeWord_of_spells hspells)).2
    ⟨t.pattern, hspells, hdate.1,
      (denotes_readable hdate hclock).2 (denotes_pattern hcut hleap hyear.1)⟩

/-- **What time operands mean.** An operand that is no word is accepted if it spells a time of which the
year can be read, for what those of its parts denote that can be read. So it means what it spells unless it
has digits of other scripts where that matters, and operands of ASCII characters always do. In particular
every time in whole milliseconds, outside of leap seconds and of a year of four digits, is read back from
its stored form. -/
theorem time_operand_meaning (now : DateTime) :
    (∀ s, ¬IsTimeWord s →
      (∀ t, ofOperand? now s = some t ↔
        ∃ p : TimePattern, p.Spells s.toList ∧ IsAscii p.year ∧ p.readable.Denotes t) ∧
      (MeansWhatItSpells now s ↔
        ∀ p : TimePattern, p.Spells s.toList →
          ((∃ t, p.Denotes t) → p.DateLegible) ∧
            ((∃ t, ofOperand? now s = some t) → p.ClockLegible)) ∧
      ((∀ c ∈ s.toList, c.toNat < 128) → MeansWhatItSpells now s)) ∧
    (∀ t : DateTime, t.truncate = t → t.time.isLeap = false → 0 ≤ t.date.year ∧ t.date.year ≤ 9999 →
      ofOperand? now t.text = some t) :=
  ⟨fun _ hword => ⟨fun _ => ofOperand?_eq_some hword, meansWhatItSpells_iff hword,
    meansWhatItSpells_of_ascii hword⟩, fun _ => ofOperand?_text⟩

/-- Half a second after a quarter past ten on the fifth of January 2024. -/
def january5 : DateTime :=
  ⟨⟨2024, 1, 5, by decide⟩, ⟨10, 15, 0, 500000000, by decide⟩⟩

/-- Short parts and a short fraction mean what they spell, and so does the stored form. -/
theorem january5_read_back :
    ¬IsTimeWord "2024-1-5T10:15:00.5" ∧
    ofOperand? .epoch "2024-1-5T10:15:00.5" = some january5 ∧
    ofOperand? .epoch january5.text = some january5 := by
  obtain ⟨hmeaning, hstored⟩ := time_operand_meaning .epoch
  have hword : ¬IsTimeWord "2024-1-5T10:15:00.5" := by decide +kernel
  have hspells : TimePattern.Spells ⟨['2', '0', '2', '4'], ['1'], ['5'], ['1', '0'], ['1', '5'], ['0', '0'], ['5']⟩
      "2024-1-5T10:15:00.5".toList := ofChars?_eq_some.1 (by decide +kernel)
  have hdenotes : TimePattern.Denotes
      ⟨['2', '0', '2', '4'], ['1'], ['5'], ['1', '0'], ['1', '5'], ['0', '0'], ['5']⟩ january5 :=
    ⟨rfl, rfl, rfl, rfl, rfl, rfl, rfl⟩
  obtain ⟨-, -, hascii⟩ := hmeaning _ hword
  exact ⟨hword, (hascii (by simp) _).2 ⟨_, hspells, hdenotes⟩,
    hstored _ (by decide) (by decide) (by decide)⟩

/-- The start of 2020. -/
def newYear2020 : DateTime :=
  ⟨⟨2020, 1, 1, by decide⟩, .midnight⟩

/-- Half past twelve on the first day of 2020. -/
def noon2020 : DateTime :=
  ⟨⟨2020, 1, 1, by decide⟩, ⟨12, 30, 0, 0, by decide⟩⟩

/-- A time of day in Arabic digits is taken for midnight: half past twelve as well as one that there is not. A
year in Arabic digits is refused. -/
theorem arabic_time_taken_for_midnight :
    (¬IsTimeWord "2020-01-01 \u0661\u0662:\u0663\u0660" ∧
      ofOperand? .epoch "2020-01-01 \u0661\u0662:\u0663\u0660" = some newYear2020 ∧
      (∃ p : TimePattern, p.Spells "2020-01-01 \u0661\u0662:\u0663\u0660".toList ∧ p.Denotes noon2020) ∧
      ¬MeansWhatItSpells .epoch "2020-01-01 \u0661\u0662:\u0663\u0660") ∧
    (¬IsTimeWord "2020-01-01 \u0669\u0669:\u0669\u0669" ∧
      ofOperand? .epoch "2020-01-01 \u0669\u0669:\u0669\u0669" = some newYear2020 ∧
      (¬∃ (t : DateTime) (p : TimePattern),
        p.Spells "2020-01-01 \u0669\u0669:\u0669\u0669".toList ∧ p.Denotes t) ∧
      ¬MeansWhatItSpells .epoch "2020-01-01 \u0669\u0669:\u0669\u0669") ∧
    (¬IsTimeWord "\u0662\u0660\u0662\u0660-01-01" ∧
      ofOperand? .epoch "\u0662\u0660\u0662\u0660-01-01" = none ∧
      ∃ p : TimePattern, p.Spells "\u0662\u0660\u0662\u0660-01-01".toList ∧ p.Denotes newYear2020) := by
  have hnoon : TimePattern.Spells
      ⟨['2', '0', '2', '0'], ['0', '1'], ['0', '1'], ['\u0661', '\u0662'], ['\u0663', '\u0660'], [], []⟩
      "2020-01-01 \u0661\u0662:\u0663\u0660".toList := ofChars?_eq_some.1 (by decide +kernel)
  have hnoonRead : ofOperand? .epoch "2020-01-01 \u0661\u0662:\u0663\u0660" = some newYear2020 := by
    decide +kernel
  have hnone : TimePattern.Spells
      ⟨['2', '0', '2', '0'], ['0', '1'], ['0', '1'], ['\u0669', '\u0669'], ['\u0669', '\u0669'], [], []⟩
      "2020-01-01 \u0669\u0669:\u0669\u0669".toList := ofChars?_eq_some.1 (by decide +kernel)
  have hnoneRead : ofOperand? .epoch "2020-01-01 \u0669\u0669:\u0669\u0669" = some newYear2020 := by
    decide +kernel
  have hnothing : ¬∃ (t : DateTime) (p : TimePattern),
      p.Spells "2020-01-01 \u0669\u0669:\u0669\u0669".toList ∧ p.Denotes t := by
    rintro ⟨t, p, hspells, hdenotes⟩
    -- there is no hour 99
    have hhour := hdenotes.hour
    rw [hspells.unique hnone] at hhour
    have h99 : denoted ['\u0669', '\u0669'] = 99 := by decide +kernel
    have hlt := t.time.valid.1
    rw [hhour, h99] at hlt
    exact absurd hlt (by decide)
  have hyear : TimePattern.Spells
      ⟨['\u0662', '\u0660', '\u0662', '\u0660'], ['0', '1'], ['0', '1'], [], [], [], []⟩
      "\u0662\u0660\u0662\u0660-01-01".toList := ofChars?_eq_some.1 (by decide +kernel)
  refine ⟨⟨not_isTimeWord_of_spells hnoon, hnoonRead, ⟨_, hnoon, ?_⟩, ?_⟩,
    ⟨not_isTimeWord_of_spells hnone, hnoneRead, hnothing, ?_⟩,
    ⟨not_isTimeWord_of_spells hyear, by decide +kernel, ⟨_, hyear, ?_⟩⟩⟩
  · constructor <;> decide +kernel
  · intro hmeans
    obtain ⟨p, hspells, hdenotes⟩ := (hmeans newYear2020).1 hnoonRead
    have hhour := hdenotes.hour
    rw [hspells.unique hnoon] at hhour
    exact absurd hhour (by decide +kernel)
  · intro hmeans
    exact hnothing ⟨newYear2020, (hmeans newYear2020).1 hnoneRead⟩
  · constructor <;> decide +kernel

end DateTime

end MetadataStore
