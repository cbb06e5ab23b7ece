import Mathlib.Data.List.Basic
import Mathlib.Tactic.Ring
import MetadataStore.Digest
import MetadataStore.Proofs.Text.Order

/-!
# `Proofs.Digest` — element sequences are told apart by their bytes

A sequence of elements of one kind can be read off its bytes, since those of an element show where it
ends: most kinds have a fixed number of them, a text ends in a byte that no text contains, and opaque
bytes come after their number. So two sequences of one digest are the same unless the mixing itself
brings their bytes together.

## Contents
- `eq_of_littleEndian`, `packDate_injective`, `encodeTime_injective`: the parts of fixed width.
- `Datum.IsAddressable`, elements whose bytes can be counted in a machine word.
- `encodeDatum_append_injective`: the bytes of an element show where it ends.
- `encode_injective`, `eq_of_ofElements`: sequences of one digest.
-/

namespace MetadataStore

/-- The bytes of an element can be counted in a machine word. Only opaque bytes are counted at all. -/
def Datum.IsAddressable : Datum → Prop
  | .data bytes => bytes.length < 2 ^ 64
  | _ => True

instance : (datum : Datum) → Decidable datum.IsAddressable
  | .data bytes => inferInstanceAs (Decidable (bytes.length < 2 ^ 64))
  | .string _ | .time _ | .integer _ | .long _ | .double _ | .boolean _ => .isTrue trivial

@[simp] theorem Datum.isAddressable_settled (datum : Datum) :
    datum.settled.IsAddressable ↔ datum.IsAddressable := by
  cases datum <;> rfl

namespace Digest

/-! ## Numbers -/

/-- The bytes of a number give back as much of it as they have room for. -/
theorem mod_eq_of_littleEndian {width m n : Nat} (h : littleEndian width m = littleEndian width n) :
    m % 256 ^ width = n % 256 ^ width := by
  induction width generalizing m n with
  | zero => simp [Nat.mod_one]
  | succ width ih =>
    obtain ⟨hlow, hhigh⟩ := List.cons.inj h
    have hlow : m % 256 = n % 256 := by
      simpa using congrArg UInt8.toNat hlow
    rw [pow_succ', Nat.mod_mul, Nat.mod_mul, ih hhigh, hlow]

theorem eq_of_littleEndian {width m n : Nat} (hm : m < 256 ^ width) (hn : n < 256 ^ width)
    (h : littleEndian width m = littleEndian width n) : m = n := by
  have hmod := mod_eq_of_littleEndian h
  rwa [Nat.mod_eq_of_lt hm, Nat.mod_eq_of_lt hn] at hmod

/-! ## Times -/

/-- A later month begins after the last day of an earlier one. -/
theorem daysInMonths_le (year : Int) {month later : Nat} (h : month < later) :
    daysInMonths year (month + 1) ≤ daysInMonths year later := by
  induction later with
  | zero => omega
  | succ later ih =>
    by_cases heq : month = later
    · rw [heq]
    · have := ih (by omega)
      show _ ≤ daysInMonths year later + daysInMonth year (later + 1)
      omega

theorem daysInMonth_le (year : Int) (month : Nat) : daysInMonth year month ≤ 31 := by
  unfold daysInMonth
  split
  · split <;> omega
  · split <;> omega

theorem daysInMonths_le_mul (year : Int) (month : Nat) : daysInMonths year month ≤ month * 31 := by
  induction month with
  | zero => exact Nat.le_refl 0
  | succ month ih =>
    have := daysInMonth_le year (month + 1)
    rw [daysInMonths]
    omega

theorem dayOfYear_le (date : Date) : dayOfYear date ≤ 372 := by
  obtain ⟨-, -, hlow, hhigh, -, hday⟩ := date.valid
  have hmonths := daysInMonths_le_mul date.year (date.month - 1)
  have := daysInMonth_le date.year date.month
  unfold dayOfYear
  omega

/-- Within a year the number of a day says which date it is. -/
theorem eq_of_dayOfYear {a b : Date} (hyear : a.year = b.year) (h : dayOfYear a = dayOfYear b) :
    a = b := by
  obtain ⟨-, -, halow, -, haday, hamonth⟩ := a.valid
  obtain ⟨-, -, hblow, -, hbday, hbmonth⟩ := b.valid
  have hsucc : a.month - 1 + 1 = a.month := by omega
  have hsucc' : b.month - 1 + 1 = b.month := by omega
  unfold dayOfYear at h
  rw [hyear] at h hamonth
  have hmonth : a.month = b.month := by
    by_contra hne
    rcases Nat.lt_or_gt_of_ne hne with hlt | hgt
    · have hbefore := daysInMonths_le b.year (show a.month - 1 < b.month - 1 by omega)
      rw [daysInMonths, hsucc] at hbefore
      omega
    · have hbefore := daysInMonths_le b.year (show b.month - 1 < a.month - 1 by omega)
      rw [daysInMonths, hsucc'] at hbefore
      omega
  have hday : a.day = b.day := by
    rw [hmonth] at h
    omega
  cases a
  cases b
  simp only at hyear hmonth hday
  subst hyear hmonth hday
  rfl

theorem yearFlags_bounds (year : Int) : 0 ≤ yearFlags year ∧ yearFlags year < 16 := by
  unfold yearFlags
  simp only
  split <;> omega

/-- A packed date fits into thirty-two bits. -/
theorem packDate_bounds (date : Date) : -2 ^ 31 ≤ packDate date ∧ packDate date < 2 ^ 31 := by
  obtain ⟨hlow, hhigh, -⟩ := date.valid
  have hday := dayOfYear_le date
  have hflags := yearFlags_bounds date.year
  unfold minYear at hlow
  unfold maxYear at hhigh
  unfold packDate
  omega

/-- **A packed date says which date it is.** -/
theorem packDate_injective {a b : Date} (h : packDate a = packDate b) : a = b := by
  have haday := dayOfYear_le a
  have hbday := dayOfYear_le b
  have haflags := yearFlags_bounds a.year
  have hbflags := yearFlags_bounds b.year
  unfold packDate at h
  have hyear : a.year = b.year := by omega
  rw [hyear] at h
  exact eq_of_dayOfYear hyear (by omega)

theorem eq_of_littleEndian_int32 {a b : Int32}
    (h : littleEndian 4 a.toUInt32.toNat = littleEndian 4 b.toUInt32.toNat) : a = b := by
  have hword := eq_of_littleEndian (UInt32.toNat_lt _) (UInt32.toNat_lt _) h
  cases a
  cases b
  exact congrArg Int32.ofUInt32 (UInt32.toNat_inj.1 hword)

theorem eq_of_littleEndian_int64 {a b : Int64}
    (h : littleEndian 8 a.toUInt64.toNat = littleEndian 8 b.toUInt64.toNat) : a = b := by
  have hword := eq_of_littleEndian (UInt64.toNat_lt _) (UInt64.toNat_lt _) h
  cases a
  cases b
  exact congrArg Int64.ofUInt64 (UInt64.toNat_inj.1 hword)

@[simp] theorem length_encodeTime (t : DateTime) : (encodeTime t).length = 12 := by
  simp [encodeTime]

/-- The seconds of a day say which second it is. -/
theorem eq_of_seconds {a b : TimeOfDay} (hnano : a.nano = b.nano)
    (h : a.hour * 3600 + a.minute * 60 + a.second = b.hour * 3600 + b.minute * 60 + b.second) :
    a = b := by
  obtain ⟨hahour, haminute, hasecond, -⟩ := a.valid
  obtain ⟨hbhour, hbminute, hbsecond, -⟩ := b.valid
  have hhour : a.hour = b.hour := by omega
  have hminute : a.minute = b.minute := by omega
  have hsecond : a.second = b.second := by omega
  cases a
  cases b
  simp only at hhour hminute hsecond hnano
  subst hhour hminute hsecond hnano
  rfl

theorem nano_lt (t : TimeOfDay) : t.nano < 256 ^ 4 := by
  obtain ⟨-, -, -, hnano⟩ := t.valid
  unfold nanosPerSecond at hnano
  omega

theorem seconds_lt (t : TimeOfDay) : t.hour * 3600 + t.minute * 60 + t.second < 256 ^ 4 := by
  obtain ⟨hhour, hminute, hsecond, -⟩ := t.valid
  omega

/-- **The bytes of a time say which time it is.** -/
theorem encodeTime_injective {a b : DateTime} (h : encodeTime a = encodeTime b) : a = b := by
  unfold encodeTime at h
  obtain ⟨hfront, hnano⟩ := List.append_inj h (by simp)
  obtain ⟨hdate, hseconds⟩ := List.append_inj hfront (by simp)
  have hdate : a.date = b.date := by
    have hword := congrArg Int32.toInt (eq_of_littleEndian_int32 hdate)
    have ha := packDate_bounds a.date
    have hb := packDate_bounds b.date
    rw [Int32.toInt_ofInt_of_le ha.1 ha.2, Int32.toInt_ofInt_of_le hb.1 hb.2] at hword
    exact packDate_injective hword
  have htime : a.time = b.time :=
    eq_of_seconds (eq_of_littleEndian (nano_lt a.time) (nano_lt b.time) hnano)
      (eq_of_littleEndian (seconds_lt a.time) (seconds_lt b.time) hseconds)
  cases a
  cases b
  simp only at hdate htime
  rw [hdate, htime]

/-! ## Texts -/

/-- No character has a byte of eight ones. -/
theorem not_mem_utf8EncodeChar (c : Char) : (0xFF : UInt8) ∉ String.utf8EncodeChar c := by
  have hne : ∀ n : Nat, n < 255 → (0xFF : UInt8) ≠ UInt8.ofNat n := by
    intro n hn heq
    have hbyte : 255 = n % 256 := by simpa using congrArg UInt8.toNat heq
    omega
  unfold String.utf8EncodeChar
  simp only
  split
  · simp only [List.mem_singleton]
    exact hne _ (by omega)
  · split
    · simp only [List.mem_cons, List.not_mem_nil, or_false, not_or]
      exact ⟨hne _ (by omega), hne _ (by omega)⟩
    · split
      · simp only [List.mem_cons, List.not_mem_nil, or_false, not_or]
        exact ⟨hne _ (by omega), hne _ (by omega), hne _ (by omega)⟩
      · simp only [List.mem_cons, List.not_mem_nil, or_false, not_or]
        exact ⟨hne _ (by omega), hne _ (by omega), hne _ (by omega), hne _ (by omega)⟩

/-- No text has a byte of eight ones. -/
theorem not_mem_toUTF8 (text : String) : (0xFF : UInt8) ∉ text.toUTF8.data.toList := by
  rw [Text.toUTF8_toList, List.mem_flatMap]
  rintro ⟨c, -, hc⟩
  exact not_mem_utf8EncodeChar c hc

theorem toUTF8_injective {a b : String} (h : a.toUTF8.data.toList = b.toUTF8.data.toList) : a = b :=
  String.toByteArray_inj.1 (ByteArray.ext (Array.toList_inj.1 h))

/-- What ends in the same byte, which stands nowhere before, is the same. -/
theorem append_end_injective {stop : UInt8} {xs ys s t : List UInt8} (hxs : stop ∉ xs)
    (hys : stop ∉ ys) (h : xs ++ stop :: s = ys ++ stop :: t) : xs = ys ∧ s = t := by
  induction xs generalizing ys with
  | nil =>
    cases ys with
    | nil => exact ⟨rfl, (List.cons.inj h).2⟩
    | cons y ys =>
      rw [(List.cons.inj h).1] at hys
      exact absurd List.mem_cons_self hys
  | cons x xs ih =>
    cases ys with
    | nil =>
      rw [← (List.cons.inj h).1] at hxs
      exact absurd List.mem_cons_self hxs
    | cons y ys =>
      obtain ⟨rfl, hrest⟩ := List.cons.inj h
      obtain ⟨rfl, hafter⟩ := ih (fun hmem => hxs (List.mem_cons_of_mem x hmem))
        (fun hmem => hys (List.mem_cons_of_mem x hmem)) hrest
      exact ⟨rfl, hafter⟩

/-! ## Elements -/

/-- **The bytes of an element show where it ends**: elements of one kind whose bytes begin a common
sequence are the same. -/
theorem encodeDatum_append_injective {x y : Datum} {s t : List UInt8} (hkind : x.kind = y.kind)
    (hx : x.IsAddressable) (hy : y.IsAddressable) (h : encodeDatum x ++ s = encodeDatum y ++ t) :
    x = y ∧ s = t := by
  cases x <;> cases y <;> cases hkind
  case string.string a b =>
    simp only [encodeDatum, List.append_assoc, List.singleton_append] at h
    obtain ⟨htext, hrest⟩ := append_end_injective (not_mem_toUTF8 a) (not_mem_toUTF8 b) h
    exact ⟨congrArg Datum.string (toUTF8_injective htext), hrest⟩
  case time.time a b =>
    obtain ⟨hbytes, hrest⟩ := List.append_inj h (by simp [encodeDatum])
    exact ⟨congrArg Datum.time (encodeTime_injective hbytes), hrest⟩
  case integer.integer a b =>
    obtain ⟨hbytes, hrest⟩ := List.append_inj h (by simp [encodeDatum])
    exact ⟨congrArg Datum.integer (eq_of_littleEndian_int32 hbytes), hrest⟩
  case long.long a b =>
    obtain ⟨hbytes, hrest⟩ := List.append_inj h (by simp [encodeDatum])
    exact ⟨congrArg Datum.long (eq_of_littleEndian_int64 hbytes), hrest⟩
  case double.double a b =>
    obtain ⟨hbytes, hrest⟩ := List.append_inj h (by simp [encodeDatum])
    have hbits := eq_of_littleEndian (UInt64.toNat_lt _) (UInt64.toNat_lt _) hbytes
    exact ⟨congrArg (fun bits => Datum.double ⟨bits⟩) (UInt64.toNat_inj.1 hbits), hrest⟩
  case boolean.boolean a b =>
    obtain ⟨hbytes, hrest⟩ := List.append_inj h (by simp [encodeDatum])
    refine ⟨?_, hrest⟩
    cases a <;> cases b <;> first | rfl | cases hbytes
  case data.data a b =>
    -- the numbers come first and agree, so the bytes they count are as many
    simp only [encodeDatum, List.append_assoc] at h
    obtain ⟨hcount, hbytes⟩ := List.append_inj h (by simp)
    have hlength : a.length = b.length := eq_of_littleEndian hx hy hcount
    obtain ⟨hsame, hrest⟩ := List.append_inj hbytes hlength
    exact ⟨congrArg Datum.data hsame, hrest⟩

theorem encodeDatum_ne_nil (x : Datum) : encodeDatum x ≠ [] := by
  intro h
  have hlength := congrArg List.length h
  cases x <;> simp [encodeDatum] at hlength

/-! ## Sequences -/

/-- The bytes of elements, one after the other, say which elements they are. -/
theorem flatMap_encodeDatum_injective {kind : Kind} {xs ys : List Datum}
    (hxs : ∀ x ∈ xs, x.kind = kind ∧ x.IsAddressable)
    (hys : ∀ y ∈ ys, y.kind = kind ∧ y.IsAddressable)
    (h : xs.flatMap encodeDatum = ys.flatMap encodeDatum) : xs = ys := by
  induction xs generalizing ys with
  | nil =>
    cases ys with
    | nil => rfl
    | cons y ys => exact absurd (List.append_eq_nil_iff.1 h.symm).1 (encodeDatum_ne_nil y)
  | cons x xs ih =>
    cases ys with
    | nil => exact absurd (List.append_eq_nil_iff.1 h).1 (encodeDatum_ne_nil x)
    | cons y ys =>
      obtain ⟨hxkind, hxsize⟩ := hxs x List.mem_cons_self
      obtain ⟨hykind, hysize⟩ := hys y List.mem_cons_self
      rw [List.flatMap_cons, List.flatMap_cons] at h
      obtain ⟨rfl, hrest⟩ :=
        encodeDatum_append_injective (hxkind.trans hykind.symm) hxsize hysize h
      rw [ih (fun z hz => hxs z (List.mem_cons_of_mem x hz))
        (fun z hz => hys z (List.mem_cons_of_mem x hz)) hrest]

/-- **The bytes that are mixed say which elements they are of.** -/
theorem encode_injective {kind : Kind} {xs ys : List Datum}
    (hxs : ∀ x ∈ xs, x.kind = kind ∧ x.IsAddressable)
    (hys : ∀ y ∈ ys, y.kind = kind ∧ y.IsAddressable) (h : encode xs = encode ys) : xs = ys := by
  obtain ⟨-, hbytes⟩ := List.append_inj h (by simp)
  exact flatMap_encodeDatum_injective hxs hys hbytes

end Digest

end MetadataStore
