import Mathlib.Data.List.Basic
import MetadataStore.Proofs.Text.Digits

/-!
# `Proofs.Text.Order` — how written numbers compare

Texts compare character by character, so the parts of a layout compare one after the other, as long as
each part has the same width in both texts. Digits of one width compare as the numbers they denote. When
one number is followed by a character below all digits while the other still has digits, the shorter
counts as if it were filled up with zeros from the right.

## Contents
- `compareOfLessAndEq_toList`, the order of strings; `compare_append`, of parts in a row.
- `compare_readDigitsFrom?`, digits of one width; `compare_padded_append`, such digits in front.
- `compare_stopped`, digits of different widths.
- `compare_utf8Encode`, the bytes of ASCII characters.
-/

namespace MetadataStore.Text

/-! ## Texts -/

theorem compare_eq_lt_iff (xs ys : List Char) : compare xs ys = .lt ↔ xs < ys := by
  induction xs generalizing ys with
  | nil => cases ys <;> simp [List.compare_nil_cons]
  | cons x xs ih =>
    cases ys with
    | nil => simp
    | cons y ys =>
      have hchar : compare x y = .lt ↔ x < y := compareOfLessAndEq_eq_lt
      rw [List.compare_cons_cons, List.cons_lt_cons_iff, Ordering.then_eq_lt, hchar, ih,
        Std.compare_eq_eq_iff_eq]

/-- Strings compare as the lists of their characters. -/
theorem compareOfLessAndEq_toList (s t : String) :
    compareOfLessAndEq s t = compare s.toList t.toList := by
  have hlt : s < t ↔ compare s.toList t.toList = .lt := by
    rw [compare_eq_lt_iff, String.lt_iff]
  have heq : s = t ↔ compare s.toList t.toList = .eq := by
    rw [Std.compare_eq_eq_iff_eq, String.toList_inj]
  unfold compareOfLessAndEq
  cases h : compare s.toList t.toList <;> simp [hlt, heq, h]

/-- Behind parts of which neither begins the other, the rest decides when they are equal. -/
theorem compare_append {xs ys : List Char} (hxs : xs <+: ys → xs = ys) (hys : ys <+: xs → xs = ys)
    (a b : List Char) : compare (xs ++ a) (ys ++ b) = (compare xs ys).then (compare a b) := by
  induction xs generalizing ys with
  | nil =>
    obtain rfl := hxs List.nil_prefix
    simp
  | cons x xs ih =>
    cases ys with
    | nil => cases hys List.nil_prefix
    | cons y ys =>
      rw [List.cons_append, List.cons_append, List.compare_cons_cons, List.compare_cons_cons]
      by_cases hxy : x = y
      · subst hxy
        have htail := ih (fun h => (List.cons.inj (hxs ((List.prefix_cons_inj x).2 h))).2)
          fun h => (List.cons.inj (hys ((List.prefix_cons_inj x).2 h))).2
        rw [htail, Ordering.then_assoc]
      · have hne : compare x y ≠ .eq := fun h => hxy (Std.compare_eq_eq_iff_eq.1 h)
        cases h : compare x y with
        | eq => exact absurd h hne
        | lt | gt => rfl

/-- Parts of one length begin each other only when they are equal. -/
theorem compare_append_of_length {xs ys : List Char} (h : xs.length = ys.length) (a b : List Char) :
    compare (xs ++ a) (ys ++ b) = (compare xs ys).then (compare a b) :=
  compare_append (fun hbegins => hbegins.eq_of_length h)
    (fun hbegins => (hbegins.eq_of_length h.symm).symm) a b

/-- A mark in the same place does not decide. -/
@[simp] theorem compare_cons_self (c : Char) (a b : List Char) :
    compare (c :: a) (c :: b) = compare a b := by
  have hself : compare c c = .eq := Std.compare_eq_eq_iff_eq.2 rfl
  rw [List.compare_cons_cons, hself, Ordering.eq_then]

/-! ## Digits of one width -/

theorem compare_eq_compare_toNat (c e : Char) : compare c e = compare c.toNat e.toNat := by
  have hlt : c < e ↔ c.toNat < e.toNat := Iff.rfl
  have heq : c = e ↔ c.toNat = e.toNat := ⟨congrArg _, Char.toNat_inj.1⟩
  show compareOfLessAndEq c e = compareOfLessAndEq c.toNat e.toNat
  simp only [compareOfLessAndEq, hlt, heq]

/-- Digits compare as what they are worth. -/
theorem compare_asciiDigit? {c e : Char} {d f : Nat} (hc : asciiDigit? c = some d)
    (he : asciiDigit? e = some f) : compare c e = compare d f := by
  rw [compare_eq_compare_toNat, (toNat_of_asciiDigit? hc).1, (toNat_of_asciiDigit? he).1]
  simp only [Nat.compare_eq_ite_lt, Nat.add_lt_add_iff_left]

/-- Numbers of a base compare as what stands before the last digit, then as the last digit. -/
theorem compare_mul_add {base m n d f : Nat} (hd : d < base) (hf : f < base) :
    compare (base * m + d) (base * n + f) = (compare m n).then (compare d f) := by
  rcases Nat.lt_trichotomy m n with h | h | h
  · have hstep : base * (m + 1) ≤ base * n := Nat.mul_le_mul_left base h
    rw [Nat.mul_succ] at hstep
    rw [Nat.compare_eq_lt.2 h, Nat.compare_eq_lt.2 (by omega)]
    rfl
  · rw [h, Nat.compare_eq_eq.2 rfl, Ordering.eq_then]
    simp only [Nat.compare_eq_ite_lt, Nat.add_lt_add_iff_left]
  · have hstep : base * (n + 1) ≤ base * m := Nat.mul_le_mul_left base h
    rw [Nat.mul_succ] at hstep
    rw [Nat.compare_eq_gt.2 h, Nat.compare_eq_gt.2 (by omega)]
    rfl

/-- Digits of one length compare as the numbers they continue to, the numbers they continue coming
first. -/
theorem compare_readDigitsFrom? {xs ys : List Char} (hlen : xs.length = ys.length) {p q m n : Nat}
    (hm : readDigitsFrom? p xs = some m) (hn : readDigitsFrom? q ys = some n) :
    compare m n = (compare p q).then (compare xs ys) := by
  induction xs generalizing p q ys with
  | nil =>
    cases ys with
    | nil =>
      obtain rfl := Option.some.inj hm
      obtain rfl := Option.some.inj hn
      simp
    | cons y ys => cases hlen
  | cons x xs ih =>
    cases ys with
    | nil => cases hlen
    | cons y ys =>
      obtain ⟨d, hd, hm⟩ := Option.bind_eq_some_iff.1 hm
      obtain ⟨f, hf, hn⟩ := Option.bind_eq_some_iff.1 hn
      have hshift := compare_mul_add (m := p) (n := q) (toNat_of_asciiDigit? hd).2
        (toNat_of_asciiDigit? hf).2
      rw [ih (Nat.succ.inj hlen) hm hn, hshift, List.compare_cons_cons, compare_asciiDigit? hd hf,
        Ordering.then_assoc]

/-- Numbers written with as many digits compare as such. -/
theorem compare_padded_of_length {width m n : Nat}
    (hlen : (padded width m).length = (padded width n).length) :
    compare (padded width m) (padded width n) = compare m n := by
  rw [compare_readDigitsFrom? hlen (readDigitsFrom?_padded width m) (readDigitsFrom?_padded width n)]
  simp

/-- Numbers written in front with one width decide first. -/
theorem compare_padded_append {width m n : Nat} (hpos : 0 < width) (hm : m < 10 ^ width)
    (hn : n < 10 ^ width) (a b : List Char) :
    compare (padded width m ++ a) (padded width n ++ b) = (compare m n).then (compare a b) := by
  have hlen : (padded width m).length = (padded width n).length := by
    rw [length_padded hpos hm, length_padded hpos hn]
  rw [compare_append_of_length hlen, compare_padded_of_length hlen]

/-- A mark below all digits comes before any of them. -/
theorem compare_mark_digit {c e : Char} {d : Nat} (hc : c.toNat < 48) (he : asciiDigit? e = some d)
    (a b : List Char) : compare (c :: a) (e :: b) = .lt := by
  have hdigit := (toNat_of_asciiDigit? he).1
  have hlt : compare c e = .lt := by
    rw [compare_eq_compare_toNat, Nat.compare_eq_lt]
    omega
  rw [List.compare_cons_cons, hlt]
  rfl

/-! ## Digits of different widths -/

/-- A smaller number has no more digits. -/
theorem length_digits_mono {m n : Nat} (h : m ≤ n) : (digits m).length ≤ (digits n).length := by
  induction n using Nat.strongRecOn generalizing m with
  | _ n ih =>
    rw [digits.eq_def m, digits.eq_def n]
    by_cases hm : m < 10
    · rw [if_pos hm]
      split <;> simp
    · rw [if_neg hm, if_neg (by omega)]
      have hquot := ih (n / 10) (by omega) (Nat.div_le_div_right (c := 10) h)
      simpa using hquot

theorem length_padded_mono {width m n : Nat} (h : m ≤ n) :
    (padded width m).length ≤ (padded width n).length := by
  have hdigits := length_digits_mono h
  simp only [padded, List.length_append, List.length_replicate]
  omega

/-- Digits continue a number to one of those that it begins. -/
theorem readDigitsFrom?_bounds {p n : Nat} {ds : List Char} (h : readDigitsFrom? p ds = some n) :
    p * 10 ^ ds.length ≤ n ∧ n < (p + 1) * 10 ^ ds.length := by
  induction ds generalizing p with
  | nil =>
    obtain rfl := Option.some.inj h
    simp
  | cons c ds ih =>
    obtain ⟨d, hd, h⟩ := Option.bind_eq_some_iff.1 h
    have hlt := (toNat_of_asciiDigit? hd).2
    obtain ⟨hlow, hhigh⟩ := ih h
    rw [List.length_cons, Nat.pow_succ']
    constructor
    · calc p * (10 * 10 ^ ds.length) = 10 * p * 10 ^ ds.length := by rw [Nat.mul_left_comm, Nat.mul_assoc]
        _ ≤ (10 * p + d) * 10 ^ ds.length := Nat.mul_le_mul_right _ (Nat.le_add_right _ _)
        _ ≤ n := hlow
    · calc n < (10 * p + d + 1) * 10 ^ ds.length := hhigh
        _ ≤ 10 * (p + 1) * 10 ^ ds.length := Nat.mul_le_mul_right _ (by omega)
        _ = (p + 1) * (10 * 10 ^ ds.length) := by rw [Nat.mul_left_comm, Nat.mul_assoc]

/-- A number that ends before another, at a mark below all digits, comes first as long as it is not
greater than what the other begins with. -/
theorem compare_stopped {xs ys : List Char} {m n : Nat} {c : Char} (hc : c.toNat < 48)
    (hlen : xs.length < ys.length) (hm : readDigitsFrom? 0 xs = some m)
    (hn : readDigitsFrom? 0 ys = some n) (a b : List Char) :
    compare (xs ++ c :: a) (ys ++ b) =
      if m * 10 ^ (ys.length - xs.length) ≤ n then .lt else .gt := by
  -- the longer number is cut where the shorter ends
  obtain ⟨front, back, rfl, hfront⟩ : ∃ front back, ys = front ++ back ∧ front.length = xs.length :=
    ⟨ys.take xs.length, ys.drop xs.length, (List.take_append_drop _ _).symm,
      List.length_take_of_le (Nat.le_of_lt hlen)⟩
  rw [readDigitsFrom?_append] at hn
  obtain ⟨k, hk, hn⟩ := Option.bind_eq_some_iff.1 hn
  have hbounds := readDigitsFrom?_bounds hn
  have hback : (front ++ back).length - xs.length = back.length := by
    rw [List.length_append]
    omega
  have hrest : compare (c :: a) (back ++ b) = .lt := by
    cases back with
    | nil =>
      rw [List.append_nil] at hlen
      omega
    | cons e back =>
      obtain ⟨d, hd, -⟩ := Option.bind_eq_some_iff.1 hn
      exact compare_mark_digit hc hd a (back ++ b)
  have hfirst : compare xs front = compare m k := by
    rw [compare_readDigitsFrom? hfront.symm hm hk]
    simp
  rw [List.append_assoc, compare_append_of_length hfront.symm, hrest, hfirst, hback]
  by_cases hle : m ≤ k
  · have hkeep : m * 10 ^ back.length ≤ n := Nat.le_trans (Nat.mul_le_mul_right _ hle) hbounds.1
    rw [if_pos hkeep]
    rcases Nat.lt_or_eq_of_le hle with h | h
    · rw [Nat.compare_eq_lt.2 h]
      rfl
    · rw [Nat.compare_eq_eq.2 h]
      rfl
  · have hover : n < m * 10 ^ back.length :=
      Nat.lt_of_lt_of_le hbounds.2 (Nat.mul_le_mul_right _ (by omega))
    rw [if_neg (Nat.not_le.2 hover), Nat.compare_eq_gt.2 (Nat.not_le.1 hle)]
    rfl

/-! ## Bytes -/

/-- The bytes of a text are those of its characters. -/
theorem toUTF8_toList (text : String) :
    text.toUTF8.data.toList = text.toList.flatMap String.utf8EncodeChar := by
  obtain ⟨cs, rfl⟩ := String.exists_eq_ofList text
  rw [String.toList_ofList, String.toUTF8_eq_toByteArray]
  exact List.toList_data_toByteArray

/-- Digits are characters of ASCII. -/
theorem toNat_lt_of_mem_padded {width n : Nat} {c : Char} (h : c ∈ padded width n) :
    c.toNat < 128 := by
  obtain ⟨d, hd⟩ := Option.isSome_iff_exists.1 (asciiDigit?_of_mem_padded h)
  have := toNat_of_asciiDigit? hd
  omega

/-- A character of ASCII is one byte. -/
theorem utf8EncodeChar_ascii {c : Char} (h : c.toNat < 128) :
    String.utf8EncodeChar c = [UInt8.ofNat c.toNat] := by
  unfold String.utf8EncodeChar
  exact if_pos (Nat.le_of_lt_succ h)

theorem compare_ofNat {m n : Nat} (hm : m < 128) (hn : n < 128) :
    compare (UInt8.ofNat m) (UInt8.ofNat n) = compare m n := by
  have hmod : ∀ k, k < 128 → (UInt8.ofNat k).toNat = k := fun k hk => Nat.mod_eq_of_lt (by omega)
  have hlt : UInt8.ofNat m < UInt8.ofNat n ↔ m < n := by
    rw [UInt8.lt_iff_toNat_lt, hmod m hm, hmod n hn]
  have heq : UInt8.ofNat m = UInt8.ofNat n ↔ m = n := by
    rw [← UInt8.toNat_inj, hmod m hm, hmod n hn]
  show compareOfLessAndEq (UInt8.ofNat m) (UInt8.ofNat n) = compareOfLessAndEq m n
  simp only [compareOfLessAndEq, hlt, heq]

/-- The bytes of ASCII characters compare as the characters. -/
theorem compare_utf8Encode {xs ys : List Char} (hxs : ∀ c ∈ xs, c.toNat < 128)
    (hys : ∀ c ∈ ys, c.toNat < 128) :
    compare (xs.flatMap String.utf8EncodeChar) (ys.flatMap String.utf8EncodeChar) =
      compare xs ys := by
  induction xs generalizing ys with
  | nil =>
    cases ys with
    | nil => rfl
    | cons y ys =>
      rw [List.flatMap_cons, utf8EncodeChar_ascii (hys y List.mem_cons_self)]
      rfl
  | cons x xs ih =>
    have hx := hxs x List.mem_cons_self
    have hxs : ∀ c ∈ xs, c.toNat < 128 := fun c h => hxs c (List.mem_cons_of_mem x h)
    cases ys with
    | nil =>
      rw [List.flatMap_cons, utf8EncodeChar_ascii hx]
      rfl
    | cons y ys =>
      have hy := hys y List.mem_cons_self
      have hys : ∀ c ∈ ys, c.toNat < 128 := fun c h => hys c (List.mem_cons_of_mem y h)
      rw [List.flatMap_cons, List.flatMap_cons, utf8EncodeChar_ascii hx, utf8EncodeChar_ascii hy,
        List.singleton_append, List.singleton_append, List.compare_cons_cons, List.compare_cons_cons,
        compare_ofNat hx hy, compare_eq_compare_toNat, ih hxs hys]

end MetadataStore.Text
