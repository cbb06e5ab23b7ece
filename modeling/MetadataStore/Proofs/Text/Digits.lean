import Mathlib.Algebra.Group.Nat.Defs
import Mathlib.Data.List.Basic
import MetadataStore.Text.Digit

/-!
# `Proofs.Text.Digits` — what decimal digits tell of a number

Reading digits gives the number back, so that no two numbers have the same ones. A sign is no digit,
which carries this over to integers.

## Contents
- `takeWhile_take_append`, `exists_append_takeWhile_take`: runs of characters of bounded length.
- `toNat_of_asciiDigit?`; `asciiDigit?_of_mem_digits`, `length_digits_le`: the digits of a number, and how many there are.
- `readDigitsFrom?_padded`, `length_padded`: the same with leading zeros.
- `digits_ne_nil`, `readDigits?_digits`; `integer_injective`, `not_mem_integer`.
-/

namespace MetadataStore.Text

/-! ## Runs -/

/-- Characters that pass a test are cut off whole when there are as many as may be, or when the character
behind them does not pass. -/
theorem takeWhile_take_append {p : Char → Bool} {width : Nat} {run rest : List Char}
    (hpass : ∀ c ∈ run, p c = true) (hlen : run.length ≤ width)
    (hstop : run.length = width ∨ ∀ c ∈ rest.head?, p c = false) :
    ((run ++ rest).take width).takeWhile p = run := by
  rw [List.take_append, List.take_of_length_le hlen, List.takeWhile_append_of_pos hpass]
  -- either the width ends the run or the character after it does
  rcases hstop with hfull | hstop
  · rw [hfull, Nat.sub_self, List.take_zero, List.takeWhile_nil, List.append_nil]
  · cases rest with
    | nil => simp
    | cons c rest =>
      have hc := hstop c rfl
      cases hroom : width - run.length with
      | zero => simp
      | succ k => simp [hc]

/-- What is cut off ends there, and the rest follows. -/
theorem exists_append_takeWhile_take (p : Char → Bool) (width : Nat) (cs : List Char) :
    ∃ rest, cs = (cs.take width).takeWhile p ++ rest ∧
      (((cs.take width).takeWhile p).length = width ∨ ∀ c ∈ rest.head?, p c = false) := by
  induction cs generalizing width with
  | nil => exact ⟨[], by simp, Or.inr fun c hc => by cases hc⟩
  | cons c cs ih =>
    cases width with
    | zero => exact ⟨c :: cs, rfl, Or.inl rfl⟩
    | succ width =>
      obtain ⟨rest, hcut, hstop⟩ := ih width
      by_cases hc : p c = true
      · refine ⟨rest, ?_, ?_⟩
        · simpa [hc] using hcut
        · simpa [hc] using hstop
      · refine ⟨c :: cs, by simp [hc], Or.inr fun d hd => ?_⟩
        obtain rfl := Option.some.inj hd
        simpa using hc

/-! ## Digits -/

/-- An ASCII digit stands as far behind the zero as it is worth. -/
theorem toNat_of_asciiDigit? {c : Char} {d : Nat} (h : asciiDigit? c = some d) :
    c.toNat = 48 + d ∧ d < 10 := by
  have h0 : '0'.toNat = 48 := rfl
  have h9 : '9'.toNat = 57 := rfl
  unfold asciiDigit? at h
  split at h
  · obtain rfl := Option.some.inj h
    omega
  · cases h

theorem mem_digits {n : Nat} {c : Char} (h : c ∈ digits n) : ∃ d < 10, c = digitChar d := by
  induction n using Nat.strongRecOn with
  | _ n ih =>
    rw [digits] at h
    split at h
    · rename_i hlt
      exact ⟨n, hlt, List.mem_singleton.1 h⟩
    · rename_i hge
      rcases List.mem_append.1 h with h | h
      · exact ih (n / 10) (by omega) h
      · exact ⟨n % 10, Nat.mod_lt n (by decide), List.mem_singleton.1 h⟩

theorem asciiDigit?_of_mem_digits {n : Nat} {c : Char} (h : c ∈ digits n) :
    (asciiDigit? c).isSome = true := by
  obtain ⟨d, hd, rfl⟩ := mem_digits h
  rw [asciiDigit?_digitChar hd]
  rfl

/-- Numbers below a power of ten have no more digits than its exponent. -/
theorem length_digits_le {n width : Nat} (hpos : 0 < width) (h : n < 10 ^ width) :
    (digits n).length ≤ width := by
  induction width generalizing n with
  | zero => cases hpos
  | succ width ih =>
    rw [digits]
    split
    · exact Nat.succ_le_succ (Nat.zero_le width)
    · rename_i hge
      have hwidth : 0 < width := by
        rcases Nat.eq_zero_or_pos width with hz | hz
        · subst hz
          omega
        · exact hz
      have hquot : n / 10 < 10 ^ width := by
        rw [Nat.pow_succ] at h
        omega
      rw [List.length_append]
      exact Nat.succ_le_succ (ih hwidth hquot)

theorem digits_injective {m n : Nat} (h : digits m = digits n) : m = n := by
  have hread := readDigitsFrom?_digits m
  rw [h, readDigitsFrom?_digits n] at hread
  exact (Option.some.inj hread).symm

/-! ## Leading zeros -/

theorem readDigitsFrom?_replicate (k : Nat) :
    readDigitsFrom? 0 (List.replicate k '0') = some 0 := by
  induction k with
  | zero => rfl
  | succ k ih =>
    rw [List.replicate_succ, readDigitsFrom?, show asciiDigit? '0' = some 0 by decide]
    exact ih

/-- Leading zeros do not change what digits denote. -/
theorem readDigitsFrom?_padded (width n : Nat) : readDigitsFrom? 0 (padded width n) = some n := by
  unfold padded
  rw [readDigitsFrom?_append, readDigitsFrom?_replicate]
  exact readDigitsFrom?_digits n

theorem length_padded {width n : Nat} (hpos : 0 < width) (h : n < 10 ^ width) :
    (padded width n).length = width := by
  have hle := length_digits_le hpos h
  simp only [padded, List.length_append, List.length_replicate]
  omega

theorem asciiDigit?_of_mem_padded {width n : Nat} {c : Char} (h : c ∈ padded width n) :
    (asciiDigit? c).isSome = true := by
  rcases List.mem_append.1 h with h | h
  · rw [List.eq_of_mem_replicate h]
    decide
  · exact asciiDigit?_of_mem_digits h

/-! ## Integers -/

theorem digits_ne_nil (n : Nat) : digits n ≠ [] := by
  rw [digits]
  split
  · exact List.cons_ne_nil _ _
  · exact List.append_ne_nil_of_right_ne_nil _ (List.cons_ne_nil _ _)

theorem readDigits?_digits (n : Nat) : readDigits? (digits n) = some n := by
  rw [readDigits?, List.isEmpty_eq_false_iff.2 (digits_ne_nil n)]
  exact readDigitsFrom?_digits n

theorem not_mem_digits {n : Nat} {c : Char} (h : asciiDigit? c = none) : c ∉ digits n := by
  intro hmem
  have := asciiDigit?_of_mem_digits hmem
  rw [h] at this
  cases this

theorem not_mem_padded {width n : Nat} {c : Char} (h : asciiDigit? c = none) : c ∉ padded width n := by
  intro hmem
  have := asciiDigit?_of_mem_padded hmem
  rw [h] at this
  cases this

/-- An integer is written with digits and a minus sign, and nothing else. -/
theorem not_mem_integer {i : Int} {c : Char} (hdigit : asciiDigit? c = none) (hsign : c ≠ '-') :
    c ∉ (integer i).toList := by
  rw [integer, String.toList_ofList, List.mem_append]
  rintro (h | h)
  · split at h
    · exact hsign (List.mem_singleton.1 h)
    · cases h
  · exact not_mem_digits hdigit h

/-- No two integers have the same text. -/
theorem integer_injective {i j : Int} (h : integer i = integer j) : i = j := by
  have hchars := String.ofList_injective h
  have hminus : ∀ n, '-' ∉ digits n := fun n => not_mem_digits (by decide)
  by_cases hi : i < 0 <;> by_cases hj : j < 0 <;>
    simp only [hi, hj, if_true, if_false, List.cons_append, List.nil_append] at hchars
  · have := digits_injective (List.cons.inj hchars).2
    omega
  · exact absurd (hchars ▸ List.mem_cons_self) (hminus j.natAbs)
  · exact absurd (hchars.symm ▸ List.mem_cons_self) (hminus i.natAbs)
  · have := digits_injective hchars
    omega

end MetadataStore.Text
