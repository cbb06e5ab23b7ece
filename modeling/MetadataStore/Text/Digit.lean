/-!
# `Text.Digit` — decimal digits

Recognition of a digit is by the Unicode category `Nd`, whose characters come in runs of ten;
a digit's worth is only ever taken from the ten of ASCII.

## Contents
- `isDigit`, membership in `Nd`; `digitRuns`, its ranges.
- `asciiDigit?`, the worth of an ASCII digit; `readDigits?`, the number a digit string denotes.
- `digits`, the decimal digits of a number, and `padded`, the same with leading zeros.
-/

namespace MetadataStore.Text

/-- The first and last code points of each run of decimal digits. -/
def digitRuns : List (Nat × Nat) :=
  [(0x30, 0x39), (0x660, 0x669), (0x6F0, 0x6F9), (0x7C0, 0x7C9), (0x966, 0x96F), (0x9E6, 0x9EF),
   (0xA66, 0xA6F), (0xAE6, 0xAEF), (0xB66, 0xB6F), (0xBE6, 0xBEF), (0xC66, 0xC6F), (0xCE6, 0xCEF),
   (0xD66, 0xD6F), (0xDE6, 0xDEF), (0xE50, 0xE59), (0xED0, 0xED9), (0xF20, 0xF29), (0x1040, 0x1049),
   (0x1090, 0x1099), (0x17E0, 0x17E9), (0x1810, 0x1819), (0x1946, 0x194F), (0x19D0, 0x19D9),
   (0x1A80, 0x1A89), (0x1A90, 0x1A99), (0x1B50, 0x1B59), (0x1BB0, 0x1BB9), (0x1C40, 0x1C49),
   (0x1C50, 0x1C59), (0xA620, 0xA629), (0xA8D0, 0xA8D9), (0xA900, 0xA909), (0xA9D0, 0xA9D9),
   (0xA9F0, 0xA9F9), (0xAA50, 0xAA59), (0xABF0, 0xABF9), (0xFF10, 0xFF19), (0x104A0, 0x104A9),
   (0x10D30, 0x10D39), (0x10D40, 0x10D49), (0x11066, 0x1106F), (0x110F0, 0x110F9),
   (0x11136, 0x1113F), (0x111D0, 0x111D9), (0x112F0, 0x112F9), (0x11450, 0x11459),
   (0x114D0, 0x114D9), (0x11650, 0x11659), (0x116C0, 0x116C9), (0x116D0, 0x116E3),
   (0x11730, 0x11739), (0x118E0, 0x118E9), (0x11950, 0x11959), (0x11BF0, 0x11BF9),
   (0x11C50, 0x11C59), (0x11D50, 0x11D59), (0x11DA0, 0x11DA9), (0x11F50, 0x11F59),
   (0x16A60, 0x16A69), (0x16AC0, 0x16AC9), (0x16B50, 0x16B59), (0x1CCF0, 0x1CCF9),
   (0x1D7CE, 0x1D7FF), (0x1E140, 0x1E149), (0x1E2F0, 0x1E2F9), (0x1E4F0, 0x1E4F9),
   (0x1E5F1, 0x1E5FA), (0x1E950, 0x1E959), (0x1FBF0, 0x1FBF9)]

/-- Whether a character is a decimal digit of any script. -/
def isDigit (c : Char) : Bool :=
  digitRuns.any fun run => run.1 ≤ c.toNat && c.toNat ≤ run.2

/-- The worth of an ASCII digit. -/
def asciiDigit? (c : Char) : Option Nat :=
  if '0'.toNat ≤ c.toNat ∧ c.toNat ≤ '9'.toNat then some (c.toNat - '0'.toNat) else none

/-- The number that a run of digits continues from `acc`, digits past ASCII having none. -/
def readDigitsFrom? (acc : Nat) : List Char → Option Nat
  | [] => some acc
  | c :: cs => (asciiDigit? c).bind fun d => readDigitsFrom? (10 * acc + d) cs

/-- The number denoted by one or more ASCII digits. -/
def readDigits? (cs : List Char) : Option Nat :=
  if cs.isEmpty then none else readDigitsFrom? 0 cs

/-- The character of a digit below ten. -/
def digitChar (d : Nat) : Char :=
  Char.ofNat ('0'.toNat + d)

/-- The decimal digits of a number, most significant first; zero has one. -/
def digits (n : Nat) : List Char :=
  if n < 10 then [digitChar n] else digits (n / 10) ++ [digitChar (n % 10)]
termination_by n
decreasing_by omega

/-- The digits of a number, preceded by zeros up to the given width. -/
def padded (width n : Nat) : List Char :=
  let ds := digits n
  List.replicate (width - ds.length) '0' ++ ds

/-- The text of an integer: a minus sign when negative, then its digits. -/
def integer (i : Int) : String :=
  String.ofList ((if i < 0 then ['-'] else []) ++ digits i.natAbs)

theorem readDigitsFrom?_append (acc : Nat) (xs ys : List Char) :
    readDigitsFrom? acc (xs ++ ys) = (readDigitsFrom? acc xs).bind (readDigitsFrom? · ys) := by
  induction xs generalizing acc with
  | nil => simp [readDigitsFrom?]
  | cons x xs ih =>
    cases h : asciiDigit? x <;> simp [readDigitsFrom?, h, ih]

theorem asciiDigit?_digitChar {d : Nat} (h : d < 10) : asciiDigit? (digitChar d) = some d := by
  have : d = 0 ∨ d = 1 ∨ d = 2 ∨ d = 3 ∨ d = 4 ∨ d = 5 ∨ d = 6 ∨ d = 7 ∨ d = 8 ∨ d = 9 := by omega
  rcases this with rfl | rfl | rfl | rfl | rfl | rfl | rfl | rfl | rfl | rfl <;> decide

/-- Reading the digits of a number gives it back. -/
theorem readDigitsFrom?_digits (n : Nat) : readDigitsFrom? 0 (digits n) = some n := by
  induction n using Nat.strongRecOn with
  | _ n ih =>
    rw [digits]
    split
    · rename_i h
      simp [readDigitsFrom?, asciiDigit?_digitChar h]
    · rename_i h
      rw [readDigitsFrom?_append, ih (n / 10) (by omega)]
      simp only [Option.bind_some, readDigitsFrom?, asciiDigit?_digitChar (Nat.mod_lt n (by decide))]
      congr 1
      omega

end MetadataStore.Text
