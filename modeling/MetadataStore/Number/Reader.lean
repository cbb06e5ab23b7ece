import MetadataStore.Number.Binary64
import MetadataStore.Text.Digit

/-!
# `Number.Reader` — reading numbers from texts

Integers are an optional sign and ASCII digits. Doubles are the words for infinity and NaN in any
case, or digits with at most one point and an optional exponent; their value is rounded to the
nearest double, a tie going to the even one.

## Contents
- `integer?`, `integerWithin?`: integers, and those in a range.
- `ofRatio`, `ofDecimal`: the double nearest to a quotient, to a decimal.
- `double?`: the double that a text denotes.
-/

namespace MetadataStore.Number

/-- A text cut after its sign, if it has one: whether it is negative, and the rest. -/
def cutSign : List Char → Bool × List Char
  | '-' :: cs => (true, cs)
  | '+' :: cs => (false, cs)
  | cs => (false, cs)

/-- The integer that a text denotes. -/
def integer? (s : String) : Option Int :=
  let (negative, cs) := cutSign s.toList
  (Text.readDigits? cs).map fun n => if negative then -(n : Int) else n

/-- The integer that a text denotes, if it lies in the range. -/
def integerWithin? (low high : Int) (s : String) : Option Int :=
  (integer? s).filter fun i => decide (low ≤ i ∧ i ≤ high)

/-- The thirty-two-bit integer that a text denotes. -/
def int32? (s : String) : Option Int32 :=
  (integerWithin? Int32.minValue.toInt Int32.maxValue.toInt s).map Int32.ofInt

/-- The sixty-four-bit integer that a text denotes. -/
def int64? (s : String) : Option Int64 :=
  (integerWithin? Int64.minValue.toInt Int64.maxValue.toInt s).map Int64.ofInt

/-- A quotient rounded to the nearest integer, a tie going to the even one. -/
def roundHalfEven (n d : Nat) : Nat :=
  let q := n / d
  let r := n % d
  if 2 * r < d then q
  else if d < 2 * r then q + 1
  else if q % 2 = 0 then q else q + 1

/-- The power of two of the last place of the double nearest to the positive quotient `n / d`. -/
def lastPlace (n d : Nat) : Int :=
  let guess : Int := (Nat.log2 n : Int) - Nat.log2 d - 52
  let tooCoarse :=
    if 0 ≤ guess then n < (d <<< guess.toNat) <<< 52
    else n <<< (-guess).toNat < d <<< 52
  max (-1074) (if tooCoarse then guess - 1 else guess)

/-- The double nearest to the positive quotient `n / d`. -/
def ofRatio (negative : Bool) (n d : Nat) : Binary64 :=
  let q := lastPlace n d
  let m := if 0 ≤ q then roundHalfEven n (d <<< q.toNat) else roundHalfEven (n <<< (-q).toNat) d
  let magnitude := (q + 1074).toNat * Binary64.exponentBit + m
  .ofMagnitude negative (min magnitude Binary64.infiniteMagnitude)

/-- The double nearest to `c · 10 ^ e`. Exponents far outside the range of doubles are settled
without computing the power. -/
def ofDecimal (negative : Bool) (c : Nat) (e : Int) : Binary64 :=
  if c = 0 then .ofMagnitude negative 0
  else
    let leading := (Text.digits c).length + e
    if 310 < leading then .infinite negative
    else if leading < -330 then .ofMagnitude negative 0
    else if 0 ≤ e then ofRatio negative (c * Nat.pow 10 e.toNat) 1
    else ofRatio negative c (Nat.pow 10 (-e).toNat)

/-- Whether a character is one of the ten ASCII digits. -/
def isAsciiDigit (c : Char) : Bool :=
  (Text.asciiDigit? c).isSome

/-- The exponent at the end of a double's text, zero when it is missing. -/
def exponent? : List Char → Option Int
  | [] => some 0
  | c :: cs =>
    if c == 'e' || c == 'E' then
      let (negative, ds) := cutSign cs
      (Text.readDigits? ds).map fun n => if negative then -(n : Int) else n
    else none

/-- The double that a text without a sign denotes. -/
def unsignedDouble? (negative : Bool) (cs : List Char) : Option Binary64 :=
  let word := cs.map Char.toLower
  if word == "inf".toList || word == "infinity".toList then some (.infinite negative)
  else if word == "nan".toList then some (.nan negative)
  else
    let whole := cs.takeWhile isAsciiDigit
    let rest := cs.dropWhile isAsciiDigit
    let (part, rest) := match rest with
      | '.' :: ds => (ds.takeWhile isAsciiDigit, ds.dropWhile isAsciiDigit)
      | _ => ([], rest)
    do
      let c ← Text.readDigits? (whole ++ part)
      let e ← exponent? rest
      pure (ofDecimal negative c (e - part.length))

/-- The double that a text denotes. -/
def double? (s : String) : Option Binary64 :=
  let (negative, cs) := cutSign s.toList
  unsignedDouble? negative cs

example : double? "1." = some ⟨0x3FF0000000000000⟩ := by decide +kernel
example : double? "." = none := by decide +kernel
example : double? "5e-324" = some ⟨1⟩ := by decide +kernel

end MetadataStore.Number
