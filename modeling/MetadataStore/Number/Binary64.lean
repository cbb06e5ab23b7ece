/-!
# `Number.Binary64` — double-precision numbers by their bits

A double is the sixty-four bits of its IEEE 754 form. Two doubles are the same element exactly when
their bits agree, so the two zeros and the many NaNs stay apart; their order as numbers is a
separate matter.

## Contents
- `Binary64` and its fields: sign, exponent and fraction.
- `significand`, `power`: a finite double is `± significand · 2 ^ power`.
- `rank`: an integer that orders the doubles other than NaN as numbers, with both zeros at `0`.
- `compareInt`: the order between a double and an integer.
-/

namespace MetadataStore.Number

/-- A double by its bits. -/
structure Binary64 where
  bits : UInt64
  deriving DecidableEq, Repr

namespace Binary64

/-- The weight of the sign bit. -/
def signBit : Nat :=
  0x8000000000000000

/-- The weight of the lowest bit of the exponent, which is also that of the bit a fraction lacks. -/
def exponentBit : Nat :=
  0x10000000000000

/-- The bits below the sign, as a number. -/
def magnitude (x : Binary64) : Nat :=
  x.bits.toNat % signBit

/-- Whether the sign bit is set. -/
def isNegative (x : Binary64) : Bool :=
  signBit ≤ x.bits.toNat

/-- The eleven bits of the exponent. -/
def exponentField (x : Binary64) : Nat :=
  x.magnitude / exponentBit

/-- The fifty-two bits of the fraction. -/
def fraction (x : Binary64) : Nat :=
  x.magnitude % exponentBit

/-- The magnitude of an infinity; larger ones are NaNs. -/
def infiniteMagnitude : Nat :=
  2047 * exponentBit

def isNaN (x : Binary64) : Bool :=
  infiniteMagnitude < x.magnitude

def isInfinite (x : Binary64) : Bool :=
  x.magnitude == infiniteMagnitude

def isFinite (x : Binary64) : Bool :=
  x.magnitude < infiniteMagnitude

def isZero (x : Binary64) : Bool :=
  x.magnitude == 0

/-- The double of a magnitude and a sign. -/
def ofMagnitude (negative : Bool) (magnitude : Nat) : Binary64 :=
  ⟨UInt64.ofNat (magnitude + if negative then signBit else 0)⟩

/-- Zero without a sign. -/
def zero : Binary64 :=
  ⟨0⟩

/-- An infinity of the given sign. -/
def infinite (negative : Bool) : Binary64 :=
  ofMagnitude negative infiniteMagnitude

/-- The NaN that reading the word gives. -/
def nan (negative : Bool) : Binary64 :=
  ofMagnitude negative (infiniteMagnitude + exponentBit / 2)

/-- The integer factor of a finite double. -/
def significand (x : Binary64) : Nat :=
  if x.exponentField = 0 then x.fraction else exponentBit + x.fraction

/-- The power of two that goes with `significand`. -/
def power (x : Binary64) : Int :=
  if x.exponentField = 0 then -1074 else (x.exponentField : Int) - 1075

/-- The absolute value of a finite double as a quotient. -/
def ratio (x : Binary64) : Nat × Nat :=
  if 0 ≤ x.power then (x.significand <<< x.power.toNat, 1)
  else (x.significand, 1 <<< (-x.power).toNat)

/-- The place of a double in the order of numbers. -/
def rank (x : Binary64) : Int :=
  if x.isNegative then -(x.magnitude : Int) else x.magnitude

/-- The order of a double, not a NaN, and an integer, as numbers. -/
def compareInt (x : Binary64) (i : Int) : Ordering :=
  if x.isInfinite then (if x.isNegative then .lt else .gt)
  else
    let (n, d) := x.ratio
    compare (if x.isNegative then -(n : Int) else n) (i * d)

end Binary64

end MetadataStore.Number
