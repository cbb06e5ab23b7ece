import MetadataStore.Number.Binary64
import MetadataStore.Text.Digit

/-!
# `Number.Decimal` — decimal forms of doubles

A positive double is written by the fewest decimal digits that read back as it, and of those by the
nearest; a tie goes to the larger. Where a fixed number of digits is asked for, the value is rounded
to that many, a half going up.

## Contents
- `Decimal`, a coefficient and a power of ten.
- `Decimal.shortest`, the fewest digits that read back.
- `Decimal.rounded`, a fixed number of digits.
-/

namespace MetadataStore.Number

/-- The number `coefficient · 10 ^ exponent`. -/
structure Decimal where
  coefficient : Nat
  exponent : Int
  deriving DecidableEq, Repr

namespace Decimal

/-- The decimal digits of the coefficient. -/
def digits (d : Decimal) : List Char :=
  Text.digits d.coefficient

/-- The exponent of the leading digit. -/
def leading (d : Decimal) : Int :=
  d.exponent + d.digits.length - 1

/-- Zeros at the end of the coefficient move into the exponent, at most `fuel` of them. -/
def stripFrom (fuel : Nat) (c : Nat) (e : Int) : Decimal :=
  match fuel with
  | 0 => ⟨c, e⟩
  | fuel + 1 => if c % 10 = 0 ∧ c ≠ 0 then stripFrom fuel (c / 10) (e + 1) else ⟨c, e⟩

/-- The same number with no zero at the end of its coefficient. -/
def stripped (d : Decimal) : Decimal :=
  stripFrom d.coefficient d.coefficient d.exponent

/-- The exponent of the leading decimal digit of the positive quotient `n / d`. -/
def leadingExponent (n d : Nat) : Int :=
  if d ≤ n then ((Text.digits (n / d)).length : Int) - 1
  else
    let width := (Text.digits (d / n)).length
    if d = n * Nat.pow 10 (width - 1) then -((width : Int) - 1) else -(width : Int)

/-- The quotient `n / d` in units of `10 ^ e`, again as a quotient. -/
def inUnits (n d : Nat) (e : Int) : Nat × Nat :=
  if 0 ≤ e then (n, d * Nat.pow 10 e.toNat) else (n * Nat.pow 10 (-e).toNat, d)

/-- The numbers that round to a double, in quarters of its last place: those between `low` and
`high` around `4 · significand`, the ends counting when `closed`. -/
structure Neighbourhood where
  low : Nat
  high : Nat
  closed : Bool

/-- The neighbourhood of a double. Below a power of two the doubles are twice as dense. -/
def neighbourhood (x : Binary64) : Neighbourhood :=
  let m := x.significand
  { low := if x.fraction = 0 ∧ 1 < x.exponentField then 4 * m - 1 else 4 * m - 2
    high := 4 * m + 2
    closed := m % 2 == 0 }

/-- Whether `c · 10 ^ e` rounds to the double whose neighbourhood and power are given. -/
def readsBack (r : Neighbourhood) (power : Int) (c : Nat) (e : Int) : Bool :=
  let shift := power - 2
  let left := (c * if 0 ≤ e then Nat.pow 10 e.toNat else 1) <<< (-shift).toNat
  let unit := (if 0 ≤ e then 1 else Nat.pow 10 (-e).toNat) <<< shift.toNat
  if r.closed then r.low * unit ≤ left && left ≤ r.high * unit
  else r.low * unit < left && left < r.high * unit

/-- Of the two neighbours of a value on the grid of `10 ^ e`, the one that reads back; when both do,
the nearer, and the larger of two equally near. -/
def onGrid? (x : Binary64) (e : Int) : Option Decimal :=
  let (n, d) := x.ratio
  let (n, d) := inUnits n d e
  let below := n / d
  let r := neighbourhood x
  let lowHit := below ≠ 0 && readsBack r x.power below e
  let highHit := readsBack r x.power (below + 1) e
  match lowHit, highHit with
  | true, true => some ⟨if 2 * (n % d) < d then below else below + 1, e⟩
  | true, false => some ⟨below, e⟩
  | false, true => some ⟨below + 1, e⟩
  | false, false => none

/-- The first grid with a hit, the grids getting finer; seventeen digits always suffice. -/
def shortestFrom (x : Binary64) (e : Int) : Nat → Decimal
  | 0 => ⟨0, 0⟩
  | count + 1 => (onGrid? x e).getD (shortestFrom x (e - 1) count)

/-- The fewest digits that read back as a finite positive double. -/
def shortest (x : Binary64) : Decimal :=
  let (n, d) := x.ratio
  (shortestFrom x (leadingExponent n d) 17).stripped

/-- The value of a finite positive double to the given number of digits, a half going up. -/
def rounded (places : Nat) (x : Binary64) : Decimal :=
  let (n, d) := x.ratio
  let e := leadingExponent n d - places + 1
  let (n, d) := inUnits n d e
  (stripped ⟨(2 * n + d) / (2 * d), e⟩)

end Decimal

end MetadataStore.Number
