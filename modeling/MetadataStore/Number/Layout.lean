import MetadataStore.Number.Decimal

/-!
# `Number.Layout` — the texts of a double

Three texts of a double occur: the plain one in messages, which never uses an exponent; the literal
inside a statement, which always shows that it is not an integer; and the text that the storage
engine makes of a stored real when it is matched against a pattern. All three lay out decimal
digits; a `Layout` says how.

## Contents
- `Layout`, `Layout.text`: how digits become text.
- `plain`, `literal`, `engine`: the three layouts.
-/

namespace MetadataStore.Number

/-- How the digits of a positive number are laid out. -/
structure Layout where
  /-- The digits to show. -/
  decimal : Binary64 → Decimal
  /-- The exponents of the leading digit that are written without an exponent, `none` for all. -/
  positional : Option (Int × Int)
  /-- Whether an integer keeps a point and a zero. -/
  keepsPoint : Bool
  /-- Whether the exponent form keeps a point and a zero, and writes a sign and two digits. -/
  fullExponent : Bool
  /-- The text of an infinity, after its sign. -/
  infinity : String

namespace Layout

/-- The layout of messages. -/
def plain : Layout := ⟨.shortest, none, false, false, "inf"⟩

/-- The layout of literals: an exponent from `10 ^ 16` up and below `10 ^ -4`. -/
def literal : Layout := ⟨.shortest, some (-4, 15), true, false, "inf"⟩

/-- The engine's layout: fifteen digits, an exponent from `10 ^ 15` up and below `10 ^ -4`. -/
def engine : Layout := ⟨.rounded 15, some (-4, 14), true, true, "Inf"⟩

/-- Digits with the point after the place of `10 ^ 0`. -/
def positionalText (keepsPoint : Bool) (d : Decimal) : List Char :=
  let ds := d.digits
  if 0 ≤ d.exponent then
    ds ++ List.replicate d.exponent.toNat '0' ++ (if keepsPoint then ['.', '0'] else [])
  else
    let places := (-d.exponent).toNat
    if places < ds.length then
      ds.take (ds.length - places) ++ '.' :: ds.drop (ds.length - places)
    else '0' :: '.' :: List.replicate (places - ds.length) '0' ++ ds

/-- One digit, the others after a point, and the exponent. -/
def exponentText (full : Bool) (d : Decimal) : List Char :=
  let ds := d.digits
  let e := d.leading
  let tail := ds.drop 1
  let body := ds.take 1 ++
    (if tail.isEmpty then (if full then ['.', '0'] else []) else '.' :: tail)
  let sign := if e < 0 then ['-'] else if full then ['+'] else []
  body ++ 'e' :: sign ++ (if full then Text.padded 2 e.natAbs else Text.digits e.natAbs)

/-- The text of a finite number without its sign. -/
def magnitudeText (layout : Layout) (x : Binary64) : List Char :=
  if x.isZero then '0' :: (if layout.keepsPoint then ['.', '0'] else [])
  else
    let d := layout.decimal x
    match layout.positional with
    | none => positionalText layout.keepsPoint d
    | some (low, high) =>
      if low ≤ d.leading ∧ d.leading ≤ high then positionalText layout.keepsPoint d
      else exponentText layout.fullExponent d

/-- The text of a double. -/
def text (layout : Layout) (x : Binary64) : String :=
  if x.isNaN then "NaN"
  else
    let sign := if x.isNegative then ['-'] else []
    if x.isInfinite then String.ofList (sign ++ layout.infinity.toList)
    else String.ofList (sign ++ layout.magnitudeText x)

example : plain.text ⟨0x8000000000000000⟩ = "-0" := by decide +kernel
example : plain.text ⟨0x4004000000000000⟩ = "2.5" := by decide +kernel
example : literal.text ⟨0x3FF0000000000000⟩ = "1.0" := by decide +kernel

end Layout

end MetadataStore.Number
