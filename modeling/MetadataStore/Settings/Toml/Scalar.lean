import MetadataStore.Settings.Setting
import MetadataStore.Settings.Toml.Text
import MetadataStore.Time.DateTime

/-!
# `Settings.Toml.Scalar` — words, numbers and times

A scalar without quotes is a run of characters: a truth value, an integer in one of four bases, a
double, or a time, which settings keep as text in its plain form.

## Contents
- `integer?`, `double?`, `moment?`.
- `scalar?`, the scalar at the front.
-/

namespace MetadataStore.Toml

/-! ## Numbers -/

/-- Digits without the underscores between them; any other underscore is an error. -/
def ungrouped? (isDigit : Char → Bool) : List Char → Option (List Char)
  | [] => some []
  | [c] => if isDigit c then some [c] else none
  | c :: '_' :: d :: rest =>
    if isDigit c && isDigit d then (ungrouped? isDigit (d :: rest)).map (c :: ·) else none
  | c :: rest => if isDigit c then (ungrouped? isDigit rest).map (c :: ·) else none

/-- One or more digits, which may be grouped by underscores. -/
def decimalDigits? (cs : List Char) : Option (List Char) :=
  (ungrouped? Number.isAsciiDigit cs).filter (!·.isEmpty)

/-- Decimal digits of which the first of several is not zero. -/
def plainDigits? (cs : List Char) : Option (List Char) :=
  (decimalDigits? cs).filter fun ds => ds.length == 1 || ds.head? != some '0'

/-- An integer of sixty-four bits. -/
def within? (i : Int) : Option Int :=
  if Int64.minValue.toInt ≤ i ∧ i ≤ Int64.maxValue.toInt then some i else none

/-- The worth of a digit below a base of at most sixteen. -/
def digitBelow? (base : Nat) (c : Char) : Option Nat :=
  (hexDigit? c).filter (· < base)

/-- The integer of a base that digits denote, which may be grouped by underscores. -/
def based? (base : Nat) (cs : List Char) : Option Int := do
  let digits ← ungrouped? (fun c => (digitBelow? base c).isSome) cs
  let n ← number? (digitBelow? base) base digits
  within? n

/-- The integer that a run of characters denotes. -/
def integer? : List Char → Option Int
  | '0' :: 'x' :: cs => based? 16 cs
  | '0' :: 'o' :: cs => based? 8 cs
  | '0' :: 'b' :: cs => based? 2 cs
  | cs => do
    let (negative, cs) := Number.cutSign cs
    let digits ← plainDigits? cs
    let n ← number? (digitBelow? 10) 10 digits
    within? (if negative then -(n : Int) else n)

/-- The exponent of a double as digits with a sign; none is needed. -/
def exponent? : List Char → Option (List Char)
  | [] => some []
  | c :: cs =>
    if c == 'e' || c == 'E' then
      let (negative, ds) := Number.cutSign cs
      (decimalDigits? ds).map fun ds => 'e' :: (if negative then '-' else '+') :: ds
    else none

/-- Whether a character belongs to the digits of a number. -/
def isGrouped (c : Char) : Bool :=
  Number.isAsciiDigit c || c == '_'

/-- The double that a run of characters denotes. One that is too large is an error. -/
def double? (cs : List Char) : Option Number.Binary64 := do
  let (negative, unsigned) := Number.cutSign cs
  if unsigned == "inf".toList then pure (.infinite negative)
  else if unsigned == "nan".toList then pure (.nan negative)
  else
    let whole ← plainDigits? (unsigned.takeWhile isGrouped)
    let (part, rest) ← match unsigned.dropWhile isGrouped with
      | '.' :: ds => (decimalDigits? (ds.takeWhile isGrouped)).map fun part =>
          ('.' :: part, ds.dropWhile isGrouped)
      | rest => some ([], rest)
    let exponent ← exponent? rest
    let x ← Number.unsignedDouble? negative (whole ++ part ++ exponent)
    if x.isFinite then pure x else none

/-! ## Times -/

/-- Some digits at the front as a number. -/
def fixedDigits? (width : Nat) (cs : List Char) : Option (Nat × List Char) := do
  let digits := cs.take width
  if digits.length < width then none
  else
    let n ← number? (digitBelow? 10) 10 digits
    pure (n, cs.drop width)

/-- A character at the front. -/
def expect? (c : Char) : List Char → Option (List Char)
  | d :: rest => if d == c then some rest else none
  | [] => none

/-- A calendar date in its plain form. -/
def date? (cs : List Char) : Option (List Char × List Char) := do
  let (year, rest) ← fixedDigits? 4 cs
  let (month, rest) ← fixedDigits? 2 (← expect? '-' rest)
  let (day, rest) ← fixedDigits? 2 (← expect? '-' rest)
  let _ ← DateTime.ofParts? year month day 0 0 0 0
  pure (Text.padded 4 year ++ '-' :: Text.padded 2 month ++ '-' :: Text.padded 2 day, rest)

/-- A fraction of a second in its plain form: at most nine digits, without zeros at the end. -/
def fraction? : List Char → Option (List Char × List Char)
  | '.' :: cs =>
    let digits := cs.takeWhile Number.isAsciiDigit
    let shown := ((digits.take 9).reverse.dropWhile (· == '0')).reverse
    if digits.isEmpty then none
    else some (if shown.isEmpty then [] else '.' :: shown, cs.dropWhile Number.isAsciiDigit)
  | cs => some ([], cs)

/-- A time of day in its plain form. -/
def clock? (cs : List Char) : Option (List Char × List Char) := do
  let (hour, rest) ← fixedDigits? 2 cs
  let (minute, rest) ← fixedDigits? 2 (← expect? ':' rest)
  let (second, rest) ← fixedDigits? 2 (← expect? ':' rest)
  let (fraction, rest) ← fraction? rest
  if 23 < hour || 59 < minute || 60 < second then none
  else
    pure (Text.padded 2 hour ++ ':' :: Text.padded 2 minute ++ ':' :: Text.padded 2 second ++ fraction,
      rest)

/-- The offset from universal time that ends a time, in its plain form; none is needed. -/
def offset? : List Char → Option (List Char)
  | [] => some []
  | [c] => if c == 'Z' || c == 'z' then some ['Z'] else none
  | c :: cs => do
    let (hour, rest) ← fixedDigits? 2 cs
    let (minute, rest) ← fixedDigits? 2 (← expect? ':' rest)
    if !(c == '+' || c == '-') || !rest.isEmpty || 23 < hour || 59 < minute then none
    else pure (c :: Text.padded 2 hour ++ ':' :: Text.padded 2 minute)

/-- The time that a run of characters denotes: a date, a time of day, or both with or without an
offset, in its plain form. -/
def moment? (cs : List Char) : Option String :=
  match date? cs with
  | some (date, []) => some (String.ofList date)
  | some (date, c :: rest) =>
    if c == 'T' || c == 't' || c == ' ' then do
      let (clock, rest) ← clock? rest
      let offset ← offset? rest
      pure (String.ofList (date ++ 'T' :: clock ++ offset))
    else none
  | none =>
    match clock? cs with
    | some (clock, []) => some (String.ofList clock)
    | _ => none

/-! ## Scalars -/

/-- Whether a character may stand in a scalar without quotes. -/
def isScalarChar (c : Char) : Bool :=
  c.isAlphanum || c == '_' || c == '-' || c == '+' || c == '.' || c == ':'

/-- The run of characters at the front that is a scalar. A date may go on after a blank with a time of
day. -/
def scalarRun (cs : List Char) : List Char × List Char :=
  let run := cs.takeWhile isScalarChar
  match date? run, cs.dropWhile isScalarChar with
  | some (_, []), ' ' :: rest =>
    if (rest.head?.map Number.isAsciiDigit).getD false then
      (run ++ ' ' :: rest.takeWhile isScalarChar, rest.dropWhile isScalarChar)
    else (run, ' ' :: rest)
  | _, rest => (run, rest)

/-- What a run of characters denotes. -/
def scalarOf? (run : List Char) : Option Setting :=
  if run == "true".toList then some (.boolean true)
  else if run == "false".toList then some (.boolean false)
  else
    match integer? run, double? run, moment? run with
    | some i, _, _ => some (.integer i)
    | _, some x, _ => some (.double x)
    | _, _, some moment => some (.text moment)
    | _, _, _ => none

/-- The scalar at the front. -/
def scalar? (cs : List Char) : Option (Setting × List Char) :=
  let (run, rest) := scalarRun cs
  (scalarOf? run).map fun setting => (setting, rest)

end MetadataStore.Toml
