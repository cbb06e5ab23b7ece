import MetadataStore.Text.Blank
import MetadataStore.Text.Digit
import MetadataStore.Time.DateTime

/-!
# `Time.Text` — the stored form of times

Times are kept as text of the layout `year-month-day hour:minute:second.millis`. All parts have a
fixed width except years outside `0` to `9999`, which carry a sign; a leap second is second 60.
Reading is more lenient than writing: parts may be short, white space may come before each number,
and the fraction may be missing altogether.

## Contents
- `DateTime.text`, the stored form.
- `TimeTextError`, the ways in which reading fails, and their messages.
- `DateTime.ofText`, reading.
-/

namespace MetadataStore

/-! ## Writing -/

/-- A year: four digits, or a sign and at least four digits outside `0` to `9999`. -/
def yearText (year : Int) : List Char :=
  if 0 ≤ year ∧ year ≤ 9999 then Text.padded 4 year.natAbs
  else (if year < 0 then '-' else '+') :: Text.padded 4 year.natAbs

/-- The second as written, the leap second being number 60. -/
def TimeOfDay.writtenSecond (t : TimeOfDay) : Nat :=
  if t.isLeap then 60 else t.second

/-- The milliseconds as written. -/
def TimeOfDay.writtenMillis (t : TimeOfDay) : Nat :=
  t.millis % 1000

/-- The characters of the stored form of a time. -/
def DateTime.chars (t : DateTime) : List Char :=
  yearText t.date.year ++ '-' :: Text.padded 2 t.date.month ++ '-' :: Text.padded 2 t.date.day ++
    ' ' :: Text.padded 2 t.time.hour ++ ':' :: Text.padded 2 t.time.minute ++
    ':' :: Text.padded 2 t.time.writtenSecond ++ '.' :: Text.padded 3 t.time.writtenMillis

/-- The stored form of a time. -/
def DateTime.text (t : DateTime) : String :=
  String.ofList t.chars

/-! ## Reading -/

/-- The ways in which reading a time fails. -/
inductive TimeTextError where
  /-- The text ends where something more is required. -/
  | tooShort
  /-- A character stands where another is required. -/
  | unexpected
  /-- A part has a value that no time has, or the parts name no date. -/
  | outOfRange
  /-- Something follows the time. -/
  | tooLong
  deriving DecidableEq, Repr

/-- The message of a failed reading. -/
def TimeTextError.message : TimeTextError → String
  | .tooShort => "premature end of input"
  | .unexpected => "input contains invalid characters"
  | .outOfRange => "input is out of range"
  | .tooLong => "trailing input"

namespace TimeText

/-- Whether a character is an ASCII digit. -/
def isAsciiDigit (c : Char) : Bool :=
  (Text.asciiDigit? c).isSome

/-- The number denoted by ASCII digits. -/
def worth (ds : List Char) : Nat :=
  (Text.readDigitsFrom? 0 ds).getD 0

/-- At least one digit and at most `width` of them. -/
def number (width : Nat) (cs : List Char) : Except TimeTextError (Nat × List Char) :=
  match cs with
  | [] => .error .tooShort
  | c :: _ =>
    if isAsciiDigit c then
      let ds := (cs.take width).takeWhile isAsciiDigit
      .ok (worth ds, cs.drop ds.length)
    else .error .unexpected

/-- A number of one or two digits within bounds, after any white space. -/
def bounded (low high : Nat) (cs : List Char) : Except TimeTextError (Nat × List Char) := do
  let (n, rest) ← number 2 (Text.trimStart cs)
  if low ≤ n ∧ n ≤ high then .ok (n, rest) else .error .outOfRange

/-- A number of up to four digits, or a sign and any number of digits. -/
def signed (cs : List Char) : Except TimeTextError (Int × List Char) :=
  match cs with
  | '-' :: ds => (number ds.length ds).map fun (n, rest) => (-(n : Int), rest)
  | '+' :: ds => (number ds.length ds).map fun (n, rest) => ((n : Int), rest)
  | ds => (number 4 ds).map fun (n, rest) => ((n : Int), rest)

/-- A year after any white space. -/
def year (cs : List Char) : Except TimeTextError (Int × List Char) :=
  match signed (Text.trimStart cs) with
  | .ok (y, rest) =>
    if Int32.minValue.toInt ≤ y ∧ y ≤ Int32.maxValue.toInt then .ok (y, rest) else .error .outOfRange
  | .error fault => .error fault

/-- One required character. -/
def mark (c : Char) (cs : List Char) : Except TimeTextError (Unit × List Char) :=
  match cs with
  | [] => .error .tooShort
  | d :: rest => if d = c then .ok ((), rest) else .error .unexpected

/-- How many bytes characters take. -/
def utf8Length : List Char → Nat
  | [] => 0
  | c :: cs => c.utf8Size + utf8Length cs

/-- The milliseconds after a point, exactly three digits; none when there is no point. -/
def fraction (cs : List Char) : Except TimeTextError (Nat × List Char) :=
  match cs with
  | '.' :: rest =>
    if utf8Length rest < 3 then .error .tooShort
    else if (rest.take 3).all isAsciiDigit && (rest.take 3).length == 3 then
      .ok (worth (rest.take 3), rest.drop 3)
    else .error .unexpected
  | _ => .ok (0, cs)

/-- The parts of a time, second 60 being the leap second. -/
def assemble (year : Int) (month day hour minute second millis : Nat) :
    Except TimeTextError DateTime :=
  let (second, leap) := if second = 60 then (59, nanosPerSecond) else (second, 0)
  match DateTime.ofParts? year month day hour minute second (leap + millis * nanosPerMilli) with
  | some t => .ok t
  | none => .error .outOfRange

/-- All parts in their order, nothing following. -/
def parse (cs : List Char) : Except TimeTextError DateTime := do
  let (y, cs) ← year cs
  let (_, cs) ← mark '-' cs
  let (month, cs) ← bounded 1 12 cs
  let (_, cs) ← mark '-' cs
  let (day, cs) ← bounded 1 31 cs
  let (hour, cs) ← bounded 0 23 cs
  let (_, cs) ← mark ':' cs
  let (minute, cs) ← bounded 0 59 cs
  let (_, cs) ← mark ':' cs
  let (second, cs) ← bounded 0 60 cs
  let (millis, cs) ← fraction cs
  if cs.isEmpty then assemble y month day hour minute second millis else .error .tooLong

end TimeText

/-- The time that a text denotes. -/
def DateTime.ofText (s : String) : Except TimeTextError DateTime :=
  TimeText.parse s.toList

end MetadataStore
