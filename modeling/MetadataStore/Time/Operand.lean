import MetadataStore.Text.Digit
import MetadataStore.Text.Lowercase
import MetadataStore.Time.DateTime

/-!
# `Time.Operand` — times as spelled in a search

A time operand is `YYYY-MM-DD`, optionally followed by a blank or `T` and `HH:MM`, then `:SS`, then a
point and one to three digits; month, day and hour may have a single digit. `n` and `now` name the
present, `d`, `t` and `today` the start of the present day. What is left out is zero, which is what
lets an adjustable comparison widen.

The pattern admits the decimal digits of every script, but only ASCII digits have a worth: a part
written with others counts as zero, and a year written so is no year.

## Contents
- `TimePattern`, the matched parts of an operand as they are written; `TimePattern.ofChars?`.
- `DateTime.ofOperand?`.
-/

namespace MetadataStore

/-- The digits of each part of a time operand, empty where the part is left out. -/
structure TimePattern where
  year : List Char
  month : List Char
  day : List Char
  hour : List Char
  minute : List Char
  second : List Char
  fraction : List Char
  deriving DecidableEq

namespace TimePattern

/-- The longest run of at most `high` digits, if it has at least `low`, and what follows it. -/
def digits? (low high : Nat) (cs : List Char) : Option (List Char × List Char) :=
  let ds := (cs.take high).takeWhile Text.isDigit
  if low ≤ ds.length then some (ds, cs.drop ds.length) else none

/-- What follows a required character. -/
def after? (c : Char) : List Char → Option (List Char)
  | [] => none
  | d :: cs => if d = c then some cs else none

/-- The fraction at the end, if any. -/
def fraction? : List Char → Option (List Char)
  | [] => some []
  | cs => do
    let (fraction, cs) ← digits? 1 3 (← after? '.' cs)
    if cs.isEmpty then some fraction else none

/-- Second and fraction at the end, if any. -/
def second? : List Char → Option (List Char × List Char)
  | [] => some ([], [])
  | cs => do
    let (second, cs) ← digits? 2 2 (← after? ':' cs)
    let fraction ← fraction? cs
    pure (second, fraction)

/-- A time operand taken apart. -/
def ofChars? (cs : List Char) : Option TimePattern := do
  let (year, cs) ← digits? 4 4 cs
  let (month, cs) ← digits? 1 2 (← after? '-' cs)
  let (day, cs) ← digits? 1 2 (← after? '-' cs)
  match cs with
  | [] => pure ⟨year, month, day, [], [], [], []⟩
  | c :: cs =>
    if c = ' ' ∨ c = 'T' then
      let (hour, cs) ← digits? 1 2 cs
      let (minute, cs) ← digits? 2 2 (← after? ':' cs)
      let (second, fraction) ← second? cs
      pure ⟨year, month, day, hour, minute, second, fraction⟩
    else none

/-- The worth of a part, zero when it is left out or not written in ASCII. -/
def worth (ds : List Char) : Nat :=
  (Text.readDigits? ds).getD 0

/-- The nanoseconds of a fraction of a second. -/
def fractionNanos (ds : List Char) : Nat :=
  worth (ds ++ List.replicate (3 - ds.length) '0') * nanosPerMilli

/-- The time that the parts name, if there is one. -/
def time? (p : TimePattern) : Option DateTime := do
  let year ← Text.readDigits? p.year
  DateTime.ofParts? year (worth p.month) (worth p.day) (worth p.hour) (worth p.minute)
    (worth p.second) (fractionNanos p.fraction)

end TimePattern

/-- The time that an operand names at the moment `now`. -/
def DateTime.ofOperand? (now : DateTime) (s : String) : Option DateTime :=
  let word := Text.lower s
  if word = "n" ∨ word = "now" then some now
  else if word = "d" ∨ word = "t" ∨ word = "today" then some now.startOfDay
  else (TimePattern.ofChars? s.toList).bind TimePattern.time?

end MetadataStore
