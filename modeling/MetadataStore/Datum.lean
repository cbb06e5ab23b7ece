import MetadataStore.Fault
import MetadataStore.Number.Reader

/-!
# `Datum` — single elements of any kind

## Contents
- `Datum`, its kind and its text.
- `Datum.settled`, the form an element takes in storage: times lose what is below a millisecond.
- `Cell`, what a database row holds; `Datum.toCell`, `Datum.ofCell` between the two.
-/

namespace MetadataStore

/-- An element of any kind. -/
inductive Datum where
  | string (text : String)
  | time (moment : DateTime)
  | integer (number : Int32)
  | long (number : Int64)
  | double (number : Number.Binary64)
  | boolean (truth : Bool)
  | data (bytes : List UInt8)
  deriving DecidableEq

/-- The contents of one column of one row. -/
inductive Cell where
  | null
  | integer (number : Int)
  | real (number : Number.Binary64)
  | text (text : String)
  | blob (bytes : List UInt8)
  deriving DecidableEq

namespace Datum

/-- The kind of an element. -/
def kind : Datum → Kind
  | .string _ => .string
  | .time _ => .time
  | .integer _ => .integer
  | .long _ => .long
  | .double _ => .double
  | .boolean _ => .boolean
  | .data _ => .data

/-- The text of an element; of opaque bytes only their number. -/
def text : Datum → String
  | .string text => text
  | .time moment => moment.text
  | .integer number => Text.integer number.toInt
  | .long number => Text.integer number.toInt
  | .double number => Number.Layout.plain.text number
  | .boolean truth => if truth then "true" else "false"
  | .data bytes => "<" ++ Text.integer bytes.length ++ " bytes>"

/-- The element as storage keeps it. -/
def settled : Datum → Datum
  | .time moment => .time moment.truncate
  | datum => datum

/-- The cell that holds an element. -/
def toCell : Datum → Cell
  | .string text => .text text
  | .time moment => .text moment.text
  | .integer number => .integer number.toInt
  | .long number => .integer number.toInt
  | .double number => .real number
  | .boolean truth => .integer (if truth then 1 else 0)
  | .data bytes => .blob bytes

/-- The double equal to an integer, or nearest to it. -/
def doubleOfInt (i : Int) : Number.Binary64 :=
  if i = 0 then .zero else Number.ofRatio (i < 0) i.natAbs 1

/-- The element of the given kind that a cell holds. An integer serves as a double and as a truth
value, zero being false; nothing else changes its kind. -/
def ofCell : Kind → Cell → Except CellFault Datum
  | .string, .text text => .ok (.string text)
  | .time, .text text =>
    match DateTime.ofText text with
    | .ok moment => .ok (.time moment)
    | .error cause => .error (.badTime cause)
  | .integer, .integer i =>
    if Int32.minValue.toInt ≤ i ∧ i ≤ Int32.maxValue.toInt then .ok (.integer (Int32.ofInt i))
    else .error (.tooLarge i)
  | .long, .integer i => .ok (.long (Int64.ofInt i))
  | .double, .integer i => .ok (.double (doubleOfInt i))
  | .double, .real x => .ok (.double x)
  | .boolean, .integer i => .ok (.boolean (i != 0))
  | .data, .blob bytes => .ok (.data bytes)
  | _, _ => .error .wrongType

@[simp] theorem kind_settled (datum : Datum) : datum.settled.kind = datum.kind := by
  cases datum <;> rfl

@[simp] theorem settled_settled (datum : Datum) : datum.settled.settled = datum.settled := by
  cases datum <;> simp [settled]

/-- A cell is only ever read as an element of the kind asked for. -/
theorem kind_of_ofCell {kind : Kind} {cell : Cell} {datum : Datum}
    (h : ofCell kind cell = .ok datum) : datum.kind = kind := by
  unfold ofCell at h
  split at h <;> (try split at h) <;> simp_all <;> (try (subst h; rfl))

end Datum

end MetadataStore
