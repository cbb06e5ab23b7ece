import MetadataStore.Datum
import MetadataStore.Attribute
import MetadataStore.Status
import MetadataStore.Time.Operand

/-!
# `Search.Item` — single constraints

A constraint compares a column of the units or the elements of an attribute with an operand. The
checked constructors refuse operands of the wrong kind, opaque bytes and doubles that are no numbers;
an operand given as text is read according to the kind of the attribute.

## Contents
- `Operator`.
- `Item`, its checked constructors and shorthands.
- `Item.checkSearchable`, what a constraint on an attribute must satisfy.
- `Item.ofText`, a constraint whose operand is spelled out.
-/

namespace MetadataStore

/-- A comparison. -/
inductive Operator where
  | eq | neq | lt | leq | gt | geq | like
  deriving DecidableEq, Repr

/-- The comparison as statements write it. -/
def Operator.text : Operator → String
  | .eq => " = "
  | .neq => " <> "
  | .lt => " < "
  | .leq => " <= "
  | .gt => " > "
  | .geq => " >= "
  | .like => " LIKE "

/-- A single constraint. -/
inductive Item where
  /-- Compares a column of the units. -/
  | column (column : Column) (operator : Operator) (operand : Datum)
  /-- Compares the elements of an attribute. An adjustable equality with a time matches the span that
  trailing zero components leave open. -/
  | element (attributeId : Int) (operator : Operator) (operand : Datum) (adjustable : Bool)
  deriving DecidableEq

namespace Item

/-- What a constraint compares with. -/
def operand : Item → Datum
  | .column _ _ operand => operand
  | .element _ _ operand _ => operand

def kind (item : Item) : Kind :=
  item.operand.kind

/-! ## Constraints on columns -/

/-- A constraint on a column, whose operand must be of the column's kind. -/
def ofColumn (column : Column) (operator : Operator) (operand : Datum) : Except Fault Item :=
  if operand.kind = column.kind then .ok (.column column operator operand)
  else .error (.columnOperand column operand.kind)

/-- The units of a tenant. -/
def tenant (tenant : Int32) : Item :=
  .column .tenant .eq (.integer tenant)

/-- The unit of a number. -/
def unitId (id : Int64) : Item :=
  .column .id .eq (.long id)

/-- The unit of a correlation id. -/
def correlation (text : String) : Item :=
  .column .correlation .eq (.string text)

/-- The units whose name compares so. -/
def name (operator : Operator) (text : String) : Item :=
  .column .name operator (.string text)

/-- The units whose status compares so, by code. -/
def status (operator : Operator) (status : Status) : Item :=
  .column .status operator (.integer (Int32.ofInt status.code))

/-- The units that are effective or archived. -/
def effective : Item :=
  status .geq .effective

/-- The units whose creation time compares so. -/
def created (operator : Operator) (moment : DateTime) : Item :=
  .column .created operator (.time moment)

def createdAfter (moment : DateTime) : Item :=
  created .gt moment

def createdBefore (moment : DateTime) : Item :=
  created .lt moment

/-! ## Constraints on attributes -/

/-- Elements are not compared with opaque bytes, nor with doubles that are no numbers. -/
def checkSearchable : Item → Except Fault Unit
  | .column .. => .ok ()
  | .element id _ operand _ =>
    if !operand.kind.isSearchable then .error (.opaqueOperand id operand.kind)
    else match operand with
      | .double x => if x.isFinite then .ok () else .error (.incomparable id x)
      | _ => .ok ()

/-- An exact constraint on the elements of an attribute. -/
def ofElement (id : Int) (operator : Operator) (operand : Datum) : Except Fault Item :=
  match checkSearchable (.element id operator operand false) with
  | .ok _ => .ok (.element id operator operand false)
  | .error fault => .error fault

/-- A constraint on the times of an attribute, possibly widening to a span. -/
def ofElementTime (id : Int) (operator : Operator) (moment : DateTime) (adjustable : Bool) : Item :=
  .element id operator (.time moment) adjustable

/-- The truth value that a word stands for. -/
def truth? (word : String) : Option Bool :=
  let word := Text.lower word
  if word = "true" ∨ word = "1" ∨ word = "yes" then some true
  else if word = "false" ∨ word = "0" ∨ word = "no" then some false
  else none

/-- The operand of the attribute's kind that a trimmed text denotes at the moment `now`. -/
def operandOfText (now : DateTime) (info : AttributeInfo) (text : String) : Except Fault Datum :=
  let orBad (datum : Option Datum) : Except Fault Datum :=
    match datum with
    | some datum => .ok datum
    | none => .error (.badOperand text info.kind info.name)
  match info.kind with
  | .string => .ok (.string text)
  | .time =>
    match DateTime.ofOperand? now text with
    | some moment => .ok (.time moment)
    | none => .error (.badTime text)
  | .integer => orBad ((Number.int32? text).map .integer)
  | .long => orBad ((Number.int64? text).map .long)
  | .double => orBad ((Number.double? text).map .double)
  | .boolean => orBad ((truth? text).map .boolean)
  | .data => .error (.opaqueAttribute info.name)

/-- A constraint on an attribute whose operand is spelled out; times are adjustable, so that a bare
date matches the whole day. -/
def ofText (now : DateTime) (info : AttributeInfo) (operator : Operator) (text : String) :
    Except Fault Item :=
  -- messages quote the trimmed text
  match operandOfText now info (Text.trim text) with
  | .ok (.time moment) => .ok (ofElementTime info.id operator moment true)
  | .ok operand => ofElement info.id operator operand
  | .error fault => .error fault

end Item

end MetadataStore
