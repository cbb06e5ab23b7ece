import MetadataStore.Value

/-!
# `Attribute` — catalogued attributes on a unit

The catalogue says of each attribute its number, name and kind, and whether it holds at most one
element. Attached to a unit an attribute holds a value; once that is stored it has a value number,
which is a new one after each later store, since values are written and never updated.

## Contents
- `AttributeInfo`, what the catalogue says.
- `Attribute`, with `ofInfo`, `copy`, `markStored` and the changes to its value.
- `AttributeStep`, a change of an attribute as data, and `Attribute.take`.
- `Attribute.fits`, `allFit`, `scalarFits`, the checks before anything is written.
-/

namespace MetadataStore

/-- What the catalogue says of an attribute. -/
structure AttributeInfo where
  id : Int
  name : String
  kind : Kind
  scalar : Bool
  deriving DecidableEq, Repr

/-- An attribute attached to a unit. -/
@[ext]
structure Attribute where
  id : Int
  name : String
  scalar : Bool
  valueId : Option Int
  value : Value

/-- A change of an attribute. -/
inductive AttributeStep where
  /-- One more element. -/
  | push (datum : Datum)
  /-- A copy in its place. -/
  | copy
  /-- Its value counts as written under a number. -/
  | stored (valueId : Int)
  /-- A change to the elements as ones of a kind, which is the attribute's own by default. -/
  | edit (requested : Option Kind) (edit : Edit)

/-- The longest text that an element may hold in storage. -/
def maxTextLength : Nat := 255

namespace Attribute

/-- A fresh attribute without elements. -/
def ofInfo (info : AttributeInfo) : Attribute :=
  ⟨info.id, info.name, info.scalar, none, .create info.kind⟩

/-- A copy that storage does not know, whatever it knows of the attribute itself. -/
def copy (a : Attribute) : Attribute :=
  { a with valueId := none, value := a.value.duplicate }

/-- The attribute after its value was written under the given number. -/
def markStored (a : Attribute) (valueId : Int) : Attribute :=
  { a with valueId := some valueId, value := a.value.markStored }

def kind (a : Attribute) : Kind :=
  a.value.kind

/-- Whether storage has no value of this attribute. -/
def isNew (a : Attribute) : Bool :=
  a.valueId.isNone || a.value.isNew

def isModified (a : Attribute) : Bool :=
  a.value.isModified

/-- Whether the next store of the unit writes the attribute. -/
def needsWriting (a : Attribute) : Bool :=
  a.isNew || a.isModified

/-- The elements as ones of the requested kind. -/
def view (a : Attribute) (requested : Kind) : Except Fault (List Datum) :=
  if requested = a.kind then .ok a.value.elements
  else .error (.attributeKind a.name a.kind requested)

/-- The attribute after a change to its elements. -/
def edit (a : Attribute) (requested : Kind) (edit : Edit) : Except Fault Attribute :=
  match a.value.edit? requested edit with
  | some value => .ok { a with value }
  | none => .error (.attributeKind a.name a.kind requested)

/-- The attribute with one more element. -/
def push (a : Attribute) (datum : Datum) : Except Fault Attribute :=
  match a.value.push datum with
  | .ok value => .ok { a with value }
  | .error fault => .error fault

/-- The attribute after a step. -/
def take (a : Attribute) : AttributeStep → Except Fault Attribute
  | .push datum => a.push datum
  | .copy => .ok a.copy
  | .stored valueId => .ok (a.markStored valueId)
  | .edit requested edit => a.edit (requested.getD a.kind) edit

/-- An element fits into storage unless it is a text that is too long. -/
def fits (name : String) : Datum → Except Fault Unit
  | .string text =>
    if text.length ≤ maxTextLength then .ok () else .error (.textTooLong name text.length)
  | _ => .ok ()

/-- The first element that does not fit is a fault. -/
def allFit (name : String) : List Datum → Except Fault Unit
  | [] => .ok ()
  | datum :: rest =>
    match fits name datum with
    | .ok _ => allFit name rest
    | .error fault => .error fault

/-- A scalar attribute holds at most one element in storage. -/
def scalarFits (a : Attribute) : Except Fault Unit :=
  if a.scalar && 1 < a.value.elements.length then
    .error (.notScalar a.name a.value.elements.length)
  else .ok ()

theorem needsWriting_eq_false_iff {a : Attribute} :
    a.needsWriting = false ↔ a.isNew = false ∧ a.isModified = false :=
  Bool.or_eq_false_iff

@[simp] theorem needsWriting_markStored (a : Attribute) (valueId : Int) :
    (a.markStored valueId).needsWriting = false := by
  simp [needsWriting, isNew, isModified, markStored, Value.markStored, Value.ofElements,
    Value.isModified]

end Attribute

end MetadataStore
