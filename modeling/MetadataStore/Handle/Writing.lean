import MetadataStore.Database.Transaction
import MetadataStore.Handle.Basic

/-!
# `Handle.Writing` — what a store writes

Storing a unit is one transaction. A new unit gets a row and with it a number; a stored one gets its
new name if it was renamed. Then the values of attributes taken off go, and each attribute that is new
or changed gets a fresh value in place of the one it had.

## Contents
- `Value.write`, `Attribute.write`, the writing of one value.
- `Handle.write`, the whole transaction: the number of the unit and the value numbers given.
-/

namespace MetadataStore

namespace Value

/-- Writes elements under a value number from the given index on. -/
def writeFrom (kind : Kind) (valueId : Int) : Nat → List Datum → Transaction Unit
  | _, [] => pure ()
  | index, datum :: rest => do
    Transaction.perform (Database.insertElement kind valueId index datum.toCell)
    writeFrom kind valueId (index + 1) rest

/-- Writes the elements of a value, which must all fit, under a value number. -/
def write (value : Value) (name : String) (valueId : Int) : Transaction Unit := do
  Transaction.check (Attribute.allFit name value.elements)
  writeFrom value.kind valueId 0 value.elements

/-- Writes a value under a number if there is anything new about it, and gives the value after. -/
def store (value : Value) (name : String) (valueId : Int) : Transaction Value :=
  if value.needsWriting then do
    value.write name valueId
    pure value.markStored
  else pure value

end Value

namespace Attribute

/-- Writes a fresh value of an attribute on a unit in place of the one it had; its number is the
result. -/
def write (a : Attribute) (unit : UnitRef) : Transaction Int := do
  Transaction.check a.scalarFits
  -- the elements under the old number go with it
  Transaction.perform (Database.deleteMapping unit a.id)
  let valueId ← Transaction.perform (Database.insertMapping unit a.id)
  a.value.write a.name valueId
  pure valueId

/-- Writes an attribute if there is anything new about it, and gives the attribute after. -/
def store (a : Attribute) (unit : UnitRef) : Transaction Attribute :=
  if a.needsWriting then do
    let valueId ← a.write unit
    pure (a.markStored valueId)
  else pure a

end Attribute

namespace Handle

/-- Writes the row of a unit: a new one, or the new name of a renamed one. The number of the unit is
the result. -/
def writeUnit (h : Handle) (created : DateTime) : Transaction Int :=
  match h.id with
  | some id => do
    if h.renamed then
      let _ ← Transaction.perform (Database.renameUnit ⟨h.tenant, id⟩ h.name)
      pure id
    else pure id
  | none =>
    Transaction.perform
      (Database.insertUnit h.tenant h.correlation h.name h.status.code created.text)

/-- Writes all that the handle has and the database does not: the number of the unit, and the value
number of each attribute written. -/
def write (h : Handle) (created : DateTime) : Transaction (Int × List (String × Int)) := do
  let id ← h.writeUnit created
  let unit : UnitRef := ⟨h.tenant, id⟩
  Transaction.forEach
    (fun attributeId => Transaction.perform (Database.deleteMapping unit attributeId)) h.detached
  let written ← Transaction.collect
    (fun entry : String × Attribute => do
      let valueId ← entry.2.write unit
      pure (entry.1, valueId)) h.pending
  pure (id, written)

end Handle

end MetadataStore
