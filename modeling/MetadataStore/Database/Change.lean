import MetadataStore.Database.Tables
import MetadataStore.Text.Lowercase

/-!
# `Database.Change` — statements that change the stored state

Each change is one statement: it either makes all of its effect or reports which constraint stands
against it. Required columns are looked at first, then columns that must differ, then references.
Deleting a unit takes its values, locks and the links on both of its sides with it, and deleting a
mapping takes the elements of its value.

## Contents
- `Change`, a statement with a result.
- Changes to units, attributes, mappings, elements, locks, relations and associations.
-/

namespace MetadataStore

/-- A statement: its result and the state after it, or what stands against it. -/
abbrev Change (α : Type) := Database → Except EngineFault (α × Database)

/-- A cell as a table keeps it: a double that is no number is a missing value, and zero has no sign. -/
def Cell.settled : Cell → Cell
  | .real x => if x.isNaN then .null else if x.isZero then .real .zero else .real x
  | cell => cell

namespace Database

/-! ## Units -/

/-- A new unit; its number is the result. -/
def insertUnit (tenant : Int) (correlation : String) (name : Option String) (status : Int)
    (created : String) : Change Int := fun db =>
  if db.units.any fun row => row.correlation == correlation then .error (.unique "repo_unit.corrid")
  else
    let id := db.lastUnit + 1
    let row := ⟨⟨tenant, id⟩, correlation, name, status, created⟩
    .ok (id, { db with units := db.units ++ [row], lastUnit := id })

/-- Changes the row of a unit if there is one; the number of rows is the result. -/
def updateUnit (unit : UnitRef) (f : UnitRow → UnitRow) : Change Nat := fun db =>
  let count := (db.units.filter fun row => row.unit == unit).length
  .ok (count, { db with units := db.units.map fun row => if row.unit == unit then f row else row })

/-- A new name for a unit. -/
def renameUnit (unit : UnitRef) (name : Option String) : Change Nat :=
  updateUnit unit fun row => { row with name }

/-- A new status for a unit. -/
def setUnitStatus (unit : UnitRef) (code : Int) : Change Nat :=
  updateUnit unit fun row => { row with status := code }

/-- A new creation time, as text, for a unit. -/
def setUnitCreated (unit : UnitRef) (created : String) : Change Nat :=
  updateUnit unit fun row => { row with created }

/-- A new correlation id for a unit; no other unit may have it. -/
def setUnitCorrelation (unit : UnitRef) (correlation : String) : Change Nat := fun db =>
  if db.hasUnit unit && db.units.any fun row => row.correlation == correlation && row.unit != unit then
    .error (.unique "repo_unit.corrid")
  else updateUnit unit (fun row => { row with correlation }) db

/-- Removes a unit and all that hangs on it. -/
def deleteUnit (unit : UnitRef) : Change Unit := fun db =>
  let doomed := (db.mappingsOf unit).map (·.valueId)
  .ok ((), { db with
    units := db.units.filter fun row => row.unit != unit
    mappings := db.mappings.filter fun row => row.unit != unit
    elements := db.elements.filter fun row => !doomed.contains row.valueId
    relations := db.relations.filter fun row => row.left != unit && row.right != unit
    associations := db.associations.filter fun row => row.left != unit
    locks := db.locks.filter fun row => row.unit != unit })

/-! ## Attributes and their values -/

/-- A new attribute; its number is the result. Names must differ beyond the case of ASCII letters. -/
def insertAttribute (name : String) (kindCode : Int) (scalar : Bool) : Change Int := fun db =>
  if db.attributes.any fun row => Text.foldAsciiText row.name == Text.foldAsciiText name then
    .error (.unique "repo_attribute.attrname")
  else
    let id := db.lastAttribute + 1
    .ok (id, { db with
      attributes := db.attributes ++ [⟨id, name, kindCode, scalar⟩]
      lastAttribute := id })

/-- A new kind, by code, for an attribute. -/
def setAttributeKind (id : Int) (kindCode : Int) : Change Nat := fun db =>
  let count := (db.attributes.filter fun row => row.id == id).length
  .ok (count, { db with
    attributes := db.attributes.map fun row => if row.id == id then { row with kindCode } else row })

/-- A new value of an attribute on a unit; its number is the result. -/
def insertMapping (unit : UnitRef) (attributeId : Int) : Change Int := fun db =>
  if db.mappings.any fun row => row.unit == unit && row.attributeId == attributeId then
    .error (.unique
      "repo_attribute_value.tenantid, repo_attribute_value.unitid, repo_attribute_value.attrid")
  else if !(db.hasUnit unit && (db.attribute? attributeId).isSome) then .error .foreignKey
  else
    let valueId := db.lastValue + 1
    .ok (valueId, { db with
      mappings := db.mappings ++ [⟨unit, attributeId, valueId⟩]
      lastValue := valueId })

/-- Removes the value of an attribute on a unit with its elements. -/
def deleteMapping (unit : UnitRef) (attributeId : Int) : Change Unit := fun db =>
  let isDoomed (row : Mapping) : Bool := row.unit == unit && row.attributeId == attributeId
  let doomed := (db.mappings.filter isDoomed).map (·.valueId)
  .ok ((), { db with
    mappings := db.mappings.filter fun row => !isDoomed row
    elements := db.elements.filter fun row => !doomed.contains row.valueId })

/-- A new element of a value. -/
def insertElement (table : Kind) (valueId index : Int) (cell : Cell) : Change Unit := fun db =>
  let name := "repo_" ++ table.name ++ "_vector"
  if cell.settled = .null then .error (.notNull (name ++ ".val"))
  else if (db.elementsIn table valueId).any fun row => row.index == index then
    .error (.unique (name ++ ".valueid, " ++ name ++ ".idx"))
  else if !db.mappings.any fun row => row.valueId == valueId then .error .foreignKey
  else .ok ((), { db with elements := db.elements ++ [⟨table, valueId, index, cell.settled⟩] })

/-! ## Locks -/

/-- A new lock on a unit. -/
def insertLock (row : LockRow) : Change Unit := fun db =>
  if !db.hasUnit row.unit then .error .foreignKey
  else .ok ((), { db with locks := db.locks ++ [row] })

/-- Removes all locks of a unit. -/
def deleteLocks (unit : UnitRef) : Change Unit := fun db =>
  .ok ((), { db with locks := db.locks.filter fun row => row.unit != unit })

/-! ## Links -/

/-- A new relation, unless it exists already; both units must be stored. -/
def insertRelation (row : RelationRow) : Change Unit := fun db =>
  if db.relations.contains row then .ok ((), db)
  -- a link that is there already stands on stored units
  else if !(db.hasUnit row.left && db.hasUnit row.right) then .error .foreignKey
  else .ok ((), { db with relations := db.relations ++ [row] })

/-- Removes a relation. -/
def deleteRelation (row : RelationRow) : Change Unit := fun db =>
  .ok ((), { db with relations := db.relations.filter (· != row) })

/-- Removes the relations of one kind that a unit holds. -/
def deleteRelations (left : UnitRef) (kindCode : Int) : Change Unit := fun db =>
  .ok ((), { db with
    relations := db.relations.filter fun row => !(row.left == left && row.kindCode == kindCode) })

/-- A new association, unless it exists already; the unit must be stored. -/
def insertAssociation (row : AssociationRow) : Change Unit := fun db =>
  if db.associations.contains row then .ok ((), db)
  else if !db.hasUnit row.left then .error .foreignKey
  else .ok ((), { db with associations := db.associations ++ [row] })

/-- Removes an association. -/
def deleteAssociation (row : AssociationRow) : Change Unit := fun db =>
  .ok ((), { db with associations := db.associations.filter (· != row) })

/-- Removes the associations of one kind that a unit holds. -/
def deleteAssociations (left : UnitRef) (kindCode : Int) : Change Unit := fun db =>
  .ok ((), { db with
    associations := db.associations.filter fun row => !(row.left == left && row.kindCode == kindCode) })

end Database

end MetadataStore
