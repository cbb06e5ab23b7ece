import MetadataStore.Attribute
import MetadataStore.Rows
import MetadataStore.Status
import MetadataStore.LinkKind

/-!
# `Database.Tables` — what is stored

The stored state is a value: the rows of each table in the order of their insertion, and the largest
number ever given to a unit, an attribute and a value, since numbers are not used again. It is kept by an
engine, which has its own way to read decimals.

## Contents
- The rows, `Engine`, and `Database`.
- Views: the row of a unit, its mappings, the elements of a value, its locks and links.
- `Database.attributeRows`, the rows of a fetch.
-/

namespace MetadataStore

/-- A stored unit. -/
structure UnitRow where
  unit : UnitRef
  correlation : String
  name : Option String
  status : Int
  created : String
  deriving DecidableEq

/-- A catalogued attribute. -/
structure AttributeRow where
  id : Int
  name : String
  kindCode : Int
  scalar : Bool
  deriving DecidableEq

/-- The value number that an attribute has on a unit. -/
structure Mapping where
  unit : UnitRef
  attributeId : Int
  valueId : Int
  deriving DecidableEq

/-- An element of a value in the table of some kind. -/
structure ElementRow where
  table : Kind
  valueId : Int
  index : Int
  cell : Cell
  deriving DecidableEq

/-- A link between two units. -/
structure RelationRow where
  left : UnitRef
  kindCode : Int
  right : UnitRef
  deriving DecidableEq

/-- A link from a unit to an outside reference. -/
structure AssociationRow where
  left : UnitRef
  kindCode : Int
  reference : String
  deriving DecidableEq

/-- A lock on a unit. -/
structure LockRow where
  unit : UnitRef
  purpose : String
  kindCode : Int
  taken : String
  expire : Option String
  deriving DecidableEq

/-- What is left to the engine that keeps a database. -/
structure Engine where
  /-- The double that a decimal in a statement is read as. -/
  double : String → Number.Binary64

/-- An engine that reads a decimal as the double nearest to it. -/
def Engine.nearest : Engine :=
  ⟨fun text => (Number.double? text).getD ⟨0⟩⟩

/-- The stored state, and the engine that keeps it. -/
structure Database where
  units : List UnitRow
  attributes : List AttributeRow
  mappings : List Mapping
  elements : List ElementRow
  relations : List RelationRow
  associations : List AssociationRow
  locks : List LockRow
  lastUnit : Int
  lastAttribute : Int
  lastValue : Int
  engine : Engine

namespace Database

/-- A database without rows. -/
def blank (engine : Engine) : Database :=
  ⟨[], [], [], [], [], [], [], 0, 0, 0, engine⟩

/-- A database without rows, where decimals are read to the nearest double. -/
def empty : Database :=
  blank .nearest

/-- The row of a unit. -/
def unit? (db : Database) (unit : UnitRef) : Option UnitRow :=
  db.units.find? fun row => row.unit == unit

/-- Whether a unit is stored. -/
def hasUnit (db : Database) (unit : UnitRef) : Bool :=
  db.units.any fun row => row.unit == unit

/-- The row of an attribute. -/
def attribute? (db : Database) (id : Int) : Option AttributeRow :=
  db.attributes.find? fun row => row.id == id

/-- The mappings of a unit. -/
def mappingsOf (db : Database) (unit : UnitRef) : List Mapping :=
  db.mappings.filter fun row => row.unit == unit

/-- The elements of a value in one table. -/
def elementsIn (db : Database) (table : Kind) (valueId : Int) : List ElementRow :=
  db.elements.filter fun row => row.table == table && row.valueId == valueId

/-- The locks of a unit, oldest first by their text. -/
def locksOf (db : Database) (unit : UnitRef) : List LockRow :=
  (db.locks.filter fun row => row.unit == unit).mergeSort fun a b => decide (a.taken ≤ b.taken)

/-- Whether a unit has a lock. -/
def isLocked (db : Database) (unit : UnitRef) : Bool :=
  db.locks.any fun row => row.unit == unit

/-- The units that a unit points at. -/
def relationsOf (db : Database) (left : UnitRef) (kindCode : Int) : List UnitRef :=
  ((db.relations.filter fun row => row.left == left && row.kindCode == kindCode).map (·.right)).mergeSort
    UnitRef.le

/-- The units that point at a unit. -/
def relatedTo (db : Database) (right : UnitRef) (kindCode : Int) : List UnitRef :=
  ((db.relations.filter fun row => row.right == right && row.kindCode == kindCode).map (·.left)).mergeSort
    UnitRef.le

/-- The outside references of a unit. -/
def associationsOf (db : Database) (left : UnitRef) (kindCode : Int) : List String :=
  ((db.associations.filter fun row => row.left == left && row.kindCode == kindCode).map
    (·.reference)).mergeSort fun a b => decide (a ≤ b)

/-- The units that hold an outside reference. -/
def associatedWith (db : Database) (kindCode : Int) (reference : String) : List UnitRef :=
  ((db.associations.filter fun row => row.kindCode == kindCode && row.reference == reference).map
    (·.left)).mergeSort UnitRef.le

/-- The elements of a value over all tables joined side by side: the first table that has any decides
the elements, and each is met once for every choice from the other tables. -/
def joinedElements (db : Database) (valueId : Int) : List ElementRow :=
  let tables := (Kind.all.map fun table => db.elementsIn table valueId).filter fun rows => !rows.isEmpty
  match tables with
  | [] => []
  | first :: others =>
    let copies := (others.map List.length).foldl (· * ·) 1
    (first.mergeSort fun a b => decide (a.index ≤ b.index)).flatMap fun row =>
      List.replicate copies row

/-- The rows of one mapping in a fetch: one for each element, or one without index for none. -/
def rowsOfMapping (db : Database) (mapping : Mapping) : List Row :=
  match db.attribute? mapping.attributeId with
  | none => []
  | some info =>
    let row (index : Option Int) (cell : Cell) : Row :=
      ⟨info.id, info.name, info.kindCode, info.scalar, mapping.valueId, index, cell⟩
    match db.joinedElements mapping.valueId with
    | [] => [row none .null]
    | elements => elements.map fun element => row (some element.index) element.cell

/-- The rows of a fetch of the attributes of a unit, by value number. -/
def attributeRows (db : Database) (unit : UnitRef) : List Row :=
  ((db.mappingsOf unit).mergeSort fun a b => decide (a.valueId ≤ b.valueId)).flatMap db.rowsOfMapping

theorem hasUnit_eq_isSome_unit? (db : Database) (unit : UnitRef) :
    db.hasUnit unit = (db.unit? unit).isSome := by
  rw [Bool.eq_iff_iff]
  simp [hasUnit, unit?]

end Database

end MetadataStore
