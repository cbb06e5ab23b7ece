import MetadataStore.Column
import MetadataStore.Number.Layout
import MetadataStore.Time.Text
import MetadataStore.UnitRef

/-!
# `Fault` — why an operation fails

Each cause of failure is a constructor that carries what its message mentions. Causes fall into
categories; only contention for the database is transient and worth another attempt.

## Contents
- `EngineFault`, what the storage engine reports.
- `Fault`, with `Fault.category`, `Fault.message` and `Fault.isTransient`.
-/

namespace MetadataStore

/-- A failure reported by the storage engine. -/
inductive EngineFault where
  /-- Another connection holds a lock that is needed. -/
  | locked
  /-- A row refers to one that does not exist. -/
  | foreignKey
  /-- Two rows agree on columns that must differ. -/
  | unique (columns : String)
  /-- A required column has no value. -/
  | notNull (column : String)
  /-- A column does not hold what is read from it. -/
  | columnType (index : Nat) (column held : String)
  /-- A statement has no token at a place, which is counted in bytes. -/
  | unrecognized (token statement : String) (offset : Nat)
  deriving DecidableEq, Repr

/-- The engine's message. -/
def EngineFault.message : EngineFault → String
  | .locked => "database is locked"
  | .foreignKey => "FOREIGN KEY constraint failed"
  | .unique columns => "UNIQUE constraint failed: " ++ columns
  | .notNull column => "NOT NULL constraint failed: " ++ column
  | .columnType index column held =>
    "Invalid column type " ++ held ++ " at index: " ++ Text.integer index ++ ", name: " ++ column
  | .unrecognized token statement offset =>
    "unrecognized token: \"" ++ token ++ "\" in " ++ statement ++ " at offset " ++ Text.integer offset

/-- The enumerations whose codes the database keeps. -/
inductive Enumeration where
  | attributeType | status | lockType | associationType
  deriving DecidableEq, Repr

/-- What a code of the enumeration is called. -/
def Enumeration.title : Enumeration → String
  | .attributeType => "attribute type"
  | .status => "status"
  | .lockType => "lock type"
  | .associationType => "association type"

/-- Why a cell does not hold an element of the kind asked for. -/
inductive CellFault where
  | wrongType
  | tooLarge (value : Int)
  | badTime (cause : TimeTextError)
  deriving DecidableEq, Repr

/-- The message of a cell that cannot be read. -/
def CellFault.message : CellFault → String
  | .wrongType => "Invalid type"
  | .tooLarge value => "Value " ++ Text.integer value ++ " out of range"
  | .badTime cause => cause.message

/-- Why an operation fails. -/
inductive Fault where
  /-- The database cannot be opened. -/
  | cannotOpen (reason : String)
  /-- The engine failed while reading. -/
  | read (cause : EngineFault)
  /-- The engine failed while writing. -/
  | write (cause : EngineFault)
  /-- An element of one kind is added to a value of another. -/
  | elementKind (element value : Kind)
  /-- A value is taken for one of another kind. -/
  | valueKind (declared requested : Kind)
  /-- An attribute is taken for one of another kind. -/
  | attributeKind (name : String) (declared requested : Kind)
  /-- A text element is too long to be stored. -/
  | textTooLong (name : String) (length : Nat)
  /-- A scalar attribute holds several elements. -/
  | notScalar (name : String) (count : Nat)
  | unknownKindName (text : String)
  /-- A column is compared with an operand of another kind. -/
  | columnOperand (column : Column) (operand : Kind)
  /-- A text does not denote an operand of the attribute's kind. -/
  | badOperand (text : String) (kind : Kind) (name : String)
  | badTime (text : String)
  /-- A search by text names an attribute of opaque bytes. -/
  | opaqueAttribute (name : String)
  /-- An attribute is compared with opaque bytes. -/
  | opaqueOperand (id : Int) (kind : Kind)
  /-- An attribute is compared with a double that is no number. -/
  | incomparable (id : Int) (operand : Number.Binary64)
  /-- A double that is no number stands in a statement. -/
  | noLiteral (operand : Number.Binary64)
  /-- Opaque bytes stand in a statement. -/
  | noDataLiteral
  | blankAttributeName
  /-- An attribute is defined again with another kind. -/
  | alreadyDefined (name : String) (kind : Kind)
  | unknownAttribute (name : String)
  | blankReference
  | notRelation (link : String)
  | notAssociation (link : String)
  | badTenant (text : String)
  | usage
  /-- The action needs a stored unit. -/
  | notStored (action : String)
  | unitLocked (unit : UnitRef)
  | unitVanished (unit : UnitRef)
  | attributePresent (name : String)
  /-- There are no rows to build something from. -/
  | noRows (what : String)
  | badElement (kind : Kind) (valueId : Int) (cause : CellFault)
  | badCreationTime (unit : UnitRef) (cause : TimeTextError)
  | badLockTime (text : String) (cause : TimeTextError)
  | unknownCode (enumeration : Enumeration) (code : Int)
  /-- The settings cannot be understood. -/
  | badSettings (reason : String)
  deriving DecidableEq, Repr

/-- The categories of failure. -/
inductive FaultCategory where
  | connection | read | write | attributeType | attributeValue | invalidParameter | illegalRequest
  | systemInconsistency | unknownEnumeration | config
  deriving DecidableEq, Repr

namespace Fault

/-- The category that a fault belongs to. -/
def category : Fault → FaultCategory
  | .cannotOpen .. => .connection
  | .read .. => .read
  | .write .. => .write
  | .elementKind .. | .valueKind .. | .attributeKind .. => .attributeType
  | .textTooLong .. | .notScalar .. => .attributeValue
  | .unknownKindName .. | .columnOperand .. | .badOperand .. | .badTime .. | .opaqueAttribute ..
  | .opaqueOperand .. | .incomparable .. | .noLiteral .. | .noDataLiteral | .blankAttributeName
  | .alreadyDefined .. | .unknownAttribute .. | .blankReference | .notRelation ..
  | .notAssociation .. | .badTenant .. | .usage => .invalidParameter
  | .notStored .. | .unitLocked .. | .unitVanished .. | .attributePresent .. => .illegalRequest
  | .noRows .. | .badElement .. | .badCreationTime .. | .badLockTime .. => .systemInconsistency
  | .unknownCode .. => .unknownEnumeration
  | .badSettings .. => .config

/-- What a fault says beyond its category. -/
def detail : Fault → String
  | .cannotOpen reason => reason
  | .read cause | .write cause => cause.message
  | .elementKind element value =>
    "cannot add " ++ element.name ++ " element to " ++ value.name ++ " value"
  | .valueKind declared requested =>
    "value is of type " ++ declared.name ++ ", not " ++ requested.name
  | .attributeKind name declared requested =>
    "attribute '" ++ name ++ "' is " ++ declared.name ++ ", not " ++ requested.name
  | .textTooLong name length =>
    "value of attribute '" ++ name ++ "' is " ++ Text.integer length ++
      " characters, at most 255 allowed"
  | .notScalar name count =>
    "attribute '" ++ name ++ "' is scalar but holds " ++ Text.integer count ++ " values"
  | .unknownKindName text => "unknown attribute type '" ++ text ++ "'"
  | .columnOperand column operand =>
    "column " ++ column.text ++ " takes " ++ column.kind.name ++ " operands, not " ++ operand.name
  | .badOperand text kind name =>
    "'" ++ text ++ "' is not a valid " ++ kind.name ++ " operand for attribute '" ++ name ++ "'"
  | .badTime text => "'" ++ text ++ "' is not a valid time"
  | .opaqueAttribute name => "attribute '" ++ name ++ "' holds data and is not searchable"
  | .opaqueOperand id kind =>
    "attribute " ++ Text.integer id ++ " holds " ++ kind.name ++ " which is not searchable"
  | .incomparable id operand =>
    "attribute " ++ Text.integer id ++ " cannot be compared with " ++
      Number.Layout.plain.text operand
  | .noLiteral operand => Number.Layout.plain.text operand ++ " has no SQL literal"
  | .noDataLiteral => "data values are not searchable"
  | .blankAttributeName => "attribute name must not be empty"
  | .alreadyDefined name kind => "attribute '" ++ name ++ "' is already defined as " ++ kind.name
  | .unknownAttribute name => "unknown attribute '" ++ name ++ "'"
  | .blankReference => "association reference must not be empty"
  | .notRelation link => link ++ " is not a relation type"
  | .notAssociation link => link ++ " is not an external association type"
  | .badTenant text => "'" ++ text ++ "' is not a tenant id"
  | .usage =>
    "usage: metarepo [--config FILE] (attributes | define NAME TYPE [scalar] | dispose TENANT)"
  | .notStored action => "cannot " ++ action ++ " a unit that has not been stored"
  | .unitLocked unit => "unit " ++ unit.text ++ " is locked"
  | .unitVanished unit => "unit " ++ unit.text ++ " no longer exists"
  | .attributePresent name => "attribute '" ++ name ++ "' is already present"
  | .noRows what => "no rows left to inflate " ++ what ++ " from"
  | .badElement kind valueId cause =>
    "could not read " ++ kind.name ++ " element of value vector " ++ Text.integer valueId ++ ": " ++
      cause.message
  | .badCreationTime unit cause =>
    "unreadable creation time of unit " ++ unit.text ++ ": " ++ cause.message
  | .badLockTime text cause => "unreadable lock time '" ++ text ++ "': " ++ cause.message
  | .unknownCode enumeration code =>
    "Unknown " ++ enumeration.title ++ " code: " ++ Text.integer code
  | .badSettings reason => reason

/-- What comes before the detail of a message. -/
def heading : FaultCategory → String
  | .connection => "Connection error: "
  | .read => "Read error: "
  | .write => "Write error: "
  | .attributeType => "Attribute type error: "
  | .attributeValue => "Attribute value error: "
  | .invalidParameter => "Invalid parameter: "
  | .illegalRequest => "Illegal request: "
  | .systemInconsistency => "System inconsistency: "
  | .unknownEnumeration => ""
  | .config => "Config error: "

/-- The full message of a fault. -/
def message (fault : Fault) : String :=
  heading fault.category ++ fault.detail

/-- Whether another attempt may succeed: only contention is transient. -/
def isTransient : Fault → Bool
  | .read .locked | .write .locked => true
  | _ => false

end Fault

end MetadataStore
