import MetadataStore.Repository.Basic

/-!
# `Repository.Linking` — relations and associations

Relations join two stored units, associations a stored unit and a trimmed, non-blank reference
outside. A link that is there already is not made again. Where only one link is allowed, a new one
replaces the old one in the same transaction.

## Contents
- `addRelation`, `removeRelation`, `relations`, `relatedTo`.
- `addAssociation`, `removeAssociation`, `associations`, `associatedWith`.
-/

namespace MetadataStore.Repository

/-! ## Relations -/

/-- Makes room for a relation and then makes it. -/
def putRelation (left : UnitRef) (kind : LinkKind) (right : UnitRef) : Transaction Unit := do
  if !kind.allowsMultiple then Transaction.perform (Database.deleteRelations left kind.code)
  Transaction.perform (Database.insertRelation ⟨left, kind.code, right⟩)

/-- Relates a unit to another. -/
def addRelation (left : UnitRef) (kind : LinkKind) (right : UnitRef) : Action Repository Unit := do
  Action.ofResult kind.expectRelation
  write (putRelation left kind right)

/-- Removes the relation of a unit to another. -/
def removeRelation (left : UnitRef) (kind : LinkKind) (right : UnitRef) : Action Repository Unit := do
  Action.ofResult kind.expectRelation
  write (Transaction.perform (Database.deleteRelation ⟨left, kind.code, right⟩))

/-- The units that a unit points at. -/
def relations (left : UnitRef) (kind : LinkKind) : Action Repository (List UnitRef) := do
  Action.ofResult kind.expectRelation
  read (·.relationsOf left kind.code)

/-- The units that point at a unit. -/
def relatedTo (right : UnitRef) (kind : LinkKind) : Action Repository (List UnitRef) := do
  Action.ofResult kind.expectRelation
  read (·.relatedTo right kind.code)

/-! ## Associations -/

/-- A reference trimmed; blank ones are refused. -/
def checkReference (reference : String) : Except Fault String :=
  if (Text.trim reference).isEmpty then .error .blankReference else .ok (Text.trim reference)

/-- Makes room for an association and then makes it. -/
def putAssociation (left : UnitRef) (kind : LinkKind) (reference : String) : Transaction Unit := do
  if !kind.allowsMultiple then Transaction.perform (Database.deleteAssociations left kind.code)
  Transaction.perform (Database.insertAssociation ⟨left, kind.code, reference⟩)

/-- Associates a unit with a reference. -/
def addAssociation (left : UnitRef) (kind : LinkKind) (reference : String) :
    Action Repository Unit := do
  Action.ofResult kind.expectAssociation
  let reference ← Action.ofResult (checkReference reference)
  write (putAssociation left kind reference)

/-- Removes the association of a unit with a reference. -/
def removeAssociation (left : UnitRef) (kind : LinkKind) (reference : String) :
    Action Repository Unit := do
  Action.ofResult kind.expectAssociation
  let reference ← Action.ofResult (checkReference reference)
  write (Transaction.perform (Database.deleteAssociation ⟨left, kind.code, reference⟩))

/-- The references that a unit is associated with. -/
def associations (left : UnitRef) (kind : LinkKind) : Action Repository (List String) := do
  Action.ofResult kind.expectAssociation
  read (·.associationsOf left kind.code)

/-- The units that are associated with a reference. -/
def associatedWith (kind : LinkKind) (reference : String) : Action Repository (List UnitRef) := do
  Action.ofResult kind.expectAssociation
  let reference ← Action.ofResult (checkReference reference)
  read (·.associatedWith kind.code reference)

end MetadataStore.Repository
