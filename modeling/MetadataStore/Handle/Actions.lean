import MetadataStore.Handle.Writing
import MetadataStore.Repository.Linking
import MetadataStore.Repository.Locking

/-!
# `Handle.Actions` — working with a held unit

An action on a handle works on the repository and the handle together. Attributes are loaded when they
are first needed. Storing is refused while the unit is locked, and on any fault leaves database, cache
and handle as they were.

## Contents
- `fetch`, `attributeNames`, `attributes`, `attribute`, `attributeOrCreate`, `addAttribute`,
  `removeAttribute`, `changeAttribute`, `storeAttribute`, `storeValue`.
- `store`.
- `currentStatus`, `request`, `activate`, `inactivate`, `delete`.
- Locks and links of a held unit.
-/

namespace MetadataStore.Handle

/-- An action on a repository and a held unit. -/
abbrev Work (α : Type) := Action (Repository × Handle) α

/-- The held unit. -/
def held : Work Handle :=
  fun s => (.ok s.2, s)

/-- Puts another state of the held unit in place. -/
def hold (h : Handle) : Work Unit :=
  fun s => (.ok (), (s.1, h))

@[simp] theorem held_apply (s : Repository × Handle) : held s = (.ok s.2, s) := rfl

@[simp] theorem hold_apply (h : Handle) (s : Repository × Handle) : hold h s = (.ok (), (s.1, h)) := rfl

/-! ## Attributes -/

/-- Loads the attributes of the unit unless they are loaded. -/
def fetch : Work Unit := do
  let h ← held
  match h.attributes, h.ref? with
  | some _, _ => pure ()
  | none, none => hold { h with attributes := some [] }
  | none, some unit => do
    let rows ← Action.onFirst (Repository.read (·.attributeRows unit))
    match Attribute.inflateAll rows with
    | (_, some fault, _) => Action.fail fault
    | (attributes, none, _) => hold { h with attributes := some (AttributeMap.ofAttributes attributes) }

/-- The attributes of the unit, loaded. -/
def loadedAttributes : Work AttributeMap := do
  fetch
  let h ← held
  pure h.loaded

/-- Puts an attribute under a key. -/
def putAttribute (key : String) (a : Attribute) : Work Unit := do
  let h ← held
  hold { h with attributes := some (AttributeMap.put h.loaded key a) }

/-- The names of the attributes. -/
def attributeNames : Work (List String) := do
  let attributes ← loadedAttributes
  pure (AttributeMap.names attributes)

/-- The attributes by number. -/
def attributeList : Work (List Attribute) := do
  let attributes ← loadedAttributes
  pure (AttributeMap.sorted attributes)

/-- The attribute of a name, if the unit has it. -/
def attribute? (name : String) : Work (Option Attribute) := do
  let attributes ← loadedAttributes
  pure (AttributeMap.get? attributes (Text.lower name))

/-- The attribute of a name, attached without elements if the unit does not have it. -/
def attributeOrCreate (name : String) : Work Attribute := do
  match ← attribute? name with
  | some a => pure a
  | none => do
    match ← Action.onFirst (Repository.infoByName name) with
    | none => Action.fail (.unknownAttribute name)
    | some info => do
      let a := Attribute.ofInfo info
      putAttribute (Text.lower name) a
      pure a

/-- Attaches a copy of an attribute, which the unit must not have yet. -/
def addAttribute (a : Attribute) : Work Attribute := do
  match ← attribute? a.name with
  | some _ => Action.fail (.attributePresent a.name)
  | none => do
    putAttribute (Text.lower a.name) a.copy
    pure a.copy

/-- Takes an attribute off. What is stored of it goes at the next store. -/
def removeAttribute (name : String) : Work (Option Attribute) := do
  match ← attribute? name with
  | none => pure none
  | some a => do
    let h ← held
    hold { h with
      attributes := some (AttributeMap.erase h.loaded (Text.lower name))
      detached := if a.valueId.isSome then h.detached ++ [a.id] else h.detached }
    pure (some a)

/-- Changes the attribute of a name, attached if need be; a fault leaves it unchanged. -/
def changeAttribute (name : String) (f : Attribute → Except Fault Attribute) : Work Attribute := do
  let a ← attributeOrCreate name
  let changed ← Action.ofResult (f a)
  putAttribute (Text.lower name) changed
  pure changed

/-- Writes the attribute of a name alone, in a transaction of its own. -/
def storeAttribute (name : String) : Work Attribute := do
  let a ← attributeOrCreate name
  let h ← held
  let written ← Action.onFirst (Repository.write (a.store ⟨h.tenant, h.id.getD 0⟩))
  putAttribute (Text.lower name) written
  pure written

/-- Writes the value of the attribute of a name under a value number, in a transaction of its own. -/
def storeValue (name : String) (valueId : Int) : Work Attribute := do
  let a ← attributeOrCreate name
  let value ← Action.onFirst (Repository.write (a.value.store a.name valueId))
  let written := { a with value }
  putAttribute (Text.lower name) written
  pure written

/-! ## Storing -/

/-- Refuses a unit that is locked. -/
def expectUnlocked : Option UnitRef → Action Repository Unit
  | none => pure ()
  | some unit => do
    if ← Repository.isLocked unit then Action.fail (.unitLocked unit)

/-- Stores the unit: all of it when it is new, and otherwise what is new or changed. -/
def store : Work Unit := do
  let h ← held
  Action.onFirst (expectUnlocked h.ref?)
  let (r, _) ← Action.get
  let created := h.created.getD r.now.truncate
  let (id, written) ← Action.onFirst (Repository.write (h.write created))
  -- only now, after the transaction, does the handle change
  let settled := h.settle id created written
  hold settled
  Action.onFirst (Repository.keep settled)

/-! ## Lifecycle -/

/-- The status that is stored, or the one held for a unit that is not stored yet. -/
def currentStatus (h : Handle) : Action Repository Status :=
  match h.ref? with
  | none => pure h.status
  | some unit => do
    match ← Repository.read (·.unit? unit) with
    | none => Action.fail (.unitVanished unit)
    | some row => Action.ofResult (Status.ofCode row.status)

/-- Asks for another status. What the transition table does not permit is no fault: the current status
is the answer, and the handle holds it. -/
def request (requested : Status) : Work Status := do
  let h ← held
  let current ← Action.onFirst (currentStatus h)
  -- the handle learns the stored status even when the request is refused
  hold { h with status := current }
  if !current.permits requested then pure current
  else do
    match h.ref? with
    | none => hold { h with status := requested }
    | some unit => do
      let _ ← Action.onFirst
        (Repository.write (Transaction.perform (Database.setUnitStatus unit requested.code)))
      hold { h with status := requested }
      Action.onFirst (Repository.keep { h with status := requested })
    pure requested

/-- Asks for the unit to be effective. -/
def activate : Work Status :=
  request .effective

/-- Asks for the unit to be set aside for deletion, which is refused while it is locked. -/
def inactivate : Work Status := do
  let h ← held
  Action.onFirst (expectUnlocked h.ref?)
  request .pendingDeletion

/-- Gives the unit up for disposal. -/
def delete : Work Status :=
  request .pendingDisposition

/-! ## Locks and links -/

/-- Takes a lock on the unit. -/
def lock (h : Handle) (kind : LockKind) (purpose : String) : Action Repository Bool := do
  let unit ← Action.ofResult (h.stored "lock")
  Repository.lock unit kind purpose

/-- Removes every lock of the unit. -/
def unlock (h : Handle) : Action Repository Unit := do
  let unit ← Action.ofResult (h.stored "unlock")
  Repository.unlock unit

/-- Whether the unit is locked; one not stored yet is not. -/
def isLocked (h : Handle) : Action Repository Bool :=
  match h.ref? with
  | some unit => Repository.isLocked unit
  | none => pure false

/-- The locks of the unit. -/
def locks (h : Handle) : Action Repository (List Lock) :=
  match h.ref? with
  | some unit => Repository.locks unit
  | none => pure []

/-- Relates the unit to another. -/
def addRelation (h : Handle) (kind : LinkKind) (other : Handle) : Action Repository Unit := do
  let left ← Action.ofResult (h.stored "relate")
  let right ← Action.ofResult (other.stored "relate to")
  Repository.addRelation left kind right

/-- Removes the relation of the unit to another. -/
def removeRelation (h : Handle) (kind : LinkKind) (other : Handle) : Action Repository Unit := do
  let left ← Action.ofResult (h.stored "unrelate")
  let right ← Action.ofResult (other.stored "unrelate from")
  Repository.removeRelation left kind right

/-- The units that the unit points at. -/
def relations (h : Handle) (kind : LinkKind) : Action Repository (List Handle) :=
  match h.ref? with
  | none => pure []
  | some unit => do
    let units ← Repository.relations unit kind
    Repository.resolve units

/-- The units that point at the unit. -/
def relatedFrom (h : Handle) (kind : LinkKind) : Action Repository (List Handle) :=
  match h.ref? with
  | none => pure []
  | some unit => do
    let units ← Repository.relatedTo unit kind
    Repository.resolve units

/-- Associates the unit with a reference outside. -/
def addAssociation (h : Handle) (kind : LinkKind) (reference : String) : Action Repository Unit := do
  let unit ← Action.ofResult (h.stored "associate")
  Repository.addAssociation unit kind reference

/-- Removes the association of the unit with a reference outside. -/
def removeAssociation (h : Handle) (kind : LinkKind) (reference : String) :
    Action Repository Unit := do
  let unit ← Action.ofResult (h.stored "disassociate")
  Repository.removeAssociation unit kind reference

/-- The references outside that the unit is associated with. -/
def associations (h : Handle) (kind : LinkKind) : Action Repository (List String) :=
  match h.ref? with
  | none => pure []
  | some unit => Repository.associations unit kind

end MetadataStore.Handle
