import MetadataStore.Attribute
import MetadataStore.Database.Tables
import MetadataStore.Keyed
import MetadataStore.Text.Lowercase

/-!
# `Handle.Basic` — units as they are held

A handle is a copy of a unit in memory. It stays what it is when the database changes, and its own
changes reach the database only when it is stored. Attributes are loaded when they are first asked
for; they are kept under their names in lower case, in an order that has no meaning.

## Contents
- `Handle`, `Handle.create`, `Handle.ofRow`.
- The attributes of a handle, `AttributeMap`: `get?`, `put`, `erase`, `sorted`, `names`, and what is
  found after a change.
- `Handle.pending`, the attributes that the next store writes; `Handle.settle`, the handle after it.
-/

namespace MetadataStore

/-- A unit held in memory. -/
structure Handle where
  tenant : Int
  /-- The number of the unit, once it is stored. -/
  id : Option Int
  correlation : String
  name : Option String
  /-- The status as last read or set through this handle. -/
  status : Status
  created : Option DateTime
  /-- The attributes under their lower-case names, once they are loaded. -/
  attributes : Option (List (String × Attribute))
  /-- The numbers of stored attributes that were taken off. -/
  detached : List Int
  renamed : Bool

/-- Attributes under their lower-case names. -/
abbrev AttributeMap := List (String × Attribute)

namespace AttributeMap

/-- The attribute under a key, if there is one. -/
def get? (attributes : AttributeMap) (key : String) : Option Attribute :=
  attributes.lookup key

/-- The attributes with one under a key put in or replaced. -/
def put (attributes : AttributeMap) (key : String) (a : Attribute) : AttributeMap :=
  if attributes.any fun entry => entry.1 == key then
    attributes.map fun entry => if entry.1 == key then (key, a) else entry
  else attributes ++ [(key, a)]

/-- The attributes without the one under a key. -/
def erase (attributes : AttributeMap) (key : String) : AttributeMap :=
  attributes.filter fun entry => entry.1 != key

/-- The attributes by number. -/
def sorted (attributes : AttributeMap) : List Attribute :=
  (attributes.map (·.2)).mergeSort fun a b => decide (a.id ≤ b.id)

/-- The names of the attributes in order. -/
def names (attributes : AttributeMap) : List String :=
  (attributes.map (·.2.name)).mergeSort fun a b => decide (a ≤ b)

/-- Attributes under their own names in lower case, the later of two with one name winning. -/
def ofAttributes (attributes : List Attribute) : AttributeMap :=
  attributes.foldl (fun m a => AttributeMap.put m (Text.lower a.name) a) []

/-- An attribute put under a key is found there, and nothing else changes. -/
theorem get?_put (attributes : AttributeMap) (key other : String) (a : Attribute) :
    get? (put attributes key a) other = if other = key then some a else get? attributes other := by
  unfold put get?
  split
  · rename_i hany
    rw [Keyed.lookup_mapAt attributes key other fun _ => a]
    have hsome : attributes.lookup key ≠ none := by
      rw [Ne, Keyed.lookup_eq_none]
      obtain ⟨entry, hmem, hkey⟩ := List.any_eq_true.1 hany
      exact fun h => h entry hmem (by simpa using hkey)
    obtain ⟨old, hold⟩ := Option.ne_none_iff_exists'.1 hsome
    simp [hold]
  · rename_i hany
    apply Keyed.lookup_append_single
    rw [Keyed.lookup_eq_none]
    intro entry hmem hkey
    exact hany (List.any_eq_true.2 ⟨entry, hmem, by simpa using hkey⟩)

end AttributeMap

namespace Handle

/-- A new unit. -/
def create (tenant : Int) (name : Option String) (correlation : String) : Handle :=
  ⟨tenant, none, correlation, name, .effective, none, some [], [], false⟩

/-- The unit of a row, its attributes not loaded. The creation time is looked at before the status. -/
def ofRow (row : UnitRow) : Except Fault Handle :=
  match DateTime.ofText row.created with
  | .error cause => .error (.badCreationTime row.unit cause)
  | .ok created =>
    match Status.ofCode row.status with
    | .error fault => .error fault
    | .ok status =>
      .ok ⟨row.unit.tenant, some row.unit.id, row.correlation, row.name, status, some created, none, [],
        false⟩

/-- The identity of the unit, once it is stored. -/
def ref? (h : Handle) : Option UnitRef :=
  h.id.map fun id => ⟨h.tenant, id⟩

def isNew (h : Handle) : Bool :=
  h.id.isNone

/-- The reference of the unit as text. -/
def reference (h : Handle) : String :=
  match h.ref? with
  | some unit => unit.text
  | none => UnitRef.unstored h.tenant

/-- The identity of the unit for an action that needs it stored. -/
def stored (h : Handle) (action : String) : Except Fault UnitRef :=
  match h.ref? with
  | some unit => .ok unit
  | none => .error (.notStored action)

/-- Another name, which the next store writes. -/
def rename (h : Handle) (name : Option String) : Handle :=
  { h with name, renamed := true }

/-- The attributes that are loaded, none if they are not. -/
def loaded (h : Handle) : AttributeMap :=
  h.attributes.getD []

/-- The attributes that the next store writes. -/
def pending (h : Handle) : AttributeMap :=
  h.loaded.filter fun entry => entry.2.needsWriting

/-- Attributes marked as written under the given value numbers. -/
def markWritten (attributes : AttributeMap) (written : List (String × Int)) : AttributeMap :=
  attributes.map fun entry =>
    match written.lookup entry.1 with
    | some valueId => (entry.1, entry.2.markStored valueId)
    | none => entry

/-- The handle after a store that gave it a number and wrote attributes under value numbers. -/
def settle (h : Handle) (id : Int) (created : DateTime) (written : List (String × Int)) : Handle :=
  { h with
    id := some id
    created := some created
    attributes := h.attributes.map fun attributes => markWritten attributes written
    detached := []
    renamed := false }

@[simp] theorem ref?_settle (h : Handle) (id : Int) (created : DateTime) (written : List (String × Int)) :
    (h.settle id created written).ref? = some ⟨h.tenant, id⟩ := rfl

@[simp] theorem ref?_rename (h : Handle) (name : Option String) : (h.rename name).ref? = h.ref? := rfl

/-- A row makes a handle exactly when its time and its status can be read. -/
theorem ofRow_eq_ok {row : UnitRow} {h : Handle} :
    ofRow row = .ok h ↔
      ∃ created status, DateTime.ofText row.created = .ok created ∧
        Status.ofCode row.status = .ok status ∧
        h = ⟨row.unit.tenant, some row.unit.id, row.correlation, row.name, status, some created, none, [],
          false⟩ := by
  unfold ofRow
  constructor
  · intro hmake
    split at hmake
    · cases hmake
    · split at hmake
      · cases hmake
      · cases hmake
        exact ⟨_, _, by assumption, by assumption, rfl⟩
  · rintro ⟨created, status, hcreated, hstatus, rfl⟩
    rw [hcreated]
    simp only
    rw [hstatus]

theorem ref?_of_ofRow {row : UnitRow} {h : Handle} (hmake : ofRow row = .ok h) :
    h.ref? = some row.unit := by
  obtain ⟨created, status, -, -, rfl⟩ := ofRow_eq_ok.1 hmake
  rfl

end Handle

end MetadataStore
