import MetadataStore.Database.Tables
import MetadataStore.Text.Lowercase

/-!
# `Catalog` — what is known of the catalogue

A repository remembers the definitions that it has seen. Each lower-case name belongs to one number
and each number has one lower-case name; a definition seen later takes the name over.

## Contents
- `Catalog`, `Catalog.keep`, `Catalog.absorb`.
- `Catalog.byName?`, `Catalog.byId?`, `Catalog.all`.
-/

namespace MetadataStore

/-- The definitions that a repository has seen. -/
structure Catalog where
  /-- Lower-case names with the numbers they belong to. -/
  names : List (String × Int)
  known : List AttributeInfo
  /-- Whether all definitions stored at some time have been seen. -/
  loaded : Bool

namespace Catalog

/-- Nothing seen yet. -/
def empty : Catalog :=
  ⟨[], [], false⟩

/-- A definition seen; earlier uses of its name and of its number give way. -/
def keep (catalog : Catalog) (info : AttributeInfo) : Catalog :=
  let name := Text.lower info.name
  { catalog with
    names := (catalog.names.filter fun entry => entry.1 != name && entry.2 != info.id) ++ [(name, info.id)]
    known := (catalog.known.filter fun other => other.id != info.id) ++ [info] }

/-- The definition of a number. -/
def byId? (catalog : Catalog) (id : Int) : Option AttributeInfo :=
  catalog.known.find? fun info => info.id == id

/-- The definition of a name, in any case. -/
def byName? (catalog : Catalog) (name : String) : Option AttributeInfo :=
  (catalog.names.lookup (Text.lower name)).bind catalog.byId?

/-- All definitions seen, by number. -/
def all (catalog : Catalog) : List AttributeInfo :=
  catalog.known.mergeSort fun a b => decide (a.id ≤ b.id)

/-- The stored definitions seen in turn. One of an unknown kind is a fault, and what comes before it
remains seen. -/
def absorb (catalog : Catalog) : List AttributeRow → Except Fault Unit × Catalog
  | [] => (.ok (), { catalog with loaded := true })
  | row :: rows =>
    match Kind.ofCode? row.kindCode with
    | none => (.error (.unknownCode .attributeType row.kindCode), catalog)
    | some kind => (catalog.keep ⟨row.id, row.name, kind, row.scalar⟩).absorb rows

end Catalog

end MetadataStore
