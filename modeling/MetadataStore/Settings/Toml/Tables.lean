import MetadataStore.Settings.Setting

/-!
# `Settings.Toml.Tables` — tables while a TOML text is read

A table is opened once by a header. Headers and dotted keys make the tables on their way; those of a
dotted key are complete with the section they stand in, so no header opens them, while those of a
header may still be opened by one. Plain values, which include arrays and inline tables, are complete.

## Contents
- `Tables.Origin`, `Tables.Node`, `Tables.Entries`.
- `descend`, `assign`, `openTable`, `openElement`.
- `Node.setting`, what a node says.
-/

namespace MetadataStore.Toml

/-- How a table came to be. -/
inductive Origin where
  /-- By a header for it. -/
  | opened
  /-- By a header for something inside it. -/
  | implied
  /-- By a dotted key. -/
  | dotted
  deriving DecidableEq, Repr

/-- What a key stands for. -/
inductive Node where
  /-- A complete value. -/
  | value (setting : Setting)
  | table (origin : Origin) (entries : List (String × Node))
  /-- An array of tables: the last one, and the earlier ones backwards. -/
  | tables (last : List (String × Node)) (earlier : List (List (String × Node)))

/-- The entries of a table in the order of their keys' first use. -/
abbrev Entries := List (String × Node)

namespace Entries

/-- The entries with the node of a key changed, which may be impossible. -/
def change (entries : Entries) (key : String) (f : Option Node → Option Node) : Option Entries :=
  match entries.lookup key with
  | some node =>
    (f (some node)).map fun changed =>
      entries.map fun entry => if entry.1 == key then (key, changed) else entry
  | none => (f none).map fun node => entries ++ [(key, node)]

/-- A change of the entries at the end of a path. A dotted path neither passes tables that were opened
nor arrays of tables, and one of a header goes to the last table of an array. -/
def descend (dotted : Bool) (f : Entries → Option Entries) : List String → Entries → Option Entries
  | [], entries => f entries
  | key :: path, entries =>
    entries.change key fun
      | none =>
        (descend dotted f path []).map (.table (if dotted then .dotted else .implied))
      | some (.table origin inner) =>
        if dotted && origin == .opened then none
        else (descend dotted f path inner).map (.table origin)
      | some (.tables last earlier) =>
        if dotted then none else (descend dotted f path last).map (.tables · earlier)
      | some (.value _) => none

/-- A value for a dotted key, given as the path before its last part and that part, that has none. -/
def assign (path : List String) (key : String) (setting : Setting) : Entries → Option Entries :=
  descend true (fun entries => entries.change key fun
    | none => some (.value setting)
    | some _ => none) path

/-- A header for a table. -/
def openTable (path : List String) (key : String) : Entries → Option Entries :=
  descend false (fun entries => entries.change key fun
    | none => some (.table .opened [])
    | some (.table .implied inner) => some (.table .opened inner)
    | some _ => none) path

/-- A header for one more table of an array. -/
def openElement (path : List String) (key : String) : Entries → Option Entries :=
  descend false (fun entries => entries.change key fun
    | none => some (.tables [] [])
    | some (.tables last earlier) => some (.tables [] (last :: earlier))
    | some _ => none) path

end Entries

mutual

/-- What a node says. -/
def Node.setting : Node → Setting
  | .value setting => setting
  | .table _ entries => .table (settings entries)
  | .tables last earlier => .list (elements earlier [.table (settings last)])

/-- What entries say. -/
def settings : List (String × Node) → List (String × Setting)
  | [] => []
  | (key, node) :: rest => (key, node.setting) :: settings rest

/-- What the tables of an array say, given backwards, in front of others. -/
def elements : List (List (String × Node)) → List Setting → List Setting
  | [], later => later
  | entries :: earlier, later => elements earlier (.table (settings entries) :: later)

end

end MetadataStore.Toml
