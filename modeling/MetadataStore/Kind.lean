/-!
# `Kind` — the types of attribute elements

Every attribute holds elements of one of seven kinds. A kind has a code, which the database keeps, and
a lower-case name, which messages and commands use.

## Contents
- `Kind`, `Kind.all`, `Kind.code`, `Kind.name`.
- `Kind.ofCode?`, `Kind.ofName?`: the kind of a code, of a name without regard to ASCII case.
- `Kind.isSearchable`.
-/

namespace MetadataStore

/-- The type of an element. -/
inductive Kind where
  | string | time | integer | long | double | boolean | data
  deriving DecidableEq, Repr

namespace Kind

/-- The kinds in the order of their codes. -/
def all : List Kind :=
  [.string, .time, .integer, .long, .double, .boolean, .data]

/-- The number that stands for a kind in the database. -/
def code : Kind → Int
  | .string => 1
  | .time => 2
  | .integer => 3
  | .long => 4
  | .double => 5
  | .boolean => 6
  | .data => 7

/-- The name of a kind. -/
def name : Kind → String
  | .string => "string"
  | .time => "time"
  | .integer => "integer"
  | .long => "long"
  | .double => "double"
  | .boolean => "boolean"
  | .data => "data"

/-- The kind with the given code. -/
def ofCode? (code : Int) : Option Kind :=
  all.find? fun kind => kind.code == code

/-- The kind with the given name, ASCII letters in either case. -/
def ofName? (s : String) : Option Kind :=
  all.find? fun kind => kind.name.toList == s.toList.map Char.toLower

/-- Opaque bytes cannot be compared in a search. -/
def isSearchable (kind : Kind) : Bool :=
  kind != .data

@[simp] theorem ofCode?_code (kind : Kind) : ofCode? kind.code = some kind := by
  cases kind <;> decide

theorem ofCode?_eq_some {code : Int} {kind : Kind} (h : ofCode? code = some kind) :
    kind.code = code := by
  simpa using List.find?_some h

@[simp] theorem ofName?_name (kind : Kind) : ofName? kind.name = some kind := by
  cases kind <;> decide +kernel

end Kind

end MetadataStore
