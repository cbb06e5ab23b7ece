import MetadataStore.Fault

/-!
# `LinkKind` — the types of links between units and beyond

A link goes from a unit either to another unit, then it is a relation, or to an opaque reference
outside, then it is an association. Some kinds admit several links from one unit, others only one.

## Contents
- `LinkKind`, its codes and names.
- `isRelational`, `allowsMultiple`; `expectRelation`, `expectAssociation`, the checks before use.
-/

namespace MetadataStore

/-- The type of a link. -/
inductive LinkKind where
  | invalid | parentChild | case | replacement
  deriving DecidableEq, Repr

namespace LinkKind

/-- The kinds in the order of their codes. -/
def all : List LinkKind :=
  [.invalid, .parentChild, .case, .replacement]

/-- The number that stands for a kind in the database. -/
def code : LinkKind → Int
  | .invalid => 0
  | .parentChild => 1
  | .case => 2
  | .replacement => 3

/-- The name of a kind. -/
def name : LinkKind → String
  | .invalid => "Invalid"
  | .parentChild => "ParentChildRelation"
  | .case => "CaseAssociation"
  | .replacement => "ReplacementRelation"

/-- The kind with the given code; other codes are a fault. -/
def ofCode (code : Int) : Except Fault LinkKind :=
  match all.find? fun kind => kind.code == code with
  | some kind => .ok kind
  | none => .error (.unknownCode .associationType code)

/-- The kind with the given name. -/
def ofName? (name : String) : Option LinkKind :=
  all.find? fun kind => kind.name == name

/-- Whether links of this kind point at units. -/
def isRelational : LinkKind → Bool
  | .parentChild | .replacement => true
  | .invalid | .case => false

/-- Whether a unit may hold several links of this kind. -/
def allowsMultiple (kind : LinkKind) : Bool :=
  kind == .parentChild

/-- Relations are refused for kinds that do not point at units. -/
def expectRelation (kind : LinkKind) : Except Fault Unit :=
  if kind.isRelational then .ok () else .error (.notRelation kind.name)

/-- Associations are refused for kinds that point at units and for the invalid kind. -/
def expectAssociation (kind : LinkKind) : Except Fault Unit :=
  if kind == .invalid || kind.isRelational then .error (.notAssociation kind.name) else .ok ()

theorem code_injective {a b : LinkKind} (h : a.code = b.code) : a = b := by
  cases a <;> cases b <;> simp_all [code]

end LinkKind

end MetadataStore
