import MetadataStore.Search.Item

/-!
# `Search.Expression` — searches

Constraints combine by negation, conjunction and disjunction into a tree. A search is such a tree, or
none for everything, together with an order and a choice of rows.

## Contents
- `Expression`, `Expression.all?`, `Expression.any?`.
- `SearchOrder`, `Paging`, `Search`.
- `Paging.slice`, the rows that a choice keeps.
-/

namespace MetadataStore

/-- A tree of constraints. -/
inductive Expression where
  | leaf (item : Item)
  | not (inner : Expression)
  | and (left right : Expression)
  | or (left right : Expression)
  deriving DecidableEq

namespace Expression

/-- The conjunction of a list, grouped to the left; there is none of nothing. -/
def all? : List Expression → Option Expression
  | [] => none
  | e :: es => some (es.foldl .and e)

/-- The disjunction of a list, grouped to the left; there is none of nothing. -/
def any? : List Expression → Option Expression
  | [] => none
  | e :: es => some (es.foldl .or e)

/-- The constraints of a tree from left to right. -/
def items : Expression → List Item
  | .leaf item => [item]
  | .not inner => inner.items
  | .and left right => left.items ++ right.items
  | .or left right => left.items ++ right.items

end Expression

/-- Columns to order by, each with whether it ascends. -/
abbrev SearchOrder := List (Column × Bool)

/-- The newest units first. -/
def SearchOrder.newestFirst : SearchOrder :=
  [(.created, false)]

/-- Which rows of a result to keep: a page of `size` rows after `offset`, a size of zero meaning all;
or else the `first` rows, zero meaning all. A page wins over the first rows. -/
structure Paging where
  offset : Nat
  size : Nat
  first : Nat
  deriving DecidableEq, Repr

namespace Paging

/-- Everything. -/
def none : Paging := ⟨0, 0, 0⟩

/-- Whether a page is asked for. -/
def isPaged (paging : Paging) : Bool :=
  0 < paging.offset || 0 < paging.size

/-- The rows that the choice keeps. -/
def slice {α : Type} (paging : Paging) (rows : List α) : List α :=
  if paging.isPaged then
    let rest := rows.drop paging.offset
    if 0 < paging.size then rest.take paging.size else rest
  else if 0 < paging.first then rows.take paging.first
  else rows

@[simp] theorem slice_none {α : Type} (rows : List α) : none.slice rows = rows := rfl

end Paging

/-- A search. -/
structure Search where
  expression : Option Expression
  order : SearchOrder
  paging : Paging
  deriving DecidableEq

end MetadataStore
