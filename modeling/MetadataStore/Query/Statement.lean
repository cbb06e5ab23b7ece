import MetadataStore.Query.Condition

/-!
# `Query.Statement` — the statement of a search

A search becomes one statement that selects the identities of matching units. The columns that it is
ordered by are selected too, each once, since some engines want them there. The engine is handed the text,
and reads it no further than to the first null character.

## Contents
- `Statement`, `Statement.ofSearch`.
- `Statement.pieces`, `compile`: the text of a statement.
- `unclosed`, `prepare`: what the engine says to a text.
-/

namespace MetadataStore.Query

/-- A statement that selects units. -/
structure Statement where
  condition : Option Condition
  order : SearchOrder
  paging : Paging
  deriving DecidableEq

namespace Statement

/-- The statement of a search. -/
def ofSearch (dialect : Dialect) (search : Search) : Except Fault Statement :=
  match search.expression with
  | none => .ok ⟨none, search.order, search.paging⟩
  | some e =>
    match Condition.ofExpression dialect e with
    | .ok condition => .ok ⟨some condition, search.order, search.paging⟩
    | .error fault => .error fault

/-- The columns to select, in order of their first mention. -/
def selected (order : SearchOrder) : List Column :=
  order.foldl
    (fun columns entry => if entry.1 ∈ columns then columns else columns ++ [entry.1])
    [.tenant, .id]

/-- One column to order by. -/
def orderText (entry : Column × Bool) : String :=
  entry.1.text ++ (if entry.2 then " ASC" else " DESC")

/-- The text of a statement. -/
def pieces (dialect : Dialect) (statement : Statement) : List Piece :=
  .code ("SELECT " ++ String.intercalate ", " ((selected statement.order).map Column.text) ++
      " FROM repo_unit ut") ::
    (match statement.condition with
      | none => []
      | some condition => .code " WHERE " :: condition.pieces dialect) ++
    (if statement.order.isEmpty then []
      else [.code (" ORDER BY " ++ String.intercalate ", " (statement.order.map orderText))]) ++
    [.code (dialect.pagingClause statement.paging)]

end Statement

/-- The text of the statement of a search. -/
def compile (dialect : Dialect) (search : Search) : Except Fault String :=
  match Statement.ofSearch dialect search with
  | .ok statement => .ok (Piece.text (statement.pieces dialect))
  | .error fault => .error fault

/-! ## Before a statement runs -/

/-- What the engine reports of a text with a null character. Only an operand holds one, and for the engine
the text ends there: the last quote that it has seen is never closed, and begins no token. -/
def unclosed (text : String) : EngineFault :=
  let seen := text.toList.takeWhile (· != '\x00')
  let operand := (seen.reverse.takeWhile (· != '\'')).reverse
  let before := seen.take (seen.length - (operand.length + 1))
  .unrecognized (String.ofList ('\'' :: operand)) text (String.ofList before).utf8ByteSize

/-- Whether the engine can make a statement of a text. -/
def prepare (text : String) : Except Fault Unit :=
  if '\x00' ∈ text.toList then .error (.read (unclosed text)) else .ok ()

end MetadataStore.Query
