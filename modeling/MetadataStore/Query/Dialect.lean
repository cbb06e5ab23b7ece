import MetadataStore.Search.Expression

/-!
# `Query.Dialect` — statement text and what differs between engines

A statement is put together from pieces of two sorts: its own text, and quoted text that comes from
operands. Keeping them apart until the end is what shows that an operand never leaves its quotes.

## Contents
- `Piece`, `Piece.text`.
- `Dialect`: how an engine writes times, truth values, intersections and pages.
-/

namespace MetadataStore.Query

/-- A piece of a statement. -/
inductive Piece where
  /-- Text of the statement itself. -/
  | code (text : String)
  /-- Text between single quotes. -/
  | quoted (text : String)
  deriving DecidableEq, Repr

namespace Piece

/-- The text of one piece. -/
def written : Piece → String
  | .code text => text
  | .quoted text => "'" ++ text ++ "'"

/-- The text of pieces in a row. -/
def text (pieces : List Piece) : String :=
  String.join (pieces.map written)

/-- Groups of pieces with a separator between them. -/
def join (separator : String) : List (List Piece) → List Piece
  | [] => []
  | [pieces] => pieces
  | pieces :: more => pieces ++ .code separator :: join separator more

end Piece

/-- The engines whose statements can be written. -/
inductive Dialect where
  | sqlite | postgresql
  deriving DecidableEq, Repr

/-- The identity of a unit, against which subqueries are matched. -/
def identity : String :=
  "(ut.tenantid, ut.unitid)"

/-- The test that the unit is among those that a query selects. -/
def membership (query : List Piece) : List Piece :=
  .code (identity ++ " IN (") :: query ++ [.code ")"]

namespace Dialect

/-- The dialects. -/
def all : List Dialect :=
  [.sqlite, .postgresql]

/-- The name of a dialect. -/
def name : Dialect → String
  | .sqlite => "sqlite"
  | .postgresql => "postgresql"

/-- The dialect of a name. -/
def ofName? (name : String) : Option Dialect :=
  all.find? fun dialect => dialect.name == name

/-- The character that stands for any run of characters in a pattern. -/
def wildcard (_ : Dialect) : Char :=
  '%'

/-- A truth value in a statement. -/
def truthLiteral (_ : Dialect) (truth : Bool) : String :=
  if truth then "1" else "0"

/-- The layout by which PostgreSQL reads a time. -/
def timeLayout : String :=
  "YYYY-MM-DD HH24:MI:SS.MS"

/-- A time in a statement. -/
def timeLiteral (dialect : Dialect) (moment : DateTime) : List Piece :=
  match dialect with
  | .sqlite => [.quoted moment.text]
  | .postgresql =>
    [.code "TO_TIMESTAMP(", .quoted moment.text, .code ", ", .quoted timeLayout, .code ")"]

/-- The test that the unit is among those that every one of the queries selects. -/
def intersection (dialect : Dialect) (queries : List (List Piece)) : List Piece :=
  match dialect with
  | .sqlite => membership (Piece.join " INTERSECT " queries)
  | .postgresql => Piece.join " AND " (queries.map membership)

/-- The clause that keeps only some rows. -/
def pagingClause (dialect : Dialect) (paging : Paging) : String :=
  match dialect with
  | .sqlite =>
    if paging.isPaged then
      let size : Int := if 0 < paging.size then paging.size else -1
      " LIMIT " ++ Text.integer size ++ " OFFSET " ++ Text.integer paging.offset
    else if 0 < paging.first then " LIMIT " ++ Text.integer paging.first
    else ""
  | .postgresql =>
    if paging.isPaged then
      " OFFSET " ++ Text.integer paging.offset ++ " ROWS" ++
        (if 0 < paging.size then " FETCH NEXT " ++ Text.integer paging.size ++ " ROWS ONLY" else "")
    else if 0 < paging.first then " FETCH FIRST " ++ Text.integer paging.first ++ " ROWS ONLY"
    else ""

end Dialect

end MetadataStore.Query
