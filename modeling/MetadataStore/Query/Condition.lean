import MetadataStore.Query.Normal
import MetadataStore.Time.Span

/-!
# `Query.Condition` — the conditions of a statement

A tree of constraints becomes a condition. Chains of conjunctions are flattened, and the constraints
on attributes among their conjuncts are gathered and tested together: on SQLite against the
intersection of what their subqueries select, on PostgreSQL by one test each.

## Contents
- `Comparison`, a comparison with a literal; `Subquery`; `Condition`, the tree of tests.
- `Comparison.ofOperand`, `Chain`, `Condition.ofExpression`: from constraints to conditions, refusing
  operands that have no literal.
- `Condition.pieces`: the text of a condition.
-/

namespace MetadataStore.Query

/-- A comparison of some column with a literal. -/
inductive Comparison where
  /-- The lowered column with a normalised text. -/
  | text (operator : Operator) (value : String)
  | time (operator : Operator) (moment : DateTime)
  /-- Both ends count. -/
  | within (low high : DateTime)
  | integer (operator : Operator) (number : Int)
  | double (operator : Operator) (number : Number.Binary64)
  | flag (operator : Operator) (value : Bool)
  deriving DecidableEq

/-- The units that have, for an attribute, an element in a vector table that compares so. -/
structure Subquery where
  attributeId : Int
  table : Kind
  comparison : Comparison
  deriving DecidableEq

/-- A condition on units. -/
inductive Condition where
  | column (column : Column) (comparison : Comparison)
  /-- The unit is among those of a subquery. -/
  | among (subquery : Subquery)
  /-- The unit is among those that all of several subqueries select. -/
  | amongAll (first : Subquery) (rest : List Subquery)
  | not (inner : Condition)
  | or (left right : Condition)
  /-- Conjuncts in a row, without parentheses of their own. -/
  | and (left right : Condition)
  | group (inner : Condition)
  deriving DecidableEq

/-! ## From constraints to conditions -/

/-- The comparison with an operand. Opaque bytes and doubles that are no numbers have no literal. -/
def Comparison.ofOperand (dialect : Dialect) (operator : Operator) (operand : Datum)
    (adjustable : Bool) : Except Fault Comparison :=
  match operand with
  | .string s =>
    let (operator, value) := normalize dialect operator s
    .ok (.text operator value)
  | .time moment =>
    -- any operator but equality compares with the moment itself
    match adjustable && operator == .eq, moment.span? with
    | true, some (low, high) => .ok (.within low high)
    | _, _ => .ok (.time operator moment)
  | .integer number => .ok (.integer operator number.toInt)
  | .long number => .ok (.integer operator number.toInt)
  | .double number => if number.isFinite then .ok (.double operator number) else .error (.noLiteral number)
  | .boolean value => .ok (.flag operator value)
  | .data _ => .error .noDataLiteral

/-- How a dialect tests several subqueries at once. -/
def Dialect.amongAll (dialect : Dialect) (first : Subquery) (rest : List Subquery) : Condition :=
  match dialect with
  | .sqlite => .amongAll first rest
  | .postgresql => rest.foldl (fun test subquery => .and test (.among subquery)) (.among first)

/-- The links of a chain of conjunctions: the subqueries of constraints on attributes, and all other
conditions, each in order. A tree that is no conjunction is a chain of one link. -/
structure Chain where
  others : List Condition
  subqueries : List Subquery
  inhabited : others ≠ [] ∨ subqueries ≠ []

namespace Chain

/-- A chain of one condition. -/
def ofCondition (condition : Condition) : Chain :=
  ⟨[condition], [], Or.inl (by simp)⟩

/-- A chain of one subquery. -/
def ofSubquery (subquery : Subquery) : Chain :=
  ⟨[], [subquery], Or.inr (by simp)⟩

/-- One chain after the other. -/
def append (a b : Chain) : Chain :=
  { others := a.others ++ b.others
    subqueries := a.subqueries ++ b.subqueries
    inhabited := by
      rcases a.inhabited with h | h
      · exact Or.inl (by simp [h])
      · exact Or.inr (by simp [h]) }

/-- The tests of a chain: the other conditions first, then the subqueries together. -/
def tests (dialect : Dialect) (chain : Chain) : List Condition :=
  chain.others ++ match chain.subqueries with
    | [] => []
    | [subquery] => [.among subquery]
    | first :: rest => [dialect.amongAll first rest]

theorem tests_ne_nil (dialect : Dialect) (chain : Chain) : chain.tests dialect ≠ [] := by
  unfold tests
  rcases chain.inhabited with h | h
  · simp [h]
  · split <;> simp_all

/-- The conjunction of at least one test. -/
def conjoin : (tests : List Condition) → tests ≠ [] → Condition
  | first :: rest, _ => rest.foldl .and first

/-- The condition of a whole chain: a single link is itself, several are grouped. -/
def condition (dialect : Dialect) (chain : Chain) : Condition :=
  match chain.others, chain.subqueries with
  | [single], [] => single
  | [], [subquery] => .among subquery
  | _, _ => .group (conjoin (chain.tests dialect) (chain.tests_ne_nil dialect))

/-- The chain that a constraint makes. -/
def ofItem (dialect : Dialect) : Item → Except Fault Chain
  | .column column operator operand => do
    let comparison ← Comparison.ofOperand dialect operator operand false
    pure (ofCondition (.column column comparison))
  | .element id operator operand adjustable => do
    let comparison ← Comparison.ofOperand dialect operator operand adjustable
    pure (ofSubquery ⟨id, operand.kind, comparison⟩)

/-- The chain that a tree makes. -/
def ofExpression (dialect : Dialect) : Expression → Except Fault Chain
  | .leaf item => ofItem dialect item
  | .not inner => do
    let inner ← ofExpression dialect inner
    pure (ofCondition (.not (inner.condition dialect)))
  | .or left right => do
    let left ← ofExpression dialect left
    let right ← ofExpression dialect right
    pure (ofCondition (.or (left.condition dialect) (right.condition dialect)))
  | .and left right => do
    let left ← ofExpression dialect left
    let right ← ofExpression dialect right
    pure (left.append right)

end Chain

/-- The first constraint on an attribute whose operand cannot be searched for is a fault. -/
def checkSearchable : Expression → Except Fault Unit
  | .leaf item => item.checkSearchable
  | .not inner => checkSearchable inner
  | .and left right => do
    checkSearchable left
    checkSearchable right
  | .or left right => do
    checkSearchable left
    checkSearchable right

/-- The condition of a tree. The constraints on attributes are checked before anything else. -/
def Condition.ofExpression (dialect : Dialect) (e : Expression) : Except Fault Condition := do
  -- the whole tree is checked first, so its first bad attribute wins over any bad column
  checkSearchable e
  let chain ← Chain.ofExpression dialect e
  pure (chain.condition dialect)

/-! ## Text -/

/-- The text of a comparison of the named column. -/
def Comparison.pieces (dialect : Dialect) (column : String) : Comparison → List Piece
  | .text operator value =>
    [.code ("LOWER(" ++ column ++ ")" ++ operator.text), .quoted value]
  | .time operator moment => .code (column ++ operator.text) :: dialect.timeLiteral moment
  | .within low high =>
    .code ("(" ++ column ++ " >= ") :: dialect.timeLiteral low ++
      .code (" AND " ++ column ++ " <= ") :: dialect.timeLiteral high ++ [.code ")"]
  | .integer operator number => [.code (column ++ operator.text ++ Text.integer number)]
  | .double operator number =>
    [.code (column ++ operator.text ++ Number.Layout.literal.text number)]
  | .flag operator value => [.code (column ++ operator.text ++ dialect.truthLiteral value)]

/-- The table that holds the elements of a kind. -/
def vectorTable (kind : Kind) : String :=
  "repo_" ++ kind.name ++ "_vector"

/-- The text of a subquery. -/
def Subquery.pieces (dialect : Dialect) (subquery : Subquery) : List Piece :=
  .code ("SELECT av.tenantid, av.unitid FROM repo_unit ut " ++
      "INNER JOIN repo_attribute_value av ON (ut.tenantid = av.tenantid AND ut.unitid = av.unitid) " ++
      "INNER JOIN " ++ vectorTable subquery.table ++ " vv ON (av.valueid = vv.valueid) " ++
      "WHERE av.attrid = " ++ Text.integer subquery.attributeId ++ " AND ") ::
    subquery.comparison.pieces dialect "vv.val"

/-- The text of a condition. -/
def Condition.pieces (dialect : Dialect) : Condition → List Piece
  | .column c comparison => comparison.pieces dialect c.text
  | .among subquery => membership (subquery.pieces dialect)
  | .amongAll first rest =>
    Dialect.sqlite.intersection ((first :: rest).map (Subquery.pieces dialect))
  | .not inner => .code "NOT (" :: inner.pieces dialect ++ [.code ")"]
  | .or left right =>
    .code "(" :: left.pieces dialect ++ .code " OR " :: right.pieces dialect ++ [.code ")"]
  | .and left right => left.pieces dialect ++ .code " AND " :: right.pieces dialect
  | .group inner => .code "(" :: inner.pieces dialect ++ [.code ")"]

end MetadataStore.Query
