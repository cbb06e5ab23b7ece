import MetadataStore.Query.Matching

/-!
# `Query.Meaning` — what a statement selects

A statement selects the units of which its condition is true, in its order, and keeps the rows of its
page. A tree of constraints also has a plain meaning of its own, read leaf by leaf; it does not know of
flattened conjunctions or gathered subqueries.

## Contents
- `UnitRow.cell`, `Subquery.selected`, `Condition.truth`.
- `Statement.run`, the units that a statement selects.
- `Item.truth`, `Expression.truth`, the plain meaning.
-/

namespace MetadataStore

/-- The cell of a unit in a column. -/
def UnitRow.cell (row : UnitRow) : Column → Cell
  | .tenant => .integer row.unit.tenant
  | .id => .integer row.unit.id
  | .correlation => .text row.correlation
  | .name => match row.name with
    | some name => .text name
    | none => .null
  | .status => .integer row.status
  | .created => .text row.created

/-- Whether a column holds texts. -/
def Column.isText : Column → Bool
  | .correlation | .name | .created => true
  | .tenant | .id | .status => false

/-- Whether the table of a kind holds texts. -/
def Kind.isText : Kind → Bool
  | .string | .time => true
  | .integer | .long | .double | .boolean | .data => false

namespace Query

/-- The units that a subquery selects: one for each element that compares so. -/
def Subquery.selected (subquery : Subquery) (db : Database) : List UnitRef :=
  (db.mappings.filter fun mapping =>
    mapping.attributeId == subquery.attributeId && db.hasUnit mapping.unit).flatMap fun mapping =>
      ((db.elementsIn subquery.table mapping.valueId).filter fun row =>
        ((subquery.comparison.asRead db.engine).truth subquery.table.isText row.cell).holds).map
          fun _ => mapping.unit

/-- The units that all of several subqueries select. -/
def selectedByAll (db : Database) (first : Subquery) (rest : List Subquery) : List UnitRef :=
  rest.foldl (fun units subquery =>
    let others := subquery.selected db
    units.filter fun unit => others.contains unit) (first.selected db)

/-- Whether a condition is true of a unit. -/
def Condition.truth (db : Database) (row : UnitRow) : Condition → Truth
  | .column c comparison => (comparison.asRead db.engine).truth c.isText (row.cell c)
  | .among subquery => .ofBool ((subquery.selected db).contains row.unit)
  | .amongAll first rest => .ofBool ((selectedByAll db first rest).contains row.unit)
  | .not inner => (inner.truth db row).not
  | .or left right => (left.truth db row).or (right.truth db row)
  | .and left right => (left.truth db row).and (right.truth db row)
  | .group inner => inner.truth db row

/-- The order of two units by the columns of an order, the first difference deciding. -/
def compareRows (a b : UnitRow) : SearchOrder → Ordering
  | [] => .eq
  | (column, ascending) :: rest =>
    match (a.cell column).compare (b.cell column) with
    | .eq => compareRows a b rest
    | o => if ascending then o else o.swap

/-- The units that a statement selects. Units that the order leaves equal stand as they were inserted; that
is one of the arrangements an engine may choose, which depend on how it plans the statement. -/
def Statement.run (db : Database) (statement : Statement) : List UnitRef :=
  let matching := db.units.filter fun row =>
    match statement.condition with
    | none => true
    | some condition => (condition.truth db row).holds
  let sorted := matching.mergeSort fun a b => compareRows a b statement.order != .gt
  statement.paging.slice (sorted.map (·.unit))

end Query

/-! ## The plain meaning -/

/-- The truth of a constraint for a unit: a constraint on a column compares the unit's own cell, one on
an attribute asks whether some element stored for it compares so. -/
def Item.truth (dialect : Query.Dialect) (db : Database) (row : UnitRow) :
    Item → Except Fault Truth
  | .column c operator operand => do
    let comparison ← Query.Comparison.ofOperand dialect operator operand false
    pure ((comparison.asRead db.engine).truth c.isText (row.cell c))
  | .element id operator operand adjustable => do
    let comparison ← Query.Comparison.ofOperand dialect operator operand adjustable
    pure (.ofBool ((db.mappingsOf row.unit).any fun mapping =>
      mapping.attributeId == id && (db.elementsIn operand.kind mapping.valueId).any fun element =>
        ((comparison.asRead db.engine).truth operand.kind.isText element.cell).holds))

/-- The truth of a tree for a unit, read leaf by leaf. -/
def Expression.truth (dialect : Query.Dialect) (db : Database) (row : UnitRow) :
    Expression → Except Fault Truth
  | .leaf item => item.truth dialect db row
  | .not inner => do
    let inner ← inner.truth dialect db row
    pure inner.not
  | .and left right => do
    let left ← left.truth dialect db row
    let right ← right.truth dialect db row
    pure (left.and right)
  | .or left right => do
    let left ← left.truth dialect db row
    let right ← right.truth dialect db row
    pure (left.or right)

end MetadataStore
