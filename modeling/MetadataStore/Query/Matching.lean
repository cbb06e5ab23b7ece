import MetadataStore.Database.Tables
import MetadataStore.Query.Statement
import MetadataStore.Text.Lowercase
import MetadataStore.Truth

/-!
# `Query.Matching` — how the engine compares

The engine compares a stored cell with a literal of a statement. Numbers compare as numbers, texts by
their characters, and a number is less than any text. A literal is made a text when the column is one.
Patterns know two wildcards, and neither they nor lowering see any case but that of ASCII letters. A null
character ends a text for the one purpose of matching it against a pattern. A double is written into a
statement as a decimal, and compared as the engine reads that.

## Contents
- `like`, matching against a pattern.
- `Cell.text?`, `Cell.compare`; `compareCells`, a comparison with its operator.
- `Comparison.asRead`, a comparison as the engine reads it; `Comparison.truth`, a comparison with a stored
  cell.
-/

namespace MetadataStore

/-! ## Patterns -/

/-- Whether some end of a text, the whole included, passes a test. -/
def anyEnd (test : List Char → Bool) : List Char → Bool
  | [] => test []
  | c :: cs => test (c :: cs) || anyEnd test cs

/-- Whether a text matches a pattern: a percent sign stands for any run of characters, an underscore
for any single one, and every other character for itself in either case. -/
def like : List Char → List Char → Bool
  | [], cs => cs.isEmpty
  | p :: ps, cs =>
    if p = '%' then anyEnd (like ps) cs
    else match cs with
      | [] => false
      | c :: cs => (p = '_' || Text.foldAscii p = Text.foldAscii c) && like ps cs

/-! ## Cells -/

namespace Cell

/-- The text that the engine makes of a cell. -/
def text? : Cell → Option String
  | .null => none
  | .integer i => some (Text.integer i)
  | .real x => some (Number.Layout.engine.text x)
  | .text s => some s
  | .blob _ => none

/-- The place of a cell's type in the order of types. -/
def typeRank : Cell → Nat
  | .null => 0
  | .integer _ | .real _ => 1
  | .text _ => 2
  | .blob _ => 3

/-- The order of cells, missing values first. -/
protected def compare : Cell → Cell → Ordering
  | .integer i, .integer j => compareOfLessAndEq i j
  | .real x, .real y => compareOfLessAndEq x.rank y.rank
  | .real x, .integer j => x.compareInt j
  | .integer i, .real y => (y.compareInt i).swap
  | .text s, .text t => compareOfLessAndEq s t
  | .blob s, .blob t => compareOfLessAndEq s t
  | a, b => compareOfLessAndEq a.typeRank b.typeRank

/-- A literal compared with a column of text is a text itself. -/
def asText : Cell → Cell
  | .integer i => .text (Text.integer i)
  | .real x => .text (Number.Layout.engine.text x)
  | cell => cell

end Cell

/-- Whether an ordering is what an operator asks for. Patterns are not a matter of order. -/
def Operator.accepts : Operator → Ordering → Bool
  | .eq, o => o == .eq
  | .neq, o => o != .eq
  | .lt, o => o == .lt
  | .leq, o => o != .gt
  | .gt, o => o == .gt
  | .geq, o => o != .lt
  | .like, _ => false

namespace Query

/-- The characters of a text up to its first null character. -/
def upToNull (s : String) : List Char :=
  s.toList.takeWhile (· != '\x00')

/-- A stored cell compared with a literal. -/
def compareCells (operator : Operator) (isTextColumn : Bool) (stored literal : Cell) : Truth :=
  if stored = .null then .unknown
  else if operator = .like then
    match literal.text?, stored.text? with
    | some pattern, some s => .ofBool (like (upToNull pattern) (upToNull s))
    | _, _ => .unknown
  else .ofBool (operator.accepts (stored.compare (if isTextColumn then literal.asText else literal)))

/-- A stored cell as the engine lowers it. -/
def lowered (stored : Cell) : Cell :=
  match stored.text? with
  | none => .null
  | some s => .text (Text.foldAsciiText s)

/-- A comparison as the engine reads it: a double stands in a statement as a decimal. -/
def Comparison.asRead (engine : Engine) : Comparison → Comparison
  | .double operator number => .double operator (engine.double (Number.Layout.literal.text number))
  | comparison => comparison

/-- Whether a comparison is true of a stored cell, a double being the one that the engine has read. -/
def Comparison.truth (isTextColumn : Bool) (stored : Cell) : Comparison → Truth
  | .text operator value => compareCells operator true (lowered stored) (.text value)
  | .time operator moment => compareCells operator isTextColumn stored (.text moment.text)
  | .within low high =>
    (compareCells .geq isTextColumn stored (.text low.text)).and
      (compareCells .leq isTextColumn stored (.text high.text))
  | .integer operator number => compareCells operator isTextColumn stored (.integer number)
  | .double operator number => compareCells operator isTextColumn stored (.real number)
  | .flag operator value => compareCells operator isTextColumn stored (.integer (if value then 1 else 0))

end Query

end MetadataStore
