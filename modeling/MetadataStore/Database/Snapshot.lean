import MetadataStore.Database.Tables
import MetadataStore.Number.Reader

/-!
# `Database.Snapshot` — the stored state as text

A snapshot has a line for each row, which begins with the name of its table; the cells of a row stand
between tabs. Tabs, ends of lines and backslashes within a cell are escaped, so that a line holds one
row and nothing of it is lost.

## Contents
- `escape`, `unescape?`, and that the second undoes the first.
- `Snapshot.text`, `Snapshot.ofText?`.
-/

namespace MetadataStore.Snapshot

/-! ## Cells of a line -/

/-- A cell with its separators escaped. -/
def escape : List Char → List Char
  | [] => []
  | '\\' :: cs => '\\' :: '\\' :: escape cs
  | '\t' :: cs => '\\' :: 't' :: escape cs
  | '\n' :: cs => '\\' :: 'n' :: escape cs
  | c :: cs => c :: escape cs

/-- A cell without its escapes. -/
def unescape? : List Char → Option (List Char)
  | [] => some []
  | '\\' :: '\\' :: cs => (unescape? cs).map ('\\' :: ·)
  | '\\' :: 't' :: cs => (unescape? cs).map ('\t' :: ·)
  | '\\' :: 'n' :: cs => (unescape? cs).map ('\n' :: ·)
  | '\\' :: _ => none
  | c :: cs => (unescape? cs).map (c :: ·)

theorem unescape?_escape (cs : List Char) : unescape? (escape cs) = some cs := by
  fun_induction escape cs with
  | case1 => rfl
  | case2 cs ih => simp [unescape?, ih]
  | case3 cs ih => simp [unescape?, ih]
  | case4 cs ih => simp [unescape?, ih]
  | case5 c cs hback _ _ ih =>
    rw [unescape?]
    · simp [ih]
    · exact fun _ h => absurd h hback
    · exact fun _ h => absurd h hback
    · exact fun _ h => absurd h hback
    · exact hback

/-- Pieces of a text between separators. -/
def pieces (separator : Char) : List Char → List (List Char)
  | [] => [[]]
  | c :: cs =>
    if c == separator then [] :: pieces separator cs
    else
      match pieces separator cs with
      | [] => [[c]]
      | piece :: rest => (c :: piece) :: rest

/-! ## Cells of a row -/

/-- Something that may be missing, after a mark. -/
def optionalText : Option String → String
  | some text => "=" ++ text
  | none => "-"

/-- What `optionalText` writes, read. -/
def optionalText? (text : String) : Option (Option String) :=
  match text.toList with
  | '=' :: cs => some (some (String.ofList cs))
  | ['-'] => some none
  | _ => none

/-- The bytes of an opaque element as numbers. -/
def bytesText (bytes : List UInt8) : String :=
  " ".intercalate (bytes.map fun byte => Text.integer byte.toNat)

/-- What `bytesText` writes, read. -/
def bytes? (cs : List Char) : Option (List UInt8) :=
  if cs.isEmpty then some []
  else (pieces ' ' cs).mapM fun piece => (Text.readDigits? piece).map UInt8.ofNat

/-- An element after a mark for its storage class. -/
def cellText : Cell → String
  | .null => "n"
  | .integer i => "i" ++ Text.integer i
  | .real x => "r" ++ Text.integer x.bits.toNat
  | .text text => "t" ++ text
  | .blob bytes => "b" ++ bytesText bytes

/-- What `cellText` writes, read. -/
def cell? (text : String) : Option Cell :=
  match text.toList with
  | ['n'] => some .null
  | 'i' :: cs => (Number.integer? (String.ofList cs)).map .integer
  | 'r' :: cs => (Text.readDigits? cs).map fun bits => .real ⟨UInt64.ofNat bits⟩
  | 't' :: cs => some (.text (String.ofList cs))
  | 'b' :: cs => (bytes? cs).map .blob
  | _ => none

/-! ## Rows -/

/-- The rows of a stored state, each beginning with the name of its table. -/
def rows (db : Database) : List (List String) :=
  let n := Text.integer
  ["last", n db.lastUnit, n db.lastAttribute, n db.lastValue] ::
    db.units.map (fun row =>
      ["unit", n row.unit.tenant, n row.unit.id, row.correlation, optionalText row.name, n row.status,
        row.created]) ++
    db.attributes.map (fun row =>
      ["attribute", n row.id, row.name, n row.kindCode, if row.scalar then "1" else "0"]) ++
    db.mappings.map (fun row =>
      ["value", n row.unit.tenant, n row.unit.id, n row.attributeId, n row.valueId]) ++
    db.elements.map (fun row =>
      ["element", row.table.name, n row.valueId, n row.index, cellText row.cell]) ++
    db.relations.map (fun row =>
      ["relation", n row.left.tenant, n row.left.id, n row.kindCode, n row.right.tenant,
        n row.right.id]) ++
    db.associations.map (fun row =>
      ["association", n row.left.tenant, n row.left.id, n row.kindCode, row.reference]) ++
    db.locks.map (fun row =>
      ["lock", n row.unit.tenant, n row.unit.id, row.purpose, n row.kindCode, row.taken,
        optionalText row.expire])

/-- A stored state with one more row. -/
def addRow? (db : Database) (row : List String) : Option Database :=
  let n := Number.integer?
  match row with
  | ["last", u, a, v] => do
    pure { db with lastUnit := ← n u, lastAttribute := ← n a, lastValue := ← n v }
  | ["unit", tenant, id, correlation, name, status, created] => do
    let row : UnitRow :=
      ⟨⟨← n tenant, ← n id⟩, correlation, ← optionalText? name, ← n status, created⟩
    pure { db with units := db.units ++ [row] }
  | ["attribute", id, name, kindCode, scalar] => do
    let row : AttributeRow := ⟨← n id, name, ← n kindCode, scalar == "1"⟩
    pure { db with attributes := db.attributes ++ [row] }
  | ["value", tenant, id, attributeId, valueId] => do
    let row : Mapping := ⟨⟨← n tenant, ← n id⟩, ← n attributeId, ← n valueId⟩
    pure { db with mappings := db.mappings ++ [row] }
  | ["element", table, valueId, index, cell] => do
    let row : ElementRow := ⟨← Kind.ofName? table, ← n valueId, ← n index, ← cell? cell⟩
    pure { db with elements := db.elements ++ [row] }
  | ["relation", tenant, id, kindCode, otherTenant, otherId] => do
    let row : RelationRow := ⟨⟨← n tenant, ← n id⟩, ← n kindCode, ⟨← n otherTenant, ← n otherId⟩⟩
    pure { db with relations := db.relations ++ [row] }
  | ["association", tenant, id, kindCode, reference] => do
    let row : AssociationRow := ⟨⟨← n tenant, ← n id⟩, ← n kindCode, reference⟩
    pure { db with associations := db.associations ++ [row] }
  | ["lock", tenant, id, purpose, kindCode, taken, expire] => do
    let row : LockRow :=
      ⟨⟨← n tenant, ← n id⟩, purpose, ← n kindCode, taken, ← optionalText? expire⟩
    pure { db with locks := db.locks ++ [row] }
  | _ => none

/-! ## Texts -/

/-- A row as a line. -/
def line (row : List String) : String :=
  "\t".intercalate (row.map fun cell => String.ofList (escape cell.toList))

/-- What `line` writes, read. -/
def row? (line : List Char) : Option (List String) :=
  (pieces '\t' line).mapM fun piece => (unescape? piece).map String.ofList

/-- A stored state as text. -/
def text (db : Database) : String :=
  String.join ((rows db).map fun row => line row ++ "\n")

/-- The stored state that a text holds. -/
def ofText? (text : String) : Option Database :=
  ((pieces '\n' text.toList).filter fun line => !line.isEmpty).foldlM
    (fun db line => (row? line).bind (addRow? db)) .empty

end MetadataStore.Snapshot
