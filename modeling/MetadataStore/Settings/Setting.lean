import MetadataStore.Number.Layout
import MetadataStore.Number.Reader
import MetadataStore.Text.Lowercase

/-!
# `Settings.Setting` — values of settings before they are understood

Wherever settings come from, they are first a tree of tables, lists and plain values. A later layer of
settings goes over an earlier one: tables are merged, and anything else is replaced.

## Contents
- `Setting`, with `natural?` and `text?`, what a plain value is taken for.
- `SettingPath`, the place of a setting; `SettingPath.ofKey`.
- `Setting.overlay`, `Setting.put`.
-/

namespace MetadataStore

/-- A value of a setting. -/
inductive Setting where
  | absent
  | boolean (value : Bool)
  | integer (value : Int)
  | double (value : Number.Binary64)
  | text (value : String)
  | list (items : List Setting)
  | table (entries : List (String × Setting))

namespace Setting

/-! ## Plain values -/

/-- The largest number of sixty-four bits. -/
def maxNatural : Nat :=
  UInt64.size - 1

/-- A double rounded to a natural number, a half going up; what lies outside goes to the nearest bound,
and what is no number to zero. -/
def roundToNatural (x : Number.Binary64) : Nat :=
  if x.isNaN || x.isNegative then 0
  else if x.isInfinite then maxNatural
  else min maxNatural ((2 * x.ratio.1 + x.ratio.2) / (2 * x.ratio.2))

/-- Some words stand for one and zero. -/
def wordNatural? (word : String) : Option Nat :=
  if ["true", "on", "yes"].contains word then some 1
  else if ["false", "off", "no"].contains word then some 0
  else none

/-- The natural number that a text denotes: a word, or digits with at most a plus sign. -/
def textNatural? (value : String) : Option Nat :=
  match wordNatural? (Text.lower value) with
  | some n => some n
  | none =>
    if value.toList.head? == some '-' then none
    else (Number.integerWithin? 0 maxNatural value).map Int.toNat

/-- The natural number that a setting is taken for. -/
def natural? : Setting → Option Nat
  | .boolean value => some (if value then 1 else 0)
  | .integer value => if 0 ≤ value then some value.toNat else none
  | .double value => some (roundToNatural value)
  | .text value => textNatural? value
  | .absent | .list _ | .table _ => none

/-- The text that a setting is taken for. -/
def text? : Setting → Option String
  | .boolean value => some (if value then "true" else "false")
  | .integer value => some (Text.integer value)
  | .double value => some (Number.Layout.plain.text value)
  | .text value => some value
  | .absent | .list _ | .table _ => none

/-- The entries of a table; anything else has none. -/
def entries : Setting → List (String × Setting)
  | .table entries => entries
  | _ => []

/-- The items of a list; anything else has none. -/
def items : Setting → List Setting
  | .list items => items
  | _ => []

/-! ## Layers -/

/-- Entries with another setting for a key, made from the one it has. -/
def change (entries : List (String × Setting)) (key : String) (f : Setting → Setting) :
    List (String × Setting) :=
  if entries.any fun entry => entry.1 == key then
    entries.map fun entry => if entry.1 == key then (key, f entry.2) else entry
  else entries ++ [(key, f .absent)]

mutual

/-- A setting with a later one over it. -/
def overlay (earlier : Setting) : Setting → Setting
  | .table later => .table (overlayEntries earlier.entries later)
  | .absent => .absent
  | .boolean value => .boolean value
  | .integer value => .integer value
  | .double value => .double value
  | .text value => .text value
  | .list items => .list items

/-- Entries with later ones over them. -/
def overlayEntries (earlier : List (String × Setting)) :
    List (String × Setting) → List (String × Setting)
  | [] => earlier
  | (key, later) :: rest =>
    overlayEntries (change earlier key fun setting => overlay setting later) rest

end

end Setting

/-! ## Places -/

/-- A step down a tree of settings. -/
inductive SettingStep where
  | key (name : String)
  | index (place : Nat)
  deriving DecidableEq, Repr

/-- The place of a setting. -/
abbrev SettingPath := List SettingStep

namespace SettingPath

/-- Whether a character may stand in a name of a path. -/
def isNameChar (c : Char) : Bool :=
  c.isAlphanum || c == '_' || c == '-'

/-- The steps after the first name of a path, each a name after a point or a place in brackets. At most
`fuel` of them are read. -/
def readSteps : Nat → List Char → Option SettingPath
  | _, [] => some []
  | 0, _ => none
  | fuel + 1, c :: cs =>
    if c == '.' then
      let name := cs.takeWhile isNameChar
      if name.isEmpty then none
      else (readSteps fuel (cs.dropWhile isNameChar)).map (.key (String.ofList name) :: ·)
    else if c == '[' then
      match cs.dropWhile Char.isDigit with
      | ']' :: rest => do
        let place ← Text.readDigits? (cs.takeWhile Char.isDigit)
        let steps ← readSteps fuel rest
        pure (.index place :: steps)
      | _ => none
    else none

/-- The place that a key at the top denotes. A key that is no path is a name of its own. -/
def ofKey (key : String) : SettingPath :=
  let cs := key.toList
  let name := cs.takeWhile isNameChar
  match readSteps cs.length (cs.dropWhile isNameChar) with
  | some steps => if name.isEmpty then [.key key] else .key (String.ofList name) :: steps
  | none => [.key key]

end SettingPath

namespace Setting

/-- Items with another one at a place, made from the one there; the list grows if need be. -/
def changeAt (items : List Setting) (place : Nat) (f : Setting → Setting) : List Setting :=
  let items := items ++ List.replicate (place + 1 - items.length) .absent
  items.modify place f

/-- A setting with a later one over what is at a place. What stands in the way gives way. -/
def put (later : Setting) : SettingPath → Setting → Setting
  | [], earlier => earlier.overlay later
  | .key name :: path, earlier => .table (change earlier.entries name (put later path))
  | .index place :: path, earlier => .list (changeAt earlier.items place (put later path))

end Setting

end MetadataStore
