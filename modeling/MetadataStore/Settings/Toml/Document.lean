import MetadataStore.Settings.Toml.Scalar
import MetadataStore.Settings.Toml.Tables

/-!
# `Settings.Toml.Document` — the settings that a TOML text holds

A text is a sequence of lines, each empty, a header, or a key with a value. A value may be an array,
which spans lines as it likes, or an inline table, which stays on its line.

## Contents
- `value?`, with `items?` of an array and `pairs?` of an inline table.
- `statement?`, `statements?`.
- `Setting.ofToml?`.
-/

namespace MetadataStore.Toml

/-! ## Values -/

mutual

/-- A value. Each level of nesting and each further item or pair takes of `fuel`. -/
def value? (fuel : Nat) (cs : List Char) : Option (Setting × List Char) :=
  match fuel, cs with
  | 0, _ => none
  | fuel + 1, '[' :: rest =>
    (items? fuel (gap rest)).map fun (items, rest) => (.list items, rest)
  | fuel + 1, '{' :: rest =>
    match blanks rest with
    | '}' :: rest => some (.table [], rest)
    | rest => (pairs? fuel [] rest).map fun (entries, rest) => (.table (settings entries), rest)
  | _ + 1, cs =>
    match cs.head? with
    | some '"' | some '\'' => (quoted? cs).map fun (text, rest) => (.text text, rest)
    | _ => scalar? cs

/-- The items of an array up to its end. The last one may have a comma after it. -/
def items? (fuel : Nat) (cs : List Char) : Option (List Setting × List Char) :=
  match fuel, cs with
  | 0, _ => none
  | _ + 1, ']' :: rest => some ([], rest)
  | fuel + 1, cs =>
    match value? fuel cs with
    | none => none
    | some (item, rest) =>
      match gap rest with
      | ',' :: more => (items? fuel (gap more)).map fun (items, rest) => (item :: items, rest)
      | ']' :: rest => some ([item], rest)
      | _ => none

/-- The pairs of an inline table up to its end, put into its entries. -/
def pairs? (fuel : Nat) (entries : Entries) (cs : List Char) : Option (Entries × List Char) :=
  match fuel with
  | 0 => none
  | fuel + 1 =>
    match key? cs with
    | some ((path, last), '=' :: rest) =>
      match value? fuel (blanks rest) with
      | none => none
      | some (setting, rest) =>
        match entries.assign path last setting, blanks rest with
        | some entries, ',' :: more => pairs? fuel entries (blanks more)
        | some entries, '}' :: rest => some (entries, rest)
        | _, _ => none
    | _ => none

end

/-! ## Lines -/

/-- The table that keys belong to: the path of the last header. -/
abbrev Section := List String

/-- A header, read after its first bracket: the section it begins, and the entries with it. -/
def header? (entries : Entries) (cs : List Char) : Option ((Section × Entries) × List Char) :=
  match cs with
  | '[' :: rest =>
    match key? (blanks rest) with
    | some ((path, last), ']' :: ']' :: rest) =>
      (entries.openElement path last).map fun entries => ((path ++ [last], entries), rest)
    | _ => none
  | rest =>
    match key? (blanks rest) with
    | some ((path, last), ']' :: rest) =>
      (entries.openTable path last).map fun entries => ((path ++ [last], entries), rest)
    | _ => none

/-- A key with its value, put into the entries of the section. -/
def pair? (place : Section) (entries : Entries) (cs : List Char) : Option (Entries × List Char) :=
  match key? cs with
  | some ((path, last), '=' :: rest) =>
    match value? (cs.length + 1) (blanks rest) with
    | none => none
    | some (setting, rest) =>
      (entries.descend false (·.assign path last setting) place).map fun entries => (entries, rest)
  | _ => none

/-- A header, or a key with its value. -/
def statement? (place : Section) (entries : Entries) (cs : List Char) :
    Option ((Section × Entries) × List Char) :=
  match cs with
  | '[' :: rest => header? entries rest
  | cs => (pair? place entries cs).map fun (entries, rest) => ((place, entries), rest)

/-- All statements to the end, at most `fuel` of them. -/
def statements? : Nat → Section → Entries → List Char → Option Entries
  | fuel, place, entries, cs =>
    match fuel, gap cs with
    | _, [] => some entries
    | 0, _ => none
    | fuel + 1, cs =>
      match statement? place entries cs with
      | none => none
      | some ((place, entries), rest) => (lineEnd? rest).bind (statements? fuel place entries)

end MetadataStore.Toml

namespace MetadataStore

/-- A text without the mark that may stand before it. -/
def Toml.body (toml : String) : List Char :=
  match toml.toList with
  | '\ufeff' :: cs => cs
  | cs => cs

/-- The entries that a TOML text holds, if it is well-formed. -/
def Setting.ofToml? (toml : String) : Option (List (String × Setting)) :=
  (Toml.statements? (Toml.body toml).length [] [] (Toml.body toml)).map Toml.settings

example : (Setting.ofToml? "a.b = 1\n[c]\nd = [true, 'x',] # end").isSome = true := by
  decide +kernel

example : (Setting.ofToml? "[c\n").isSome = false := by decide +kernel

end MetadataStore
