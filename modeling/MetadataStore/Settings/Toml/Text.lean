/-!
# `Settings.Toml.Text` — characters and quoted texts

Everything is read from the front of a list of characters and gives what was read with the rest.

## Contents
- `Reader`, `Toml.blanks`, `lineEnd?`, `gap`: blanks, ends of lines, comments.
- `escaped?`, `basicText?`, `literalText?`, `longBasicText?`, `longLiteralText?`, `quoted?`.
- `keyPart?`, `key?`: keys with their parts.
-/

namespace MetadataStore.Toml

/-- What was read, and the rest; none if it is not there or not well-formed. -/
abbrev Reader (α : Type) := List Char → Option (α × List Char)

/-! ## Blanks and lines -/

/-- Spaces and tabs are blanks. -/
def isBlankChar (c : Char) : Bool :=
  c == ' ' || c == '\t'

/-- Control characters other than the tab stand nowhere within a line. -/
def isPrintable (c : Char) : Bool :=
  c == '\t' || (' ' ≤ c && c != '\x7f')

/-- What follows the blanks at the front. -/
def blanks (cs : List Char) : List Char :=
  cs.dropWhile isBlankChar

/-- What follows the blanks and the comment at the front. -/
def comment (cs : List Char) : List Char :=
  match blanks cs with
  | '#' :: rest => rest.dropWhile isPrintable
  | rest => rest

/-- What follows the end of a line, if the line ends here. -/
def newline? : List Char → Option (List Char)
  | '\n' :: rest => some rest
  | '\r' :: '\n' :: rest => some rest
  | _ => none

/-- What follows the line, if nothing but blanks and a comment is left of it. -/
def lineEnd? (cs : List Char) : Option (List Char) :=
  match comment cs with
  | [] => some []
  | rest => newline? rest

/-- What follows all blanks, comments and ends of lines at the front, at most `fuel` of the latter. -/
def gapFrom : Nat → List Char → List Char
  | 0, cs => comment cs
  | fuel + 1, cs =>
    match newline? (comment cs) with
    | some rest => gapFrom fuel rest
    | none => comment cs

/-- What follows all blanks, comments and ends of lines at the front. -/
def gap (cs : List Char) : List Char :=
  gapFrom cs.length cs

/-! ## Quoted texts -/

/-- The worth of a hexadecimal digit. -/
def hexDigit? (c : Char) : Option Nat :=
  if '0' ≤ c && c ≤ '9' then some (c.toNat - '0'.toNat)
  else if 'a' ≤ c && c ≤ 'f' then some (c.toNat - 'a'.toNat + 10)
  else if 'A' ≤ c && c ≤ 'F' then some (c.toNat - 'A'.toNat + 10)
  else none

/-- The number that digits of a base denote; there must be at least one. -/
def number? (digit? : Char → Option Nat) (base : Nat) (cs : List Char) : Option Nat :=
  if cs.isEmpty then none
  else cs.foldlM (fun n c => (digit? c).map fun d => base * n + d) 0

/-- The character of a code point in hexadecimal, of which there must be `width` digits. -/
def codePoint? (width : Nat) (cs : List Char) : Option (Char × List Char) := do
  let digits := cs.take width
  if digits.length < width then none
  else
    let n ← number? hexDigit? 16 digits
    if n.isValidChar then pure (Char.ofNat n, cs.drop width) else none

/-- The character that an escape denotes, read after its backslash. -/
def escaped? : Reader Char
  | 'b' :: rest => some ('\x08', rest)
  | 't' :: rest => some ('\t', rest)
  | 'n' :: rest => some ('\n', rest)
  | 'f' :: rest => some ('\x0c', rest)
  | 'r' :: rest => some ('\r', rest)
  | '"' :: rest => some ('"', rest)
  | '\\' :: rest => some ('\\', rest)
  | 'u' :: rest => codePoint? 4 rest
  | 'U' :: rest => codePoint? 8 rest
  | _ => none

/-- One more character in front of what was read. -/
def after (c : Char) (read : Option (List Char × List Char)) : Option (List Char × List Char) :=
  read.map fun (text, rest) => (c :: text, rest)

/-- A text with escapes up to its closing quote, of at most `fuel` characters. -/
def basicText? : Nat → Reader (List Char)
  | 0, _ => none
  | fuel + 1, '\\' :: cs => do
    let (c, rest) ← escaped? cs
    after c (basicText? fuel rest)
  | fuel + 1, c :: cs =>
    if c == '"' then some ([], cs)
    else if isPrintable c then after c (basicText? fuel cs)
    else none
  | _ + 1, [] => none

/-- A text without escapes up to its closing quote. -/
def literalText? : Reader (List Char)
  | [] => none
  | c :: cs =>
    if c == '\'' then some ([], cs)
    else if isPrintable c then after c (literalText? cs)
    else none

/-- How a text over several lines ends: by three quotes, before which there may be two of its own. -/
def longEnd? (quote : Char) (cs : List Char) : Option (List Char × List Char) :=
  let quotes := (cs.takeWhile (· == quote)).length
  if 3 ≤ quotes && quotes ≤ 5 then some (List.replicate (quotes - 3) quote, cs.drop quotes) else none

/-- What follows a backslash that ends its line: all blanks and ends of lines are skipped. -/
def foldedLine? (cs : List Char) : Option (List Char) :=
  match newline? (blanks cs) with
  | some rest => some (rest.dropWhile fun c => isBlankChar c || c == '\n' || c == '\r')
  | none => none

/-- A text with escapes over several lines, up to its closing quotes. -/
def longBasicText? : Nat → Reader (List Char)
  | 0, _ => none
  | fuel + 1, cs =>
    match longEnd? '"' cs, newline? cs, cs with
    | some found, _, _ => some found
    | _, some rest, _ => after '\n' (longBasicText? fuel rest)
    | _, _, '\\' :: rest =>
      match foldedLine? rest with
      | some rest => longBasicText? fuel rest
      | none => do
        let (c, rest) ← escaped? rest
        after c (longBasicText? fuel rest)
    | _, _, c :: rest => if isPrintable c then after c (longBasicText? fuel rest) else none
    | _, _, [] => none

/-- A text without escapes over several lines, up to its closing quotes. -/
def longLiteralText? : Nat → Reader (List Char)
  | 0, _ => none
  | fuel + 1, cs =>
    match longEnd? '\'' cs, newline? cs, cs with
    | some found, _, _ => some found
    | _, some rest, _ => after '\n' (longLiteralText? fuel rest)
    | _, _, c :: rest => if isPrintable c then after c (longLiteralText? fuel rest) else none
    | _, _, [] => none

/-- A text over several lines begins after the end of the line of its opening quotes. -/
def firstLine (cs : List Char) : List Char :=
  (newline? cs).getD cs

/-- A quoted text on one line. -/
def shortQuoted? : Reader String
  | '"' :: rest => (basicText? (rest.length + 1) rest).map fun (text, rest) => (String.ofList text, rest)
  | '\'' :: rest => (literalText? rest).map fun (text, rest) => (String.ofList text, rest)
  | _ => none

/-- A quoted text. -/
def quoted? : Reader String
  | '"' :: '"' :: '"' :: rest =>
    (longBasicText? (rest.length + 1) (firstLine rest)).map fun (text, rest) =>
      (String.ofList text, rest)
  | '\'' :: '\'' :: '\'' :: rest =>
    (longLiteralText? (rest.length + 1) (firstLine rest)).map fun (text, rest) =>
      (String.ofList text, rest)
  | cs => shortQuoted? cs

/-! ## Keys -/

/-- Whether a character may stand in a key without quotes. -/
def isBare (c : Char) : Bool :=
  c.isAlphanum || c == '_' || c == '-'

/-- One part of a key. -/
def keyPart? (cs : List Char) : Option (String × List Char) :=
  match cs.takeWhile isBare with
  | [] => shortQuoted? cs
  | bare => some (String.ofList bare, cs.dropWhile isBare)

/-- A key: its parts but for the last, and the last. At most `fuel` parts are read. -/
def keyFrom : Nat → Reader (List String × String)
  | 0, _ => none
  | fuel + 1, cs => do
    let (part, rest) ← keyPart? cs
    match blanks rest with
    | '.' :: more => do
      let ((path, last), rest) ← keyFrom fuel (blanks more)
      pure ((part :: path, last), rest)
    | rest => pure (([], part), rest)

/-- A key, with the blanks after it. -/
def key? (cs : List Char) : Option ((List String × String) × List Char) :=
  keyFrom (cs.length + 1) cs

end MetadataStore.Toml
