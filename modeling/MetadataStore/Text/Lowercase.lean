import MetadataStore.Text.CaseTable

/-!
# `Text.Lowercase` — lower-casing of texts

Names are compared and search operands are prepared in lower case, for all of Unicode. Two
characters are special: the dotted capital I becomes two characters, and a capital sigma that ends
a word becomes the final form. A second, narrower fold touches the ASCII letters only; it is the one
that the storage engine knows.

## Contents
- `lowerChar`, `lower`: the full lower-case form.
- `endsWord`: whether a sigma between two pieces of text stands at the end of a word.
- `foldAscii`, `foldAsciiText`: the engine's fold.
-/

namespace MetadataStore.Text

namespace CaseRun

/-- Whether a code point is one that the run moves. -/
def covers (run : CaseRun) (n : Nat) : Bool :=
  run.first ≤ n && n ≤ run.last && (n - run.first) % run.step == 0

end CaseRun

/-- The lower-case form of a character that has exactly one, and the character itself otherwise. -/
def lowerChar (c : Char) : Char :=
  let n := c.toNat
  if n < 0x80 then c.toLower
  else match lowerRuns.find? (·.covers n) with
    | some run => Char.ofNat (n + run.shift).toNat
    | none => c

/-- Whether a character lies in one of the given runs. -/
def inRuns (runs : List (Nat × Nat)) (c : Char) : Bool :=
  runs.any fun run => run.1 ≤ c.toNat && c.toNat ≤ run.2

/-- Whether a character is of lower, upper or title case. -/
def isCased (c : Char) : Bool :=
  inRuns casedRuns c

/-- Whether a character is skipped when the case of its neighbours is looked at. -/
def isCaseIgnorable (c : Char) : Bool :=
  inRuns caseIgnorableRuns c

/-- Whether the first character that is not ignorable is cased. -/
def startsCased (cs : List Char) : Bool :=
  match cs.dropWhile isCaseIgnorable with
  | [] => false
  | c :: _ => isCased c

/-- Whether a position ends a word: a cased character comes before it and none comes after. The
characters before it are given nearest first. -/
def endsWord (before after : List Char) : Bool :=
  startsCased before && !startsCased after

/-- The lower-case form of one character, given its surroundings in the text. -/
def lowerAt (before : List Char) (c : Char) (after : List Char) : List Char :=
  if c == 'Σ' then [if endsWord before after then 'ς' else 'σ']
  else if c == 'İ' then ['i', '\u0307']
  else [lowerChar c]

/-- The lower-case form of a text whose characters `before`, nearest first, are already passed. -/
def lowerFrom (before : List Char) : List Char → List Char
  | [] => []
  | c :: cs => lowerAt before c cs ++ lowerFrom (c :: before) cs

/-- The lower-case form of a list of characters. -/
def lowerChars (cs : List Char) : List Char :=
  lowerFrom [] cs

/-- The lower-case form of a text. -/
def lower (s : String) : String :=
  String.ofList (lowerChars s.toList)

/-- The fold of one character that knows the ASCII letters only. -/
def foldAscii (c : Char) : Char :=
  c.toLower

/-- The fold of a text that knows the ASCII letters only. -/
def foldAsciiText (s : String) : String :=
  String.ofList (s.toList.map foldAscii)

/-- Lower-casing never loses characters. -/
theorem length_le_length_lowerFrom (before cs : List Char) :
    cs.length ≤ (lowerFrom before cs).length := by
  induction cs generalizing before with
  | nil => simp
  | cons c cs ih =>
    have h : 1 ≤ (lowerAt before c cs).length := by
      unfold lowerAt
      split <;> (try split) <;> simp
    have := ih (c :: before)
    simp only [lowerFrom, List.length_append, List.length_cons]
    omega

example : lower "ΟΔΟΣ" = "οδος" := by decide +kernel
example : lower "İx" = "i\u0307x" := by decide +kernel

end MetadataStore.Text
