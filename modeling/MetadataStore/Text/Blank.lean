/-!
# `Text.Blank` — white space

Names, references and operands are trimmed of the twenty-five characters with the Unicode property
`White_Space` before they are looked at.

## Contents
- `isBlank`, the property.
- `trimStart`, `trimEnd`, `trim` on character lists, and `String`'s versions under `Text`.
-/

namespace MetadataStore.Text

/-- Whether a character is white space. -/
def isBlank (c : Char) : Bool :=
  let n := c.toNat
  (9 ≤ n && n ≤ 13) || n == 0x20 || n == 0x85 || n == 0xA0 || n == 0x1680 ||
    (0x2000 ≤ n && n ≤ 0x200A) || n == 0x2028 || n == 0x2029 || n == 0x202F || n == 0x205F ||
    n == 0x3000

/-- The characters from the first one that is not white space. -/
def trimStart (cs : List Char) : List Char :=
  cs.dropWhile isBlank

/-- The characters up to the last one that is not white space. -/
def trimEnd (cs : List Char) : List Char :=
  (cs.reverse.dropWhile isBlank).reverse

/-- A text without white space at its ends. -/
def trim (s : String) : String :=
  String.ofList (trimEnd (trimStart s.toList))

theorem trimStart_cons_blank {c : Char} (cs : List Char) (h : isBlank c = true) :
    trimStart (c :: cs) = trimStart cs := by
  simp [trimStart, h]

theorem trimStart_cons_ink {c : Char} (cs : List Char) (h : isBlank c = false) :
    trimStart (c :: cs) = c :: cs := by
  simp [trimStart, h]

end MetadataStore.Text
