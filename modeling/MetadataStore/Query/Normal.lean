import MetadataStore.Query.Dialect

/-!
# `Query.Normal` — normalised text operands

Texts are compared in lower case. A quote in an operand becomes a blank, so that the operand stays
between its quotes, and an asterisk becomes the dialect's wildcard. An equality with an operand that
holds a wildcard is a pattern match, and a pattern match without any is an equality.

## Contents
- `isWildcard`, `normalChar`, `normalize`.
-/

namespace MetadataStore.Query

/-- Whether a character makes an operand a pattern. -/
def isWildcard (c : Char) : Bool :=
  c == '*' || c == '%' || c == '_'

/-- A character of a lowered operand as it stands in a statement. -/
def normalChar (dialect : Dialect) (c : Char) : Char :=
  if c == '\'' then ' '
  else if c == '*' then dialect.wildcard
  else c

/-- The operator that goes with an operand. -/
def settleOperator (operator : Operator) (isPattern : Bool) : Operator :=
  match operator with
  | .eq => if isPattern then .like else .eq
  | .like => if isPattern then .like else .eq
  | other => other

/-- Operator and operand as they stand in a statement. -/
def normalize (dialect : Dialect) (operator : Operator) (text : String) : Operator × String :=
  (settleOperator operator (text.toList.any isWildcard),
    String.ofList ((Text.lowerChars text.toList).map (normalChar dialect)))

theorem normalChar_ne_quote (dialect : Dialect) (c : Char) : normalChar dialect c ≠ '\'' := by
  unfold normalChar
  split
  · decide
  · split
    · cases dialect <;> decide
    · rename_i h _
      simpa using h

theorem normalChar_ne_asterisk (dialect : Dialect) (c : Char) : normalChar dialect c ≠ '*' := by
  unfold normalChar
  split
  · decide
  · split
    · cases dialect <;> decide
    · rename_i _ h
      simpa using h

/-- No quote is left in a normalised operand. -/
theorem quote_not_mem_normalize (dialect : Dialect) (operator : Operator) (text : String) :
    '\'' ∉ (normalize dialect operator text).2.toList := by
  simp only [normalize, String.toList_ofList, List.mem_map, not_exists, not_and]
  exact fun c _ => normalChar_ne_quote dialect c

end MetadataStore.Query
