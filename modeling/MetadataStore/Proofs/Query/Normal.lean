import MetadataStore.Proofs.Text.Lowercase
import MetadataStore.Query.Normal

/-!
# `Proofs.Query.Normal` — a normalised operand is settled

Whether an operand is a pattern is asked of the text as it was given, while what is written into a statement
is lowered, with its quotes and asterisks replaced. The two agree all the same: neither lowering nor
replacing makes a wildcard of anything else, and an asterisk becomes another wildcard. So an operand that
is normalised again stays as it is, and so does its operator.

## Contents
- `isWildcard_foldAscii`, `lowerAt_of_isWildcard`, `any_isWildcard_lowerFrom`: wildcards in lowered texts.
- `Query.isWildcard_normalChar`, `Query.isLowered_normalChar`: characters of a normalised operand.
- `Query.normalize_settles`, with a text whose last sigma is lowered by what surrounds it.
-/

namespace MetadataStore

open MetadataStore.Text (foldAscii lowerChars lowerFrom lowerAt IsLowered)
open MetadataStore.Query (isWildcard normalChar normalize settleOperator)

variable {before cs : List Char} {c : Char}

/-! ## Wildcards in lowered texts -/

theorem toNat_of_isWildcard (h : isWildcard c = true) : c.toNat < 0x60 := by
  simp only [isWildcard, Bool.or_eq_true, beq_iff_eq] at h
  rcases h with (rfl | rfl) | rfl
  · decide
  · decide
  · decide

/-- Folding makes no wildcards. -/
theorem isWildcard_foldAscii (c : Char) : isWildcard (foldAscii c) = isWildcard c := by
  by_cases hcapital : 0x41 ≤ c.toNat ∧ c.toNat ≤ 0x5A
  · have hfold : isWildcard (foldAscii c) = false := by
      rw [Bool.eq_false_iff]
      intro hwild
      have hlow := toNat_of_isWildcard hwild
      rw [Text.toNat_foldAscii, if_pos hcapital] at hlow
      omega
    have hsame : isWildcard c = false := by
      rw [Bool.eq_false_iff]
      intro hwild
      simp only [isWildcard, Bool.or_eq_true, beq_iff_eq] at hwild
      rcases hwild with (rfl | rfl) | rfl
      · exact absurd hcapital (by decide)
      · exact absurd hcapital (by decide)
      · exact absurd hcapital (by decide)
    rw [hfold, hsame]
  · rw [Text.foldAscii_of_not_capital hcapital]

theorem lowerAt_of_isWildcard (after : List Char) (h : isWildcard c = true) :
    lowerAt before c after = [foldAscii c] := by
  have hlow := toNat_of_isWildcard h
  exact Text.lowerAt_eq_foldAscii_iff.2 fun hbeyond => absurd hbeyond (by omega)

/-- Lowering makes no wildcards either. -/
theorem isWildcard_of_mem_lowerAt {after : List Char} {x : Char} (hx : x ∈ lowerAt before c after)
    (h : isWildcard c = false) : isWildcard x = false := by
  rw [Bool.eq_false_iff]
  intro hwild
  have hlow := toNat_of_isWildcard hwild
  rw [← Text.eq_of_mem_lowerAt hx (by omega), h] at hwild
  cases hwild

theorem any_isWildcard_lowerAt (before : List Char) (c : Char) (after : List Char) :
    (lowerAt before c after).any isWildcard = isWildcard c := by
  cases hwild : isWildcard c with
  | true =>
    rw [lowerAt_of_isWildcard after hwild, List.any_cons, isWildcard_foldAscii, hwild, Bool.true_or]
  | false =>
    refine List.any_eq_false.2 fun x hx => ?_
    rw [isWildcard_of_mem_lowerAt hx hwild]
    exact Bool.false_ne_true

/-- A text has wildcards when its lower-case form has some. -/
theorem any_isWildcard_lowerFrom (before cs : List Char) :
    (lowerFrom before cs).any isWildcard = cs.any isWildcard := by
  induction cs generalizing before with
  | nil => rfl
  | cons c cs ih =>
    rw [lowerFrom, List.any_append, any_isWildcard_lowerAt, ih, List.any_cons]

namespace Query

variable {dialect : Dialect}

/-! ## Characters of a normalised operand -/

theorem normalChar_of_plain (hquote : c ≠ '\'') (hstar : c ≠ '*') : normalChar dialect c = c := by
  simp [normalChar, hquote, hstar]

/-- A quote becomes no wildcard, and an asterisk becomes one. -/
theorem isWildcard_normalChar (dialect : Dialect) (c : Char) :
    isWildcard (normalChar dialect c) = isWildcard c := by
  by_cases hquote : c = '\''
  · subst hquote
    rfl
  · by_cases hstar : c = '*'
    · subst hstar
      rfl
    · rw [normalChar_of_plain hquote hstar]

/-- What replaces a quote or an asterisk has no case. -/
theorem isLowered_normalChar (dialect : Dialect) (h : IsLowered c) :
    IsLowered (normalChar dialect c) := by
  by_cases hquote : c = '\''
  · subst hquote
    exact ⟨by cases dialect <;> decide, by cases dialect <;> decide⟩
  · by_cases hstar : c = '*'
    · subst hstar
      exact ⟨by cases dialect <;> decide, by cases dialect <;> decide⟩
    · rwa [normalChar_of_plain hquote hstar]

/-- The characters of a normalised operand. -/
def normalChars (dialect : Dialect) (cs : List Char) : List Char :=
  (lowerChars cs).map (normalChar dialect)

theorem isLowered_of_mem_normalChars (h : c ∈ normalChars dialect cs) : IsLowered c := by
  obtain ⟨y, hy, rfl⟩ := List.mem_map.1 h
  obtain ⟨before, x, after, -, hmem⟩ := Text.mem_lowerFrom hy
  exact isLowered_normalChar dialect (Text.isLowered_of_mem_lowerAt hmem)

theorem plain_of_mem_normalChars (h : c ∈ normalChars dialect cs) : c ≠ '\'' ∧ c ≠ '*' := by
  obtain ⟨y, -, rfl⟩ := List.mem_map.1 h
  exact ⟨normalChar_ne_quote dialect y, normalChar_ne_asterisk dialect y⟩

theorem any_isWildcard_normalChars (dialect : Dialect) (cs : List Char) :
    (normalChars dialect cs).any isWildcard = cs.any isWildcard := by
  unfold normalChars lowerChars
  rw [List.any_map, ← any_isWildcard_lowerFrom [] cs]
  exact congrArg (List.any _) (funext (isWildcard_normalChar dialect))

/-- A second normalisation finds nothing to lower, and nothing to replace. -/
theorem normalChars_normalChars (dialect : Dialect) (cs : List Char) :
    normalChars dialect (normalChars dialect cs) = normalChars dialect cs := by
  have hlower : lowerChars (normalChars dialect cs) = normalChars dialect cs :=
    Text.lowerFrom_of_isLowered fun c hc => isLowered_of_mem_normalChars hc
  have hsame : (normalChars dialect cs).map (normalChar dialect) = normalChars dialect cs := by
    refine (List.map_congr_left fun c hc => ?_).trans (List.map_id _)
    obtain ⟨hquote, hstar⟩ := plain_of_mem_normalChars hc
    exact normalChar_of_plain hquote hstar
  exact (congrArg (List.map _) hlower).trans hsame

/-! ## The operator -/

theorem settleOperator_settleOperator (operator : Operator) (isPattern : Bool) :
    settleOperator (settleOperator operator isPattern) isPattern = settleOperator operator isPattern := by
  cases operator <;> cases isPattern <;> rfl

theorem settleOperator_eq_like_iff {operator : Operator} {isPattern : Bool} :
    settleOperator operator isPattern = .like ↔
      (operator = .eq ∨ operator = .like) ∧ isPattern = true := by
  cases operator <;> cases isPattern <;> decide

theorem settleOperator_eq_eq_iff {operator : Operator} {isPattern : Bool} :
    settleOperator operator isPattern = .eq ↔
      (operator = .eq ∨ operator = .like) ∧ isPattern = false := by
  cases operator <;> cases isPattern <;> decide

theorem settleOperator_cases (operator : Operator) (isPattern : Bool) :
    operator = .eq ∨ operator = .like ∨ settleOperator operator isPattern = operator := by
  cases operator <;> cases isPattern <;> decide

theorem any_isWildcard_iff :
    cs.any isWildcard = true ↔ ∃ c ∈ cs, c = '*' ∨ c = '%' ∨ c = '_' := by
  simp [isWildcard, or_assoc]

/-- **Normalising settles operator and operand.** What is normalised stays as it is when it is normalised
again. It holds no quote, no asterisk and no character with another lower-case form. An equality and a
pattern match become a pattern match if the text has wildcards and an equality if it has none, and any
other operator is kept. -/
theorem normalize_settles (dialect : Dialect) (operator : Operator) (text : String) :
    ∃ settled value, normalize dialect operator text = (settled, value) ∧
      normalize dialect settled value = (settled, value) ∧
      (∀ c ∈ value.toList, c ≠ '\'' ∧ c ≠ '*' ∧ lowerChars [c] = [c]) ∧
      (settled = .like ↔ (operator = .eq ∨ operator = .like) ∧
        ∃ c ∈ text.toList, c = '*' ∨ c = '%' ∨ c = '_') ∧
      (settled = .eq ↔ (operator = .eq ∨ operator = .like) ∧
        ¬∃ c ∈ text.toList, c = '*' ∨ c = '%' ∨ c = '_') ∧
      (operator = .eq ∨ operator = .like ∨ settled = operator) := by
  refine ⟨settleOperator operator (text.toList.any isWildcard),
    String.ofList (normalChars dialect text.toList), rfl, ?_, ?_, ?_, ?_, ?_⟩
  · show (settleOperator _ ((String.ofList _).toList.any isWildcard),
      String.ofList (normalChars dialect (String.ofList _).toList)) = _
    rw [String.toList_ofList, any_isWildcard_normalChars, normalChars_normalChars,
      settleOperator_settleOperator]
  · intro c hc
    rw [String.toList_ofList] at hc
    obtain ⟨hquote, hstar⟩ := plain_of_mem_normalChars hc
    refine ⟨hquote, hstar, Text.lowerFrom_of_isLowered fun x hx => ?_⟩
    rw [List.mem_singleton.1 hx]
    exact isLowered_of_mem_normalChars hc
  · rw [settleOperator_eq_like_iff, any_isWildcard_iff]
  · rw [settleOperator_eq_eq_iff, ← any_isWildcard_iff, Bool.not_eq_true]
  · exact settleOperator_cases operator _

/-- The sigma that ended a word keeps its form though an asterisk no longer follows it, and the dotted
capital became two characters. -/
example :
    normalize .postgresql .eq "ΟΔΟΣ*'İ" = (.like, "οδος% i\u0307") ∧
      normalize .postgresql .like "οδος% i\u0307" = (.like, "οδος% i\u0307") := by
  decide +kernel

end Query

end MetadataStore
