import MetadataStore.Number.Layout
import MetadataStore.Proofs.Text.Digits

/-!
# `Proofs.Number.Layout` — what numbers are written with

Every layout writes a number with digits and a handful of signs. The layout of literals always writes one
of the signs that integers do not have, so that no double is taken for an integer.

## Contents
- `Layout.IsForeign`, what no number is written with; `Layout.not_mem_text`.
- `Layout.mem_text_literal`, `Layout.integer_ne_text`: doubles are no integers.
-/

namespace MetadataStore.Number

namespace Layout

variable {layout : Layout}

/-- A character that is neither a digit nor a sign of numbers. -/
def IsForeign (c : Char) : Prop :=
  Text.asciiDigit? c = none ∧ c ∉ "+-.eNa".toList

instance : DecidablePred IsForeign := fun c =>
  inferInstanceAs (Decidable (Text.asciiDigit? c = none ∧ c ∉ "+-.eNa".toList))

variable {c : Char}

theorem IsForeign.ne_zero (h : IsForeign c) : c ≠ '0' := by
  rintro rfl
  exact absurd h (by decide)

theorem IsForeign.ne_sign (h : IsForeign c) : c ≠ '+' ∧ c ≠ '-' ∧ c ≠ '.' ∧ c ≠ 'e' := by
  refine ⟨?_, ?_, ?_, ?_⟩ <;>
  · rintro rfl
    exact absurd h (by decide)

theorem not_mem_positionalText (h : IsForeign c) (keepsPoint : Bool) (d : Decimal) :
    c ∉ positionalText keepsPoint d := by
  obtain ⟨-, -, hpoint, -⟩ := h.ne_sign
  have hzero := h.ne_zero
  have hdigits : c ∉ d.digits := Text.not_mem_digits h.1
  have htake : ∀ n, c ∉ d.digits.take n := fun n h => hdigits (List.mem_of_mem_take h)
  have hdrop : ∀ n, c ∉ d.digits.drop n := fun n h => hdigits (List.mem_of_mem_drop h)
  unfold positionalText
  by_cases hwhole : 0 ≤ d.exponent
  · cases keepsPoint <;> simp [hwhole, hdigits, hzero, hpoint]
  · by_cases hinner : (-d.exponent).toNat < d.digits.length
    · simp [hwhole, hinner, htake, hdrop, hpoint]
    · simp [hwhole, hinner, hdigits, hzero, hpoint]

theorem not_mem_exponentText (h : IsForeign c) (full : Bool) (d : Decimal) :
    c ∉ exponentText full d := by
  obtain ⟨hplus, hminus, hpoint, he⟩ := h.ne_sign
  have hzero := h.ne_zero
  have hdigits : c ∉ d.digits := Text.not_mem_digits h.1
  have htake : c ∉ d.digits.take 1 := fun h => hdigits (List.mem_of_mem_take h)
  have htail : c ∉ d.digits.tail := fun h => hdigits (List.mem_of_mem_tail h)
  have hexponent : ∀ n, c ∉ Text.digits n := fun n => Text.not_mem_digits h.1
  have hpadded : ∀ n, c ∉ Text.padded 2 n := fun n => Text.not_mem_padded h.1
  unfold exponentText
  by_cases hsingle : d.digits.tail.isEmpty <;> by_cases hsign : d.leading < 0 <;> cases full <;>
    simp [hsingle, hsign, htake, htail, hexponent, hpadded, hplus, hminus, hpoint, he, hzero]

/-- A number is written with digits and signs alone, as long as infinity is. -/
theorem not_mem_text (h : IsForeign c) (hinfinity : c ∉ layout.infinity.toList) (x : Binary64) :
    c ∉ (layout.text x).toList := by
  obtain ⟨-, hminus, hpoint, -⟩ := h.ne_sign
  have hzero := h.ne_zero
  have hmagnitude : c ∉ layout.magnitudeText x := by
    unfold magnitudeText
    split
    · cases layout.keepsPoint <;> simp [hzero, hpoint]
    · dsimp only
      split
      · exact not_mem_positionalText h _ _
      · split
        · exact not_mem_positionalText h _ _
        · exact not_mem_exponentText h _ _
  unfold text
  split
  · intro hmem
    simp only [String.reduceToList, List.mem_cons, List.not_mem_nil, or_false] at hmem
    rcases hmem with rfl | rfl | rfl
    · exact absurd h (by decide)
    · exact absurd h (by decide)
    · exact absurd h (by decide)
  · by_cases hsign : x.isNegative <;> by_cases hinfinite : x.isInfinite <;>
      simp [hsign, hinfinite, hinfinity, hmagnitude, hminus]

/-! ## Doubles are no integers -/

theorem point_mem_positionalText (d : Decimal) : '.' ∈ positionalText true d := by
  unfold positionalText
  by_cases hwhole : 0 ≤ d.exponent
  · simp [hwhole]
  · by_cases hinner : (-d.exponent).toNat < d.digits.length
    · simp [hwhole, hinner]
    · simp [hwhole, hinner]

theorem e_mem_exponentText (full : Bool) (d : Decimal) : 'e' ∈ exponentText full d := by
  simp [exponentText]

/-- A layout that keeps the point writes it, or else an exponent. -/
theorem mem_magnitudeText (hpoint : layout.keepsPoint = true) (x : Binary64) :
    '.' ∈ layout.magnitudeText x ∨ 'e' ∈ layout.magnitudeText x := by
  unfold magnitudeText
  rw [hpoint]
  split
  · simp
  · dsimp only
    split
    · exact Or.inl (point_mem_positionalText _)
    · split
      · exact Or.inl (point_mem_positionalText _)
      · exact Or.inr (e_mem_exponentText _ _)

/-- A finite double has a point or an exponent. -/
theorem mem_text_literal {x : Binary64} (h : x.isFinite = true) :
    '.' ∈ (literal.text x).toList ∨ 'e' ∈ (literal.text x).toList := by
  have hnumber : x.isNaN = false ∧ x.isInfinite = false := by
    unfold Binary64.isFinite at h
    rw [decide_eq_true_eq] at h
    simp only [Binary64.isNaN, Binary64.isInfinite, decide_eq_false_iff_not, beq_eq_false_iff_ne]
    omega
  unfold text
  simp only [hnumber.1, hnumber.2, Bool.false_eq_true, if_false, String.toList_ofList, List.mem_append]
  have hmark := mem_magnitudeText (show literal.keepsPoint = true from rfl) x
  rcases hmark with hpoint | he
  · exact Or.inl (Or.inr hpoint)
  · exact Or.inr (Or.inr he)

/-- An integer has neither. -/
theorem integer_ne_text (i : Int) {x : Binary64} (h : x.isFinite = true) :
    Text.integer i ≠ literal.text x := by
  intro hsame
  have hmark := mem_text_literal h
  rw [← hsame] at hmark
  rcases hmark with hpoint | he
  · exact Text.not_mem_integer (by decide) (by decide) hpoint
  · exact Text.not_mem_integer (by decide) (by decide) he

end Layout

end MetadataStore.Number
