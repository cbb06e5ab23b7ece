import MetadataStore.Proofs.Query.Selection

/-!
# `Proofs.Query.Negation` — what a negation hits

A tree of constraints is true, false or unknown of a unit, and a negation is hit where its tree is false.
What is unknown is hit by neither. Constraints on attributes are never unknown, as they ask whether some
element is there; and of the columns only the name may be missing.

## Contents
- `Comparison.text?_of_truth_unknown`, `Item.truth_unknown`, `Expression.truth_unknown`: what is unknown.
- `Expression.truth_not_not`, `truth_not_and`, `truth_not_or`: the laws of negation.
- `Condition.exists_of_items`: whether a tree makes a condition is a matter of its constraints alone.
- `Statement.run_congr`: conditions that hold of the same units select the same.
-/

namespace MetadataStore

/-! ## What is unknown -/

namespace Truth

theorem ofBool_ne_unknown (b : Bool) : ofBool b ≠ .unknown := by
  cases b <;> nofun

theorem unknown_of_and {s t : Truth} (h : s.and t = .unknown) : s = .unknown ∨ t = .unknown := by
  cases s <;> cases t <;> simp_all [Truth.and]

theorem unknown_of_or {s t : Truth} (h : s.or t = .unknown) : s = .unknown ∨ t = .unknown := by
  cases s <;> cases t <;> simp_all [Truth.or]

theorem unknown_of_not {t : Truth} (h : t.not = .unknown) : t = .unknown := by
  cases t <;> simp_all [Truth.not]

/-- What is not unknown is true, or its negation is. -/
theorem ne_unknown_iff {t : Truth} : t ≠ .unknown ↔ t = .yes ∨ t.not = .yes := by
  cases t <;> simp [Truth.not]

end Truth

namespace Query

/-- A comparison with a literal that is a text or a number is unknown only of a cell without text. -/
theorem text?_of_compareCells_unknown {operator : Operator} {isTextColumn : Bool} {stored literal : Cell}
    {text : String} (hliteral : literal.text? = some text)
    (h : compareCells operator isTextColumn stored literal = .unknown) : stored.text? = none := by
  unfold compareCells at h
  split at h
  · rename_i hnull
    rw [hnull]
    rfl
  · split at h
    · rw [hliteral] at h
      cases hstored : stored.text? with
      | none => rfl
      | some s =>
        rw [hstored] at h
        exact absurd h (Truth.ofBool_ne_unknown _)
    · exact absurd h (Truth.ofBool_ne_unknown _)

theorem text?_of_lowered {stored : Cell} (h : (lowered stored).text? = none) : stored.text? = none := by
  unfold lowered at h
  cases hstored : stored.text? with
  | none => rfl
  | some s =>
    rw [hstored] at h
    cases h

/-- A comparison is unknown only of a cell without text. -/
theorem Comparison.text?_of_truth_unknown {comparison : Comparison} {isTextColumn : Bool} {stored : Cell}
    (h : comparison.truth isTextColumn stored = .unknown) : stored.text? = none := by
  cases comparison with
  | text operator value => exact text?_of_lowered (text?_of_compareCells_unknown rfl h)
  | time operator moment => exact text?_of_compareCells_unknown rfl h
  | within low high =>
    rcases Truth.unknown_of_and h with hlow | hhigh
    · exact text?_of_compareCells_unknown rfl hlow
    · exact text?_of_compareCells_unknown rfl hhigh
  | integer operator number => exact text?_of_compareCells_unknown rfl h
  | double operator number => exact text?_of_compareCells_unknown rfl h
  | flag operator value => exact text?_of_compareCells_unknown rfl h

end Query

/-- Of the columns of a unit only the name may be missing. -/
theorem UnitRow.name_of_text?_cell {row : UnitRow} {column : Column}
    (h : (row.cell column).text? = none) : column = .name ∧ row.name = none := by
  cases column with
  | name =>
    cases hname : row.name with
    | none => exact ⟨rfl, rfl⟩
    | some name =>
      unfold UnitRow.cell at h
      rw [hname] at h
      cases h
  | _ => cases h

/-- **A constraint is unknown only if it is one on the name**, and the unit has none. -/
theorem Item.truth_unknown {dialect : Query.Dialect} {db : Database} {row : UnitRow} {item : Item}
    (h : item.truth dialect db row = .ok .unknown) :
    row.name = none ∧ ∃ operator operand, item = .column .name operator operand := by
  cases item with
  | column c operator operand =>
    obtain ⟨comparison, -, hmake⟩ := bind_eq_ok.1 h
    have htext := Query.Comparison.text?_of_truth_unknown (Except.ok.inj hmake)
    obtain ⟨rfl, hname⟩ := UnitRow.name_of_text?_cell htext
    exact ⟨hname, operator, operand, rfl⟩
  | element id operator operand adjustable =>
    obtain ⟨comparison, -, hmake⟩ := bind_eq_ok.1 h
    exact absurd (Except.ok.inj hmake) (Truth.ofBool_ne_unknown _)

namespace Expression

variable {dialect : Query.Dialect} {db : Database} {row : UnitRow}

/-- **A tree is unknown only if it has a constraint on the name**, and the unit has none. By induction on
the tree: no connective makes something unknown of what is known. -/
theorem truth_unknown {e : Expression} (h : e.truth dialect db row = .ok .unknown) :
    row.name = none ∧ ∃ operator operand, .column .name operator operand ∈ e.items := by
  induction e with
  | leaf item =>
    obtain ⟨hname, operator, operand, rfl⟩ := Item.truth_unknown h
    exact ⟨hname, operator, operand, List.mem_singleton.2 rfl⟩
  | not inner ih =>
    obtain ⟨t, hinner, hmake⟩ := bind_eq_ok.1 h
    have hunknown := Truth.unknown_of_not (Except.ok.inj hmake)
    subst hunknown
    exact ih hinner
  | and left right ihl ihr =>
    obtain ⟨s, hleft, hrest⟩ := bind_eq_ok.1 h
    obtain ⟨t, hright, hmake⟩ := bind_eq_ok.1 hrest
    rcases Truth.unknown_of_and (Except.ok.inj hmake) with rfl | rfl
    · obtain ⟨hname, operator, operand, hmem⟩ := ihl hleft
      exact ⟨hname, operator, operand, List.mem_append_left _ hmem⟩
    · obtain ⟨hname, operator, operand, hmem⟩ := ihr hright
      exact ⟨hname, operator, operand, List.mem_append_right _ hmem⟩
  | or left right ihl ihr =>
    obtain ⟨s, hleft, hrest⟩ := bind_eq_ok.1 h
    obtain ⟨t, hright, hmake⟩ := bind_eq_ok.1 hrest
    rcases Truth.unknown_of_or (Except.ok.inj hmake) with rfl | rfl
    · obtain ⟨hname, operator, operand, hmem⟩ := ihl hleft
      exact ⟨hname, operator, operand, List.mem_append_left _ hmem⟩
    · obtain ⟨hname, operator, operand, hmem⟩ := ihr hright
      exact ⟨hname, operator, operand, List.mem_append_right _ hmem⟩

/-! ## The laws of negation -/

theorem truth_not_not (e : Expression) :
    (Expression.not (.not e)).truth dialect db row = e.truth dialect db row := by
  simp only [truth]
  cases e.truth dialect db row with
  | error fault => rfl
  | ok t => exact congrArg Except.ok t.not_not

theorem truth_not_and (a b : Expression) :
    (Expression.not (.and a b)).truth dialect db row =
      (Expression.or (.not a) (.not b)).truth dialect db row := by
  simp only [truth]
  cases a.truth dialect db row with
  | error fault => rfl
  | ok s =>
    cases b.truth dialect db row with
    | error fault => rfl
    | ok t => exact congrArg Except.ok (s.not_and t)

theorem truth_not_or (a b : Expression) :
    (Expression.not (.or a b)).truth dialect db row =
      (Expression.and (.not a) (.not b)).truth dialect db row := by
  simp only [truth]
  cases a.truth dialect db row with
  | error fault => rfl
  | ok s =>
    cases b.truth dialect db row with
    | error fault => rfl
    | ok t => exact congrArg Except.ok (s.not_or t)

end Expression

/-! ## Conditions and statements -/

namespace Query

variable {dialect : Dialect} {db : Database}

/-- Whether a tree makes a condition is a matter of its constraints alone. -/
theorem Condition.exists_of_items {e e' : Expression} (hitems : e'.items = e.items)
    {condition : Condition} (h : ofExpression dialect e = .ok condition) :
    ∃ condition', ofExpression dialect e' = .ok condition' :=
  exists_ofExpression_of_items dialect hitems h

/-- Conditions that hold of the same units select the same. -/
theorem Statement.run_congr {condition condition' : Condition} {order : SearchOrder} {paging : Paging}
    (h : ∀ row ∈ db.units, condition.truth db row = condition'.truth db row) :
    Statement.run db ⟨some condition, order, paging⟩ = Statement.run db ⟨some condition', order, paging⟩ := by
  have hrows : (db.units.filter fun row => (condition.truth db row).holds) =
      db.units.filter fun row => (condition'.truth db row).holds :=
    List.filter_congr fun row hrow => by rw [h row hrow]
  unfold Statement.run
  simp only [hrows]

end Query

end MetadataStore
