import MetadataStore.Proofs.Query.Assembly
import MetadataStore.Proofs.Query.Lowering

/-!
# `Proofs.Query.Parts` — what another dialect makes of a tree

Whatever the dialect, a tree is taken apart into the same links: comparisons of columns, subqueries, negations
and disjunctions. The dialects differ in how they write a time and in how they put the subqueries of a
conjunction together. So from the condition that a tree makes in one dialect it can be told how the tree is
written in another.

## Contents
- `Condition.parts`, the texts of the links of a condition in any dialect; `Condition.allParts`.
- `Chain.parts_condition`: putting a chain together leaves its parts.
- `Chain.parts_of_ofExpression`, `Condition.pieces_eq_assemble`: how a tree is written in another dialect.
-/

namespace MetadataStore.Query

/-! ## Parts -/

namespace Condition

/-- The texts in a dialect of the parts of a condition: its links but for memberships, and the subqueries of
these. -/
def parts (other : Dialect) : Condition → List (List Piece) × List (List Piece)
  | .column c comparison => ([comparison.pieces other c.text], [])
  | .among subquery => ([], [subquery.pieces other])
  | .amongAll first more => ([], (first :: more).map (Subquery.pieces other))
  | .not inner =>
    ([.code "NOT (" :: Chain.assemble other (inner.parts other).1 (inner.parts other).2 ++ [.code ")"]], [])
  | .or left right =>
    ([.code "(" :: Chain.assemble other (left.parts other).1 (left.parts other).2 ++
      .code " OR " :: Chain.assemble other (right.parts other).1 (right.parts other).2 ++ [.code ")"]], [])
  | .and left right =>
    ((left.parts other).1 ++ (right.parts other).1, (left.parts other).2 ++ (right.parts other).2)
  | .group inner => inner.parts other

/-- The parts of several conditions in a row. -/
def allParts (other : Dialect) (conditions : List Condition) : List (List Piece) × List (List Piece) :=
  (conditions.flatMap fun condition => (condition.parts other).1,
    conditions.flatMap fun condition => (condition.parts other).2)

theorem allParts_singleton (other : Dialect) (condition : Condition) :
    allParts other [condition] = condition.parts other := by
  simp [allParts]

theorem allParts_append (other : Dialect) (xs ys : List Condition) :
    allParts other (xs ++ ys) =
      ((allParts other xs).1 ++ (allParts other ys).1, (allParts other xs).2 ++ (allParts other ys).2) := by
  simp [allParts]

theorem parts_foldl_and (other : Dialect) (first : Condition) (rest : List Condition) :
    (rest.foldl Condition.and first).parts other = allParts other (first :: rest) := by
  induction rest generalizing first with
  | nil => exact (allParts_singleton other first).symm
  | cons next rest ih =>
    rw [List.foldl_cons, ih]
    simp [allParts, parts]

end Condition

/-! ## Chains -/

namespace Chain

open Condition (allParts)

variable {dialect other : Dialect}

theorem parts_amongAll (dialect other : Dialect) (first : Subquery) (rest : List Subquery) :
    (dialect.amongAll first rest).parts other = ([], (first :: rest).map (Subquery.pieces other)) := by
  cases dialect with
  | sqlite => rfl
  | postgresql =>
    have htexts : (rest.flatMap fun subquery => [subquery.pieces other]) = rest.map (Subquery.pieces other) :=
      List.map_eq_flatMap.symm
    rw [amongAll_postgresql, Condition.parts_foldl_and]
    simp [allParts, Condition.parts, List.flatMap_map, htexts]

theorem parts_conjoin (other : Dialect) (tests : List Condition) (h : tests ≠ []) :
    (conjoin tests h).parts other = allParts other tests := by
  cases tests with
  | nil => exact absurd rfl h
  | cons first rest => exact Condition.parts_foldl_and other first rest

theorem allParts_tests (dialect other : Dialect) (chain : Chain) :
    allParts other (chain.tests dialect) = ((allParts other chain.others).1,
      (allParts other chain.others).2 ++ chain.subqueries.map (Subquery.pieces other)) := by
  rw [tests, Condition.allParts_append]
  rcases chain.subqueries with _ | ⟨first, _ | ⟨second, rest⟩⟩
  · simp [allParts]
  · simp [Condition.allParts_singleton, Condition.parts]
  · simp [Condition.allParts_singleton, parts_amongAll]

/-- **Putting a chain together leaves its parts**, whichever dialect it is put together in. -/
theorem parts_condition (dialect other : Dialect) (chain : Chain) :
    (chain.condition dialect).parts other = ((allParts other chain.others).1,
      (allParts other chain.others).2 ++ chain.subqueries.map (Subquery.pieces other)) := by
  unfold condition
  split
  · rename_i single hothers hsubqueries
    simp [hothers, hsubqueries, Condition.allParts_singleton]
  · rename_i subquery hothers hsubqueries
    simp [hothers, hsubqueries, allParts, Condition.parts]
  · rw [Condition.parts, parts_conjoin, allParts_tests]

/-- **A chain has the parts that its tree has in another dialect.** By induction on the tree: negations and
disjunctions are written around what is put together inside them. -/
theorem parts_of_ofExpression {e : Expression} {chain chain' : Chain}
    (h : ofExpression dialect e = .ok chain) (h' : ofExpression other e = .ok chain') :
    allParts other chain.others = (chain'.others.map (Condition.pieces other), []) ∧
      chain.subqueries.map (Subquery.pieces other) = chain'.subqueries.map (Subquery.pieces other) := by
  have hwritten : ∀ {a a' : Chain}, allParts other a.others = (a'.others.map (Condition.pieces other), []) →
      a.subqueries.map (Subquery.pieces other) = a'.subqueries.map (Subquery.pieces other) →
      assemble other ((a.condition dialect).parts other).1 ((a.condition dialect).parts other).2 =
        (a'.condition other).pieces other := by
    intro a a' hothers hqueries
    rw [parts_condition, hothers, hqueries, pieces_condition]
    rfl
  induction e generalizing chain chain' with
  | leaf item =>
    cases item with
    | column c operator operand =>
      obtain ⟨comparison, hcmp, rfl⟩ := ofItem_column_eq_ok.1 h
      obtain ⟨comparison', hcmp', rfl⟩ := ofItem_column_eq_ok.1 h'
      rw [Comparison.ofOperand_dialect dialect other, hcmp'] at hcmp
      cases hcmp
      exact ⟨rfl, rfl⟩
    | element id operator operand adjustable =>
      obtain ⟨comparison, hcmp, rfl⟩ := ofItem_element_eq_ok.1 h
      obtain ⟨comparison', hcmp', rfl⟩ := ofItem_element_eq_ok.1 h'
      rw [Comparison.ofOperand_dialect dialect other, hcmp'] at hcmp
      cases hcmp
      exact ⟨rfl, rfl⟩
  | not inner ih =>
    obtain ⟨a, hinner, rfl⟩ := ofExpression_not_eq_ok.1 h
    obtain ⟨a', hinner', rfl⟩ := ofExpression_not_eq_ok.1 h'
    obtain ⟨hothers, hqueries⟩ := ih hinner hinner'
    simp [ofCondition, Condition.allParts_singleton, Condition.parts, Condition.pieces,
      hwritten hothers hqueries]
  | or left right ihl ihr =>
    obtain ⟨a, hleft, b, hright, rfl⟩ := ofExpression_or_eq_ok.1 h
    obtain ⟨a', hleft', b', hright', rfl⟩ := ofExpression_or_eq_ok.1 h'
    obtain ⟨hothersl, hqueriesl⟩ := ihl hleft hleft'
    obtain ⟨hothersr, hqueriesr⟩ := ihr hright hright'
    simp [ofCondition, Condition.allParts_singleton, Condition.parts, Condition.pieces,
      hwritten hothersl hqueriesl, hwritten hothersr hqueriesr]
  | and left right ihl ihr =>
    obtain ⟨a, hleft, b, hright, rfl⟩ := ofExpression_and_eq_ok.1 h
    obtain ⟨a', hleft', b', hright', rfl⟩ := ofExpression_and_eq_ok.1 h'
    obtain ⟨hothersl, hqueriesl⟩ := ihl hleft hleft'
    obtain ⟨hothersr, hqueriesr⟩ := ihr hright hright'
    simp [append, Condition.allParts_append, hothersl, hqueriesl, hothersr, hqueriesr]

end Chain

/-! ## Conditions -/

/-- **How a tree is written in another dialect** can be told from the condition that it makes in this one. -/
theorem Condition.pieces_eq_assemble {dialect other : Dialect} {e : Expression}
    {condition condition' : Condition} (h : ofExpression dialect e = .ok condition)
    (h' : ofExpression other e = .ok condition') :
    condition'.pieces other =
      Chain.assemble other (condition.parts other).1 (condition.parts other).2 := by
  obtain ⟨-, chain, hchain, rfl⟩ := ofExpression_eq_ok.1 h
  obtain ⟨-, chain', hchain', rfl⟩ := ofExpression_eq_ok.1 h'
  obtain ⟨hothers, hqueries⟩ := Chain.parts_of_ofExpression hchain hchain'
  rw [Chain.parts_condition, hothers, hqueries, Chain.pieces_condition]
  rfl

end MetadataStore.Query
