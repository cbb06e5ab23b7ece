import MetadataStore.Proofs.Action
import MetadataStore.Query.Meaning

/-!
# `Proofs.Query.Lowering` — conditions mean what their trees mean

A tree of constraints is not made into a condition node by node: chains of conjunctions are flattened,
the constraints on attributes among their links are moved behind all others and tested together. The
meaning that survives this is the one of a chain: the conjunction of what its links mean. It does not
say in which order the links stand nor how they are grouped, so appending chains is conjunction, and
either way of testing several subqueries is the test of each of them.

## Contents
- `Condition.allTruth`, the conjunction of several conditions; `Chain.truth`, the meaning of a chain.
- `Subquery.contains_selected`, `contains_selectedByAll`: which units subqueries select.
- `Comparison.ofOperand_dialect`: comparisons do not depend on the dialect.
- `Chain.ofExpression_not_eq_ok` and its siblings: when a tree makes a chain, and which.
- `Chain.truth_condition`, `Chain.truth_of_ofExpression`: a chain keeps its meaning on the way into a
  condition, and has the meaning of its tree.
- `Condition.truth_of_ofExpression`, the two together.
-/

namespace MetadataStore

namespace Truth

@[simp] theorem yes_and (t : Truth) : Truth.yes.and t = t := by
  cases t <;> rfl

@[simp] theorem and_yes (t : Truth) : t.and .yes = t := by
  cases t <;> rfl

theorem and_left_comm (s t u : Truth) : s.and (t.and u) = t.and (s.and u) := by
  rw [← and_assoc, and_comm s t, and_assoc]

end Truth

namespace Query

/-- The conjunction of several conditions, read one by one. -/
def Condition.allTruth (db : Database) (row : UnitRow) : List Condition → Truth
  | [] => .yes
  | condition :: rest => (condition.truth db row).and (allTruth db row rest)

/-- The meaning of a chain: all of its conditions, and membership in what each subquery selects. -/
def Chain.truth (db : Database) (row : UnitRow) (chain : Chain) : Truth :=
  (Condition.allTruth db row chain.others).and
    (.ofBool (chain.subqueries.all fun subquery => (subquery.selected db).contains row.unit))

variable {db : Database} {row : UnitRow} {dialect : Dialect}

/-! ## Conjunctions -/

theorem Condition.allTruth_append (xs ys : List Condition) :
    allTruth db row (xs ++ ys) = (allTruth db row xs).and (allTruth db row ys) := by
  induction xs with
  | nil => rw [List.nil_append, allTruth, Truth.yes_and]
  | cons x xs ih => rw [List.cons_append, allTruth, allTruth, ih, Truth.and_assoc]

theorem Condition.truth_foldl_and (first : Condition) (rest : List Condition) :
    (rest.foldl Condition.and first).truth db row =
      (first.truth db row).and (allTruth db row rest) := by
  induction rest generalizing first with
  | nil => rw [List.foldl_nil, allTruth, Truth.and_yes]
  | cons next rest ih => rw [List.foldl_cons, ih, Condition.truth, allTruth, Truth.and_assoc]

theorem Chain.truth_conjoin (tests : List Condition) (h : tests ≠ []) :
    (conjoin tests h).truth db row = Condition.allTruth db row tests := by
  cases tests with
  | nil => exact absurd rfl h
  | cons first rest => exact Condition.truth_foldl_and first rest

/-! ## Subqueries -/

/-- A subquery selects the units with an element under its attribute that compares as it asks. -/
theorem Subquery.contains_selected (subquery : Subquery) (hrow : row ∈ db.units) :
    (subquery.selected db).contains row.unit =
      (db.mappingsOf row.unit).any fun mapping =>
        mapping.attributeId == subquery.attributeId &&
          (db.elementsIn subquery.table mapping.valueId).any fun element =>
            ((subquery.comparison.asRead db.engine).truth subquery.table.isText element.cell).holds := by
  have hstored : db.hasUnit row.unit = true :=
    List.any_eq_true.2 ⟨row, hrow, by simp⟩
  rw [Bool.eq_iff_iff]
  simp only [List.contains_iff_mem, selected, List.mem_flatMap, List.mem_filter, List.mem_map,
    List.any_eq_true, Database.mappingsOf, Bool.and_eq_true, beq_iff_eq]
  constructor
  · rintro ⟨mapping, ⟨hmem, hid, -⟩, element, hel, hunit⟩
    exact ⟨mapping, ⟨hmem, hunit⟩, hid, element, hel⟩
  · rintro ⟨mapping, ⟨hmem, hunit⟩, hid, element, hel⟩
    -- the join with the table of units drops nothing, as the unit at hand is stored
    exact ⟨mapping, ⟨hmem, hid, hunit ▸ hstored⟩, element, hel, hunit⟩

/-- An intersection contains what every one of its parts contains. -/
theorem contains_selectedByAll (first : Subquery) (rest : List Subquery) (unit : UnitRef) :
    (selectedByAll db first rest).contains unit =
      (first :: rest).all fun subquery => (subquery.selected db).contains unit := by
  -- the units left so far are generalized, as each subquery filters them further
  have hfold : ∀ (rest : List Subquery) (units : List UnitRef),
      (rest.foldl (fun units subquery =>
          units.filter fun unit => (subquery.selected db).contains unit) units).contains unit =
        (units.contains unit &&
          rest.all fun subquery => (subquery.selected db).contains unit) := by
    intro rest
    induction rest with
    | nil => simp
    | cons next rest ih =>
      intro units
      rw [List.foldl_cons, ih, List.all_cons, ← Bool.and_assoc]
      congr 1
      rw [Bool.eq_iff_iff]
      simp only [List.contains_iff_mem, List.mem_filter, Bool.and_eq_true]
  exact hfold rest (first.selected db)

/-- Either dialect tests several subqueries by testing each. -/
theorem Dialect.truth_amongAll (dialect : Dialect) (first : Subquery) (rest : List Subquery) :
    (dialect.amongAll first rest).truth db row =
      .ofBool ((first :: rest).all fun subquery => (subquery.selected db).contains row.unit) := by
  cases dialect with
  | sqlite => rw [Dialect.amongAll, Condition.truth, contains_selectedByAll]
  | postgresql =>
    -- each subquery is one more membership test, and conjunction goes from left to right
    have hfold : ∀ (rest : List Subquery) (test : Condition),
        (rest.foldl (fun test subquery => Condition.and test (.among subquery)) test).truth db row =
          (test.truth db row).and
            (.ofBool (rest.all fun subquery => (subquery.selected db).contains row.unit)) := by
      intro rest
      induction rest with
      | nil =>
        intro test
        exact (Truth.and_yes _).symm
      | cons next rest ih =>
        intro test
        rw [List.foldl_cons, ih, Condition.truth, Condition.truth, Truth.and_assoc, Truth.and_ofBool,
          List.all_cons]
    rw [Dialect.amongAll, hfold, Condition.truth, Truth.and_ofBool, List.all_cons]

/-! ## Chains -/

theorem Comparison.ofOperand_dialect (dialect other : Dialect) (operator : Operator) (operand : Datum)
    (adjustable : Bool) :
    ofOperand dialect operator operand adjustable = ofOperand other operator operand adjustable := by
  cases operand <;> rfl

namespace Chain

variable {chain : Chain}

theorem ofItem_column_eq_ok {column : Column} {operator : Operator} {operand : Datum} :
    ofItem dialect (.column column operator operand) = .ok chain ↔
      ∃ comparison, Comparison.ofOperand dialect operator operand false = .ok comparison ∧
        ofCondition (.column column comparison) = chain :=
  bind_pure_eq_ok

theorem ofItem_element_eq_ok {id : Int} {operator : Operator} {operand : Datum} {adjustable : Bool} :
    ofItem dialect (.element id operator operand adjustable) = .ok chain ↔
      ∃ comparison, Comparison.ofOperand dialect operator operand adjustable = .ok comparison ∧
        ofSubquery ⟨id, operand.kind, comparison⟩ = chain :=
  bind_pure_eq_ok

theorem ofExpression_not_eq_ok {inner : Expression} :
    ofExpression dialect (.not inner) = .ok chain ↔
      ∃ c, ofExpression dialect inner = .ok c ∧ ofCondition (.not (c.condition dialect)) = chain :=
  bind_pure_eq_ok

theorem ofExpression_or_eq_ok {left right : Expression} :
    ofExpression dialect (.or left right) = .ok chain ↔
      ∃ a, ofExpression dialect left = .ok a ∧ ∃ b, ofExpression dialect right = .ok b ∧
        ofCondition (.or (a.condition dialect) (b.condition dialect)) = chain :=
  bind_eq_ok.trans (exists_congr fun _ => and_congr_right fun _ => bind_pure_eq_ok)

theorem ofExpression_and_eq_ok {left right : Expression} :
    ofExpression dialect (.and left right) = .ok chain ↔
      ∃ a, ofExpression dialect left = .ok a ∧ ∃ b, ofExpression dialect right = .ok b ∧
        a.append b = chain :=
  bind_eq_ok.trans (exists_congr fun _ => and_congr_right fun _ => bind_pure_eq_ok)

@[simp] theorem truth_ofCondition (condition : Condition) :
    (ofCondition condition).truth db row = condition.truth db row := by
  simp only [Chain.truth, ofCondition, Condition.allTruth, Truth.and_yes]
  exact Truth.and_yes _

@[simp] theorem truth_ofSubquery (subquery : Subquery) :
    (ofSubquery subquery).truth db row = .ofBool ((subquery.selected db).contains row.unit) := by
  simp [Chain.truth, ofSubquery, Condition.allTruth]

/-- One chain after the other means both. -/
theorem truth_append (a b : Chain) :
    (a.append b).truth db row = (a.truth db row).and (b.truth db row) := by
  simp only [Chain.truth, append, Condition.allTruth_append, List.all_append, ← Truth.and_ofBool]
  -- the conditions of both come before the subqueries of both, so two conjuncts change places
  rw [Truth.and_assoc, Truth.and_assoc, Truth.and_left_comm (Condition.allTruth db row b.others)]

/-- The tests of a chain together mean what the chain means. -/
theorem allTruth_tests (chain : Chain) :
    Condition.allTruth db row (chain.tests dialect) = chain.truth db row := by
  unfold tests Chain.truth
  rw [Condition.allTruth_append]
  congr 1
  split
  · rename_i hsubs
    rw [hsubs]
    rfl
  · rename_i subquery hsubs
    rw [hsubs, Condition.allTruth, Condition.allTruth, Truth.and_yes, Condition.truth]
    simp
  · rename_i first rest _ hsubs
    rw [hsubs, Condition.allTruth, Condition.allTruth, Truth.and_yes, Dialect.truth_amongAll]

/-- **A chain keeps its meaning as a condition**, be it a single link or a group of tests. -/
theorem truth_condition (chain : Chain) :
    (chain.condition dialect).truth db row = chain.truth db row := by
  unfold condition
  split
  · rename_i single hothers hsubs
    simp only [Chain.truth, hothers, hsubs, Condition.allTruth, Truth.and_yes]
    exact (Truth.and_yes _).symm
  · rename_i subquery hothers hsubs
    simp [Chain.truth, hothers, hsubs, Condition.allTruth, Condition.truth]
  · -- a group conjoins the tests
    rw [Condition.truth, truth_conjoin, allTruth_tests]

/-- A single constraint means as a chain what it means on its own. -/
theorem truth_of_ofItem {item : Item} {chain : Chain} (hrow : row ∈ db.units)
    (h : ofItem dialect item = .ok chain) :
    item.truth dialect db row = .ok (chain.truth db row) := by
  cases item with
  | column c operator operand =>
    obtain ⟨comparison, hcmp, rfl⟩ := ofItem_column_eq_ok.1 h
    rw [Item.truth, hcmp, truth_ofCondition, Condition.truth]
    rfl
  | element id operator operand adjustable =>
    obtain ⟨comparison, hcmp, rfl⟩ := ofItem_element_eq_ok.1 h
    rw [Item.truth, hcmp, truth_ofSubquery, Subquery.contains_selected _ hrow]
    rfl

/-- **A chain means what its tree means**, read leaf by leaf. By induction on the tree: negations and
disjunctions are links of their own, and only a conjunction joins chains. -/
theorem truth_of_ofExpression {e : Expression} {chain : Chain} (hrow : row ∈ db.units)
    (h : ofExpression dialect e = .ok chain) :
    e.truth dialect db row = .ok (chain.truth db row) := by
  induction e generalizing chain with
  | leaf item => exact truth_of_ofItem hrow h
  | not inner ih =>
    obtain ⟨c, hinner, rfl⟩ := ofExpression_not_eq_ok.1 h
    rw [Expression.truth, ih hinner, truth_ofCondition, Condition.truth, truth_condition]
    rfl
  | or left right ihl ihr =>
    obtain ⟨a, hleft, b, hright, rfl⟩ := ofExpression_or_eq_ok.1 h
    rw [Expression.truth, ihl hleft, ihr hright, truth_ofCondition, Condition.truth, truth_condition,
      truth_condition]
    rfl
  | and left right ihl ihr =>
    obtain ⟨a, hleft, b, hright, rfl⟩ := ofExpression_and_eq_ok.1 h
    rw [Expression.truth, ihl hleft, ihr hright, truth_append]
    rfl

end Chain

/-! ## Conditions -/

/-- A tree becomes a condition when all its attributes can be searched and its chain can be made. -/
theorem Condition.ofExpression_eq_ok {e : Expression} {condition : Condition} :
    ofExpression dialect e = .ok condition ↔
      checkSearchable e = .ok () ∧
        ∃ chain, Chain.ofExpression dialect e = .ok chain ∧ chain.condition dialect = condition := by
  unfold ofExpression
  rw [bind_eq_ok]
  constructor
  · rintro ⟨u, hcheck, hrest⟩
    obtain ⟨chain, hchain, hmake⟩ := bind_eq_ok.1 hrest
    cases hmake
    exact ⟨hcheck, chain, hchain, rfl⟩
  · rintro ⟨hcheck, chain, hchain, rfl⟩
    exact ⟨(), hcheck, bind_eq_ok.2 ⟨chain, hchain, rfl⟩⟩

/-- **A condition means what its tree means** for every stored unit. -/
theorem Condition.truth_of_ofExpression {e : Expression} {condition : Condition}
    (hrow : row ∈ db.units) (h : ofExpression dialect e = .ok condition) :
    e.truth dialect db row = .ok (condition.truth db row) := by
  obtain ⟨-, chain, hchain, rfl⟩ := ofExpression_eq_ok.1 h
  rw [Chain.truth_of_ofExpression hrow hchain, Chain.truth_condition]

end Query

end MetadataStore
