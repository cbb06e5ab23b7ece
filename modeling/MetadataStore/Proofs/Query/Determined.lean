import MetadataStore.Proofs.Query.Negation
import MetadataStore.Proofs.Query.Quoting
import MetadataStore.Proofs.Query.Reading

/-!
# `Proofs.Query.Determined` — the text of a search determines what it selects

The engine sees the text of a search and not its tree. No two trees of different meaning have the same text:
what a tree makes is one of the conditions that are read off their text, and around a condition stands only
what the order and the page say. Constraints are taken as they are, whether a constructor has checked them
or not; all that is asked is that their operands have literals. Doubles that these do not tell apart are read
as one. Trees with the same text in one dialect have the same in the other as well.

## Contents
- `Chain.Proper`, `Chain.proper_ofExpression`: what trees make.
- `Condition.same_of_chars`, `pieces_eq_of_same`: what the text of a tree tells.
- `compile_determines_search`: trees with one text make one search.
-/

namespace MetadataStore

namespace Query

variable {dialect : Dialect}

/-! ## What trees are made of -/

/-- A comparison with an operand has a literal for it, and is one with a span only if it may be adjusted. -/
theorem Comparison.proper_ofOperand {o : Operator} {operand : Datum} {adjustable : Bool}
    {comparison : Comparison} (h : ofOperand dialect o operand adjustable = .ok comparison) :
    comparison.Proper ∧ (adjustable = false → ¬comparison.IsSpan) := by
  unfold ofOperand at h
  cases operand with
  | string s =>
    cases h
    exact ⟨quoteless_normalize dialect o s, fun _ => id⟩
  | time moment =>
    dsimp only at h
    split at h
    · rename_i hadjust _
      cases h
      refine ⟨trivial, fun hexact => ?_⟩
      rw [hexact] at hadjust
      cases hadjust
    · cases h
      exact ⟨trivial, fun _ => id⟩
  | integer number | long number =>
    cases h
    exact ⟨trivial, fun _ => id⟩
  | double number =>
    dsimp only at h
    split at h
    · rename_i hfinite
      cases h
      exact ⟨hfinite, fun _ => id⟩
    · cases h
  | boolean value =>
    cases h
    exact ⟨trivial, fun _ => id⟩
  | data bytes => cases h

namespace Chain

/-- Chains of links that trees make. -/
structure Proper (chain : Chain) : Prop where
  others : ∀ condition ∈ chain.others, condition.Proper ∧ condition.IsLink
  subqueries : ∀ subquery ∈ chain.subqueries, subquery.comparison.Proper

variable {chain : Chain}

theorem proper_ofCondition {condition : Condition} (h : condition.Proper)
    (hlink : condition.IsLink) : (ofCondition condition).Proper :=
  ⟨List.forall_mem_singleton.2 ⟨h, hlink⟩, fun _ hmem => absurd hmem List.not_mem_nil⟩

theorem Proper.append {a b : Chain} (ha : a.Proper) (hb : b.Proper) :
    (a.append b).Proper :=
  ⟨List.forall_mem_append.2 ⟨ha.others, hb.others⟩, List.forall_mem_append.2 ⟨ha.subqueries, hb.subqueries⟩⟩

theorem proper_foldl_and {first : Condition} {more : List Condition} (hfirst : first.Proper)
    (hmore : ∀ condition ∈ more, condition.Proper) :
    (more.foldl Condition.and first).Proper := by
  induction more generalizing first with
  | nil => exact hfirst
  | cons next more ih =>
    rw [List.forall_mem_cons] at hmore
    exact ih (.and hfirst hmore.1) hmore.2

theorem proper_conjoin {tests : List Condition} (hne : tests ≠ [])
    (h : ∀ test ∈ tests, test.Proper) : (conjoin tests hne).Proper := by
  cases tests with
  | nil => exact absurd rfl hne
  | cons first more =>
    rw [List.forall_mem_cons] at h
    exact proper_foldl_and h.1 h.2

theorem proper_amongAll (dialect : Dialect) {first : Subquery} {more : List Subquery}
    (h : ∀ subquery ∈ first :: more, subquery.comparison.Proper) :
    (dialect.amongAll first more).Proper := by
  cases dialect with
  | sqlite => exact .amongAll h
  | postgresql =>
    rw [List.forall_mem_cons] at h
    rw [amongAll_postgresql]
    refine proper_foldl_and (.among h.1) (List.forall_mem_map.2 fun subquery hmem => ?_)
    exact .among (h.2 subquery hmem)

theorem Proper.tests (h : chain.Proper) (dialect : Dialect) :
    ∀ test ∈ chain.tests dialect, test.Proper := by
  refine List.forall_mem_append.2 ⟨fun condition hmem => (h.others condition hmem).1, ?_⟩
  have hsubqueries := h.subqueries
  split
  · exact fun _ hmem => absurd hmem List.not_mem_nil
  · rename_i subquery hone
    rw [hone] at hsubqueries
    exact List.forall_mem_singleton.2 (.among (hsubqueries subquery List.mem_cons_self))
  · rename_i first more _ hseveral
    rw [hseveral] at hsubqueries
    exact List.forall_mem_singleton.2 (proper_amongAll dialect hsubqueries)

/-- What a chain makes is no bare conjunction: a single link is none, and several are grouped. -/
theorem Proper.condition (h : chain.Proper) (dialect : Dialect) :
    (chain.condition dialect).Proper ∧ (chain.condition dialect).IsLink := by
  unfold Chain.condition
  have hothers := h.others
  have hsubqueries := h.subqueries
  split
  · rename_i single hsingle _
    rw [hsingle] at hothers
    exact hothers single List.mem_cons_self
  · rename_i subquery _ hsingle
    rw [hsingle] at hsubqueries
    exact ⟨.among (hsubqueries subquery List.mem_cons_self), trivial⟩
  · exact ⟨.group (proper_conjoin _ (h.tests dialect)), trivial⟩

theorem proper_ofItem {item : Item} (h : ofItem dialect item = .ok chain) : chain.Proper := by
  cases item with
  | column c o operand =>
    obtain ⟨comparison, hcomparison, rfl⟩ := ofItem_column_eq_ok.1 h
    obtain ⟨hproper, hspan⟩ := Comparison.proper_ofOperand hcomparison
    exact proper_ofCondition (.column hproper (hspan rfl)) trivial
  | element id o operand adjustable =>
    obtain ⟨comparison, hcomparison, rfl⟩ := ofItem_element_eq_ok.1 h
    exact ⟨fun _ hmem => absurd hmem List.not_mem_nil,
      List.forall_mem_singleton.2 (Comparison.proper_ofOperand hcomparison).1⟩

/-- **Trees make proper chains.** By induction on the tree: only a conjunction joins chains, and what it
joins is put in parentheses before anything else is made of it. -/
theorem proper_ofExpression {e : Expression} (h : ofExpression dialect e = .ok chain) : chain.Proper := by
  induction e generalizing chain with
  | leaf item => exact proper_ofItem h
  | not inner ih =>
    obtain ⟨c, hinner, rfl⟩ := ofExpression_not_eq_ok.1 h
    obtain ⟨hproper, hlink⟩ := (ih hinner).condition dialect
    exact proper_ofCondition (.not hlink hproper) trivial
  | or left right ihl ihr =>
    obtain ⟨a, hleft, b, hright, rfl⟩ := ofExpression_or_eq_ok.1 h
    obtain ⟨hproperl, hlinkl⟩ := (ihl hleft).condition dialect
    obtain ⟨hproperr, hlinkr⟩ := (ihr hright).condition dialect
    exact proper_ofCondition (.or hlinkl hlinkr hproperl hproperr) trivial
  | and left right ihl ihr =>
    obtain ⟨a, hleft, b, hright, rfl⟩ := ofExpression_and_eq_ok.1 h
    exact (ihl hleft).append (ihr hright)

end Chain

/-! ## Statements and searches -/

theorem Condition.proper_ofExpression {e : Expression} {condition : Condition}
    (h : ofExpression dialect e = .ok condition) : condition.Proper ∧ condition.IsLink := by
  obtain ⟨-, chain, hchain, rfl⟩ := ofExpression_eq_ok.1 h
  exact (Chain.proper_ofExpression hchain).condition dialect

/-- What stands around the condition of a statement depends on the order and the page alone. -/
theorem Statement.chars_condition_eq {condition condition' : Condition} {order : SearchOrder}
    {paging : Paging}
    (h : Piece.text (Statement.pieces dialect ⟨some condition, order, paging⟩) =
      Piece.text (Statement.pieces dialect ⟨some condition', order, paging⟩)) :
    Piece.chars (condition.pieces dialect) = Piece.chars (condition'.pieces dialect) := by
  have hchars := congrArg String.toList h
  change Piece.chars _ = Piece.chars _ at hchars
  simp only [pieces, Piece.chars_code, Piece.chars_append, List.append_cancel_left_eq,
    List.append_cancel_right_eq, List.cons_append] at hchars
  exact hchars

/-- **Conditions that trees make are the same if they have the same text.** -/
theorem Condition.same_of_chars {e e' : Expression} {condition condition' : Condition}
    (h : ofExpression dialect e = .ok condition) (h' : ofExpression dialect e' = .ok condition')
    (hchars : Piece.chars (condition.pieces dialect) = Piece.chars (condition'.pieces dialect)) :
    condition.Same condition' := by
  obtain ⟨hproper, hlink⟩ := proper_ofExpression h
  obtain ⟨hproper', hlink'⟩ := proper_ofExpression h'
  have hlegible : condition.Legible dialect := legible_of_links hlink hproper.legible
  exact (hlegible condition' hproper' hlink' [] [] stops_nil stops_nil (by rw [hchars])).1

theorem exists_condition_of_ofSearch {e : Expression} {order : SearchOrder} {paging : Paging}
    {statement : Statement} (h : Statement.ofSearch dialect ⟨some e, order, paging⟩ = .ok statement) :
    ∃ condition, Condition.ofExpression dialect e = .ok condition ∧
      statement = ⟨some condition, order, paging⟩ := by
  unfold Statement.ofSearch at h
  dsimp only at h
  split at h
  · rename_i condition hcondition
    cases h
    exact ⟨condition, hcondition, rfl⟩
  · cases h

/-- Trees that make the same conditions have the same text in every other dialect. -/
theorem pieces_eq_of_same {other : Dialect} {e e' : Expression} {condition condition' made made' : Condition}
    (hsame : condition.Same condition') (h : Condition.ofExpression dialect e = .ok condition)
    (h' : Condition.ofExpression dialect e' = .ok condition')
    (hmade : Condition.ofExpression other e = .ok made) (hmade' : Condition.ofExpression other e' = .ok made') :
    made.pieces other = made'.pieces other := by
  rw [Condition.pieces_eq_assemble h hmade, Condition.pieces_eq_assemble h' hmade', hsame.parts]

/-- Searches with the same text whose statements select the same from the database are one. -/
theorem search_congr {r : Repository} {search search' : Search} {statement statement' : Statement}
    (hstatement : Statement.ofSearch .sqlite search = .ok statement)
    (hstatement' : Statement.ofSearch .sqlite search' = .ok statement')
    (htext : Piece.text (statement.pieces .sqlite) = Piece.text (statement'.pieces .sqlite))
    (hrun : statement.run r.database = statement'.run r.database) :
    Repository.search search r = Repository.search search' r := by
  have hboth : ¬search.NullFree ↔ ¬search'.NullFree := by
    rw [← Statement.null_mem_text hstatement, ← Statement.null_mem_text hstatement', htext]
  have hmatching : Repository.matching search r = Repository.matching search' r := by
    by_cases hnull : search.NullFree
    · have hnull' : search'.NullFree := Classical.not_not.1 fun h => hboth.2 h hnull
      rw [Repository.matching_of_nullFree hstatement hnull, Repository.matching_of_nullFree hstatement' hnull',
        Repository.read_apply, Repository.read_apply, hrun]
    · rw [Repository.matching_of_null hstatement hnull, Repository.matching_of_null hstatement' (hboth.1 hnull),
        htext]
  unfold Repository.search
  rw [Action.bind_apply, Action.bind_apply, hmatching]

/-- **The text of a search determines what it selects.** Two trees that compile to one text, in either
dialect and with the same order and page, have the same truth value of every stored unit of every database,
each leaf read in three values; their statements select the same units from every database, and on every
repository they are the same search. -/
theorem compile_determines_search {e e' : Expression} {order : SearchOrder} {paging : Paging} {text : String}
    (h : compile dialect ⟨some e, order, paging⟩ = .ok text)
    (h' : compile dialect ⟨some e', order, paging⟩ = .ok text) :
    (∀ db : Database, ∀ row ∈ db.units, ∃ t,
        e.truth dialect db row = .ok t ∧ e'.truth dialect db row = .ok t) ∧
      (∃ statement statement', Statement.ofSearch dialect ⟨some e, order, paging⟩ = .ok statement ∧
        Statement.ofSearch dialect ⟨some e', order, paging⟩ = .ok statement' ∧
        ∀ db, statement.run db = statement'.run db) ∧
      ∀ r, Repository.search ⟨some e, order, paging⟩ r = Repository.search ⟨some e', order, paging⟩ r := by
  obtain ⟨statement, hstatement, rfl⟩ := compile_eq_ok.1 h
  obtain ⟨statement', hstatement', htext⟩ := compile_eq_ok.1 h'
  obtain ⟨condition, hcondition, rfl⟩ := exists_condition_of_ofSearch hstatement
  obtain ⟨condition', hcondition', rfl⟩ := exists_condition_of_ofSearch hstatement'
  have hsame : condition.Same condition' :=
    Condition.same_of_chars hcondition hcondition' (Statement.chars_condition_eq htext)
  have htruth : ∀ db : Database, ∀ row ∈ db.units,
      e.truth dialect db row = .ok (condition.truth db row) ∧
        e'.truth dialect db row = .ok (condition.truth db row) := by
    intro db row hrow
    rw [Condition.truth_of_ofExpression hrow hcondition, Condition.truth_of_ofExpression hrow hcondition',
      hsame.truth db row]
    exact ⟨rfl, rfl⟩
  refine ⟨fun db row hrow => ⟨_, htruth db row hrow⟩, ⟨_, _, hstatement, hstatement', fun db => ?_⟩,
    fun r => ?_⟩
  · exact Statement.run_congr fun row _ => hsame.truth db row
  · -- a repository has its own dialect, in which the trees have one text and the meaning they have in any
    obtain ⟨made, hmade⟩ := Condition.exists_ofExpression_dialect .sqlite hcondition
    obtain ⟨made', hmade'⟩ := Condition.exists_ofExpression_dialect .sqlite hcondition'
    have hmeaning : ∀ row ∈ r.database.units, made.truth r.database row = made'.truth r.database row := by
      intro row hrow
      obtain ⟨hleft, hright⟩ := htruth r.database row hrow
      rw [Expression.truth_dialect dialect .sqlite, Condition.truth_of_ofExpression hrow hmade] at hleft
      rw [Expression.truth_dialect dialect .sqlite, Condition.truth_of_ofExpression hrow hmade'] at hright
      exact Except.ok.inj (hleft.trans hright.symm)
    have hstatement : Statement.ofSearch .sqlite ⟨some e, order, paging⟩ = .ok ⟨some made, order, paging⟩ := by
      simp [Statement.ofSearch, hmade]
    have hstatement' : Statement.ofSearch .sqlite ⟨some e', order, paging⟩ =
        .ok ⟨some made', order, paging⟩ := by
      simp [Statement.ofSearch, hmade']
    have hpieces := pieces_eq_of_same hsame hcondition hcondition' hmade hmade'
    refine search_congr hstatement hstatement' ?_ (Statement.run_congr hmeaning)
    simp only [Statement.pieces, hpieces]

/-- A name, an attribute and a creation time, together. -/
def together (name : String) (o : Operator) (moment : DateTime) : Expression :=
  .and (.and (.leaf (.name o name)) (.leaf (.element 3 .geq (.double ⟨0x4004000000000000⟩) false)))
    (.leaf (.created .gt moment))

/-- The same in another order, with other parentheses. -/
def regrouped (name : String) (o : Operator) (moment : DateTime) : Expression :=
  .and (.leaf (.element 3 .geq (.double ⟨0x4004000000000000⟩) false))
    (.and (.leaf (.name o name)) (.leaf (.created .gt moment)))

/-- A nanosecond of 1970. -/
def secondMoment : DateTime :=
  { DateTime.epoch with time := ⟨0, 0, 0, 1, by decide⟩ }

/-- Neither the grouping is written, nor the nanosecond, nor what the name was before it was normalised. -/
theorem compile_regrouped :
    ∃ text, compile .postgresql ⟨some (together "O'Brien*" .eq .epoch), .newestFirst, ⟨5, 10, 0⟩⟩ = .ok text ∧
      compile .postgresql ⟨some (regrouped "o brien%" .like secondMoment), .newestFirst, ⟨5, 10, 0⟩⟩ = .ok text ∧
      ∀ r, Repository.search ⟨some (together "O'Brien*" .eq .epoch), .newestFirst, ⟨5, 10, 0⟩⟩ r =
        Repository.search ⟨some (regrouped "o brien%" .like secondMoment), .newestFirst, ⟨5, 10, 0⟩⟩ r := by
  obtain ⟨text, htext⟩ : ∃ text, compile .postgresql
      ⟨some (together "O'Brien*" .eq .epoch), .newestFirst, ⟨5, 10, 0⟩⟩ = .ok text := ⟨_, rfl⟩
  have hsame : (compile .postgresql ⟨some (regrouped "o brien%" .like secondMoment), .newestFirst, ⟨5, 10, 0⟩⟩) =
      (compile .postgresql ⟨some (together "O'Brien*" .eq .epoch), .newestFirst, ⟨5, 10, 0⟩⟩) := by
    decide +kernel
  exact ⟨text, htext, hsame.trans htext, (compile_determines_search htext (hsame.trans htext)).2.2⟩

end Query

end MetadataStore
