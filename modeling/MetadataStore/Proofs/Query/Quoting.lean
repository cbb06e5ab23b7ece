import MetadataStore.Proofs.Query.Assembly
import MetadataStore.Proofs.Query.Lowering

/-!
# `Proofs.Query.Quoting` — operands stay between their quotes

The operands of a search are written into its statement. A text operand is normalised first, which
leaves no quote in it, and a time is written without any; so a statement has no quotes but those around
operands, and whoever reads it by its quotes finds in them what the operands say and nothing else. What
is outside does not depend on the texts: two searches that differ in these alone, and whose operators are
settled alike, are written alike there.

## Contents
- `Expression.emitted`, the constraints of a tree in the order in which they are written;
  `Item.quotedTexts`, what a constraint puts between quotes.
- `Search.Alike`, searches that differ only in text operands.
- `Comparison.quotes_pieces`, `Chain.quotes_of_ofExpression`: what is quoted, leaf by leaf.
- `Chain.exists_alike`: what is outside, leaf by leaf.
- `compile_confines_operands`, the two together for a whole statement.
-/

namespace MetadataStore

/-! ## What is written -/

namespace Query

/-- The moments that a comparison with a time is written with: both ends of the span that an adjustable
equality widens to, or else the time itself. -/
def writtenMoments (operator : Operator) (moment : DateTime) (adjustable : Bool) : List DateTime :=
  if adjustable = true ∧ operator = .eq then
    match moment.span? with
    | some (low, high) => [low, high]
    | none => [moment]
  else [moment]

/-- What a time puts between quotes: its text, and on PostgreSQL the layout to read it by. -/
def Dialect.timeTexts (dialect : Dialect) (moment : DateTime) : List String :=
  match dialect with
  | .sqlite => [moment.text]
  | .postgresql => [moment.text, Dialect.timeLayout]

/-- What an operand puts between quotes. -/
def operandTexts (dialect : Dialect) (operator : Operator) (operand : Datum) (adjustable : Bool) :
    List String :=
  match operand with
  | .string s => [(normalize dialect operator s).2]
  | .time moment => (writtenMoments operator moment adjustable).flatMap dialect.timeTexts
  | .integer _ | .long _ | .double _ | .boolean _ | .data _ => []

end Query

/-- What a constraint puts between quotes. -/
def Item.quotedTexts (dialect : Query.Dialect) : Item → List String
  | .column _ operator operand => Query.operandTexts dialect operator operand false
  | .element _ operator operand adjustable => Query.operandTexts dialect operator operand adjustable

namespace Expression

/-- The constraints of a tree in the order in which they are written, those on attributes among the
links of a chain of conjunctions apart: they come after all others. -/
def emittedParts : Expression → List Item × List Item
  | .leaf (.column c operator operand) => ([.column c operator operand], [])
  | .leaf (.element id operator operand adjustable) =>
    ([], [.element id operator operand adjustable])
  | .not inner => (inner.emittedParts.1 ++ inner.emittedParts.2, [])
  | .or left right =>
    ((left.emittedParts.1 ++ left.emittedParts.2) ++ (right.emittedParts.1 ++ right.emittedParts.2), [])
  | .and left right =>
    (left.emittedParts.1 ++ right.emittedParts.1, left.emittedParts.2 ++ right.emittedParts.2)

/-- The constraints of a tree in the order in which they are written. -/
def emitted (e : Expression) : List Item :=
  e.emittedParts.1 ++ e.emittedParts.2

/-- Every constraint of a tree is written, and is written once. -/
theorem perm_emitted (e : Expression) : e.emitted.Perm e.items := by
  induction e with
  | leaf item => cases item <;> exact List.Perm.refl _
  | not inner ih =>
    rw [emitted, emittedParts, List.append_nil]
    exact ih
  | or left right ihl ihr =>
    rw [emitted, emittedParts, List.append_nil]
    exact ihl.append ihr
  | and left right ihl ihr =>
    -- the constraints that come later on the left change places with those that come early on the right
    have hswap : (left.emittedParts.1 ++ right.emittedParts.1 ++
        (left.emittedParts.2 ++ right.emittedParts.2)).Perm (left.emitted ++ right.emitted) := by
      rw [emitted, emitted, List.append_assoc, List.append_assoc]
      refine List.Perm.append_left _ ?_
      rw [← List.append_assoc, ← List.append_assoc]
      exact List.perm_append_comm.append_right _
    exact hswap.trans (ihl.append ihr)

end Expression

namespace Search

/-- The constraints of a search. -/
def items (search : Search) : List Item :=
  search.expression.elim [] Expression.items

/-- The constraints of a search in the order in which they are written. -/
def emitted (search : Search) : List Item :=
  search.expression.elim [] Expression.emitted

end Search

/-! ## Searches that differ in text operands -/

/-- Two constraints are alike that differ at most in the text that they compare with, and whose operators
are settled alike. -/
inductive Item.Alike (dialect : Query.Dialect) : Item → Item → Prop
  | same (item : Item) : Alike dialect item item
  | column (c : Column) {operator : Operator} {s t : String} :
    (Query.normalize dialect operator s).1 = (Query.normalize dialect operator t).1 →
      Alike dialect (.column c operator (.string s)) (.column c operator (.string t))
  | element (id : Int) (adjustable : Bool) {operator : Operator} {s t : String} :
    (Query.normalize dialect operator s).1 = (Query.normalize dialect operator t).1 →
      Alike dialect (.element id operator (.string s) adjustable)
        (.element id operator (.string t) adjustable)

/-- Trees of the same shape whose constraints are alike. -/
inductive Expression.Alike (dialect : Query.Dialect) : Expression → Expression → Prop
  | leaf {a b : Item} : a.Alike dialect b → Alike dialect (.leaf a) (.leaf b)
  | not {a b : Expression} : Alike dialect a b → Alike dialect (.not a) (.not b)
  | and {a b a' b' : Expression} :
    Alike dialect a a' → Alike dialect b b' → Alike dialect (.and a b) (.and a' b')
  | or {a b a' b' : Expression} :
    Alike dialect a a' → Alike dialect b b' → Alike dialect (.or a b) (.or a' b')

/-- Searches with the same order and page whose trees are alike, or that have none. -/
structure Search.Alike (dialect : Query.Dialect) (a b : Search) : Prop where
  expression : Option.Rel (Expression.Alike dialect) a.expression b.expression
  order : a.order = b.order
  paging : a.paging = b.paging

namespace Query

variable {dialect : Dialect}

/-! ## Inside the quotes -/

theorem Dialect.quotes_timeLiteral (dialect : Dialect) (moment : DateTime) {pieces : List Piece}
    {texts : List String} (h : Piece.Quotes pieces texts) :
    Piece.Quotes (dialect.timeLiteral moment ++ pieces) (dialect.timeTexts moment ++ texts) := by
  cases dialect with
  | sqlite => exact h.quote (harmless_time moment).quoteless
  | postgresql =>
    have hlayout := ((h.code (s := ")") (by decide)).quote (s := Dialect.timeLayout) (by decide)).code
      (s := ", ") (by decide)
    exact (hlayout.quote (harmless_time moment).quoteless).code (by decide)

/-- A comparison with a time is written with the ends of a span or with the time itself. -/
theorem Comparison.ofOperand_time {operator : Operator} {moment : DateTime} {adjustable : Bool}
    {comparison : Comparison} (h : ofOperand dialect operator (.time moment) adjustable = .ok comparison) :
    (∃ low high, writtenMoments operator moment adjustable = [low, high] ∧
        comparison = .within low high) ∨
      writtenMoments operator moment adjustable = [moment] ∧ comparison = .time operator moment := by
  by_cases hwiden : adjustable = true ∧ operator = .eq
  · obtain ⟨rfl, rfl⟩ := hwiden
    cases hspan : moment.span? with
    | none =>
      right
      simp only [ofOperand, hspan, beq_self_eq_true, Bool.and_self, Except.ok.injEq] at h
      exact ⟨by simp [writtenMoments, hspan], h.symm⟩
    | some span =>
      left
      simp only [ofOperand, hspan, beq_self_eq_true, Bool.and_self, Except.ok.injEq] at h
      exact ⟨span.1, span.2, by simp [writtenMoments, hspan], h.symm⟩
  · have hkept : (adjustable && operator == .eq) = false := by
      simpa [Bool.and_eq_false_iff] using hwiden
    right
    simp only [ofOperand, hkept, Except.ok.injEq] at h
    exact ⟨if_neg hwiden, h.symm⟩

/-- A comparison quotes what its operand says. -/
theorem Comparison.quotes_pieces {operator : Operator} {operand : Datum} {adjustable : Bool}
    {comparison : Comparison} {column : String} (hcolumn : Harmless column)
    (h : ofOperand dialect operator operand adjustable = .ok comparison) :
    Piece.Quotes (comparison.pieces dialect column)
      (operandTexts dialect operator operand adjustable) := by
  have hcode : ∀ word, Harmless word →
      Harmless (column ++ operator.text ++ word) := fun word hword => by
    simp only [harmless_append]
    exact ⟨⟨hcolumn, harmless_operator operator⟩, hword⟩
  cases operand with
  | string s =>
    cases h
    refine (Piece.Quotes.nil.quote (quoteless_normalize dialect operator s)).code ?_
    simp only [harmless_append]
    exact ⟨⟨⟨by decide, hcolumn⟩, by decide⟩, harmless_operator _⟩
  | time moment =>
    rcases ofOperand_time h with ⟨low, high, hwritten, rfl⟩ | ⟨hwritten, rfl⟩
    · -- both ends are written, the lower one first
      have hword : ∀ before after, Harmless before → Harmless after →
          Harmless (before ++ column ++ after) := fun before after hbefore hafter => by
        simp only [harmless_append]
        exact ⟨⟨hbefore, hcolumn⟩, hafter⟩
      have hhigh := dialect.quotes_timeLiteral high (Piece.Quotes.nil.code (s := ")") (by decide))
      have hlow := dialect.quotes_timeLiteral low
        (hhigh.code (hword " AND " " <= " (by decide) (by decide)))
      have hall := hlow.code (hword "(" " >= " (by decide) (by decide))
      simpa [operandTexts, hwritten, pieces] using hall
    · have hliteral := dialect.quotes_timeLiteral moment Piece.Quotes.nil
      have hall := hliteral.code (hcode "" (by decide))
      simpa [operandTexts, hwritten, pieces] using hall
  | integer number | long number =>
    cases h
    exact Piece.Quotes.nil.code (hcode _ (harmless_integer _))
  | boolean value =>
    cases h
    exact Piece.Quotes.nil.code (hcode _ (harmless_truthLiteral dialect value))
  | double number =>
    by_cases hfinite : number.isFinite
    · simp only [ofOperand, hfinite, if_true, Except.ok.injEq] at h
      subst h
      exact Piece.Quotes.nil.code (hcode _ (harmless_double number))
    · simp [ofOperand, hfinite] at h
  | data bytes => cases h

theorem Subquery.quotes_pieces (id : Int) {operator : Operator} {operand : Datum} {adjustable : Bool}
    {comparison : Comparison}
    (h : Comparison.ofOperand dialect operator operand adjustable = .ok comparison) :
    Piece.Quotes (Subquery.pieces dialect ⟨id, operand.kind, comparison⟩)
      (operandTexts dialect operator operand adjustable) := by
  have hhead : Harmless ("SELECT av.tenantid, av.unitid FROM repo_unit ut " ++
      "INNER JOIN repo_attribute_value av ON (ut.tenantid = av.tenantid AND ut.unitid = av.unitid) " ++
      "INNER JOIN " ++ vectorTable operand.kind ++ " vv ON (av.valueid = vv.valueid) " ++
      "WHERE av.attrid = " ++ Text.integer id ++ " AND ") := by
    simp only [harmless_append]
    exact ⟨⟨⟨⟨⟨⟨⟨by decide, by decide⟩, by decide⟩, harmless_vectorTable _⟩, by decide⟩, by decide⟩,
      harmless_integer _⟩, by decide⟩
  exact (Comparison.quotes_pieces (by decide) h).code hhead

/-- The texts of the other conditions of a chain, in a row. -/
def Chain.otherPieces (dialect : Dialect) (chain : Chain) : List (List Piece) :=
  chain.others.map (Condition.pieces dialect)

/-- The texts of the subqueries of a chain, in a row. -/
def Chain.queryPieces (dialect : Dialect) (chain : Chain) : List (List Piece) :=
  chain.subqueries.map (Subquery.pieces dialect)

namespace Chain

/-- What a chain quotes, given what its other conditions and its subqueries quote. -/
theorem quotes_condition {chain : Chain} {ss ts : List String}
    (hothers : Piece.Quotes (chain.otherPieces dialect).flatten ss)
    (hqueries : Piece.Quotes (chain.queryPieces dialect).flatten ts) :
    Piece.Quotes ((chain.condition dialect).pieces dialect) (ss ++ ts) := by
  rw [pieces_condition]
  exact (hothers.append hqueries).framed (framed_assemble dialect _ _)

theorem quotes_ofCondition {condition : Condition} {texts : List String}
    (h : Piece.Quotes (condition.pieces dialect) texts) :
    Piece.Quotes ((ofCondition condition).otherPieces dialect).flatten texts := by
  simpa [otherPieces, ofCondition] using h

/-- **A chain quotes what its tree says**, constraint by constraint in the order in which they are
written. By induction on the tree: a negation or a disjunction is written where it stands, and only a
conjunction puts constraints on attributes off. -/
theorem quotes_of_ofExpression {e : Expression} {chain : Chain}
    (h : ofExpression dialect e = .ok chain) :
    Piece.Quotes (chain.otherPieces dialect).flatten
        (e.emittedParts.1.flatMap (Item.quotedTexts dialect)) ∧
      Piece.Quotes (chain.queryPieces dialect).flatten
        (e.emittedParts.2.flatMap (Item.quotedTexts dialect)) := by
  induction e generalizing chain with
  | leaf item =>
    cases item with
    | column c operator operand =>
      obtain ⟨comparison, hcmp, rfl⟩ := ofItem_column_eq_ok.1 h
      have hquotes := Comparison.quotes_pieces (harmless_column c) hcmp
      refine ⟨quotes_ofCondition ?_, Piece.Quotes.nil⟩
      simpa [Expression.emittedParts, Item.quotedTexts, Condition.pieces] using hquotes
    | element id operator operand adjustable =>
      obtain ⟨comparison, hcmp, rfl⟩ := ofItem_element_eq_ok.1 h
      have hquotes := Subquery.quotes_pieces id hcmp
      refine ⟨Piece.Quotes.nil, ?_⟩
      simpa [Expression.emittedParts, Item.quotedTexts, queryPieces, ofSubquery] using hquotes
  | not inner ih =>
    obtain ⟨c, hinner, rfl⟩ := ofExpression_not_eq_ok.1 h
    obtain ⟨hothers, hqueries⟩ := ih hinner
    have hcondition := quotes_condition hothers hqueries
    have hall := ((hcondition.append (Piece.Quotes.nil.code (s := ")") (by decide))).code
      (s := "NOT (") (by decide))
    refine ⟨quotes_ofCondition ?_, Piece.Quotes.nil⟩
    simpa [Expression.emittedParts, Condition.pieces] using hall
  | or left right ihl ihr =>
    obtain ⟨a, hleft, b, hright, rfl⟩ := ofExpression_or_eq_ok.1 h
    have hl := quotes_condition (ihl hleft).1 (ihl hleft).2
    have hr := quotes_condition (ihr hright).1 (ihr hright).2
    have htail := (hr.append (Piece.Quotes.nil.code (s := ")") (by decide))).code
      (s := " OR ") (by decide)
    have hall := (hl.append htail).code (s := "(") (by decide)
    refine ⟨quotes_ofCondition ?_, Piece.Quotes.nil⟩
    simpa [Expression.emittedParts, Condition.pieces] using hall
  | and left right ihl ihr =>
    obtain ⟨a, hleft, b, hright, rfl⟩ := ofExpression_and_eq_ok.1 h
    have hothers := (ihl hleft).1.append (ihr hright).1
    have hqueries := (ihl hleft).2.append (ihr hright).2
    rw [← List.flatten_append, ← List.flatMap_append] at hothers hqueries
    refine ⟨?_, ?_⟩
    · simpa [otherPieces, append, Expression.emittedParts] using hothers
    · simpa [queryPieces, append, Expression.emittedParts] using hqueries

end Chain

/-- A condition quotes what its tree says. -/
theorem Condition.quotes_pieces {e : Expression} {condition : Condition}
    (h : ofExpression dialect e = .ok condition) :
    Piece.Quotes (condition.pieces dialect) (e.emitted.flatMap (Item.quotedTexts dialect)) := by
  obtain ⟨-, chain, hchain, rfl⟩ := ofExpression_eq_ok.1 h
  obtain ⟨hothers, hqueries⟩ := Chain.quotes_of_ofExpression hchain
  rw [Expression.emitted, List.flatMap_append]
  exact Chain.quotes_condition hothers hqueries

/-- A statement quotes what its condition quotes. -/
theorem Statement.quotes_pieces {statement : Statement} {texts : List String}
    (h : Piece.Quotes (statement.condition.elim [] (Condition.pieces dialect)) texts) :
    Piece.Quotes (statement.pieces dialect) texts := by
  obtain ⟨condition, order, paging⟩ := statement
  have hcolumns : Harmless (String.intercalate ", " ((selected order).map Column.text)) := by
    refine harmless_intercalate (by decide) fun s hs => ?_
    obtain ⟨column, -, rfl⟩ := List.mem_map.1 hs
    exact harmless_column column
  have hselect : Harmless ("SELECT " ++
      String.intercalate ", " ((selected order).map Column.text) ++ " FROM repo_unit ut") := by
    simp only [harmless_append]
    exact ⟨⟨by decide, hcolumns⟩, by decide⟩
  have horder : Harmless (" ORDER BY " ++ String.intercalate ", " (order.map orderText)) := by
    refine harmless_append.2 ⟨by decide, harmless_intercalate (by decide) fun s hs => ?_⟩
    obtain ⟨entry, -, rfl⟩ := List.mem_map.1 hs
    exact harmless_orderText entry
  have hpaging := Piece.Quotes.nil.code (harmless_pagingClause dialect paging)
  have hend : Piece.Quotes ((if order.isEmpty then []
      else [.code (" ORDER BY " ++ String.intercalate ", " (order.map orderText))]) ++
        [.code (dialect.pagingClause paging)]) [] := by
    split
    · exact hpaging
    · exact hpaging.code horder
  cases condition with
  | none =>
    obtain rfl : [] = texts := h.quoted
    simpa [pieces] using hend.code hselect
  | some condition =>
    have hall := ((h.append hend).code (s := " WHERE ") (by decide)).code hselect
    simpa [pieces] using hall

/-! ## Outside the quotes -/

/-- Two chains that are written alike but for what they quote. -/
structure Chain.Alike (dialect : Dialect) (a b : Chain) : Prop where
  others : (a.otherPieces dialect).map (List.map Piece.blanked) =
    (b.otherPieces dialect).map (List.map Piece.blanked)
  queries : (a.queryPieces dialect).map (List.map Piece.blanked) =
    (b.queryPieces dialect).map (List.map Piece.blanked)

namespace Chain

theorem Alike.condition {a b : Chain} (h : a.Alike dialect b) :
    ((a.condition dialect).pieces dialect).map Piece.blanked =
      ((b.condition dialect).pieces dialect).map Piece.blanked := by
  rw [pieces_condition, pieces_condition, blanked_assemble, blanked_assemble]
  exact congrArg₂ (assemble dialect) h.others h.queries

theorem Alike.append {a b a' b' : Chain} (h : a.Alike dialect a') (h' : b.Alike dialect b') :
    (a.append b).Alike dialect (a'.append b') := by
  have hothers := congrArg₂ (· ++ ·) h.others h'.others
  have hqueries := congrArg₂ (· ++ ·) h.queries h'.queries
  simp only [← List.map_append] at hothers hqueries
  refine ⟨?_, ?_⟩
  · simpa [otherPieces, Chain.append] using hothers
  · simpa [queryPieces, Chain.append] using hqueries

theorem alike_ofCondition {a b : Condition}
    (h : (a.pieces dialect).map Piece.blanked = (b.pieces dialect).map Piece.blanked) :
    (ofCondition a).Alike dialect (ofCondition b) :=
  ⟨congrArg (fun pieces => [pieces]) h, rfl⟩

theorem alike_ofSubquery (id : Int) (table : Kind) {a b : Comparison}
    (h : (a.pieces dialect "vv.val").map Piece.blanked =
      (b.pieces dialect "vv.val").map Piece.blanked) :
    (ofSubquery ⟨id, table, a⟩).Alike dialect (ofSubquery ⟨id, table, b⟩) := by
  refine ⟨rfl, ?_⟩
  simp [queryPieces, ofSubquery, Subquery.pieces, h]

/-- Texts that go with the same operator are written alike but for what they quote. -/
theorem blanked_text {column : String} {operator : Operator} {s t : String}
    (h : (normalize dialect operator s).1 = (normalize dialect operator t).1) :
    ((Comparison.text (normalize dialect operator s).1 (normalize dialect operator s).2).pieces dialect
        column).map Piece.blanked =
      ((Comparison.text (normalize dialect operator t).1 (normalize dialect operator t).2).pieces
        dialect column).map Piece.blanked := by
  simp [Comparison.pieces, h]

/-- **Alike trees are written alike**: where one makes a chain so does the other. -/
theorem exists_alike {e e' : Expression} {chain : Chain} (he : e.Alike dialect e')
    (h : ofExpression dialect e = .ok chain) :
    ∃ chain', ofExpression dialect e' = .ok chain' ∧ chain.Alike dialect chain' := by
  induction he generalizing chain with
  | leaf hitem =>
    cases hitem with
    | same item => exact ⟨chain, h, rfl, rfl⟩
    | column c hoperator =>
      cases h
      exact ⟨_, rfl, alike_ofCondition (blanked_text hoperator)⟩
    | element id adjustable hoperator =>
      cases h
      exact ⟨_, rfl, alike_ofSubquery id .string (blanked_text hoperator)⟩
  | not _ ih =>
    obtain ⟨c, hinner, rfl⟩ := ofExpression_not_eq_ok.1 h
    obtain ⟨c', hinner', halike⟩ := ih hinner
    refine ⟨_, ofExpression_not_eq_ok.2 ⟨c', hinner', rfl⟩, alike_ofCondition ?_⟩
    simp [Condition.pieces, halike.condition]
  | or _ _ ihl ihr =>
    obtain ⟨a, hleft, b, hright, rfl⟩ := ofExpression_or_eq_ok.1 h
    obtain ⟨a', hleft', hl⟩ := ihl hleft
    obtain ⟨b', hright', hr⟩ := ihr hright
    refine ⟨_, ofExpression_or_eq_ok.2 ⟨a', hleft', b', hright', rfl⟩, alike_ofCondition ?_⟩
    simp [Condition.pieces, hl.condition, hr.condition]
  | and _ _ ihl ihr =>
    obtain ⟨a, hleft, b, hright, rfl⟩ := ofExpression_and_eq_ok.1 h
    obtain ⟨a', hleft', hl⟩ := ihl hleft
    obtain ⟨b', hright', hr⟩ := ihr hright
    exact ⟨_, ofExpression_and_eq_ok.2 ⟨a', hleft', b', hright', rfl⟩, hl.append hr⟩

end Chain

/-- Whether a tree can be searched for does not depend on texts. -/
theorem checkSearchable_of_alike {e e' : Expression} (he : e.Alike dialect e') :
    checkSearchable e = checkSearchable e' := by
  induction he with
  | leaf hitem => cases hitem <;> rfl
  | not _ ih => exact ih
  | and _ _ ihl ihr | or _ _ ihl ihr => simp only [checkSearchable, ihl, ihr]

/-- Alike trees make conditions that are written alike but for what they quote. -/
theorem Condition.exists_alike {e e' : Expression} {condition : Condition}
    (he : e.Alike dialect e') (h : ofExpression dialect e = .ok condition) :
    ∃ condition', ofExpression dialect e' = .ok condition' ∧
      (condition.pieces dialect).map Piece.blanked =
        (condition'.pieces dialect).map Piece.blanked := by
  obtain ⟨hcheck, chain, hchain, rfl⟩ := ofExpression_eq_ok.1 h
  obtain ⟨chain', hchain', halike⟩ := Chain.exists_alike he hchain
  rw [checkSearchable_of_alike he] at hcheck
  exact ⟨_, ofExpression_eq_ok.2 ⟨hcheck, chain', hchain', rfl⟩, halike.condition⟩

/-! ## Statements -/

theorem compile_eq_ok {search : Search} {text : String} :
    compile dialect search = .ok text ↔
      ∃ statement, Statement.ofSearch dialect search = .ok statement ∧
        text = Piece.text (statement.pieces dialect) := by
  unfold compile
  cases Statement.ofSearch dialect search with
  | ok statement => simp [eq_comm]
  | error fault => simp

/-- The statement of a search quotes what its constraints say. -/
theorem Statement.quotes_ofSearch {search : Search} {statement : Statement}
    (h : ofSearch dialect search = .ok statement) :
    Piece.Quotes (statement.pieces dialect)
      (search.emitted.flatMap (Item.quotedTexts dialect)) := by
  obtain ⟨expression, order, paging⟩ := search
  cases expression with
  | none =>
    cases h
    exact Statement.quotes_pieces Piece.Quotes.nil
  | some e =>
    unfold ofSearch at h
    dsimp only at h
    split at h
    · rename_i condition hcondition
      cases h
      exact Statement.quotes_pieces (Condition.quotes_pieces hcondition)
    · cases h

/-- Alike searches make statements that are written alike but for what they quote. -/
theorem Statement.exists_alike {search other : Search} {statement : Statement}
    (halike : search.Alike dialect other) (h : ofSearch dialect search = .ok statement) :
    ∃ statement', ofSearch dialect other = .ok statement' ∧
      (statement.pieces dialect).map Piece.blanked =
        (statement'.pieces dialect).map Piece.blanked := by
  obtain ⟨expression, order, paging⟩ := search
  obtain ⟨expression', order', paging'⟩ := other
  obtain ⟨hexpression, horder, hpaging⟩ := halike
  dsimp only at hexpression horder hpaging
  subst horder hpaging
  cases hexpression with
  | none => exact ⟨statement, h, rfl⟩
  | some he =>
    unfold ofSearch at h
    dsimp only at h
    split at h
    · rename_i condition hcondition
      cases h
      obtain ⟨condition', hcondition', hpieces⟩ := Condition.exists_alike he hcondition
      refine ⟨⟨some condition', order, paging⟩, by simp [ofSearch, hcondition'], ?_⟩
      simp [pieces, hpieces]
    · cases h

/-- **A text operand cannot leave its quotes.** A compiled search has an even number of quotes, and split
at them it has inside exactly what its constraints say, in the order in which they are written, which is
some order of all of them: normalised texts, times, and the layout of each time where a dialect needs
one. Another search that differs in the texts of operands alone, with operators settled alike, compiles
as well, and is outside the quotes the same. -/
theorem compile_confines_operands {search : Search} {text : String}
    (h : compile dialect search = .ok text) :
    2 ∣ text.toList.count '\'' ∧
      inside text = search.emitted.flatMap (Item.quotedTexts dialect) ∧
      search.emitted.Perm search.items ∧
      ∀ other, search.Alike dialect other →
        ∃ text', compile dialect other = .ok text' ∧ outside text' = outside text := by
  obtain ⟨statement, hstatement, rfl⟩ := compile_eq_ok.1 h
  have hquotes := Statement.quotes_ofSearch hstatement
  refine ⟨?even, ?within, ?once, ?alike⟩
  case even =>
    rw [Piece.count_text hquotes.clean]
    exact Nat.dvd_mul_right 2 _
  case within => rw [Piece.inside_text hquotes.clean, hquotes.quoted]
  case once =>
    unfold Search.emitted Search.items
    cases search.expression with
    | none => exact List.Perm.refl []
    | some e => exact e.perm_emitted
  case alike =>
    intro other halike
    obtain ⟨statement', hstatement', hpieces⟩ := Statement.exists_alike halike hstatement
    have hquotes' := Statement.quotes_ofSearch hstatement'
    refine ⟨_, compile_eq_ok.2 ⟨statement', hstatement', rfl⟩, ?_⟩
    exact Piece.outside_text hquotes'.clean hquotes.clean hpieces.symm

/-- A search for a text under an attribute, among a name, a day under another attribute and a negated
pattern. -/
def quotedSearch (operand : String) : Search where
  expression := some (.and (.leaf (.element 7 .eq (.string operand) false))
    (.and (.leaf (.name .eq "it's"))
      (.or (.leaf (.element 3 .eq (.time .epoch) true)) (.not (.leaf (.name .like "İ'"))))))
  order := [(.created, false), (.name, true)]
  paging := ⟨5, 10, 0⟩

/-- The text under the attribute comes last. Written as a piece of a condition it remains a text. -/
theorem compile_quotedSearch :
    ∃ text text', compile .postgresql (quotedSearch "O'Brien*") = .ok text ∧
      compile .postgresql (quotedSearch "x' OR '1'='1*") = .ok text' ∧
      inside text = ["it s", "1970-01-01 00:00:00.000", "YYYY-MM-DD HH24:MI:SS.MS",
        "1970-01-01 23:59:59.999", "YYYY-MM-DD HH24:MI:SS.MS", "i\u0307 ", "o brien%"] ∧
      inside text' = ["it s", "1970-01-01 00:00:00.000", "YYYY-MM-DD HH24:MI:SS.MS",
        "1970-01-01 23:59:59.999", "YYYY-MM-DD HH24:MI:SS.MS", "i\u0307 ", "x  or  1 = 1%"] ∧
      outside text' = outside text := by
  obtain ⟨text, htext⟩ : ∃ text, compile .postgresql (quotedSearch "O'Brien*") = .ok text := ⟨_, rfl⟩
  have halike : (quotedSearch "O'Brien*").Alike .postgresql (quotedSearch "x' OR '1'='1*") :=
    { expression := .some (.and (.leaf (.element 7 false (by decide +kernel)))
        (.and (.leaf (.same _)) (.or (.leaf (.same _)) (.not (.leaf (.same _))))))
      order := rfl
      paging := rfl }
  obtain ⟨-, hinside, -, hothers⟩ := compile_confines_operands htext
  obtain ⟨text', htext', houtside⟩ := hothers _ halike
  obtain ⟨-, hinside', -⟩ := compile_confines_operands htext'
  refine ⟨text, text', htext, htext', hinside.trans ?_, hinside'.trans ?_, houtside⟩
  · decide +kernel
  · decide +kernel

end Query

end MetadataStore
