import MetadataStore.Query.Statement

/-!
# `Proofs.Query.Refusal` — which searches are refused

A tree of constraints is gone through twice before there is a statement: once for its constraints on
attributes, and once for all of them while conditions are made, where the links of a chain change places.
Neither pass sees more of a tree than its constraints from left to right, and each stops at the first one
that it cannot search for. So a refusal is a matter of the constraints alone, and names the leftmost bad
one on an attribute, or if there is none the leftmost bad one on a column.

## Contents
- `failure?`, what stops a computation, and `failure?_bind`.
- `Datum.Unsearchable`, `Item.fault?`: what is wrong with a constraint on its own.
- `failure?_checkSearchable`, `Chain.failure?_ofExpression`: the two passes.
- `Condition.exists_ofExpression_of_items`: whether a tree makes a condition is a matter of its constraints alone.
- `IsFirst`, `Expression.Blames`, `Expression.Regrouped`.
- `Query.compile_refuses_iff`, with a search that is refused however its conjunctions are grouped.
-/

namespace MetadataStore

/-! ## What stops a computation -/

/-- The failure that a computation ends with, if it ends with one. -/
def failure? {ε α : Type} : Except ε α → Option ε
  | .ok _ => none
  | .error failure => some failure

@[simp] theorem failure?_ok {ε α : Type} (a : α) : failure? (.ok a : Except ε α) = none := rfl

@[simp] theorem failure?_error {ε α : Type} (e : ε) : failure? (.error e : Except ε α) = some e := rfl

theorem failure?_eq_some {ε α : Type} {result : Except ε α} {e : ε} :
    failure? result = some e ↔ result = .error e := by
  cases result <;> simp

/-- A step fails as its first part does, and else as what follows, if that fails alike on all results. -/
theorem failure?_bind {ε α β : Type} {result : Except ε α} {next : α → Except ε β} {later : Option ε}
    (h : ∀ a, failure? (next a) = later) : failure? (result >>= next) = (failure? result).or later := by
  cases result with
  | ok a => exact h a
  | error e => rfl

/-- A step that only makes something of a result fails as the result does. -/
theorem failure?_bind_pure {ε α β : Type} (result : Except ε α) (make : α → β) :
    failure? (result >>= fun a => pure (make a)) = failure? result := by
  cases result <;> rfl

/-! ## Single constraints -/

/-- Opaque bytes cannot be searched for, nor can doubles that are no numbers. -/
def Datum.Unsearchable : Datum → Prop
  | .data _ => True
  | .double x => x.isFinite = false
  | _ => False

namespace Item

/-- Whether the constraint is one on an attribute. -/
def isElement : Item → Bool
  | .element .. => true
  | .column .. => false

/-- What is wrong with a constraint, if its operand cannot be searched for. -/
def fault? : Item → Option Fault
  | .column _ _ (.data _) => some .noDataLiteral
  | .column _ _ (.double x) => if x.isFinite then none else some (.noLiteral x)
  | .element id _ (.data _) _ => some (.opaqueOperand id .data)
  | .element id _ (.double x) _ => if x.isFinite then none else some (.incomparable id x)
  | _ => none

theorem fault?_eq_none_iff {item : Item} : item.fault? = none ↔ ¬item.operand.Unsearchable := by
  cases item with
  | column c operator operand => cases operand <;> simp [fault?, Item.operand, Datum.Unsearchable]
  | element id operator operand adjustable =>
    cases operand <;> simp [fault?, Item.operand, Datum.Unsearchable]

theorem exists_fault?_iff {item : Item} : (∃ fault, item.fault? = some fault) ↔ item.operand.Unsearchable := by
  rw [← Option.ne_none_iff_exists', ne_eq, fault?_eq_none_iff, Classical.not_not]

theorem category_of_fault? {item : Item} {fault : Fault} (h : item.fault? = some fault) :
    fault.category = .invalidParameter := by
  unfold fault? at h
  split at h
  · cases h
    rfl
  · split at h
    · cases h
    · cases h
      rfl
  · cases h
    rfl
  · split at h
    · cases h
    · cases h
      rfl
  · cases h

/-- What the first pass finds wrong with a constraint. -/
theorem failure?_checkSearchable (item : Item) :
    failure? item.checkSearchable = if item.isElement then item.fault? else none := by
  cases item with
  | column c operator operand => rfl
  | element id operator operand adjustable =>
    cases operand with
    | double x =>
      simp only [checkSearchable, Datum.kind, isElement, fault?, if_true]
      cases x.isFinite <;> rfl
    | _ => rfl

/-- What can be searched for has a literal. -/
theorem failure?_ofOperand {operand : Datum} (h : ¬operand.Unsearchable) (dialect : Query.Dialect)
    (operator : Operator) (adjustable : Bool) :
    failure? (Query.Comparison.ofOperand dialect operator operand adjustable) = none := by
  cases operand with
  | time moment =>
    unfold Query.Comparison.ofOperand
    dsimp only
    split
    · rfl
    · rfl
  | double x =>
    have hfinite : x.isFinite = true := by simpa [Datum.Unsearchable] using h
    simp [Query.Comparison.ofOperand, hfinite]
  | data bytes => exact absurd trivial h
  | _ => rfl

/-- What the second pass finds wrong with a constraint that has passed the first. -/
theorem failure?_ofItem (dialect : Query.Dialect) {item : Item}
    (h : item.isElement = true → item.fault? = none) :
    failure? (Query.Chain.ofItem dialect item) = item.fault? := by
  cases item with
  | column c operator operand =>
    rw [Query.Chain.ofItem, failure?_bind_pure]
    cases operand with
    | double x =>
      simp only [Query.Comparison.ofOperand, fault?]
      cases x.isFinite <;> rfl
    | _ => rfl
  | element id operator operand adjustable =>
    rw [Query.Chain.ofItem, failure?_bind_pure, h rfl]
    exact failure?_ofOperand (fault?_eq_none_iff.1 (h rfl)) dialect operator adjustable

end Item

/-! ## The two passes -/

namespace Query

variable {dialect : Dialect} {e : Expression}

/-- The first pass stops at the leftmost bad constraint on an attribute. -/
theorem failure?_checkSearchable (e : Expression) :
    failure? (checkSearchable e) = (e.items.filter Item.isElement).findSome? Item.fault? := by
  induction e with
  | leaf item =>
    rw [checkSearchable, Item.failure?_checkSearchable, Expression.items]
    cases item with
    | column c operator operand => rfl
    | element id operator operand adjustable => simp [Item.isElement, List.filter_cons]
  | not inner ih => exact ih
  | and left right ihl ihr | or left right ihl ihr =>
    rw [checkSearchable, failure?_bind fun _ => ihr, ihl, Expression.items, List.filter_append,
      List.findSome?_append]

/-- The second pass stops at the leftmost bad constraint, when those on attributes are good. By induction on
the tree: the links of a chain change places only after they are made. -/
theorem Chain.failure?_ofExpression (dialect : Dialect) {e : Expression}
    (h : ∀ item ∈ e.items, item.isElement = true → item.fault? = none) :
    failure? (ofExpression dialect e) = e.items.findSome? Item.fault? := by
  induction e with
  | leaf item =>
    rw [ofExpression, Item.failure?_ofItem dialect (h item (List.mem_singleton.2 rfl))]
    simp [Expression.items]
  | not inner ih =>
    rw [ofExpression, failure?_bind_pure]
    exact ih h
  | and left right ihl ihr | or left right ihl ihr =>
    obtain ⟨hleft, hright⟩ := List.forall_mem_append.1 h
    rw [ofExpression, failure?_bind fun a => (failure?_bind_pure _ _).trans (ihr hright), ihl hleft,
      Expression.items, List.findSome?_append]

/-- The two passes together: the leftmost bad constraint on an attribute is named, or the leftmost bad one
if there is none on an attribute. -/
theorem Condition.failure?_ofExpression (dialect : Dialect) (e : Expression) :
    failure? (ofExpression dialect e) =
      ((e.items.filter Item.isElement).findSome? Item.fault?).or (e.items.findSome? Item.fault?) := by
  have hcheck := failure?_checkSearchable e
  cases hfirst : (e.items.filter Item.isElement).findSome? Item.fault? with
  | some fault =>
    rw [hfirst, failure?_eq_some] at hcheck
    rw [ofExpression, hcheck]
    rfl
  | none =>
    have hgood : ∀ item ∈ e.items, item.isElement = true → item.fault? = none := fun item hmem hel =>
      List.findSome?_eq_none_iff.1 hfirst item (List.mem_filter.2 ⟨hmem, hel⟩)
    rw [ofExpression, failure?_bind fun _ =>
      (failure?_bind_pure _ _).trans (Chain.failure?_ofExpression dialect hgood), hcheck, hfirst]

/-- Whether a tree makes a condition is a matter of its constraints alone, and not of dialect. -/
theorem Condition.exists_ofExpression_of_items (other : Dialect) {e' : Expression} {condition : Condition}
    (hitems : e'.items = e.items) (h : ofExpression dialect e = .ok condition) :
    ∃ condition', ofExpression other e' = .ok condition' := by
  have hgood : failure? (ofExpression other e') = none := by
    rw [failure?_ofExpression, hitems, ← failure?_ofExpression dialect, h, failure?_ok]
  cases hmake : ofExpression other e' with
  | ok condition' => exact ⟨condition', rfl⟩
  | error fault =>
    rw [hmake] at hgood
    cases hgood

theorem failure?_compile (dialect : Dialect) (search : Search) :
    failure? (compile dialect search) =
      search.expression.bind fun e =>
        ((e.items.filter Item.isElement).findSome? Item.fault?).or (e.items.findSome? Item.fault?) := by
  obtain ⟨expression, order, paging⟩ := search
  cases expression with
  | none => rfl
  | some e =>
    rw [Option.bind_some, ← Condition.failure?_ofExpression dialect e]
    unfold compile Statement.ofSearch
    dsimp only
    cases Condition.ofExpression dialect e <;> rfl

end Query

/-! ## The constraint that is named -/

/-- The first of a list with a property. -/
def IsFirst {α : Type} (P : α → Prop) (as : List α) (a : α) : Prop :=
  ∃ before after, as = before ++ a :: after ∧ P a ∧ ∀ b ∈ before, ¬P b

section IsFirst

variable {α β : Type} {P Q : α → Prop} {as : List α} {a x : α}

theorem not_isFirst_nil : ¬IsFirst P [] a := by
  rintro ⟨before, after, h, -⟩
  exact List.append_ne_nil_of_right_ne_nil before (List.cons_ne_nil a after) h.symm

theorem isFirst_cons_iff : IsFirst P (x :: as) a ↔ P x ∧ a = x ∨ ¬P x ∧ IsFirst P as a := by
  constructor
  · rintro ⟨before, after, h, ha, hbefore⟩
    cases before with
    | nil =>
      obtain ⟨rfl, -⟩ := List.cons.inj h
      exact Or.inl ⟨ha, rfl⟩
    | cons b before =>
      obtain ⟨rfl, hrest⟩ := List.cons.inj h
      rw [List.forall_mem_cons] at hbefore
      exact Or.inr ⟨hbefore.1, before, after, hrest, ha, hbefore.2⟩
  · rintro (⟨hx, rfl⟩ | ⟨hx, before, after, rfl, ha, hbefore⟩)
    · exact ⟨[], as, rfl, hx, nofun⟩
    · exact ⟨x :: before, after, rfl, ha, List.forall_mem_cons.2 ⟨hx, hbefore⟩⟩

theorem isFirst_congr (h : ∀ b ∈ as, P b ↔ Q b) : IsFirst P as a ↔ IsFirst Q as a := by
  induction as with
  | nil => exact iff_of_false not_isFirst_nil not_isFirst_nil
  | cons x as ih =>
    rw [List.forall_mem_cons] at h
    rw [isFirst_cons_iff, isFirst_cons_iff, h.1, ih h.2]

theorem exists_isFirst (h : ∃ b ∈ as, P b) : ∃ a, IsFirst P as a := by
  induction as with
  | nil =>
    obtain ⟨b, hb, -⟩ := h
    cases hb
  | cons x as ih =>
    simp only [isFirst_cons_iff]
    by_cases hx : P x
    · exact ⟨x, Or.inl ⟨hx, rfl⟩⟩
    · obtain ⟨b, hb, hP⟩ := h
      rcases List.mem_cons.1 hb with rfl | hrest
      · exact absurd hP hx
      · obtain ⟨a, ha⟩ := ih ⟨b, hrest, hP⟩
        exact ⟨a, Or.inr ⟨hx, ha⟩⟩

/-- What a search through a list finds comes from the first member from which there comes anything. -/
theorem findSome?_filter_eq_some_iff (p : α → Bool) (f : α → Option β) (as : List α) {b : β} :
    (as.filter p).findSome? f = some b ↔
      ∃ a, IsFirst (fun a => p a = true ∧ ∃ b, f a = some b) as a ∧ f a = some b := by
  induction as with
  | nil => exact iff_of_false nofun fun ⟨_, h, _⟩ => not_isFirst_nil h
  | cons x as ih =>
    simp only [isFirst_cons_iff]
    cases hp : p x with
    | false =>
      rw [List.filter_cons_of_neg (by simp [hp]), ih]
      simp
    | true =>
      rw [List.filter_cons_of_pos hp, List.findSome?_cons]
      cases hf : f x with
      | none =>
        dsimp only
        rw [ih]
        simp
      | some c => simp [hf]

end IsFirst

namespace Expression

/-- The constraint that a refusal names: of those whose operand cannot be searched for, the leftmost one on
an attribute, or the leftmost one on a column when all of those on attributes are good. -/
def Blames (e : Expression) (item : Item) : Prop :=
  IsFirst (fun i => i.isElement = true ∧ i.operand.Unsearchable) e.items item ∨
    (∀ i ∈ e.items, i.isElement = true → ¬i.operand.Unsearchable) ∧
      IsFirst (fun i => i.isElement = false ∧ i.operand.Unsearchable) e.items item

/-- The constraint that is named is one of the tree, and a bad one. -/
theorem Blames.bad {e : Expression} {item : Item} (h : e.Blames item) :
    item ∈ e.items ∧ item.operand.Unsearchable := by
  rcases h with ⟨before, after, hitems, ⟨-, hbad⟩, -⟩ | ⟨-, before, after, hitems, ⟨-, hbad⟩, -⟩
  · exact ⟨hitems ▸ List.mem_append_right before List.mem_cons_self, hbad⟩
  · exact ⟨hitems ▸ List.mem_append_right before List.mem_cons_self, hbad⟩

/-- Where there is a bad constraint, one is named. -/
theorem exists_blames {e : Expression} {item : Item} (hmem : item ∈ e.items)
    (hbad : item.operand.Unsearchable) : ∃ named, e.Blames named := by
  by_cases hel : ∃ i ∈ e.items, i.isElement = true ∧ i.operand.Unsearchable
  · obtain ⟨named, hnamed⟩ := exists_isFirst hel
    exact ⟨named, Or.inl hnamed⟩
  · have hgood : ∀ i ∈ e.items, i.isElement = true → ¬i.operand.Unsearchable :=
      fun i hi helement hb => hel ⟨i, hi, helement, hb⟩
    have hcolumn : item.isElement = false := Bool.eq_false_iff.2 fun helement => hgood item hmem helement hbad
    have hthere : ∃ i ∈ e.items, i.isElement = false ∧ i.operand.Unsearchable :=
      ⟨item, hmem, hcolumn, hbad⟩
    obtain ⟨named, hnamed⟩ := exists_isFirst hthere
    exact ⟨named, Or.inr ⟨hgood, hnamed⟩⟩

theorem exists_blames_iff (e : Expression) (fault : Fault) :
    ((e.items.filter Item.isElement).findSome? Item.fault?).or (e.items.findSome? Item.fault?) = some fault ↔
      ∃ item, e.Blames item ∧ item.fault? = some fault := by
  have hfirst : (e.items.filter Item.isElement).findSome? Item.fault? = some fault ↔
      ∃ item, IsFirst (fun i => i.isElement = true ∧ i.operand.Unsearchable) e.items item ∧
        item.fault? = some fault := by
    simp only [findSome?_filter_eq_some_iff, Item.exists_fault?_iff]
  have hnone : (e.items.filter Item.isElement).findSome? Item.fault? = none ↔
      ∀ i ∈ e.items, i.isElement = true → ¬i.operand.Unsearchable := by
    simp only [List.findSome?_eq_none_iff, List.mem_filter, and_imp, Item.fault?_eq_none_iff]
  have hall : e.items.findSome? Item.fault? = some fault ↔
      ∃ item, IsFirst (fun i => i.operand.Unsearchable) e.items item ∧ item.fault? = some fault := by
    have hself : e.items.filter (fun _ => true) = e.items := List.filter_eq_self.2 fun _ _ => rfl
    have h := findSome?_filter_eq_some_iff (fun _ => true) Item.fault? e.items (b := fault)
    rw [hself] at h
    simpa only [true_and, Item.exists_fault?_iff] using h
  rw [Option.or_eq_some_iff, hfirst, hnone, hall]
  constructor
  · rintro (⟨item, hitem, hfault⟩ | ⟨hgood, item, hitem, hfault⟩)
    · exact ⟨item, Or.inl hitem, hfault⟩
    · refine ⟨item, Or.inr ⟨hgood, (isFirst_congr fun i hi => ?_).1 hitem⟩, hfault⟩
      exact ⟨fun hbad => ⟨Bool.eq_false_iff.2 fun hel => hgood i hi hel hbad, hbad⟩, And.right⟩
  · rintro ⟨item, hitem | ⟨hgood, hitem⟩, hfault⟩
    · exact Or.inl ⟨item, hitem, hfault⟩
    · refine Or.inr ⟨hgood, item, (isFirst_congr fun i hi => ?_).1 hitem, hfault⟩
      exact ⟨And.right, fun hbad => ⟨Bool.eq_false_iff.2 fun hel => hgood i hi hel hbad, hbad⟩⟩

/-- Trees that differ in how their conjunctions are grouped. -/
inductive Regrouped : Expression → Expression → Prop
  | refl (e : Expression) : Regrouped e e
  | symm {a b : Expression} : Regrouped a b → Regrouped b a
  | trans {a b c : Expression} : Regrouped a b → Regrouped b c → Regrouped a c
  | assoc (a b c : Expression) : Regrouped (.and (.and a b) c) (.and a (.and b c))
  | not {a b : Expression} : Regrouped a b → Regrouped (.not a) (.not b)
  | and {a b c d : Expression} : Regrouped a b → Regrouped c d → Regrouped (.and a c) (.and b d)
  | or {a b c d : Expression} : Regrouped a b → Regrouped c d → Regrouped (.or a c) (.or b d)

/-- Grouping is no matter of the constraints and their order. -/
theorem Regrouped.items_eq {e e' : Expression} (h : Regrouped e e') : e'.items = e.items := by
  induction h with
  | refl e => rfl
  | symm _ ih => exact ih.symm
  | trans _ _ ih ih' => exact ih'.trans ih
  | assoc a b c => exact (List.append_assoc a.items b.items c.items).symm
  | not _ ih => exact ih
  | and _ _ ih ih' | or _ _ ih ih' => rw [items, items, ih, ih']

end Expression

namespace Query

/-- **A search is refused exactly for an operand that cannot be searched for**: opaque bytes, or a double
that is no number, anywhere in its tree. The fault is the one of the leftmost bad constraint on an attribute,
or if there is none of the leftmost bad constraint on a column. It is an invalid parameter, and it is the
same in either dialect, whatever the order and the page, and however conjunctions are grouped. -/
theorem compile_refuses_iff (dialect : Dialect) (search : Search) :
    ((∃ fault, compile dialect search = .error fault) ↔
      ∃ e ∈ search.expression, ∃ item ∈ e.items, item.operand.Unsearchable) ∧
    (∀ fault, compile dialect search = .error fault ↔
      ∃ e ∈ search.expression, ∃ item, e.Blames item ∧ item.fault? = some fault) ∧
    (∀ fault, compile dialect search = .error fault → fault.category = .invalidParameter) ∧
    (∀ e e', search.expression = some e → e.Regrouped e' → ∀ dialect' order paging fault,
      compile dialect search = .error fault ↔
        compile dialect' ⟨some e', order, paging⟩ = .error fault) := by
  have hnamed : ∀ fault, compile dialect search = .error fault ↔
      ∃ e ∈ search.expression, ∃ item, e.Blames item ∧ item.fault? = some fault := by
    intro fault
    rw [← failure?_eq_some, failure?_compile, Option.bind_eq_some_iff]
    exact exists_congr fun e => and_congr_right fun _ => e.exists_blames_iff fault
  refine ⟨?_, hnamed, fun fault h => ?_, fun e e' he hgroup dialect' order paging fault => ?_⟩
  · constructor
    · rintro ⟨fault, h⟩
      obtain ⟨e, he, item, hblames, -⟩ := (hnamed fault).1 h
      obtain ⟨hmem, hbad⟩ := hblames.bad
      exact ⟨e, he, item, hmem, hbad⟩
    · rintro ⟨e, he, item, hmem, hbad⟩
      obtain ⟨named, hblames⟩ := Expression.exists_blames hmem hbad
      obtain ⟨fault, hfault⟩ := Item.exists_fault?_iff.2 hblames.bad.2
      exact ⟨fault, (hnamed fault).2 ⟨e, he, named, hblames, hfault⟩⟩
  · obtain ⟨e, -, item, -, hfault⟩ := (hnamed fault).1 h
    exact item.category_of_fault? hfault
  · rw [← failure?_eq_some, ← failure?_eq_some, failure?_compile, failure?_compile, he, Option.bind_some,
      Option.bind_some, hgroup.items_eq]

/-- A bad column, a good attribute and two bad ones, in a chain and under a negation. -/
def badOperands : Expression :=
  .and (.and (.leaf (.column .name .eq (.data []))) (.leaf (.element 1 .eq (.long 5) false)))
    (.not (.or (.leaf (.element 2 .lt (.double (.infinite true)) false))
      (.leaf (.element 3 .eq (.data [7]) false))))

/-- The same with the chain grouped from the right. -/
def badOperandsRegrouped : Expression :=
  .and (.leaf (.column .name .eq (.data []))) (.and (.leaf (.element 1 .eq (.long 5) false))
    (.not (.or (.leaf (.element 2 .lt (.double (.infinite true)) false))
      (.leaf (.element 3 .eq (.data [7]) false)))))

/-- The second attribute is named, and not the column that comes before it. -/
theorem compile_badOperands :
    badOperands.Regrouped badOperandsRegrouped ∧
      compile .sqlite ⟨some badOperands, [], ⟨5, 10, 0⟩⟩ =
        .error (.incomparable 2 (.infinite true)) ∧
      compile .postgresql ⟨some badOperandsRegrouped, .newestFirst, .none⟩ =
        .error (.incomparable 2 (.infinite true)) := by
  have hgroup : badOperands.Regrouped badOperandsRegrouped := .assoc _ _ _
  obtain ⟨-, hnamed, -, hsame⟩ := compile_refuses_iff .sqlite ⟨some badOperands, [], ⟨5, 10, 0⟩⟩
  have hrefused : compile .sqlite ⟨some badOperands, [], ⟨5, 10, 0⟩⟩ =
      .error (.incomparable 2 (.infinite true)) := by
    refine (hnamed _).2 ⟨badOperands, rfl, .element 2 .lt (.double (.infinite true)) false, Or.inl ?_,
      by decide⟩
    refine ⟨[.column .name .eq (.data []), .element 1 .eq (.long 5) false],
      [.element 3 .eq (.data [7]) false], rfl, ⟨rfl, rfl⟩, fun other hother => ?_⟩
    simp only [List.mem_cons, List.not_mem_nil, or_false] at hother
    rcases hother with rfl | rfl
    · exact fun h => absurd h.1 (by decide)
    · exact fun h => h.2
  exact ⟨hgroup, hrefused, (hsame _ _ rfl hgroup _ _ _ _).1 hrefused⟩

end Query

end MetadataStore
