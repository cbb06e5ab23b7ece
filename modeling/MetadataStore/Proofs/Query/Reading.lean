import Mathlib.Data.List.Forall2
import MetadataStore.Proofs.Query.Assembly
import MetadataStore.Proofs.Query.Literals
import MetadataStore.Proofs.Query.Parts

/-!
# `Proofs.Query.Reading` — a condition is read off its text

A condition says at its beginning of which sort it is, and whoever has read its parts knows where it ends:
a negation and a disjunction stand in parentheses of their own, and so do several links of a conjunction in
a row. Where one link ends and the next one begins can therefore not be taken for anything else, and what
is lost in the text is lost in the meaning as well: how a conjunction was grouped, and whether a membership
was among one or among all of several. It is lost in the other dialect too, where a tree makes a condition of
the same parts.

## Contents
- `Piece.join_read`: rows are read part by part.
- `Condition.Proper`, the conditions that trees make; `Condition.links`, their conjuncts.
- `Condition.leadOf`, `Condition.Proper.head`: how a condition begins.
- `Condition.Same`, conditions that are not told apart.
- `Condition.Legible`, with one lemma for each sort of condition, and `Condition.Proper.legible`.
-/

namespace MetadataStore.Query

variable {dialect : Dialect} {rest rest' : List Char}

/-! ## Rows -/

theorem Piece.join_cons_cons (separator : String) (x y : List Piece) (more : List (List Piece)) :
    join separator (x :: y :: more) = x ++ .code separator :: join separator (y :: more) := rfl

theorem Piece.join_append {separator : String} {xs ys : List (List Piece)} (hxs : xs ≠ []) (hys : ys ≠ []) :
    join separator (xs ++ ys) = join separator xs ++ .code separator :: join separator ys := by
  induction xs with
  | nil => exact absurd rfl hxs
  | cons x xs ih =>
    cases xs with
    | nil =>
      cases ys with
      | nil => exact absurd rfl hys
      | cons y ys => rfl
    | cons next xs =>
      rw [List.cons_append, List.cons_append, join_cons_cons, ← List.cons_append, ih (by simp),
        join_cons_cons, List.append_assoc, List.cons_append]

/-- **Rows of parts are read part by part**: where each part is read up to where it stops, so is a row with
a separator that begins with a blank, up to the parenthesis behind it. -/
theorem Piece.join_read {α : Type} {write : α → List Piece} {Same : α → α → Prop} {separator : String}
    {xs ys : List α} (hseparator : separator.toList.head? = some ' ')
    (hread : ∀ x ∈ xs, ∀ y ∈ ys, Tell (write x) (write y) (Same x y))
    (hxs : xs ≠ []) (hys : ys ≠ []) (hrest : rest.head? = some ')') (hrest' : rest'.head? = some ')')
    (h : chars (join separator (xs.map write)) ++ rest = chars (join separator (ys.map write)) ++ rest') :
    List.Forall₂ Same xs ys ∧ rest = rest' := by
  have hmore : ∀ tail, (separator.toList ++ tail).head? = some ' ' := by
    intro tail
    rw [List.head?_append, hseparator]
    rfl
  have hends : ∀ {tail tail' : List Char}, tail.head? = some ' ' → tail'.head? = some ')' →
      tail ≠ tail' := by
    rintro tail tail' hblank hclose rfl
    cases hblank.symm.trans hclose
  induction xs generalizing ys with
  | nil => exact absurd rfl hxs
  | cons x xs ih =>
    cases ys with
    | nil => exact absurd rfl hys
    | cons y ys =>
      have hhead : Tell (write x) (write y) (Same x y) := hread x List.mem_cons_self y List.mem_cons_self
      rcases xs with _ | ⟨x', xs⟩ <;> rcases ys with _ | ⟨y', ys⟩
      · obtain ⟨hsame, hrests⟩ := hhead _ _ (stops_of_close hrest) (stops_of_close hrest') h
        exact ⟨.cons hsame .nil, hrests⟩
      · -- the second row goes on where the first one is closed
        simp only [List.map_cons, join_cons_cons, chars_append, chars_code, List.append_assoc] at h
        obtain ⟨-, hrests⟩ := hhead _ _ (stops_of_close hrest) (stops_of_blank (hmore _)) h
        exact absurd hrests.symm (hends (hmore _) hrest)
      · simp only [List.map_cons, join_cons_cons, chars_append, chars_code, List.append_assoc] at h
        obtain ⟨-, hrests⟩ := hhead _ _ (stops_of_blank (hmore _)) (stops_of_close hrest') h
        exact absurd hrests (hends (hmore _) hrest')
      · simp only [List.map_cons, join_cons_cons, chars_append, chars_code, List.append_assoc] at h
        obtain ⟨hsame, hrests⟩ := hhead _ _ (stops_of_blank (hmore _)) (stops_of_blank (hmore _)) h
        rw [List.append_cancel_left_eq] at hrests
        have hread' : ∀ x ∈ x' :: xs, ∀ y ∈ y' :: ys, Tell (write x) (write y) (Same x y) :=
          fun x hx y hy => hread x (List.mem_cons_of_mem _ hx) y (List.mem_cons_of_mem _ hy)
        obtain ⟨hall, hrest⟩ := ih hread' (by simp) (by simp) hrests
        exact ⟨.cons hsame hall, hrest⟩

/-! ## Conditions -/

namespace Condition

/-- A condition that is no bare conjunction. -/
def IsLink : Condition → Prop
  | .and .. => False
  | _ => True

/-- The links of a conjunction without parentheses of their own. -/
def links : Condition → List Condition
  | .and left right => left.links ++ right.links
  | condition => [condition]

/-- The conditions that trees make: a column is not compared with a span, and a bare conjunction stands
in a group alone. -/
inductive Proper : Condition → Prop
  | column {c : Column} {comparison : Comparison} :
    comparison.Proper → ¬comparison.IsSpan → Proper (.column c comparison)
  | among {subquery : Subquery} :
    subquery.comparison.Proper → Proper (.among subquery)
  | amongAll {first : Subquery} {more : List Subquery} :
    (∀ subquery ∈ first :: more, subquery.comparison.Proper) → Proper (.amongAll first more)
  | not {inner : Condition} : inner.IsLink → Proper inner → Proper (.not inner)
  | or {left right : Condition} : left.IsLink → right.IsLink → Proper left →
    Proper right → Proper (.or left right)
  | and {left right : Condition} : Proper left → Proper right →
    Proper (.and left right)
  | group {inner : Condition} : Proper inner → Proper (.group inner)

variable {condition condition' : Condition}

theorem links_of_isLink (h : condition.IsLink) : condition.links = [condition] := by
  cases condition with
  | and left right => cases h
  | _ => rfl

theorem links_ne_nil (condition : Condition) : condition.links ≠ [] := by
  induction condition with
  | and left right ihl ihr => simp [links, ihl]
  | _ => simp [links]

theorem Proper.links (h : condition.Proper) :
    ∀ link ∈ condition.links, link.Proper ∧ link.IsLink := by
  induction h with
  | and _ _ ihl ihr => exact List.forall_mem_append.2 ⟨ihl, ihr⟩
  | column hcomparison hspan => exact List.forall_mem_singleton.2 ⟨.column hcomparison hspan, trivial⟩
  | among hsubquery => exact List.forall_mem_singleton.2 ⟨.among hsubquery, trivial⟩
  | amongAll hsubqueries => exact List.forall_mem_singleton.2 ⟨.amongAll hsubqueries, trivial⟩
  | not hlink hinner => exact List.forall_mem_singleton.2 ⟨.not hlink hinner, trivial⟩
  | or hlink hlink' hleft hright =>
    exact List.forall_mem_singleton.2 ⟨.or hlink hlink' hleft hright, trivial⟩
  | group hinner => exact List.forall_mem_singleton.2 ⟨.group hinner, trivial⟩

/-- A conjunction is written as the row of its links, and means all of them. -/
theorem pieces_links (condition : Condition) :
    condition.pieces dialect = Piece.join " AND " (condition.links.map (pieces dialect)) := by
  induction condition with
  | and left right ihl ihr =>
    rw [links, List.map_append, Piece.join_append (by simp [links_ne_nil]) (by simp [links_ne_nil]),
      pieces, ihl, ihr]
  | _ => rfl

theorem truth_links (db : Database) (row : UnitRow) (condition : Condition) :
    condition.truth db row = allTruth db row condition.links := by
  induction condition with
  | and left right ihl ihr => rw [links, allTruth_append, truth, ihl, ihr]
  | _ => exact (Truth.and_yes _).symm

theorem chars_not (inner : Condition) (tail : List Char) :
    Piece.chars ((Condition.not inner).pieces dialect) ++ tail =
      "NOT (".toList ++ (Piece.chars (inner.pieces dialect) ++ ')' :: tail) := by
  simp [pieces]

theorem chars_or (left right : Condition) (tail : List Char) :
    Piece.chars ((Condition.or left right).pieces dialect) ++ tail =
      '(' :: (Piece.chars (left.pieces dialect) ++
        (" OR ".toList ++ (Piece.chars (right.pieces dialect) ++ ')' :: tail))) := by
  simp [pieces]

theorem chars_group (inner : Condition) (tail : List Char) :
    Piece.chars ((Condition.group inner).pieces dialect) ++ tail =
      '(' :: (Piece.chars (inner.pieces dialect) ++ ')' :: tail) := by
  simp [pieces]

/-! ### What begins a condition -/

/-- The sorts of conditions that are told from how they begin. -/
inductive Lead where
  | column | membership | negation | group

/-- The sort of condition that begins so. -/
def leadOf : List Char → Lead
  | 'N' :: _ => .negation
  | '(' :: tail => if "ut.tenantid,".toList.isPrefixOf tail then .membership else .group
  | _ => .column

/-- The sort of a condition. -/
def lead : Condition → Lead
  | .column .. => .column
  | .among _ | .amongAll .. => .membership
  | .not _ => .negation
  | .or .. | .group _ => .group
  | .and left _ => left.lead

/-- A comparison of a column begins with a letter of its own, and behind the name no comma follows. -/
theorem head_column {comparison : Comparison} (hspan : ¬comparison.IsSpan) (c : Column) (tail : List Char) :
    leadOf (Piece.chars (comparison.pieces dialect c.text) ++ tail) = .column ∧
      "ut.tenantid,".toList.isPrefixOf (Piece.chars (comparison.pieces dialect c.text) ++ tail) = false := by
  rw [Comparison.chars_pieces hspan, List.append_assoc, List.append_assoc]
  unfold Comparison.subject
  cases comparison.isLowered with
  | true => simp [leadOf, List.isPrefixOf]
  | false =>
    cases c <;> cases comparison.operator <;> simp [leadOf, List.isPrefixOf, Column.text, Operator.text]

theorem chars_membership (query : List Piece) :
    Piece.chars (membership query) =
      '(' :: ("ut.tenantid,".toList ++ (" ut.unitid) IN (".toList ++ (Piece.chars query ++ [')']))) := by
  simp [membership, identity]

theorem leadOf_open (tail : List Char) :
    leadOf ('(' :: tail) =
      if "ut.tenantid,".toList.isPrefixOf tail then .membership else .group := rfl

/-- **How a condition begins tells its sort.** In a group no condition begins with the identity of units
that a membership is about. -/
theorem Proper.head (h : condition.Proper) (tail : List Char) :
    leadOf (Piece.chars (condition.pieces dialect) ++ tail) = condition.lead ∧
      "ut.tenantid,".toList.isPrefixOf (Piece.chars (condition.pieces dialect) ++ tail) = false := by
  have hmembership : ∀ query tail, leadOf (Piece.chars (membership query) ++ tail) = .membership ∧
      "ut.tenantid,".toList.isPrefixOf (Piece.chars (membership query) ++ tail) = false := by
    intro query tail
    rw [chars_membership, List.cons_append, List.append_assoc, leadOf_open, if_pos]
    · exact ⟨rfl, by simp [List.isPrefixOf]⟩
    · exact List.isPrefixOf_iff_prefix.2 (List.prefix_append _ _)
  have hopen : ∀ inner, "ut.tenantid,".toList.isPrefixOf inner = false →
      leadOf ('(' :: inner) = .group ∧ "ut.tenantid,".toList.isPrefixOf ('(' :: inner) = false := by
    intro inner hinner
    rw [leadOf_open, hinner]
    exact ⟨rfl, by simp [List.isPrefixOf]⟩
  induction h generalizing tail with
  | @column c comparison _ hspan => exact head_column hspan c tail
  | among _ => exact hmembership _ tail
  | amongAll _ => exact hmembership _ tail
  | not _ _ _ =>
    rw [chars_not]
    simp [leadOf, lead, List.isPrefixOf]
  | or _ _ _ _ ihl _ =>
    rw [chars_or]
    exact hopen _ (ihl _).2
  | and _ _ ihl _ =>
    simp only [pieces, Piece.chars_code, Piece.chars_append, List.append_assoc]
    exact ihl _
  | group _ ih =>
    rw [chars_group]
    exact hopen _ (ih _).2

/-! ### What a condition means -/

/-- Conditions that mean the same in every database, and whose parts every dialect writes alike. -/
structure Same (condition condition' : Condition) : Prop where
  truth : ∀ db row, condition.truth db row = condition'.truth db row
  parts : ∀ other, condition.parts other = condition'.parts other

theorem parts_links (other : Dialect) (condition : Condition) :
    condition.parts other = allParts other condition.links := by
  induction condition with
  | and left right ihl ihr => rw [links, allParts_append, ← ihl, ← ihr, parts]
  | _ => exact (allParts_singleton other _).symm

theorem allTruth_congr {xs ys : List Condition} (h : List.Forall₂ Same xs ys) (db : Database)
    (row : UnitRow) : allTruth db row xs = allTruth db row ys := by
  induction h with
  | nil => rfl
  | cons hsame _ ih => rw [allTruth, allTruth, hsame.truth, ih]

theorem allParts_congr {xs ys : List Condition} (h : List.Forall₂ Same xs ys) (other : Dialect) :
    allParts other xs = allParts other ys := by
  induction h with
  | nil => rfl
  | @cons x y xs ys hsame _ ih =>
    rw [← List.singleton_append, allParts_append, ih, ← List.singleton_append (l := ys), allParts_append,
      allParts_singleton, allParts_singleton, hsame.parts]

/-- **Memberships with the same text are the same**: so are the subqueries, one by one. -/
theorem read_amongAll {first first' : Subquery} {more more' : List Subquery}
    (hproper : ∀ subquery ∈ first :: more, subquery.comparison.Proper)
    (hproper' : ∀ subquery ∈ first' :: more', subquery.comparison.Proper) :
    Piece.Tell ((Condition.amongAll first more).pieces dialect)
      ((Condition.amongAll first' more').pieces dialect)
      ((Condition.amongAll first more).Same (.amongAll first' more')) := by
  intro rest rest' _ _ h
  simp only [pieces, Dialect.intersection, chars_membership, List.cons_append, List.append_assoc,
    List.cons.injEq, true_and, List.append_cancel_left_eq] at h
  have hread : ∀ x ∈ first :: more, ∀ y ∈ first' :: more',
      Piece.Tell (x.pieces dialect) (y.pieces dialect) (x.Same y) :=
    fun x hx y hy => Subquery.read (hproper x hx) (hproper' y hy)
  obtain ⟨hall, hrests⟩ := Piece.join_read (by decide) hread (by simp) (by simp) (by simp) (by simp) h
  refine ⟨⟨fun db row => ?_, fun other => ?_⟩, (List.cons.inj hrests).2⟩
  · rw [truth, truth, contains_selectedByAll, contains_selectedByAll]
    congr 1
    generalize first :: more = xs at hall
    generalize first' :: more' = ys at hall
    induction hall with
    | nil => rfl
    | cons hsame _ ih => rw [List.all_cons, List.all_cons, hsame.selected db, ih]
  · have htexts : (first :: more).map (Subquery.pieces other) =
        (first' :: more').map (Subquery.pieces other) := by
      rw [← List.forall₂_eq_eq_eq, List.forall₂_map_left_iff, List.forall₂_map_right_iff]
      exact hall.imp fun _ _ hsame => hsame.pieces other
    exact congrArg (Prod.mk []) htexts

/-- A membership in what one subquery selects is one in what all of several do. -/
theorem Proper.exists_amongAll (h : condition.Proper) (hlink : condition.IsLink)
    (hlead : condition.lead = .membership) (dialect : Dialect) :
    ∃ first more, (∀ subquery ∈ first :: more, subquery.comparison.Proper) ∧
      condition.pieces dialect = (Condition.amongAll first more).pieces dialect ∧
      condition.Same (.amongAll first more) := by
  cases h with
  | @among subquery hsubquery =>
    refine ⟨subquery, [], fun other hmem => ?_, rfl, fun _ _ => rfl, fun _ => rfl⟩
    rwa [List.mem_singleton.1 hmem]
  | @amongAll first more hsubqueries =>
    exact ⟨first, more, hsubqueries, rfl, fun _ _ => rfl, fun _ => rfl⟩
  | and _ _ => cases hlink
  | _ => cases hlead

/-! ### Reading a condition -/

/-- Whatever proper link has the same text as the condition is the same. -/
def Legible (dialect : Dialect) (condition : Condition) : Prop :=
  ∀ condition' : Condition, condition'.Proper → condition'.IsLink →
    Piece.Tell (condition.pieces dialect) (condition'.pieces dialect) (condition.Same condition')

theorem legible_of_links (hlink : condition.IsLink)
    (h : ∀ link ∈ condition.links, link.Legible dialect) : condition.Legible dialect := by
  rw [links_of_isLink hlink] at h
  exact h condition (List.mem_singleton_self condition)

/-- The sort of a condition is told by its text. -/
theorem lead_eq (h : condition.Proper) (h' : condition'.Proper)
    (htext : Piece.chars (condition.pieces dialect) ++ rest =
      Piece.chars (condition'.pieces dialect) ++ rest') : condition.lead = condition'.lead := by
  have hhead : leadOf (Piece.chars (condition.pieces dialect) ++ rest) = condition.lead := (h.head rest).1
  rw [← hhead, htext, (h'.head rest').1]

theorem Proper.legible_column {c : Column} {comparison : Comparison}
    (h : (Condition.column c comparison).Proper) : (Condition.column c comparison).Legible dialect := by
  intro condition' h' hlink' rest rest' hrest hrest' htext
  have hlead := lead_eq h h' htext
  cases h with
  | column hproper hspan =>
    cases h' with
    | column hproper' hspan' =>
      obtain ⟨⟨hcolumn, hsame⟩, hrests⟩ := Comparison.read (isName_column _) (isName_column _)
        hproper hproper' rest rest' hrest hrest' htext
      refine ⟨⟨fun db row => ?_, fun other => ?_⟩, hrests⟩
      · rw [truth, truth, column_text_injective hcolumn, hsame.truth]
      · rw [parts, parts, hcolumn, hsame.pieces]
    | and _ _ => cases hlink'
    | _ => cases hlead

theorem Proper.legible_membership (h : condition.Proper) (hlink : condition.IsLink)
    (hmembership : condition.lead = .membership) : condition.Legible dialect := by
  intro condition' h' hlink' rest rest' hrest hrest' htext
  have hlead := lead_eq h h' htext
  obtain ⟨first, more, hproper, hpieces, hsame⟩ := h.exists_amongAll hlink hmembership dialect
  obtain ⟨first', more', hproper', hpieces', hsame'⟩ :=
    h'.exists_amongAll hlink' (hlead.symm.trans hmembership) dialect
  rw [hpieces, hpieces'] at htext
  obtain ⟨hall, hrests⟩ := read_amongAll hproper hproper' rest rest' hrest hrest' htext
  refine ⟨⟨fun db row => ?_, fun other => ?_⟩, hrests⟩
  · rw [hsame.truth, hall.truth, hsame'.truth]
  · rw [hsame.parts, hall.parts, hsame'.parts]

theorem Proper.legible_not {inner : Condition} (h : (Condition.not inner).Proper)
    (hinner : inner.Legible dialect) : (Condition.not inner).Legible dialect := by
  intro condition' h' hlink' rest rest' hrest hrest' htext
  have hlead := lead_eq h h' htext
  cases h' with
  | @not inner' hlinki hproper =>
    rw [chars_not, chars_not, List.append_cancel_left_eq] at htext
    obtain ⟨hsame, hrests⟩ :=
      hinner inner' hproper hlinki _ _ (stops_of_close rfl) (stops_of_close rfl) htext
    refine ⟨⟨fun db row => ?_, fun other => ?_⟩, (List.cons.inj hrests).2⟩
    · rw [truth, truth, hsame.truth]
    · rw [parts, parts, hsame.parts]
  | and _ _ => cases hlink'
  | _ => cases hlead

/-- A group is no disjunction: behind its first link it goes on otherwise, or is closed. -/
theorem row_ne_or {xs : List Condition} {left : Condition} {fact : Condition → Prop} (hxs : xs ≠ [])
    (hread : ∀ x ∈ xs, Piece.Tell (x.pieces dialect) (left.pieces dialect) (fact x)) :
    Piece.chars (Piece.join " AND " (xs.map (pieces dialect))) ++ ')' :: rest ≠
      Piece.chars (left.pieces dialect) ++ (" OR ".toList ++ rest') := by
  intro h
  rcases xs with _ | ⟨x, _ | ⟨y, more⟩⟩
  · exact hxs rfl
  · obtain ⟨-, hrests⟩ := hread x List.mem_cons_self _ _
      (stops_of_close rfl) (stops_of_blank (by simp)) h
    simp at hrests
  · simp only [List.map_cons, Piece.join_cons_cons, Piece.chars_append, Piece.chars_code,
      List.append_assoc] at h
    obtain ⟨-, hrests⟩ := hread x List.mem_cons_self _ _
      (stops_of_blank (by simp)) (stops_of_blank (by simp)) h
    simp at hrests

theorem Proper.legible_or {left right : Condition} (h : (Condition.or left right).Proper)
    (hleft : left.Legible dialect) (hright : right.Legible dialect) :
    (Condition.or left right).Legible dialect := by
  intro condition' h' hlink' rest rest' hrest hrest' htext
  have hlead := lead_eq h h' htext
  cases h' with
  | @or left' right' hlinkl hlinkr hproperl hproperr =>
    rw [chars_or, chars_or, List.cons.injEq] at htext
    obtain ⟨hsamel, hmiddle⟩ := hleft left' hproperl hlinkl _ _
      (stops_of_blank (by simp)) (stops_of_blank (by simp)) htext.2
    rw [List.append_cancel_left_eq] at hmiddle
    obtain ⟨hsamer, hrests⟩ :=
      hright right' hproperr hlinkr _ _ (stops_of_close rfl) (stops_of_close rfl) hmiddle
    refine ⟨⟨fun db row => ?_, fun other => ?_⟩, (List.cons.inj hrests).2⟩
    · rw [truth, truth, hsamel.truth, hsamer.truth]
    · rw [parts, parts, hsamel.parts, hsamer.parts]
  | @group inner hproper =>
    rw [chars_or, chars_group, pieces_links inner, List.cons.injEq] at htext
    have hread : ∀ x ∈ inner.links, Piece.Tell (x.pieces dialect) (left.pieces dialect) (left.Same x) := by
      intro x hx
      obtain ⟨hproperx, hlinkx⟩ := hproper.links x hx
      exact (hleft x hproperx hlinkx).symm
    exact absurd htext.2.symm (row_ne_or inner.links_ne_nil hread)
  | and _ _ => cases hlink'
  | _ => cases hlead

theorem Proper.legible_group {inner : Condition} (h : (Condition.group inner).Proper)
    (hinner : ∀ link ∈ inner.links, link.Legible dialect) :
    (Condition.group inner).Legible dialect := by
  intro condition' h' hlink' rest rest' hrest hrest' htext
  have hlead := lead_eq h h' htext
  cases h' with
  | @or left right hlinkl _ hproperl _ =>
    rw [chars_group, chars_or, pieces_links inner, List.cons.injEq] at htext
    have hread : ∀ x ∈ inner.links, Piece.Tell (x.pieces dialect) (left.pieces dialect) (x.Same left) :=
      fun x hx => hinner x hx left hproperl hlinkl
    exact absurd htext.2 (row_ne_or inner.links_ne_nil hread)
  | @group inner' hproper =>
    rw [chars_group, chars_group, pieces_links inner, pieces_links inner', List.cons.injEq] at htext
    have hread : ∀ x ∈ inner.links, ∀ y ∈ inner'.links,
        Piece.Tell (x.pieces dialect) (y.pieces dialect) (x.Same y) := by
      intro x hx y hy
      obtain ⟨hpropery, hlinky⟩ := hproper.links y hy
      exact hinner x hx y hpropery hlinky
    obtain ⟨hall, hrests⟩ := Piece.join_read (by decide) hread inner.links_ne_nil inner'.links_ne_nil
      rfl rfl htext.2
    refine ⟨⟨fun db row => ?_, fun other => ?_⟩, (List.cons.inj hrests).2⟩
    · rw [truth, truth, truth_links db row inner, truth_links db row inner', allTruth_congr hall]
    · rw [parts, parts, parts_links other inner, parts_links other inner', allParts_congr hall]
  | and _ _ => cases hlink'
  | _ => cases hlead

/-- **Conditions are read off their text**, link by link. By induction on how the condition is made: only a
conjunction has several links, and it is read where it is grouped. -/
theorem Proper.legible (h : condition.Proper) :
    ∀ link ∈ condition.links, link.Legible dialect := by
  induction h with
  | column hproper hspan =>
    exact List.forall_mem_singleton.2 (legible_column (.column hproper hspan))
  | among hproper =>
    exact List.forall_mem_singleton.2 (legible_membership (.among hproper) trivial rfl)
  | amongAll hproper =>
    exact List.forall_mem_singleton.2 (legible_membership (.amongAll hproper) trivial rfl)
  | not hlink hproper ih =>
    exact List.forall_mem_singleton.2 (legible_not (.not hlink hproper) (legible_of_links hlink ih))
  | or hlinkl hlinkr hproperl hproperr ihl ihr =>
    exact List.forall_mem_singleton.2 (legible_or (.or hlinkl hlinkr hproperl hproperr)
      (legible_of_links hlinkl ihl) (legible_of_links hlinkr ihr))
  | and _ _ ihl ihr => exact List.forall_mem_append.2 ⟨ihl, ihr⟩
  | group hproper ih => exact List.forall_mem_singleton.2 (legible_group (.group hproper) ih)

end Condition

end MetadataStore.Query
