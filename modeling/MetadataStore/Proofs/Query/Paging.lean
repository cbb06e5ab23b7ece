import MetadataStore.Proofs.Query.Literals
import MetadataStore.Proofs.Query.Order
import MetadataStore.Proofs.Query.Selection

/-!
# `Proofs.Query.Paging` — pages tile what a search hits

The engines write a page differently, but the clause of either denotes one window of the rows, and the
windows of pages in a row make up the whole. For this to say something about searches the rows have to
stand in the same order each time: they do when numbers count, since then the order leaves no choice.

## Contents
- `Window`; `Paging.window`, the window that a choice of rows asks for.
- `Dialect.window?`, the window that the words of a clause denote; `window?_pagingClause`: both dialects
  write the same.
- `Paging.pages_tile`: the pages of a list, up to the first that is short, are the list.
- `Dialect.Answers`, what an engine may hand out for a search; `Dialect.answers_iff`.
- `Repository.search_pages_tile`: pages tile what a search without page hits.
-/

namespace MetadataStore

/-! ## Numbers -/

/-- The text of an integer denotes it. -/
theorem Number.integer?_integer (i : Int) : integer? (Text.integer i) = some i := by
  have hdigits := Text.readDigits?_digits i.natAbs
  by_cases hi : i < 0
  · have hcut : cutSign (Text.integer i).toList = (true, Text.digits i.natAbs) := by
      simp [Text.integer, hi, cutSign]
    rw [integer?, hcut]
    dsimp only
    rw [hdigits]
    show some (-(i.natAbs : Int)) = some i
    rw [Option.some.injEq]
    omega
  · have hcut : cutSign (Text.integer i).toList = (false, Text.digits i.natAbs) := by
      simp only [Text.integer, hi, if_false, List.nil_append, String.toList_ofList]
      have hminus : '-' ∉ Text.digits i.natAbs := Text.not_mem_digits (by decide)
      have hplus : '+' ∉ Text.digits i.natAbs := Text.not_mem_digits (by decide)
      unfold cutSign
      split
      · rename_i hhead
        exact absurd (hhead ▸ List.mem_cons_self) hminus
      · rename_i hhead
        exact absurd (hhead ▸ List.mem_cons_self) hplus
      · rfl
    rw [integer?, hcut]
    dsimp only
    rw [hdigits]
    show some (i.natAbs : Int) = some i
    rw [Option.some.injEq]
    omega

/-! ## Windows -/

/-- How many rows to leave out, and how many of those behind to keep, if not all. -/
structure Window where
  skipped : Nat
  kept : Option Nat
  deriving DecidableEq, Repr

/-- The rows in a window. -/
def Window.slice {α : Type} (window : Window) (rows : List α) : List α :=
  match window.kept with
  | none => rows.drop window.skipped
  | some count => (rows.drop window.skipped).take count

/-- A count of which zero means all. -/
def Window.cap (count : Nat) : Option Nat :=
  if 0 < count then some count else none

namespace Paging

variable {α : Type} {offset size first : Nat}

/-- The window that a choice of rows asks for. -/
def window (paging : Paging) : Window :=
  if paging.isPaged then ⟨paging.offset, Window.cap paging.size⟩ else ⟨0, Window.cap paging.first⟩

theorem slice_window (paging : Paging) (rows : List α) : paging.window.slice rows = paging.slice rows := by
  unfold window slice
  split
  · by_cases hsize : 0 < paging.size <;> simp [Window.slice, Window.cap, hsize]
  · by_cases hfirst : 0 < paging.first <;> simp [Window.slice, Window.cap, hfirst]

theorem isPaged_iff : (⟨offset, size, first⟩ : Paging).isPaged = true ↔ 0 < offset ∨ 0 < size := by
  simp [isPaged]

/-- A page of some size. -/
theorem slice_page (hsize : 0 < size) (rows : List α) :
    (⟨offset, size, first⟩ : Paging).slice rows = (rows.drop offset).take size := by
  simp only [slice, isPaged_iff.2 (Or.inr hsize), hsize, if_true]

/-- A page of size zero is everything from its offset on. -/
theorem slice_unsized (h : 0 < offset ∨ first = 0) (rows : List α) :
    (⟨offset, 0, first⟩ : Paging).slice rows = rows.drop offset := by
  by_cases hoffset : 0 < offset
  · simp [slice, isPaged, hoffset]
  · obtain rfl := h.resolve_left hoffset
    obtain rfl := Nat.eq_zero_of_not_pos hoffset
    rfl

/-- The first rows are asked for by a choice without a page. -/
theorem slice_first (hfirst : 0 < first) (rows : List α) :
    (⟨0, 0, first⟩ : Paging).slice rows = rows.take first := by
  simp [slice, isPaged, hfirst]

/-- A page wins over the first rows. -/
theorem slice_ignores_first (h : 0 < offset ∨ 0 < size) (rows : List α) :
    (⟨offset, size, first⟩ : Paging).slice rows = (⟨offset, size, 0⟩ : Paging).slice rows := by
  simp only [slice, isPaged_iff.2 h, if_true]

/-! ## Pages in a row -/

/-- Pages in a row are the front of the list. By induction on how many they are. -/
theorem flatMap_pages (rows : List α) (size count : Nat) :
    (List.range count).flatMap (fun k => (rows.drop (k * size)).take size) =
      rows.take (count * size) := by
  induction count with
  | zero => simp
  | succ count ih =>
    rw [List.range_succ, List.flatMap_append, ih, Nat.succ_mul, List.take_add]
    simp

/-- **The pages of a list, up to the first that is short, are the list.** There is one that is short: the
one behind as many pages as are full. -/
theorem pages_tile (hsize : 0 < size) (first : Nat) (rows : List α) :
    ∃ last : Nat,
      (∀ k < last, ((⟨k * size, size, first⟩ : Paging).slice rows).length = size) ∧
      ((⟨last * size, size, first⟩ : Paging).slice rows).length < size ∧
      (List.range (last + 1)).flatMap (fun k => (⟨k * size, size, first⟩ : Paging).slice rows) =
        rows := by
  simp only [slice_page hsize, List.length_take, List.length_drop]
  refine ⟨rows.length / size, fun k hk => ?_, ?_, ?_⟩
  · have hfull : (k + 1) * size ≤ rows.length :=
      Nat.le_trans (Nat.mul_le_mul_right size hk) (Nat.div_mul_le_self _ _)
    rw [Nat.succ_mul] at hfull
    omega
  · have hrest := Nat.mod_lt rows.length hsize
    rw [Nat.mod_eq_sub_div_mul] at hrest
    omega
  · have hbehind : rows.length ≤ (rows.length / size + 1) * size := by
      rw [Nat.mul_comm]
      exact Nat.le_of_lt (Nat.lt_mul_div_succ _ hsize)
    rw [flatMap_pages, List.take_of_length_le hbehind]

example : (List.range 3).map (fun k => (⟨k * 2, 2, 0⟩ : Paging).slice ["a", "b", "c", "d", "e"]) =
    [["a", "b"], ["c", "d"], ["e"]] := by
  decide

end Paging

namespace Query

/-! ## Clauses -/

/-- The words of a text, which blanks keep apart. -/
def words (text : String) : List String :=
  ((text.toList.splitOn ' ').filter (! ·.isEmpty)).map String.ofList

/-- A text of words, each with a blank in front. -/
def spaced (ws : List String) : String :=
  String.join (ws.map (" " ++ ·))

/-- A word is not empty and holds no blank. -/
def IsPlain (w : String) : Prop :=
  w.toList ≠ [] ∧ ' ' ∉ w.toList

instance : DecidablePred IsPlain := fun w => inferInstanceAs (Decidable (w.toList ≠ [] ∧ ' ' ∉ w.toList))

theorem toList_spaced_cons (w : String) (ws : List String) :
    (spaced (w :: ws)).toList = ' ' :: (w.toList ++ (spaced ws).toList) := by
  simp [spaced]

/-- Words with blanks in front are read off again. By induction on the words: the first blank cuts off
nothing, and each word goes up to the next blank. -/
theorem words_spaced {ws : List String} (h : ∀ w ∈ ws, IsPlain w) : words (spaced ws) = ws := by
  have hsplit : (spaced ws).toList.splitOn ' ' = [] :: ws.map String.toList := by
    induction ws with
    | nil => rfl
    | cons w ws ih =>
      have hblank : (' ' == ' ') = true := rfl
      rw [toList_spaced_cons, List.splitOn_cons_eq_if_modifyHead, hblank, if_pos rfl,
        splitOn_append_of_not_mem _ (h w List.mem_cons_self).2,
        ih fun w hw => h w (List.mem_cons_of_mem _ hw)]
      simp
  have hfull : (ws.map String.toList).filter (! ·.isEmpty) = ws.map String.toList := by
    refine List.filter_eq_self.2 fun cs hcs => ?_
    obtain ⟨w, hw, rfl⟩ := List.mem_map.1 hcs
    simpa using (h w hw).1
  rw [words, hsplit, List.filter_cons_of_neg (by decide), hfull, List.map_map]
  simp

/-- The limit of rows that SQLite reads from a word. A negative limit is none. -/
def limit? (word : String) : Option (Option Nat) :=
  (Number.integer? word).map fun limit => if limit < 0 then none else some limit.toNat

/-- The number of rows that a word denotes. -/
def rowCount? (word : String) : Option Nat :=
  (Number.integer? word).bind fun count => if count < 0 then none else some count.toNat

/-- The window that the words of a clause denote. -/
def Dialect.window? : Dialect → List String → Option Window
  | _, [] => some ⟨0, none⟩
  | .sqlite, ["LIMIT", size] => do
    let kept ← limit? size
    some ⟨0, kept⟩
  | .sqlite, ["LIMIT", size, "OFFSET", offset] => do
    let kept ← limit? size
    let skipped ← rowCount? offset
    some ⟨skipped, kept⟩
  | .postgresql, ["OFFSET", offset, "ROWS"] => do
    let skipped ← rowCount? offset
    some ⟨skipped, none⟩
  | .postgresql, ["FETCH", "FIRST", size, "ROWS", "ONLY"] => do
    let kept ← rowCount? size
    some ⟨0, some kept⟩
  | .postgresql, ["OFFSET", offset, "ROWS", "FETCH", "NEXT", size, "ROWS", "ONLY"] => do
    let skipped ← rowCount? offset
    let kept ← rowCount? size
    some ⟨skipped, some kept⟩
  | _, _ => none

theorem isPlain_integer (i : Int) : IsPlain (Text.integer i) := by
  refine ⟨?_, Text.not_mem_integer (by decide) (by decide)⟩
  intro hempty
  have hread := Number.integer?_integer i
  rw [Number.integer?, hempty] at hread
  cases hread

theorem rowCount?_integer (n : Nat) : rowCount? (Text.integer n) = some n := by
  simp [rowCount?, Number.integer?_integer]

theorem limit?_integer (n : Nat) : limit? (Text.integer n) = some (some n) := by
  simp [limit?, Number.integer?_integer]

theorem limit?_negative : limit? (Text.integer (-1)) = some none := by
  simp [limit?, Number.integer?_integer]

/-- The words of the clause that keeps only some rows. -/
def Dialect.pagingWords (dialect : Dialect) (paging : Paging) : List String :=
  match dialect with
  | .sqlite =>
    if paging.isPaged then
      let size : Int := if 0 < paging.size then paging.size else -1
      ["LIMIT", Text.integer size, "OFFSET", Text.integer paging.offset]
    else if 0 < paging.first then ["LIMIT", Text.integer paging.first]
    else []
  | .postgresql =>
    if paging.isPaged then
      ["OFFSET", Text.integer paging.offset, "ROWS"] ++
        (if 0 < paging.size then ["FETCH", "NEXT", Text.integer paging.size, "ROWS", "ONLY"] else [])
    else if 0 < paging.first then ["FETCH", "FIRST", Text.integer paging.first, "ROWS", "ONLY"]
    else []

theorem pagingClause_eq_spaced (dialect : Dialect) (paging : Paging) :
    dialect.pagingClause paging = spaced (dialect.pagingWords paging) := by
  rw [← String.toList_inj]
  cases dialect <;> by_cases hpaged : paging.isPaged <;> by_cases hsize : 0 < paging.size <;>
    by_cases hfirst : 0 < paging.first <;>
    simp [Dialect.pagingClause, Dialect.pagingWords, spaced, hpaged, hsize, hfirst]

/-- The words are integers and words of the language, whose letters hold no blank. -/
theorem isPlain_pagingWords (dialect : Dialect) (paging : Paging) :
    ∀ w ∈ dialect.pagingWords paging, IsPlain w := by
  cases dialect <;> by_cases hpaged : paging.isPaged <;> by_cases hsize : 0 < paging.size <;>
    by_cases hfirst : 0 < paging.first <;>
    simp +decide [Dialect.pagingWords, hpaged, hsize, hfirst, isPlain_integer]

theorem window?_pagingWords (dialect : Dialect) (paging : Paging) :
    dialect.window? (dialect.pagingWords paging) = some paging.window := by
  unfold Dialect.pagingWords Paging.window
  cases dialect <;> by_cases hpaged : paging.isPaged <;> by_cases hsize : 0 < paging.size <;>
    by_cases hfirst : 0 < paging.first <;>
    simp [hpaged, hsize, hfirst, Window.cap, Dialect.window?, rowCount?_integer, limit?_integer,
      limit?_negative]

/-- **The clause of either dialect denotes the window that is asked for.** -/
theorem window?_pagingClause (dialect : Dialect) (paging : Paging) :
    dialect.window? (words (dialect.pagingClause paging)) = some paging.window := by
  rw [pagingClause_eq_spaced, words_spaced (isPlain_pagingWords dialect paging), window?_pagingWords]

/-! ## Statements -/

section Statements

variable {dialect other : Dialect} {db : Database} {search : Search} {statement : Statement}

/-- A statement has the order and the page of its search, and the condition of its tree if there is one. -/
theorem Statement.ofSearch_cases (h : ofSearch dialect search = .ok statement) :
    (search.expression = none ∧ statement = ⟨none, search.order, search.paging⟩) ∨
      ∃ e condition, search.expression = some e ∧ Condition.ofExpression dialect e = .ok condition ∧
        statement = ⟨some condition, search.order, search.paging⟩ := by
  unfold ofSearch at h
  split at h
  · rename_i hnone
    exact .inl ⟨hnone, (Except.ok.inj h).symm⟩
  · rename_i e hsome
    split at h
    · rename_i condition hcondition
      exact .inr ⟨e, condition, hsome, hcondition, (Except.ok.inj h).symm⟩
    · cases h

/-- Nothing in a statement but its page depends on the page. -/
theorem Statement.ofSearch_paging (h : ofSearch dialect search = .ok statement) (paging : Paging) :
    ofSearch dialect { search with paging := paging } = .ok { statement with paging := paging } := by
  rcases ofSearch_cases h with ⟨hnone, rfl⟩ | ⟨e, condition, hsome, hcondition, rfl⟩
  · simp only [ofSearch, hnone]
  · simp only [ofSearch, hsome, hcondition]

/-- The clause of a page stands behind the statement without a page. -/
theorem compile_paging (h : Statement.ofSearch dialect search = .ok statement) :
    ∃ whole, compile dialect { search with paging := .none } = .ok whole ∧
      ∀ paging, compile dialect { search with paging := paging } =
        .ok (whole ++ dialect.pagingClause paging) := by
  obtain ⟨front, hfront⟩ : ∃ front, ∀ paging : Paging,
      ({ statement with paging := paging } : Statement).pieces dialect =
        front ++ [.code (dialect.pagingClause paging)] := by
    refine ⟨(statement.pieces dialect).dropLast, fun paging => ?_⟩
    simp only [Statement.pieces, List.dropLast_concat]
  have htext : ∀ paging, compile dialect { search with paging := paging } =
      .ok (Piece.text front ++ dialect.pagingClause paging) := by
    intro paging
    have hchars : Piece.chars (front ++ [.code (dialect.pagingClause paging)]) =
        (Piece.text front ++ dialect.pagingClause paging).toList := by
      rw [Piece.chars_append, Piece.chars_code, Piece.chars_nil, List.append_nil, String.toList_append]
      rfl
    rw [compile, Statement.ofSearch_paging h, ← String.toList_inj.1 hchars, ← hfront]
  refine ⟨Piece.text front, ?_, htext⟩
  have hbare : dialect.pagingClause .none = "" := by cases dialect <;> rfl
  rw [htext, hbare, String.append_empty]

/-- The rows that a statement matches are those of which the tree is true, whatever the dialect. -/
theorem Statement.mem_matching (h : ofSearch dialect search = .ok statement) {row : UnitRow} :
    row ∈ statement.matching db ↔
      row ∈ db.units ∧ ∀ e ∈ search.expression, e.truth .sqlite db row = .ok .yes := by
  rw [matching, List.mem_filter, and_congr_right_iff]
  intro hrow
  rcases ofSearch_cases h with ⟨hnone, rfl⟩ | ⟨e, condition, hsome, hcondition, rfl⟩
  · simp [hnone]
  · have hmeaning : e.truth .sqlite db row = .ok (condition.truth db row) := by
      rw [Expression.truth_dialect .sqlite dialect]
      exact Condition.truth_of_ofExpression hrow hcondition
    simp [hsome, hmeaning, Truth.holds]

theorem Statement.order_ofSearch (h : ofSearch dialect search = .ok statement) :
    statement.order = search.order := by
  rcases ofSearch_cases h with ⟨-, rfl⟩ | ⟨e, condition, -, -, rfl⟩ <;> rfl

/-- The dialects select the same rows in the same order. -/
theorem Statement.sorted_dialect {statement' : Statement} (h : ofSearch dialect search = .ok statement)
    (h' : ofSearch other search = .ok statement') : statement.sorted db = statement'.sorted db := by
  have hmatching : statement.matching db = statement'.matching db := by
    refine List.filter_congr fun row hrow => ?_
    have hsame : row ∈ statement.matching db ↔ row ∈ statement'.matching db :=
      (mem_matching h).trans (mem_matching h').symm
    simpa only [matching, List.mem_filter, hrow, true_and, Bool.coe_iff_coe] using hsame
  rw [sorted, sorted, hmatching, order_ofSearch h, order_ofSearch h']

/-! ## What engines answer -/

/-- The units that an engine may hand out for a search whose text it reads: it arranges the rows that match
in any way that the order allows, and keeps those in the window that it reads off the clause behind the
statement. -/
def Dialect.Answers (dialect : Dialect) (db : Database) (search : Search) (units : List UnitRef) : Prop :=
  ∃ statement whole clause window rows,
    Statement.ofSearch dialect search = .ok statement ∧
    compile dialect { search with paging := .none } = .ok whole ∧
    compile dialect search = .ok (whole ++ clause) ∧
    dialect.window? (words clause) = some window ∧
    statement.Arranges db rows ∧
    units = window.slice (rows.map (·.unit))

/-- **An engine has one answer to a search whose order has the number of units**: the rows of the page
from those that match in their order. -/
theorem Dialect.answers_iff (hids : db.IdsDistinct) (hid : Column.id ∈ search.order.map Prod.fst)
    (h : Statement.ofSearch dialect search = .ok statement) (units : List UnitRef) :
    dialect.Answers db search units ↔
      units = search.paging.slice ((statement.sorted db).map (·.unit)) := by
  obtain ⟨whole, hwhole, hpaged⟩ := compile_paging h
  have hwindow := window?_pagingClause dialect search.paging
  constructor
  · rintro ⟨statement', whole', clause, window, rows, hstatement, hwhole', hcompile, hread, hrows, rfl⟩
    cases h.symm.trans hstatement
    cases hwhole.symm.trans hwhole'
    -- what stands behind the statement without a page is the clause
    have hclause : dialect.pagingClause search.paging = clause := by
      have hboth := Except.ok.inj ((hpaged search.paging).symm.trans hcompile)
      rw [← String.toList_inj] at hboth ⊢
      simpa using hboth
    subst hclause
    cases hwindow.symm.trans hread
    rw [Paging.slice_window, hrows.eq_sorted hids (Statement.order_ofSearch h ▸ hid)]
  · rintro rfl
    exact ⟨statement, whole, _, _, _, h, hwhole, hpaged search.paging, hwindow,
      Statement.arranges_sorted db statement, (Paging.slice_window _ _).symm⟩

end Statements

end Query

namespace Repository

open Query

/-- Whether there is a statement for a search is no matter of dialect. -/
theorem exists_statement_of_compile {dialect : Dialect} {search : Search}
    (h : (compile dialect search).isOk = true) (other : Dialect) :
    ∃ statement, Statement.ofSearch other search = .ok statement := by
  have hgood : failure? (compile other search) = none := by
    rw [failure?_compile, ← failure?_compile dialect]
    cases hcompile : compile dialect search with
    | ok text => rfl
    | error fault =>
      rw [hcompile] at h
      cases h
  cases hstatement : Statement.ofSearch other search with
  | ok statement => exact ⟨statement, rfl⟩
  | error fault =>
    rw [compile, hstatement] at hgood
    cases hgood

/-- **Pages tile what a search hits.** When the number of units is among the columns of its order, a search
hits the units of which its tree is true in one order, which no engine, no page and no repository on the
same database changes. A page is a slice of them; the pages of a size up to the first that is short make
up all of them; a page of size zero has all from its offset on; and the first units are those in front,
unless a page is asked for. The clauses of both dialects denote the same window. Where a text of the tree
holds a null character, no page is read. The numbers of units are distinct wherever a session comes to
(`Session.Reachable.idsDistinct`). -/
theorem search_pages_tile {db : Database} {dialect : Dialect} {expression : Option Expression}
    {order : SearchOrder} (hids : db.IdsDistinct) (hid : Column.id ∈ order.map Prod.fst)
    (hcompile : (compile dialect ⟨expression, order, .none⟩).isOk = true) :
    ∃ hits : List UnitRef,
      hits.Nodup ∧
      (∀ unit, unit ∈ hits ↔
        ∃ row ∈ db.units, row.unit = unit ∧ ∀ e ∈ expression, e.truth .sqlite db row = .ok .yes) ∧
      (∀ (other : Dialect) paging units,
        other.Answers db ⟨expression, order, paging⟩ units ↔ units = paging.slice hits) ∧
      (∀ r : Repository, r.database = db → r.cache.Keyed → (∀ e ∈ expression, e.NullFree) →
        ∀ paging, r.Hits ⟨expression, order, paging⟩ (paging.slice hits)) ∧
      (∀ r : Repository, (¬∀ e ∈ expression, e.NullFree) →
        ∀ paging, r.Unread ⟨expression, order, paging⟩) ∧
      (∀ size first, 0 < size → ∃ last : Nat,
        (∀ k < last, ((⟨k * size, size, first⟩ : Paging).slice hits).length = size) ∧
        ((⟨last * size, size, first⟩ : Paging).slice hits).length < size ∧
        (List.range (last + 1)).flatMap (fun k => (⟨k * size, size, first⟩ : Paging).slice hits) =
          Paging.none.slice hits) ∧
      (∀ offset first, 0 < offset ∨ first = 0 →
        (⟨offset, 0, first⟩ : Paging).slice hits = hits.drop offset) ∧
      (∀ first, 0 < first → (⟨0, 0, first⟩ : Paging).slice hits = hits.take first) ∧
      (∀ offset size first, 0 < offset ∨ 0 < size →
        (⟨offset, size, first⟩ : Paging).slice hits = (⟨offset, size, 0⟩ : Paging).slice hits) ∧
      ∀ paging : Paging, ∃ window : Window, (∀ rows : List UnitRef, window.slice rows = paging.slice rows) ∧
        ∀ other : Dialect, other.window? (words (other.pagingClause paging)) = some window := by
  obtain ⟨statement, hstatement⟩ := exists_statement_of_compile hcompile .sqlite
  refine ⟨(statement.sorted db).map (·.unit), ?_, fun unit => ?_, fun other paging units => ?_,
    fun r hdb hcache hnull paging => ?_, fun r hnull paging => ?_,
    fun size first hsize => Paging.pages_tile hsize first _,
    fun offset first h => Paging.slice_unsized h _, fun first h => Paging.slice_first h _,
    fun offset size first h => Paging.slice_ignores_first h _,
    fun paging => ⟨paging.window, fun rows => Paging.slice_window paging rows,
      fun other => window?_pagingClause other paging⟩⟩
  · have hperm := (Statement.arranges_sorted db statement).perm.map (·.unit)
    exact hperm.nodup_iff.2 (hids.unitsDistinct.sublist (List.filter_sublist.map _))
  · have hperm := (Statement.arranges_sorted db statement).perm
    simp only [List.mem_map, hperm.mem_iff, Statement.mem_matching hstatement]
    constructor
    · rintro ⟨row, ⟨hrow, htrue⟩, rfl⟩
      exact ⟨row, hrow, rfl, htrue⟩
    · rintro ⟨row, hrow, rfl, htrue⟩
      exact ⟨row, ⟨hrow, htrue⟩, rfl⟩
  · obtain ⟨statement', hstatement'⟩ := exists_statement_of_compile hcompile other
    have hpaged := Statement.ofSearch_paging hstatement' paging
    rw [Dialect.answers_iff hids hid hpaged, Statement.sorted_dialect hstatement hstatement']
    rfl
  · subst hdb
    exact hits_run hids.unitsDistinct hcache (Statement.ofSearch_paging hstatement paging) hnull
  · exact unread_of_null (Statement.ofSearch_paging hstatement paging) hnull

/-- Of two units in pages of one the second page has one, and neither engine has a choice, though only one
of the units has a name. -/
theorem search_sampleUnits_page :
    ∃ hits : List UnitRef, hits.Perm [⟨1, 1⟩, ⟨1, 2⟩] ∧
      (∀ (other : Dialect) units,
        other.Answers sampleUnits ⟨none, [(.name, false), (.id, true)], ⟨1, 1, 7⟩⟩ units ↔
          units = (hits.drop 1).take 1) ∧
      ((hits.drop 1).take 1).length = 1 := by
  have hids : sampleUnits.IdsDistinct := by
    unfold Database.IdsDistinct
    decide
  have hcompile : (compile .postgresql ⟨none, [(.name, false), (.id, true)], .none⟩).isOk = true := rfl
  obtain ⟨hits, hdistinct, hmem, hanswers, -⟩ := search_pages_tile hids (by decide) hcompile
  have hperm : hits.Perm [⟨1, 1⟩, ⟨1, 2⟩] := by
    refine (List.perm_ext_iff_of_nodup hdistinct (by decide)).2 fun unit => (hmem unit).trans ?_
    simp [sampleUnits, eq_comm]
  refine ⟨hits, hperm, fun other units => hanswers other ⟨1, 1, 7⟩ units, ?_⟩
  rw [List.length_take, List.length_drop, hperm.length_eq]
  rfl

end Repository

end MetadataStore
