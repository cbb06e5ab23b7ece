import Mathlib.Data.List.Nodup
import Mathlib.Order.Defs.LinearOrder
import MetadataStore.Proofs.Database.Keys
import MetadataStore.Query.Meaning

/-!
# `Proofs.Query.Order` — what an order leaves to the engine

Each column compares in a linear order, missing names first, and an order compares by its columns one
after the other. An engine may hand out rows that compare equal in any order it likes. When the number of
a unit is among the columns no two rows compare equal, and there is only one way to hand them out.

## Contents
- `compareEntry`, `compareRows_cons`, `transCmp_compareRows`: rows compare in a preorder.
- `id_eq_of_compareRows`: only a row itself is equal to it, if numbers count.
- `Statement.matching`, `Statement.Arranges`, the arrangements that a statement allows.
- `Statement.arranges_run`, `Statement.Arranges.eq_run`: there is one, and no other if numbers count.
-/

namespace MetadataStore.Query

/-! ## Rows -/

/-- The order of two units by one column of an order. -/
def compareEntry (entry : Column × Bool) (a b : UnitRow) : Ordering :=
  let o := (a.cell entry.1).compare (b.cell entry.1)
  if entry.2 then o else o.swap

theorem compareRows_cons (entry : Column × Bool) (rest : SearchOrder) (a b : UnitRow) :
    compareRows a b (entry :: rest) = (compareEntry entry a b).then (compareRows a b rest) := by
  obtain ⟨column, ascending⟩ := entry
  simp only [compareRows, compareEntry]
  cases (a.cell column).compare (b.cell column) <;> cases ascending <;> rfl

/-- The cells of one column are integers or texts, some of them missing, and compare as these do. -/
theorem transCmp_cell (column : Column) :
    Std.TransCmp fun a b : UnitRow => (a.cell column).compare (b.cell column) := by
  cases column with
  | tenant => exact inferInstanceAs (Std.TransCmp (compareOn fun row : UnitRow => row.unit.tenant))
  | id => exact inferInstanceAs (Std.TransCmp (compareOn fun row : UnitRow => row.unit.id))
  | correlation => exact inferInstanceAs (Std.TransCmp (compareOn UnitRow.correlation))
  | name =>
    -- a missing name is less than any other, as `none` is less than any `some`
    have hname : (fun a b : UnitRow => (a.cell .name).compare (b.cell .name)) =
        compareOn UnitRow.name := by
      funext a b
      unfold compareOn UnitRow.cell
      cases a.name <;> cases b.name <;> rfl
    rw [hname]
    infer_instance
  | status => exact inferInstanceAs (Std.TransCmp (compareOn UnitRow.status))
  | created => exact inferInstanceAs (Std.TransCmp (compareOn UnitRow.created))

theorem transCmp_compareEntry (entry : Column × Bool) : Std.TransCmp (compareEntry entry) := by
  obtain ⟨column, ascending⟩ := entry
  have hcell := transCmp_cell column
  cases ascending with
  | true => exact hcell
  | false =>
    -- descending is ascending with the rows exchanged
    have hswap : compareEntry (column, false) =
        fun a b => (b.cell column).compare (a.cell column) := by
      funext a b
      exact hcell.eq_swap.symm
    rw [hswap]
    exact Std.TransCmp.opposite

/-- Rows compare in a preorder. By induction on the columns. -/
theorem transCmp_compareRows (order : SearchOrder) :
    Std.TransCmp fun a b : UnitRow => compareRows a b order := by
  induction order with
  | nil => exact { eq_swap := rfl, isLE_trans := fun _ _ => rfl }
  | cons entry rest ih =>
    have hentry := transCmp_compareEntry entry
    have hlex : (fun a b : UnitRow => compareRows a b (entry :: rest)) =
        compareLex (compareEntry entry) fun a b => compareRows a b rest := by
      funext a b
      exact compareRows_cons entry rest a b
    rw [hlex]
    infer_instance

/-- Rows that compare equal have one number, if the number is among the columns. -/
theorem id_eq_of_compareRows {order : SearchOrder} (hid : Column.id ∈ order.map Prod.fst) {a b : UnitRow}
    (h : compareRows a b order = .eq) : a.unit.id = b.unit.id := by
  induction order with
  | nil => cases hid
  | cons entry rest ih =>
    rw [compareRows_cons, Ordering.then_eq_eq] at h
    rw [List.map_cons, List.mem_cons] at hid
    rcases hid with hhere | hrest
    · have hentry : compareEntry (.id, entry.2) a b = .eq := by
        rw [hhere]
        exact h.1
      have hcell : compare a.unit.id b.unit.id = .eq := by
        unfold compareEntry at hentry
        split at hentry
        · exact hentry
        · exact Ordering.swap_eq_eq.1 hentry
      exact Std.compare_eq_eq_iff_eq.1 hcell
    · exact ih hrest h.2

/-! ## Statements -/

namespace Statement

variable {db : Database} {statement : Statement}

/-- The rows of which the condition of a statement is true. -/
def matching (db : Database) (statement : Statement) : List UnitRow :=
  db.units.filter fun row =>
    match statement.condition with
    | none => true
    | some condition => (condition.truth db row).holds

/-- The rows that match, each of them once, none before one that comes earlier in the order. -/
structure Arranges (db : Database) (statement : Statement) (rows : List UnitRow) : Prop where
  perm : rows.Perm (statement.matching db)
  ordered : rows.Pairwise fun a b => compareRows a b statement.order ≠ .gt

/-- The rows that a statement selects its page from. -/
def sorted (db : Database) (statement : Statement) : List UnitRow :=
  (statement.matching db).mergeSort fun a b => compareRows a b statement.order != .gt

theorem run_eq (db : Database) (statement : Statement) :
    statement.run db = statement.paging.slice ((statement.sorted db).map (·.unit)) :=
  rfl

theorem arranges_sorted (db : Database) (statement : Statement) :
    statement.Arranges db (statement.sorted db) where
  perm := List.mergeSort_perm _ _
  ordered := by
    have hcmp := transCmp_compareRows statement.order
    have hle : ∀ o : Ordering, (o != .gt) = o.isLE := fun o => by cases o <;> rfl
    have hpairs : (statement.sorted db).Pairwise
        fun a b => (compareRows a b statement.order != .gt) = true := by
      apply List.pairwise_mergeSort
      · intro a b c hab hbc
        rw [hle] at hab hbc ⊢
        exact hcmp.isLE_trans hab hbc
      · intro a b
        rw [hle, hle, hcmp.eq_swap (a := a) (b := b)]
        cases compareRows b a statement.order <;> rfl
    exact hpairs.imp fun h => by simpa using h

/-- **Nothing is left to the engine when the number of a unit is among the columns**: there is one
arrangement only. -/
theorem Arranges.eq_sorted {rows : List UnitRow} (hids : db.IdsDistinct)
    (hid : Column.id ∈ statement.order.map Prod.fst) (h : statement.Arranges db rows) :
    rows = statement.sorted db := by
  have hsorted := arranges_sorted db statement
  refine List.Perm.eq_of_pairwise ?_ h.ordered hsorted.ordered (h.perm.trans hsorted.perm.symm)
  intro a b ha hb hab hba
  have hcmp := transCmp_compareRows statement.order
  -- neither comes behind the other, so they compare equal and have one number
  have hequal : compareRows a b statement.order = .eq := by
    rw [hcmp.eq_swap] at hba
    cases hcase : compareRows a b statement.order with
    | eq => rfl
    | gt => exact absurd hcase hab
    | lt => exact absurd (by rw [hcase]; rfl) hba
  have hstored : ∀ {row}, row ∈ statement.matching db → row ∈ db.units := fun hrow =>
    (List.mem_filter.1 hrow).1
  exact eq_of_nodup (fun row : UnitRow => row.unit.id) hids (hstored (h.perm.mem_iff.1 ha))
    (hstored (hsorted.perm.mem_iff.1 hb)) (id_eq_of_compareRows hid hequal)

end Statement

end MetadataStore.Query
