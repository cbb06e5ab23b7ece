import MetadataStore.Proofs.Database.Linked
import MetadataStore.Proofs.Query.Selection
import MetadataStore.Repository.Disposal

/-!
# `Proofs.Database.Disposed` — units that wait, and units that are gone

Some units wait for disposal, and they stand in a definite order. Taking several units away, one after the
other, can be said in one step, and those that go on waiting are then the ones that did, without those
that went, still in their order.

## Contents
- `Database.without`, the database without several units, as `withoutUnit` makes it one by one.
- `Database.waiting`, the units of a tenant that wait; `pairwise_waiting`, `waiting_without`.
- `Database.SameUnit`, `Numbered.sameUnit_without`: units that stay; `Database.Gone`, `gone_without`:
  units that go.
- `Repository.matching_disposable`: the search for a page of units that wait.
-/

namespace MetadataStore

namespace Database

variable {db : Database} {unit : UnitRef} {doomed : List UnitRef}

/-! ## Several units gone -/

/-- The numbers of the values of several units. -/
def valuesOf (db : Database) (units : List UnitRef) : List Int :=
  (db.mappings.filter fun m => units.contains m.unit).map (·.valueId)

/-- The database without several units and all that hangs on them. -/
def without (db : Database) (doomed : List UnitRef) : Database :=
  { db with
    units := db.units.filter fun row => !doomed.contains row.unit
    mappings := db.mappings.filter fun m => !doomed.contains m.unit
    elements := db.elements.filter fun row => !(db.valuesOf doomed).contains row.valueId
    relations := db.relations.filter fun row => !doomed.contains row.left && !doomed.contains row.right
    associations := db.associations.filter fun row => !doomed.contains row.left
    locks := db.locks.filter fun row => !doomed.contains row.unit }

theorem mem_valuesOf {units : List UnitRef} {v : Int} :
    v ∈ db.valuesOf units ↔ ∃ m ∈ db.mappings, m.unit ∈ units ∧ m.valueId = v := by
  simp only [valuesOf, List.mem_map, List.mem_filter, List.contains_iff_mem, and_assoc]

@[simp] theorem without_nil (db : Database) : db.without [] = db := by
  have hvalues : db.valuesOf [] = [] := by simp [valuesOf]
  simp [without, hvalues]

/-- One unit after the other. -/
theorem without_withoutUnit (db : Database) (unit : UnitRef) (doomed : List UnitRef) :
    (db.withoutUnit unit).without doomed = db.without (unit :: doomed) := by
  have hkeep : ∀ other : UnitRef,
      (!doomed.contains other && (other != unit)) = !(unit :: doomed).contains other := by
    intro other
    rw [Bool.eq_iff_iff]
    simp [and_comm]
  -- a row stays when neither the first unit nor one of the others has its number
  have hvalues : ∀ v, (!((db.withoutUnit unit).valuesOf doomed).contains v &&
      !((db.mappingsOf unit).map (·.valueId)).contains v) =
        !(db.valuesOf (unit :: doomed)).contains v := by
    intro v
    rw [Bool.eq_iff_iff]
    simp only [Bool.and_eq_true, Bool.not_eq_true', List.contains_eq_mem, decide_eq_false_iff_not,
      mem_valuesOf, mem_mappings_withoutUnit, List.mem_map, mappingsOf, List.mem_filter, beq_iff_eq,
      List.mem_cons, not_exists, not_and]
    constructor
    · rintro ⟨hothers, hfirst⟩ m hm hdoomed hv
      by_cases hunit : m.unit = unit
      · exact hfirst m ⟨hm, hunit⟩ hv
      · exact hothers m ⟨hm, hunit⟩ (hdoomed.resolve_left hunit) hv
    · intro hall
      exact ⟨fun m hm hdoomed => hall m hm.1 (Or.inr hdoomed),
        fun m hm => hall m hm.1 (Or.inl hm.2)⟩
  have hrelations : ∀ row : RelationRow,
      ((!doomed.contains row.left && !doomed.contains row.right) &&
        (row.left != unit && row.right != unit)) =
          (!(unit :: doomed).contains row.left && !(unit :: doomed).contains row.right) := by
    intro row
    rw [← hkeep, ← hkeep]
    ac_rfl
  simp only [without, withoutUnit, List.filter_filter, mk.injEq, and_true, true_and]
  refine ⟨?_, ?_, ?_, ?_, ?_, ?_⟩
  · exact List.filter_congr fun row _ => hkeep row.unit
  · exact List.filter_congr fun m _ => hkeep m.unit
  · exact List.filter_congr fun row _ => hvalues row.valueId
  · exact List.filter_congr fun row _ => hrelations row
  · exact List.filter_congr fun row _ => hkeep row.left
  · exact List.filter_congr fun row _ => hkeep row.unit

/-! ## Units that wait -/

/-- The units of a tenant that wait for disposal, in the order of their numbers. -/
def waiting (db : Database) (tenant : Int) : List UnitRef :=
  ((db.units.filter fun row =>
      row.unit.tenant == tenant && row.status == Status.pendingDisposition.code).mergeSort
    fun a b => decide (a.unit.id ≤ b.unit.id)).map (·.unit)

theorem mem_waiting {tenant : Int} :
    unit ∈ db.waiting tenant ↔
      unit.tenant = tenant ∧
        ∃ row ∈ db.units, row.unit = unit ∧ row.status = Status.pendingDisposition.code := by
  simp only [waiting, List.mem_map, List.mem_mergeSort, List.mem_filter, Bool.and_eq_true, beq_iff_eq]
  constructor
  · rintro ⟨row, ⟨hmem, htenant, hstatus⟩, rfl⟩
    exact ⟨htenant, row, hmem, rfl, hstatus⟩
  · rintro ⟨htenant, row, hmem, rfl, hstatus⟩
    exact ⟨row, ⟨hmem, htenant, hstatus⟩, rfl⟩

theorem length_waiting_le (db : Database) (tenant : Int) :
    (db.waiting tenant).length ≤ db.units.length := by
  rw [waiting, List.length_map, List.length_mergeSort]
  exact List.length_filter_le _ _

/-- The numbers of units that wait ascend, and none comes twice. -/
theorem pairwise_waiting (h : db.UnitsDistinct) (tenant : Int) :
    (db.waiting tenant).Pairwise fun a b => a.id < b.id := by
  let rows := db.units.filter fun row =>
    row.unit.tenant == tenant && row.status == Status.pendingDisposition.code
  have hsorted : (rows.mergeSort fun a b => decide (a.unit.id ≤ b.unit.id)).Pairwise
      fun a b => decide (a.unit.id ≤ b.unit.id) = true :=
    List.pairwise_mergeSort (by simp only [decide_eq_true_eq]; omega)
      (by simp only [Bool.or_eq_true, decide_eq_true_eq]; omega) rows
  have hdistinct : ((rows.mergeSort fun a b => decide (a.unit.id ≤ b.unit.id)).map (·.unit)).Nodup :=
    ((List.mergeSort_perm _ _).map _).nodup_iff.2 (h.sublist (List.filter_sublist.map _))
  have hordered : (db.waiting tenant).Pairwise fun a b => a.id ≤ b.id :=
    List.pairwise_map.2 (hsorted.imp fun hle => of_decide_eq_true hle)
  refine (hordered.and hdistinct).imp_of_mem ?_
  rintro a b ha hb ⟨hle, hne⟩
  -- units of one tenant that differ do so in their numbers
  have htenant : a.tenant = b.tenant := (mem_waiting.1 ha).1.trans (mem_waiting.1 hb).1.symm
  have hid : a.id ≠ b.id := by
    intro hid
    cases a
    cases b
    cases htenant
    cases hid
    exact hne rfl
  omega

theorem nodup_waiting (h : db.UnitsDistinct) (tenant : Int) : (db.waiting tenant).Nodup :=
  (pairwise_waiting h tenant).imp fun hlt heq => by
    rw [heq] at hlt
    exact Int.lt_irrefl _ hlt

theorem mem_units_without {row : UnitRow} :
    row ∈ (db.without doomed).units ↔ row ∈ db.units ∧ row.unit ∉ doomed := by
  simp only [without, List.mem_filter, Bool.not_eq_true', List.contains_eq_mem,
    decide_eq_false_iff_not]

theorem UnitsDistinct.without (h : db.UnitsDistinct) : (db.without doomed).UnitsDistinct :=
  h.sublist (List.filter_sublist.map _)

/-- **The units that go on waiting** are those that waited, in their order, without those that are gone. -/
theorem waiting_without (h : db.UnitsDistinct) (tenant : Int) :
    (db.without doomed).waiting tenant = (db.waiting tenant).filter fun unit => !doomed.contains unit := by
  have hkept : (db.without doomed).UnitsDistinct := h.without
  have hafter := pairwise_waiting hkept tenant
  have hbefore := (pairwise_waiting h tenant).sublist
    (List.filter_sublist (p := fun unit => !doomed.contains unit))
  have hnodup := nodup_waiting hkept tenant
  have hmem : ∀ unit, unit ∈ (db.without doomed).waiting tenant ↔
      unit ∈ (db.waiting tenant).filter fun unit => !doomed.contains unit := by
    intro unit
    simp only [List.mem_filter, mem_waiting, mem_units_without, Bool.not_eq_true',
      List.contains_eq_mem, decide_eq_false_iff_not]
    constructor
    · rintro ⟨htenant, row, ⟨hrow, hkept⟩, rfl, hstatus⟩
      exact ⟨⟨htenant, row, hrow, rfl, hstatus⟩, hkept⟩
    · rintro ⟨⟨htenant, row, hrow, rfl, hstatus⟩, hkept⟩
      exact ⟨htenant, row, ⟨hrow, hkept⟩, rfl, hstatus⟩
  -- both ascend and have the same members
  refine List.Perm.eq_of_pairwise (fun a b _ _ hab hba => ?_) hafter hbefore
    ((List.perm_ext_iff_of_nodup hnodup ((nodup_waiting h tenant).filter _)).2 hmem)
  exact absurd hab (Int.not_lt.2 (Int.le_of_lt hba))

/-- Whether a unit that stays is locked does not depend on those that go. -/
theorem isLocked_without (hkept : unit ∉ doomed) : (db.without doomed).isLocked unit = db.isLocked unit := by
  unfold isLocked without
  rw [List.any_filter]
  refine congrArg (fun p => db.locks.any p) (funext fun row => ?_)
  by_cases hrow : row.unit = unit
  · subst hrow
    simp [hkept]
  · simp [hrow]

/-! ## Units that stay -/

theorem mem_mappings_without {m : Mapping} :
    m ∈ (db.without doomed).mappings ↔ m ∈ db.mappings ∧ m.unit ∉ doomed := by
  simp only [without, List.mem_filter, Bool.not_eq_true', List.contains_eq_mem,
    decide_eq_false_iff_not]

/-- The rows of the values of units that stay are what they were. -/
theorem Numbered.rowsUnder_without (h : db.Numbered) {m : Mapping} (hm : m ∈ db.mappings)
    (hkept : m.unit ∉ doomed) : (db.without doomed).rowsUnder m.valueId = db.rowsUnder m.valueId := by
  unfold rowsUnder without
  rw [List.filter_filter]
  refine List.filter_congr fun row _ => ?_
  by_cases hrow : row.valueId = m.valueId
  · have hfree : m.valueId ∉ db.valuesOf doomed := by
      intro hmem
      obtain ⟨n, hn, hdoomed, hv⟩ := mem_valuesOf.1 hmem
      rw [h.eq_of_valueId hn hm hv] at hdoomed
      exact hkept hdoomed
    simp [hrow, hfree]
  · simp [hrow]

/-- What is stored of a unit, and all that hangs on it, is the same in both. -/
structure SameUnit (db db' : Database) (unit : UnitRef) : Prop where
  row : db'.unit? unit = db.unit? unit
  mappings : db'.mappingsOf unit = db.mappingsOf unit
  elements : ∀ m ∈ db.mappingsOf unit, db'.rowsUnder m.valueId = db.rowsUnder m.valueId
  locks : db'.locksOf unit = db.locksOf unit
  associations : ∀ kindCode, db'.associationsOf unit kindCode = db.associationsOf unit kindCode

/-- A filter that spares the rows of a unit finds the same of them. -/
theorem filter_spared {β : Type} (key : β → UnitRef) (rows : List β) (hkept : unit ∉ doomed)
    {p : β → Bool} (hp : ∀ row, p row = true → key row = unit) :
    (rows.filter fun row => !doomed.contains (key row)).filter p = rows.filter p := by
  rw [List.filter_filter]
  refine List.filter_congr fun row _ => ?_
  cases hrow : p row with
  | false => rfl
  | true => simp [hp row hrow, hkept]

/-- **Units that stay are untouched.** -/
theorem Numbered.sameUnit_without (h : db.Numbered) (hkept : unit ∉ doomed) :
    db.SameUnit (db.without doomed) unit where
  row := by
    unfold unit? without
    rw [← List.head?_filter, ← List.head?_filter,
      filter_spared UnitRow.unit db.units hkept fun row hrow => by simpa using hrow]
  mappings := filter_spared Mapping.unit db.mappings hkept fun m hm => by simpa using hm
  elements := by
    intro m hm
    obtain ⟨hmem, hunit⟩ := List.mem_filter.1 hm
    have hunit : m.unit = unit := by simpa using hunit
    exact h.rowsUnder_without hmem (hunit ▸ hkept)
  locks := by
    unfold locksOf without
    rw [filter_spared LockRow.unit db.locks hkept fun row hrow => by simpa using hrow]
  associations := by
    intro kindCode
    unfold associationsOf without
    rw [filter_spared AssociationRow.left db.associations hkept fun row hrow => by
      simp only [Bool.and_eq_true, beq_iff_eq] at hrow
      exact hrow.1]

/-- Nothing is left of a unit, nor of what hung on it in `db`. -/
structure Gone (db db' : Database) (unit : UnitRef) : Prop where
  row : db'.hasUnit unit = false
  mappings : db'.mappingsOf unit = []
  elements : ∀ m ∈ db.mappingsOf unit, db'.rowsUnder m.valueId = []
  relations : ∀ row ∈ db'.relations, row.left ≠ unit ∧ row.right ≠ unit
  associations : ∀ row ∈ db'.associations, row.left ≠ unit
  locks : db'.locksOf unit = []

/-- **Of units that go nothing is left.** -/
theorem gone_without (hdoomed : unit ∈ doomed) : db.Gone (db.without doomed) unit where
  row := by
    rw [← Bool.not_eq_true, hasUnit_iff]
    rintro ⟨row, hmem, rfl⟩
    exact (mem_units_without.1 hmem).2 hdoomed
  mappings := by
    rw [mappingsOf, List.filter_eq_nil_iff]
    intro m hm hunit
    rw [← beq_iff_eq.1 hunit] at hdoomed
    exact (mem_mappings_without.1 hm).2 hdoomed
  elements := by
    intro m hm
    obtain ⟨hmem, hunit⟩ := List.mem_filter.1 hm
    rw [← beq_iff_eq.1 hunit] at hdoomed
    have hvalue : m.valueId ∈ db.valuesOf doomed := mem_valuesOf.2 ⟨m, hmem, hdoomed, rfl⟩
    rw [rowsUnder, List.filter_eq_nil_iff]
    intro row hrow hunder
    rw [← beq_iff_eq.1 hunder] at hvalue
    have hkept := (List.mem_filter.1 hrow).2
    simp [hvalue] at hkept
  relations := by
    intro row hmem
    have hkept := (List.mem_filter.1 hmem).2
    simp only [Bool.and_eq_true, Bool.not_eq_true', List.contains_eq_mem,
      decide_eq_false_iff_not] at hkept
    exact ⟨fun heq => hkept.1 (heq ▸ hdoomed), fun heq => hkept.2 (heq ▸ hdoomed)⟩
  associations := by
    intro row hmem heq
    have hkept := (List.mem_filter.1 hmem).2
    simp only [Bool.not_eq_true', List.contains_eq_mem, decide_eq_false_iff_not] at hkept
    exact hkept (heq ▸ hdoomed)
  locks := by
    have hnone : (db.without doomed).locks.filter (fun row => row.unit == unit) = [] := by
      rw [List.filter_eq_nil_iff]
      intro row hmem hunit
      rw [← beq_iff_eq.1 hunit] at hdoomed
      have hkept := (List.mem_filter.1 hmem).2
      simp [hdoomed] at hkept
    rw [locksOf, hnone, List.mergeSort_nil]

/-- A relation stays when both of its units do. -/
theorem mem_relations_without {row : RelationRow} :
    row ∈ (db.without doomed).relations ↔
      row ∈ db.relations ∧ row.left ∉ doomed ∧ row.right ∉ doomed := by
  simp only [without, List.mem_filter, Bool.and_eq_true, Bool.not_eq_true', List.contains_eq_mem,
    decide_eq_false_iff_not]

end Database

/-! ## The search for a page -/

/-- Numbers compare as cells as they do by themselves. -/
theorem compareRows_id (a b : UnitRow) :
    (Query.compareRows a b [(.id, true)] != .gt) = decide (a.unit.id ≤ b.unit.id) := by
  simp only [Query.compareRows, UnitRow.cell, Cell.compare, compareOfLessAndEq]
  rcases Int.lt_trichotomy a.unit.id b.unit.id with hlt | heq | hgt
  · simp [hlt, Int.le_of_lt hlt]
  · simp [heq]
  · have hnot : ¬ a.unit.id < b.unit.id := by omega
    have hne : a.unit.id ≠ b.unit.id := by omega
    have hle : ¬ a.unit.id ≤ b.unit.id := by omega
    simp [hnot, hne, hle]

theorem holds_compareCells_eq (i j : Int) :
    (Query.compareCells .eq false (.integer i) (.integer j)).holds = (i == j) := by
  simp only [Query.compareCells, Cell.compare, compareOfLessAndEq, Operator.accepts]
  rw [Bool.eq_iff_iff]
  by_cases hlt : i < j
  · have hne : i ≠ j := by omega
    simp [hlt, hne, Truth.holds, Truth.ofBool]
  · by_cases heq : i = j
    · simp [heq, Truth.holds, Truth.ofBool]
    · simp [hlt, heq, Truth.holds, Truth.ofBool]

namespace Repository

variable {r r' : Repository}

/-- The condition of the units of a tenant that wait for disposal. -/
def waitingCondition (tenant : Int32) : Query.Condition :=
  .group (.and (.column .tenant (.integer .eq tenant.toInt)) (.column .status (.integer .eq 1)))

theorem ofSearch_disposable (tenant : Int32) (offset size : Nat) :
    Query.Statement.ofSearch .sqlite (disposable tenant offset size) =
      .ok ⟨some (waitingCondition tenant), [(.id, true)], ⟨offset, size, 0⟩⟩ := rfl

/-- The search for a page compares with no text, so that its statement can be read. -/
theorem nullFree_disposable (tenant : Int32) (offset size : Nat) : (disposable tenant offset size).NullFree :=
  (Search.nullFree_some _ _ _).2 fun _ hmem => absurd hmem List.not_mem_nil

/-- **The search for a page** selects the units that wait, from the offset on and as many as fit. -/
theorem matching_disposable (hread : r.contention.allowsReading = true) (tenant : Int32) (offset : Nat)
    {size : Nat} (hsize : 0 < size) :
    matching (disposable tenant offset size) r =
      (.ok (((r.database.waiting tenant.toInt).drop offset).take size), r) := by
  have hcondition : ∀ row : UnitRow, ((waitingCondition tenant).truth r.database row).holds =
      (row.unit.tenant == tenant.toInt && row.status == Status.pendingDisposition.code) := by
    intro row
    rw [← holds_compareCells_eq, ← holds_compareCells_eq, ← Truth.holds_and]
    rfl
  refine matching_eq_ok.2 ⟨_, ofSearch_disposable tenant offset size,
    nullFree_disposable tenant offset size, hread, ?_, rfl⟩
  simp only [Query.Statement.run, hcondition, compareRows_id, Paging.slice, Paging.isPaged, hsize,
    decide_true, Bool.or_true, if_true]
  rfl

end Repository

end MetadataStore
