import MetadataStore.Handle.Writing
import MetadataStore.Proofs.Datum

/-!
# `Proofs.Database.Values` — the values of a unit after a write

What a successful write of an attribute leaves can be said in one step: the mapping that the attribute
had on the unit is gone with the rows under it, and in its place stands one with the next value number,
under which are the rows of the elements, one each, in order.

## Contents
- `Database.rowsUnder`, the rows of a value; `writtenFrom`, the rows that elements make.
- `Database.dropValue`, `Database.putValue`: the database without a value, and with a fresh one.
- `Value.writeFrom_eq_ok`, `Attribute.write_eq_ok`: when elements and attributes are written, and what
  the database is then.
-/

namespace MetadataStore

/-- The rows that elements make under a value number, from an index on. -/
def writtenFrom (kind : Kind) (valueId : Int) : Nat → List Datum → List ElementRow
  | _, [] => []
  | index, datum :: rest =>
    ⟨kind, valueId, index, datum.toCell.settled⟩ :: writtenFrom kind valueId (index + 1) rest

theorem valueId_of_mem_writtenFrom {kind : Kind} {valueId : Int} {index : Nat} {ds : List Datum}
    {row : ElementRow} (h : row ∈ writtenFrom kind valueId index ds) : row.valueId = valueId := by
  induction ds generalizing index with
  | nil => cases h
  | cons d ds ih =>
    rcases List.mem_cons.1 h with rfl | h
    · rfl
    · exact ih h

namespace Database

/-- The rows of a value over all tables. -/
def rowsUnder (db : Database) (valueId : Int) : List ElementRow :=
  db.elements.filter fun row => row.valueId == valueId

/-- The database without the value that an attribute has on a unit. -/
def dropValue (db : Database) (unit : UnitRef) (attributeId : Int) : Database :=
  let isDoomed (row : Mapping) : Bool := row.unit == unit && row.attributeId == attributeId
  let doomed := (db.mappings.filter isDoomed).map (·.valueId)
  { db with
    mappings := db.mappings.filter fun row => !isDoomed row
    elements := db.elements.filter fun row => !doomed.contains row.valueId }

/-- The database with a fresh value of an attribute on a unit in place of the one it had. -/
def putValue (db : Database) (unit : UnitRef) (attributeId : Int) (kind : Kind) (ds : List Datum) :
    Database :=
  let kept := db.dropValue unit attributeId
  let valueId := db.lastValue + 1
  { kept with
    mappings := kept.mappings ++ [⟨unit, attributeId, valueId⟩]
    elements := kept.elements ++ writtenFrom kind valueId 0 ds
    lastValue := valueId }

/-- Every row of an element is under a number that was given out. -/
def ValuesIssued (db : Database) : Prop :=
  ∀ row ∈ db.elements, row.valueId ≤ db.lastValue

theorem deleteMapping_apply (unit : UnitRef) (attributeId : Int) (db : Database) :
    deleteMapping unit attributeId db = .ok ((), db.dropValue unit attributeId) := rfl

section

variable {db : Database} {unit : UnitRef} {attributeId : Int} {kind : Kind} {ds : List Datum}

theorem mem_mappings_dropValue {m : Mapping} :
    m ∈ (db.dropValue unit attributeId).mappings ↔
      m ∈ db.mappings ∧ ¬(m.unit = unit ∧ m.attributeId = attributeId) := by
  simp only [dropValue, List.mem_filter, Bool.not_eq_true', Bool.and_eq_false_iff,
    beq_eq_false_iff_ne, ne_eq]
  constructor
  · rintro ⟨hmem, hne⟩
    refine ⟨hmem, ?_⟩
    rintro ⟨hunit, hid⟩
    rcases hne with hne | hne
    · exact hne hunit
    · exact hne hid
  · rintro ⟨hmem, hne⟩
    refine ⟨hmem, ?_⟩
    by_cases hunit : m.unit = unit
    · exact Or.inr fun hid => hne ⟨hunit, hid⟩
    · exact Or.inl hunit

theorem mem_mappings_putValue {m : Mapping} :
    m ∈ (db.putValue unit attributeId kind ds).mappings ↔
      (m ∈ db.mappings ∧ ¬(m.unit = unit ∧ m.attributeId = attributeId)) ∨
        m = ⟨unit, attributeId, db.lastValue + 1⟩ := by
  show m ∈ (db.dropValue unit attributeId).mappings ++ [_] ↔ _
  rw [List.mem_append, mem_mappings_dropValue, List.mem_singleton]

/-- A row stays when no mapping that goes has its number. -/
theorem mem_elements_dropValue {row : ElementRow} :
    row ∈ (db.dropValue unit attributeId).elements ↔
      row ∈ db.elements ∧
        ∀ m ∈ db.mappings, m.unit = unit → m.attributeId = attributeId → m.valueId ≠ row.valueId := by
  simp only [dropValue, List.mem_filter, Bool.not_eq_true', List.contains_eq_mem,
    decide_eq_false_iff_not, List.mem_map, Bool.and_eq_true, beq_iff_eq, not_exists, not_and]
  constructor
  · rintro ⟨hmem, hkept⟩
    exact ⟨hmem, fun m hm hunit hid => hkept m ⟨hm, hunit, hid⟩⟩
  · rintro ⟨hmem, hkept⟩
    exact ⟨hmem, fun m hm => hkept m hm.1 hm.2.1 hm.2.2⟩

/-- The rows of a value stay when no mapping that goes has its number. -/
theorem rowsUnder_dropValue {valueId : Int}
    (h : ∀ m ∈ db.mappings, m.unit = unit → m.attributeId = attributeId → m.valueId ≠ valueId) :
    (db.dropValue unit attributeId).rowsUnder valueId = db.rowsUnder valueId := by
  unfold rowsUnder dropValue
  rw [List.filter_filter]
  refine List.filter_congr fun row _ => ?_
  by_cases hrow : row.valueId = valueId
  · have hkept : valueId ∉ (db.mappings.filter fun m =>
        m.unit == unit && m.attributeId == attributeId).map (·.valueId) := by
      intro hmem
      obtain ⟨m, hm, heq⟩ := List.mem_map.1 hmem
      obtain ⟨hm, hcond⟩ := List.mem_filter.1 hm
      simp only [Bool.and_eq_true, beq_iff_eq] at hcond
      exact h m hm hcond.1 hcond.2 heq
    simp [hrow, hkept]
  · simp [hrow]

theorem rowsUnder_eq_nil (h : db.ValuesIssued) {valueId : Int} (hlt : db.lastValue < valueId) :
    db.rowsUnder valueId = [] := by
  rw [rowsUnder, List.filter_eq_nil_iff]
  intro row hmem
  have := h row hmem
  simp only [beq_iff_eq]
  omega

theorem ValuesIssued.dropValue (h : db.ValuesIssued) : (db.dropValue unit attributeId).ValuesIssued :=
  fun row hmem => h row (mem_elements_dropValue.1 hmem).1

theorem ValuesIssued.putValue (h : db.ValuesIssued) :
    (db.putValue unit attributeId kind ds).ValuesIssued := by
  intro row hmem
  show row.valueId ≤ db.lastValue + 1
  rcases List.mem_append.1 hmem with hold | hnew
  · have := h.dropValue row hold
    have hlast : (db.dropValue unit attributeId).lastValue = db.lastValue := rfl
    omega
  · exact Int.le_of_eq (valueId_of_mem_writtenFrom hnew)

end

end Database

/-! ## Writing elements -/

/-- The database with more rows of elements. -/
def Database.appendElements (db : Database) (rows : List ElementRow) : Database :=
  { db with elements := db.elements ++ rows }

theorem Database.appendElements_append (db : Database) (xs ys : List ElementRow) :
    (db.appendElements xs).appendElements ys = db.appendElements (xs ++ ys) := by
  simp only [appendElements, List.append_assoc]

@[simp] theorem Database.appendElements_nil (db : Database) : db.appendElements [] = db := by
  simp only [appendElements, List.append_nil]

/-- An element is added when storage keeps it; its number has to be in use, and its index free. -/
theorem Database.insertElement_eq_ok {kind : Kind} {valueId : Int} {index : Nat} {d : Datum}
    {db db' : Database} (hused : (db.mappings.any fun m => m.valueId == valueId) = true)
    (hfree : ∀ row ∈ db.elements, row.valueId = valueId → row.index < index) :
    insertElement kind valueId index d.toCell db = .ok ((), db') ↔
      d.IsStorable ∧ db' = db.appendElements [⟨kind, valueId, index, d.toCell.settled⟩] := by
  -- rows of another kind do not count, and those of this one have smaller indices
  have hnone : ((db.elementsIn kind valueId).any fun row => row.index == (index : Int)) = false := by
    rw [List.any_eq_false]
    intro row hmem
    obtain ⟨hmem, hrow⟩ := List.mem_filter.1 hmem
    simp only [Bool.and_eq_true, beq_iff_eq] at hrow
    have := hfree row hmem hrow.2
    simp only [beq_iff_eq]
    omega
  unfold insertElement Datum.IsStorable
  simp only [hnone, hused, Bool.not_true, Bool.false_eq_true, if_false]
  split
  · rename_i hnull
    simp [hnull]
  · rename_i hkept
    simp only [Except.ok.injEq, Prod.mk.injEq, true_and, ne_eq, hkept, not_false_eq_true]
    exact eq_comm

/-- Elements are written one by one when storage keeps each of them; their number has to be in use, and
the indices from the first one on free. -/
theorem Value.writeFrom_eq_ok {kind : Kind} {valueId : Int} {index : Nat} {ds : List Datum}
    {contention : Contention} {db db' : Database}
    (hused : (db.mappings.any fun m => m.valueId == valueId) = true)
    (hfree : ∀ row ∈ db.elements, row.valueId = valueId → row.index < index) :
    Value.writeFrom kind valueId index ds contention db = .ok ((), db') ↔
      (ds ≠ [] → contention.allowsWriting = true) ∧ (∀ d ∈ ds, d.IsStorable) ∧
        db' = db.appendElements (writtenFrom kind valueId index ds) := by
  -- the database grows by a row at each element, and so does the first index that is free
  induction ds generalizing index db with
  | nil =>
    simp only [Value.writeFrom, Transaction.pure_apply, Except.ok.injEq, Prod.mk.injEq, true_and,
      writtenFrom, Database.appendElements_nil, ne_eq, not_true_eq_false, false_implies,
      List.not_mem_nil, implies_true]
    exact eq_comm
  | cons d ds ih =>
    let next := db.appendElements [⟨kind, valueId, index, d.toCell.settled⟩]
    have hused' : (next.mappings.any fun m => m.valueId == valueId) = true := hused
    have hfree' : ∀ row ∈ next.elements, row.valueId = valueId →
        row.index < ((index + 1 : Nat) : Int) := by
      intro row hmem hrow
      rcases List.mem_append.1 hmem with hold | hnew
      · have := hfree row hold hrow
        omega
      · rw [List.mem_singleton.1 hnew]
        exact Int.lt_succ _
    have hrows : next.appendElements (writtenFrom kind valueId (index + 1) ds) =
        db.appendElements (writtenFrom kind valueId index (d :: ds)) :=
      db.appendElements_append _ _
    simp only [Value.writeFrom, Transaction.bind_eq_ok, Transaction.perform_eq_ok,
      Database.insertElement_eq_ok hused hfree]
    constructor
    · rintro ⟨-, mid, ⟨hw, hd, rfl⟩, hrest⟩
      obtain ⟨-, hds, rfl⟩ := (ih hused' hfree').1 hrest
      refine ⟨fun _ => hw, ?_, hrows⟩
      intro d' hmem
      rcases List.mem_cons.1 hmem with rfl | hmem
      · exact hd
      · exact hds d' hmem
    · rintro ⟨hw, hds, rfl⟩
      have hw := hw (List.cons_ne_nil d ds)
      refine ⟨(), next, ⟨hw, hds d List.mem_cons_self, rfl⟩, (ih hused' hfree').2 ?_⟩
      exact ⟨fun _ => hw, fun d' hmem => hds d' (List.mem_cons_of_mem d hmem), hrows.symm⟩

/-! ## Writing attributes -/

/-- A unit gets a value of an attribute of which it has none, under the next number, when both are
stored. -/
theorem Database.insertMapping_eq_ok {unit : UnitRef} {attributeId n : Int} {db db' : Database}
    (hnone : ∀ m ∈ db.mappings, ¬(m.unit = unit ∧ m.attributeId = attributeId)) :
    insertMapping unit attributeId db = .ok (n, db') ↔
      db.hasUnit unit = true ∧ (db.attribute? attributeId).isSome = true ∧ n = db.lastValue + 1 ∧
        db' = { db with
          mappings := db.mappings ++ [⟨unit, attributeId, db.lastValue + 1⟩]
          lastValue := db.lastValue + 1 } := by
  have hany : (db.mappings.any fun row =>
      row.unit == unit && row.attributeId == attributeId) = false := by
    rw [List.any_eq_false]
    intro m hmem hcond
    simp only [Bool.and_eq_true, beq_iff_eq] at hcond
    exact hnone m hmem hcond
  unfold insertMapping
  simp only [hany, Bool.false_eq_true, if_false]
  -- what is left to refuse it is a unit or an attribute that is not stored
  split
  · rename_i hrefused
    simp only [Bool.not_eq_true', Bool.and_eq_false_iff] at hrefused
    rcases hrefused with hunit | hinfo
    · simp [hunit]
    · simp [hinfo]
  · rename_i hallowed
    simp only [Bool.not_eq_true', Bool.not_eq_false, Bool.and_eq_true] at hallowed
    simp only [hallowed.1, hallowed.2, true_and, Except.ok.injEq, Prod.mk.injEq]
    exact and_congr eq_comm eq_comm

namespace Attribute

/-- Nothing about the attribute itself stands against writing it: a scalar has at most one element, no
text is too long, and storage keeps every element. -/
structure IsWritable (a : Attribute) : Prop where
  scalar : a.scalarFits = .ok ()
  fits : allFit a.name a.value.elements = .ok ()
  storable : ∀ d ∈ a.value.elements, d.IsStorable

variable {a : Attribute} {unit : UnitRef} {contention : Contention} {db db' : Database} {v : Int}

/-- **An attribute is written** when it can be, its unit is stored and it is catalogued; the database
then has a fresh value of it. -/
theorem write_eq_ok (hissued : db.ValuesIssued) :
    a.write unit contention db = .ok (v, db') ↔
      contention.allowsWriting = true ∧ a.IsWritable ∧ db.hasUnit unit = true ∧
        (db.attribute? a.id).isSome = true ∧ v = db.lastValue + 1 ∧
        db' = db.putValue unit a.id a.kind a.value.elements := by
  -- no mapping of the attribute is left where the new one goes, and no rows under the new number
  have hgone : ∀ m ∈ (db.dropValue unit a.id).mappings, ¬(m.unit = unit ∧ m.attributeId = a.id) :=
    fun m hmem => (Database.mem_mappings_dropValue.1 hmem).2
  let mapped : Database :=
    { db.dropValue unit a.id with
      mappings := (db.dropValue unit a.id).mappings ++ [⟨unit, a.id, db.lastValue + 1⟩]
      lastValue := db.lastValue + 1 }
  have hinsert : ∀ (n : Int) (mid : Database),
      Database.insertMapping unit a.id (db.dropValue unit a.id) = .ok (n, mid) ↔
        db.hasUnit unit = true ∧ (db.attribute? a.id).isSome = true ∧
          n = db.lastValue + 1 ∧ mid = mapped :=
    fun n mid => Database.insertMapping_eq_ok hgone
  have hused : (mapped.mappings.any fun m => m.valueId == db.lastValue + 1) = true := by
    rw [List.any_eq_true]
    exact ⟨_, List.mem_append_right _ List.mem_cons_self, by simp⟩
  have hfree : ∀ row ∈ mapped.elements, row.valueId = db.lastValue + 1 → row.index < ((0 : Nat) : Int) := by
    intro row hmem hrow
    have := hissued.dropValue row hmem
    have hlast : (db.dropValue unit a.id).lastValue = db.lastValue := rfl
    omega
  have hput : mapped.appendElements (writtenFrom a.kind (db.lastValue + 1) 0 a.value.elements) =
      db.putValue unit a.id a.kind a.value.elements := rfl
  simp only [Attribute.write, Value.write, Transaction.bind_eq_ok, Transaction.check_eq_ok,
    Transaction.perform_eq_ok, Transaction.pure_apply, Except.ok.injEq, Prod.mk.injEq]
  constructor
  · rintro ⟨_, checked, ⟨hscalar, rfl⟩, _, kept, ⟨hw, hdelete⟩, n, mid, ⟨-, hmap⟩, _, written,
      ⟨_, fitted, ⟨hfits, rfl⟩, hwrite⟩, rfl, rfl⟩
    cases hdelete
    obtain ⟨hunit, hinfo, rfl, rfl⟩ := (hinsert _ _).1 hmap
    obtain ⟨-, hds, rfl⟩ := (Value.writeFrom_eq_ok hused hfree).1 hwrite
    exact ⟨hw, ⟨hscalar, hfits, hds⟩, hunit, hinfo, rfl, hput⟩
  · rintro ⟨hw, ⟨hscalar, hfits, hds⟩, hunit, hinfo, rfl, rfl⟩
    have hwrite := (Value.writeFrom_eq_ok hused hfree).2 ⟨fun _ => hw, hds, hput.symm⟩
    exact ⟨(), db, ⟨hscalar, rfl⟩, (), _, ⟨hw, rfl⟩, db.lastValue + 1, mapped,
      ⟨hw, (hinsert _ _).2 ⟨hunit, hinfo, rfl, rfl⟩⟩, (), _, ⟨(), mapped, ⟨hfits, rfl⟩, hwrite⟩, rfl, rfl⟩

end Attribute

end MetadataStore
