import MetadataStore.Proofs.Database.Links
import MetadataStore.Proofs.Handle.Stored

/-!
# `Proofs.Database.Numbered` — numbers that were given out once

Units and values are known by numbers. No two have the same, and none has one that is still to be given
out. Nothing that happens to the database, by the library or past it, changes that; more is needed to
read values back, but not to tell what belongs to which unit.

## Contents
- `Database.Numbered`, with one lemma for each kind of change.
- `Value.store_appends`: a value written past its attribute adds rows under a number in use.
- `Handle.numbered_writtenTo`: a whole store.
-/

namespace MetadataStore

/-- Units have numbers of their own, and so have values, and all of them were given out. -/
structure Database.Numbered (db : Database) : Prop where
  unitsDistinct : db.UnitsDistinct
  unitsIssued : ∀ row ∈ db.units, row.unit.id ≤ db.lastUnit
  valuesDistinct : (db.mappings.map (·.valueId)).Nodup
  valuesIssued : ∀ m ∈ db.mappings, m.valueId ≤ db.lastValue
  elementsIssued : db.ValuesIssued

namespace Database

variable {db db' : Database} {unit : UnitRef}

theorem Numbered.blank (engine : Engine) : (Database.blank engine).Numbered where
  unitsDistinct := List.nodup_nil
  unitsIssued := fun _ h => by cases h
  valuesDistinct := List.nodup_nil
  valuesIssued := fun _ h => by cases h
  elementsIssued := fun _ h => by cases h

/-- A value number belongs to one mapping. -/
theorem Numbered.eq_of_valueId (h : db.Numbered) {m n : Mapping} (hm : m ∈ db.mappings)
    (hn : n ∈ db.mappings) (heq : m.valueId = n.valueId) : m = n :=
  eq_of_nodup Mapping.valueId h.valuesDistinct hm hn heq

/-- The number of a stored unit was given out. -/
theorem Numbered.issued_of_unit? (h : db.Numbered) {row : UnitRow} (hrow : db.unit? unit = some row) :
    unit.id ≤ db.lastUnit := by
  obtain ⟨hmem, rfl⟩ := unit?_eq_some hrow
  exact h.unitsIssued row hmem

/-! ## Units -/

theorem Numbered.unitsNumbered (h : db.Numbered) : db.UnitsNumbered :=
  ⟨h.unitsDistinct, h.unitsIssued⟩

theorem Numbered.insertUnit (h : db.Numbered) (row : UnitRow) (hid : row.unit.id = db.lastUnit + 1) :
    ({ db with units := db.units ++ [row], lastUnit := db.lastUnit + 1 } : Database).Numbered := by
  have hunits := h.unitsNumbered.insertUnit row hid
  exact { h with unitsDistinct := hunits.distinct, unitsIssued := hunits.issued }

/-- Rows of units may change in all but their identity. -/
theorem Numbered.updateUnits (h : db.Numbered) {f : UnitRow → UnitRow}
    (hf : ∀ row ∈ db.units, (f row).unit = row.unit) :
    ({ db with units := db.units.map f } : Database).Numbered := by
  have hunits := h.unitsNumbered.updateUnits hf
  exact { h with unitsDistinct := hunits.distinct, unitsIssued := hunits.issued }

/-- What the key of the table looks at is the identity. -/
theorem IdsDistinct.updateUnits (h : db.IdsDistinct) {f : UnitRow → UnitRow}
    (hf : ∀ row ∈ db.units, (f row).unit = row.unit) :
    ({ db with units := db.units.map f } : Database).IdsDistinct := by
  have hids : (db.units.map f).map (·.unit.id) = db.units.map (·.unit.id) := by
    rw [List.map_map]
    exact List.map_congr_left fun row hrow => congrArg UnitRef.id (hf row hrow)
  unfold IdsDistinct
  rw [hids]
  exact h

/-- The number after the last one is new in the table, whatever the tenant. -/
theorem IdsDistinct.insertUnit (h : db.IdsDistinct) (hnumbered : db.Numbered) (row : UnitRow)
    (hid : row.unit.id = db.lastUnit + 1) :
    ({ db with units := db.units ++ [row], lastUnit := db.lastUnit + 1 } : Database).IdsDistinct := by
  refine nodup_map_append_single (fun row : UnitRow => row.unit.id) h fun old hold heq => ?_
  have hissued := hnumbered.unitsIssued old hold
  omega

theorem Numbered.withoutUnit (h : db.Numbered) (unit : UnitRef) : (db.withoutUnit unit).Numbered where
  unitsDistinct := h.unitsDistinct.sublist (List.filter_sublist.map _)
  unitsIssued := fun row hrow => h.unitsIssued row (mem_units_withoutUnit.1 hrow).1
  valuesDistinct := h.valuesDistinct.sublist (List.filter_sublist.map _)
  valuesIssued := fun m hm => h.valuesIssued m (mem_mappings_withoutUnit.1 hm).1
  elementsIssued := fun row hrow => h.elementsIssued row (mem_elements_withoutUnit.1 hrow).1

/-! ## Values -/

theorem Numbered.valuesNumbered (h : db.Numbered) : db.ValuesNumbered :=
  ⟨h.valuesDistinct, h.valuesIssued, h.elementsIssued⟩

/-- What values are numbered like is all that a change of values can touch. -/
theorem Numbered.withValuesNumbered (h : db.Numbered) (hunits : db'.units = db.units)
    (hlast : db'.lastUnit = db.lastUnit) (hvalues : db'.ValuesNumbered) : db'.Numbered where
  unitsDistinct := by
    unfold UnitsDistinct
    rw [hunits]
    exact h.unitsDistinct
  unitsIssued := by
    rw [hunits, hlast]
    exact h.unitsIssued
  valuesDistinct := hvalues.distinct
  valuesIssued := hvalues.issued
  elementsIssued := hvalues.elements

theorem Numbered.dropValue (h : db.Numbered) (unit : UnitRef) (attributeId : Int) :
    (db.dropValue unit attributeId).Numbered :=
  h.withValuesNumbered rfl rfl (h.valuesNumbered.dropValue unit attributeId)

theorem Numbered.putValue (h : db.Numbered) (unit : UnitRef) (attributeId : Int) (kind : Kind)
    (ds : List Datum) : (db.putValue unit attributeId kind ds).Numbered :=
  h.withValuesNumbered rfl rfl (h.valuesNumbered.putValue unit attributeId kind ds)

theorem Numbered.dropValues (h : db.Numbered) (unit : UnitRef) (ids : List Int) :
    (db.dropValues unit ids).Numbered :=
  h.withValuesNumbered (units_dropValues unit ids db) (sameButValues_dropValues unit ids db).lastUnit
    (h.valuesNumbered.dropValues unit ids)

theorem Numbered.putValues (h : db.Numbered) (unit : UnitRef) (entries : AttributeMap) :
    (db.putValues unit entries).Numbered :=
  h.withValuesNumbered (units_putValues unit entries db) (sameButValues_putValues unit entries db).lastUnit
    (h.valuesNumbered.putValues unit entries)

/-- Rows may be added under numbers in use. -/
theorem Numbered.appendElements (h : db.Numbered) {rows : List ElementRow}
    (hrows : ∀ row ∈ rows, ∃ m ∈ db.mappings, m.valueId = row.valueId) :
    (db.appendElements rows).Numbered := by
  refine { h with elementsIssued := fun row hmem => ?_ }
  rcases List.mem_append.1 hmem with hold | hnew
  · exact h.elementsIssued row hold
  · obtain ⟨m, hm, heq⟩ := hrows row hnew
    exact heq ▸ h.valuesIssued m hm

/-! ## Locks and links -/

theorem SameButLinks.numbered (h : db.SameButLinks db') (hnumbered : db.Numbered) : db'.Numbered := by
  rw [h]
  exact { hnumbered with }

end Database

/-! ## Transactions -/

/-- An element that is added stands under a number that some mapping has. -/
theorem Database.insertElement_appends {table : Kind} {valueId index : Int} {cell : Cell}
    {db db' : Database} (h : insertElement table valueId index cell db = .ok ((), db')) :
    ∃ row, db' = db.appendElements [row] ∧ ∃ m ∈ db.mappings, m.valueId = row.valueId := by
  simp only [insertElement] at h
  split at h
  · cases h
  · split at h
    · cases h
    · split at h
      · cases h
      · rename_i hused
        cases h
        simp only [Bool.not_eq_true', Bool.not_eq_false, List.any_eq_true, beq_iff_eq] at hused
        exact ⟨_, rfl, hused⟩

theorem Value.writeFrom_appends {kind : Kind} {valueId : Int} {index : Nat} {ds : List Datum}
    {contention : Contention} {db db' : Database}
    (h : Value.writeFrom kind valueId index ds contention db = .ok ((), db')) :
    ∃ rows, db' = db.appendElements rows ∧
      ∀ row ∈ rows, ∃ m ∈ db.mappings, m.valueId = row.valueId := by
  induction ds generalizing index db with
  | nil =>
    cases h
    exact ⟨[], (Database.appendElements_nil _).symm, fun _ hmem => by cases hmem⟩
  | cons d ds ih =>
    obtain ⟨u, mid, hfirst, hrest⟩ := Transaction.bind_eq_ok.1 h
    obtain ⟨row, rfl, howned⟩ :=
      Database.insertElement_appends (Transaction.perform_eq_ok.1 hfirst).2
    obtain ⟨rows, rfl, hrows⟩ := ih hrest
    refine ⟨row :: rows, db.appendElements_append [row] rows, ?_⟩
    intro other hmem
    rcases List.mem_cons.1 hmem with rfl | hmem
    · exact howned
    · exact hrows other hmem

/-- **A value written past its attribute** adds rows, all under a number that some mapping has. -/
theorem Value.store_appends {value value' : Value} {name : String} {valueId : Int}
    {contention : Contention} {db db' : Database}
    (h : value.store name valueId contention db = .ok (value', db')) :
    ∃ rows, db' = db.appendElements rows ∧
      ∀ row ∈ rows, ∃ m ∈ db.mappings, m.valueId = row.valueId := by
  unfold Value.store at h
  split at h
  · obtain ⟨u, mid, hwrite, hrest⟩ := Transaction.bind_eq_ok.1 h
    cases hrest
    obtain ⟨u', checked, hcheck, hrows⟩ := Transaction.bind_eq_ok.1 hwrite
    obtain ⟨-, rfl⟩ := Transaction.check_eq_ok.1 hcheck
    exact Value.writeFrom_appends hrows
  · cases h
    exact ⟨[], (Database.appendElements_nil _).symm, fun _ hmem => by cases hmem⟩

/-- An attribute stored alone is left as it is, or it is written. -/
theorem Attribute.store_cases {a a' : Attribute} {unit : UnitRef} {contention : Contention}
    {db db' : Database} (hissued : db.ValuesIssued)
    (h : a.store unit contention db = .ok (a', db')) :
    (a' = a ∧ db' = db) ∨
      (a.IsWritable ∧ db.hasUnit unit = true ∧ (db.attribute? a.id).isSome = true ∧
        a' = a.markStored (db.lastValue + 1) ∧
        db' = db.putValue unit a.id a.kind a.value.elements) := by
  unfold Attribute.store at h
  split at h
  · obtain ⟨v, mid, hwrite, hrest⟩ := Transaction.bind_eq_ok.1 h
    cases hrest
    obtain ⟨-, hwritable, hunit, hinfo, rfl, rfl⟩ := (Attribute.write_eq_ok hissued).1 hwrite
    exact Or.inr ⟨hwritable, hunit, hinfo, rfl, rfl⟩
  · cases h
    exact Or.inl ⟨rfl, rfl⟩

/-! ## A whole store -/

namespace Handle

variable {h : Handle} {created : DateTime} {db : Database}

theorem numbered_withRow (hnumbered : db.Numbered) : (h.withRow created db).Numbered := by
  unfold withRow
  split
  · split
    · refine hnumbered.updateUnits fun row _ => ?_
      split <;> rfl
    · exact hnumbered
  · exact hnumbered.insertUnit _ rfl

theorem idsDistinct_withRow (hids : db.IdsDistinct) (hnumbered : db.Numbered) :
    (h.withRow created db).IdsDistinct := by
  unfold withRow
  split
  · split
    · refine hids.updateUnits fun row _ => ?_
      split <;> rfl
    · exact hids
  · exact hids.insertUnit hnumbered _ rfl

/-- A store gives out numbers and uses none twice. -/
theorem numbered_writtenTo (hnumbered : db.Numbered) : (h.writtenTo created db).Numbered :=
  ((numbered_withRow hnumbered).dropValues _ _).putValues _ _

end Handle

end MetadataStore
