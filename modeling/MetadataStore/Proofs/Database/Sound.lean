import MetadataStore.Proofs.Database.Keys
import MetadataStore.Proofs.Database.Values

/-!
# `Proofs.Database.Sound` — what every stored state satisfies

Units, attributes and values are known by numbers that were given out once. A value belongs to a stored
unit and a catalogued attribute, which has no other value on that unit, and the rows under its number
are those of elements that could be written for the attribute. Every change that the library makes keeps
this, one lemma for each.

## Contents
- `Database.WellWritten`, the rows that a value may have; `Database.Sound`.
- `Sound.dropValue`, `Sound.putValue`: values.
- `Sound.insertUnit`, `Sound.updateUnits`, `Sound.deleteUnit`: units.
- `Database.Defined`, what holds of definitions alone; `Sound.insertAttribute`.
-/

namespace MetadataStore

/-- Rows that writing elements of an attribute makes, scalars having at most one element and texts
being no longer than fits. -/
def Database.WellWritten (info : AttributeRow) (valueId : Int) (rows : List ElementRow) : Prop :=
  ∃ (kind : Kind) (ds : List Datum), kind.code = info.kindCode ∧
    (∀ d ∈ ds, d.kind = kind ∧ d.IsStorable) ∧ (info.scalar = true → ds.length ≤ 1) ∧
    Attribute.allFit info.name ds = .ok () ∧ rows = writtenFrom kind valueId 0 ds

/-- What every stored state satisfies. -/
structure Database.Sound (db : Database) : Prop where
  unitsDistinct : db.UnitsDistinct
  unitsIssued : ∀ row ∈ db.units, row.unit.id ≤ db.lastUnit
  attributesDistinct : (db.attributes.map (·.id)).Nodup
  attributesIssued : ∀ info ∈ db.attributes, info.id ≤ db.lastAttribute
  /-- Names differ beyond case. -/
  namesDistinct : (db.attributes.map fun info => Text.lower info.name).Nodup
  kindsKnown : ∀ info ∈ db.attributes, ∃ kind : Kind, kind.code = info.kindCode
  /-- An attribute has at most one value on a unit. -/
  mappingsDistinct : (db.mappings.map fun m => (m.unit, m.attributeId)).Nodup
  valuesDistinct : (db.mappings.map (·.valueId)).Nodup
  valuesIssued : ∀ m ∈ db.mappings, m.valueId ≤ db.lastValue
  mappingsOwned : ∀ m ∈ db.mappings, db.hasUnit m.unit = true
  /-- The attribute of a value is catalogued, and the rows of the value fit it. -/
  mappingsWritten : ∀ m ∈ db.mappings, ∃ info, db.attribute? m.attributeId = some info ∧
    Database.WellWritten info m.valueId (db.rowsUnder m.valueId)
  elementsOwned : ∀ row ∈ db.elements, ∃ m ∈ db.mappings, m.valueId = row.valueId

namespace Database

variable {db : Database} {unit : UnitRef}

theorem Sound.blank (engine : Engine) : (Database.blank engine).Sound where
  unitsDistinct := List.nodup_nil
  unitsIssued := fun _ h => by cases h
  attributesDistinct := List.nodup_nil
  attributesIssued := fun _ h => by cases h
  namesDistinct := List.nodup_nil
  kindsKnown := fun _ h => by cases h
  mappingsDistinct := List.nodup_nil
  valuesDistinct := List.nodup_nil
  valuesIssued := fun _ h => by cases h
  mappingsOwned := fun _ h => by cases h
  mappingsWritten := fun _ h => by cases h
  elementsOwned := fun _ h => by cases h

theorem Sound.issued (h : db.Sound) : db.ValuesIssued := by
  intro row hmem
  obtain ⟨m, hm, heq⟩ := h.elementsOwned row hmem
  exact heq ▸ h.valuesIssued m hm

/-- A value number belongs to one mapping. -/
theorem Sound.eq_of_valueId (h : db.Sound) {m n : Mapping} (hm : m ∈ db.mappings)
    (hn : n ∈ db.mappings) (heq : m.valueId = n.valueId) : m = n :=
  eq_of_nodup Mapping.valueId h.valuesDistinct hm hn heq

theorem Sound.eq_of_key (h : db.Sound) {m n : Mapping} (hm : m ∈ db.mappings) (hn : n ∈ db.mappings)
    (hunit : m.unit = n.unit) (hid : m.attributeId = n.attributeId) : m = n :=
  eq_of_nodup (fun m : Mapping => (m.unit, m.attributeId)) h.mappingsDistinct hm hn
    (Prod.ext hunit hid)

theorem attribute?_eq_some {id : Int} {info : AttributeRow} (h : db.attribute? id = some info) :
    info ∈ db.attributes ∧ info.id = id :=
  ⟨List.mem_of_find?_eq_some h, by simpa using List.find?_some h⟩

theorem Sound.attribute?_of_mem (h : db.Sound) {info : AttributeRow} (hmem : info ∈ db.attributes) :
    db.attribute? info.id = some info :=
  find?_of_nodup AttributeRow.id h.attributesDistinct hmem

/-! ## Values -/

/-- The rows of a value that stays do not change when another goes. -/
theorem Sound.rowsUnder_dropValue (h : db.Sound) {attributeId : Int} {m : Mapping}
    (hm : m ∈ db.mappings) (hne : ¬(m.unit = unit ∧ m.attributeId = attributeId)) :
    (db.dropValue unit attributeId).rowsUnder m.valueId = db.rowsUnder m.valueId := by
  refine Database.rowsUnder_dropValue ?_
  intro n hn hunit hid heq
  rw [h.eq_of_valueId hn hm heq] at hunit hid
  exact hne ⟨hunit, hid⟩

theorem Sound.dropValue (h : db.Sound) (unit : UnitRef) (attributeId : Int) :
    (db.dropValue unit attributeId).Sound := by
  have hsub : List.Sublist (db.dropValue unit attributeId).mappings db.mappings := List.filter_sublist
  have hmem := fun m (hm : m ∈ (db.dropValue unit attributeId).mappings) =>
    mem_mappings_dropValue.1 hm
  refine { h with
    mappingsDistinct := h.mappingsDistinct.sublist (hsub.map _)
    valuesDistinct := h.valuesDistinct.sublist (hsub.map _)
    valuesIssued := fun m hm => h.valuesIssued m (hmem m hm).1
    mappingsOwned := fun m hm => h.mappingsOwned m (hmem m hm).1
    mappingsWritten := ?_
    elementsOwned := ?_ }
  · intro m hm
    obtain ⟨hm, hne⟩ := hmem m hm
    obtain ⟨info, hinfo, hwritten⟩ := h.mappingsWritten m hm
    refine ⟨info, hinfo, ?_⟩
    rwa [h.rowsUnder_dropValue hm hne]
  · -- a row that is left is not one of the value that went
    intro row hrow
    obtain ⟨hrow, hkept⟩ := mem_elements_dropValue.1 hrow
    obtain ⟨m, hm, heq⟩ := h.elementsOwned row hrow
    exact ⟨m, mem_mappings_dropValue.2 ⟨hm, fun hc => hkept m hm hc.1 hc.2 heq⟩, heq⟩

theorem elements_putValue {attributeId : Int} {kind : Kind} {ds : List Datum} :
    (db.putValue unit attributeId kind ds).elements =
      (db.dropValue unit attributeId).elements ++ writtenFrom kind (db.lastValue + 1) 0 ds := rfl

/-- The rows of values with other numbers do not change when a value is put. -/
theorem rowsUnder_putValue {attributeId : Int} {kind : Kind} {ds : List Datum} {valueId : Int}
    (hne : valueId ≠ db.lastValue + 1) :
    (db.putValue unit attributeId kind ds).rowsUnder valueId =
      (db.dropValue unit attributeId).rowsUnder valueId := by
  have hnone : (writtenFrom kind (db.lastValue + 1) 0 ds).filter
      (fun row => row.valueId == valueId) = [] := by
    rw [List.filter_eq_nil_iff]
    intro row hrow
    have := valueId_of_mem_writtenFrom hrow
    simp only [beq_iff_eq]
    omega
  rw [rowsUnder, elements_putValue, List.filter_append, hnone, List.append_nil]
  rfl

/-- Under the number of a value that was put are the rows of its elements. -/
theorem ValuesIssued.rowsUnder_putValue (h : db.ValuesIssued) {attributeId : Int} {kind : Kind}
    {ds : List Datum} :
    (db.putValue unit attributeId kind ds).rowsUnder (db.lastValue + 1) =
      writtenFrom kind (db.lastValue + 1) 0 ds := by
  have hold : (db.dropValue unit attributeId).rowsUnder (db.lastValue + 1) = [] :=
    rowsUnder_eq_nil h.dropValue (Int.lt_succ db.lastValue)
  unfold rowsUnder at hold ⊢
  rw [elements_putValue, List.filter_append, hold, List.nil_append, List.filter_eq_self]
  intro row hrow
  simpa using valueId_of_mem_writtenFrom hrow

theorem Sound.putValue (h : db.Sound) {attributeId : Int} {kind : Kind} {ds : List Datum}
    {info : AttributeRow} (hunit : db.hasUnit unit = true)
    (hinfo : db.attribute? attributeId = some info)
    (hwritten : WellWritten info (db.lastValue + 1) (writtenFrom kind (db.lastValue + 1) 0 ds)) :
    (db.putValue unit attributeId kind ds).Sound := by
  -- what was there of the attribute goes first, then one mapping and its rows are added
  have hkept := h.dropValue unit attributeId
  have hmem : ∀ m, m ∈ (db.putValue unit attributeId kind ds).mappings ↔
      m ∈ (db.dropValue unit attributeId).mappings ∨ m = ⟨unit, attributeId, db.lastValue + 1⟩ := by
    intro m
    rw [mem_mappings_putValue, mem_mappings_dropValue]
  have hmappings : (db.putValue unit attributeId kind ds).mappings =
      (db.dropValue unit attributeId).mappings ++ [⟨unit, attributeId, db.lastValue + 1⟩] := rfl
  have hfresh : ∀ m ∈ (db.dropValue unit attributeId).mappings, m.valueId ≤ db.lastValue :=
    hkept.valuesIssued
  refine { h with
    mappingsDistinct := ?_
    valuesDistinct := ?_
    valuesIssued := ?_
    mappingsOwned := ?_
    mappingsWritten := ?_
    elementsOwned := ?_ }
  · -- the key is free because the old value is gone
    rw [hmappings]
    refine nodup_map_append_single _ hkept.mappingsDistinct fun m hm heq => ?_
    exact (mem_mappings_dropValue.1 hm).2 (Prod.mk.inj heq)
  · rw [hmappings]
    refine nodup_map_append_single _ hkept.valuesDistinct fun m hm heq => ?_
    have hissued := hfresh m hm
    rw [show m.valueId = db.lastValue + 1 from heq] at hissued
    omega
  · intro m hm
    show m.valueId ≤ db.lastValue + 1
    rcases (hmem m).1 hm with hold | rfl
    · have := hfresh m hold
      omega
    · exact Int.le_refl _
  · intro m hm
    rcases (hmem m).1 hm with hold | rfl
    · exact hkept.mappingsOwned m hold
    · exact hunit
  · intro m hm
    rcases (hmem m).1 hm with hold | rfl
    · obtain ⟨other, hother, hrows⟩ := hkept.mappingsWritten m hold
      refine ⟨other, hother, ?_⟩
      have := hfresh m hold
      rwa [Database.rowsUnder_putValue (by omega)]
    · refine ⟨info, hinfo, ?_⟩
      simp only
      rwa [h.issued.rowsUnder_putValue]
  · intro row hrow
    rcases List.mem_append.1 hrow with hold | hnew
    · obtain ⟨m, hm, heq⟩ := hkept.elementsOwned row hold
      exact ⟨m, (hmem m).2 (Or.inl hm), heq⟩
    · exact ⟨_, (hmem _).2 (Or.inr rfl), (valueId_of_mem_writtenFrom hnew).symm⟩

/-! ## Units -/

theorem hasUnit_iff : db.hasUnit unit = true ↔ ∃ row ∈ db.units, row.unit = unit := by
  simp only [hasUnit, List.any_eq_true, beq_iff_eq]

theorem Sound.unitsNumbered (h : db.Sound) : db.UnitsNumbered :=
  ⟨h.unitsDistinct, h.unitsIssued⟩

theorem Sound.insertUnit (h : db.Sound) (row : UnitRow) (hid : row.unit.id = db.lastUnit + 1) :
    ({ db with units := db.units ++ [row], lastUnit := db.lastUnit + 1 } : Database).Sound := by
  have hunits := h.unitsNumbered.insertUnit row hid
  refine { h with unitsDistinct := hunits.distinct, unitsIssued := hunits.issued, mappingsOwned := ?_ }
  intro m hm
  obtain ⟨old, hold, heq⟩ := hasUnit_iff.1 (h.mappingsOwned m hm)
  exact hasUnit_iff.2 ⟨old, List.mem_append_left _ hold, heq⟩

/-- Rows of units may change in all but their identity. -/
theorem Sound.updateUnits (h : db.Sound) {f : UnitRow → UnitRow}
    (hf : ∀ row ∈ db.units, (f row).unit = row.unit) :
    ({ db with units := db.units.map f } : Database).Sound := by
  have hunits := h.unitsNumbered.updateUnits hf
  refine { h with unitsDistinct := hunits.distinct, unitsIssued := hunits.issued, mappingsOwned := ?_ }
  intro m hm
  obtain ⟨old, hold, heq⟩ := hasUnit_iff.1 (h.mappingsOwned m hm)
  exact hasUnit_iff.2 ⟨f old, List.mem_map_of_mem hold, (hf old hold).trans heq⟩

/-- The database without a unit and all that hangs on it. -/
def withoutUnit (db : Database) (unit : UnitRef) : Database :=
  let doomed := (db.mappingsOf unit).map (·.valueId)
  { db with
    units := db.units.filter fun row => row.unit != unit
    mappings := db.mappings.filter fun row => row.unit != unit
    elements := db.elements.filter fun row => !doomed.contains row.valueId
    relations := db.relations.filter fun row => row.left != unit && row.right != unit
    associations := db.associations.filter fun row => row.left != unit
    locks := db.locks.filter fun row => row.unit != unit }

theorem deleteUnit_apply (unit : UnitRef) (db : Database) :
    deleteUnit unit db = .ok ((), db.withoutUnit unit) := rfl

theorem mem_mappings_withoutUnit {m : Mapping} :
    m ∈ (db.withoutUnit unit).mappings ↔ m ∈ db.mappings ∧ m.unit ≠ unit := by
  simp only [withoutUnit, List.mem_filter, bne_iff_ne]

theorem mem_units_withoutUnit {row : UnitRow} :
    row ∈ (db.withoutUnit unit).units ↔ row ∈ db.units ∧ row.unit ≠ unit := by
  simp only [withoutUnit, List.mem_filter, bne_iff_ne]

theorem mem_elements_withoutUnit {row : ElementRow} :
    row ∈ (db.withoutUnit unit).elements ↔
      row ∈ db.elements ∧ ∀ m ∈ db.mappings, m.unit = unit → m.valueId ≠ row.valueId := by
  simp only [withoutUnit, mappingsOf, List.mem_filter, Bool.not_eq_true', List.contains_eq_mem,
    decide_eq_false_iff_not, List.mem_map, beq_iff_eq, not_exists, not_and]
  constructor
  · rintro ⟨hmem, hkept⟩
    exact ⟨hmem, fun m hm hunit => hkept m ⟨hm, hunit⟩⟩
  · rintro ⟨hmem, hkept⟩
    exact ⟨hmem, fun m hm => hkept m hm.1 hm.2⟩

/-- The rows of the values of other units stay when a unit goes. -/
theorem Sound.rowsUnder_withoutUnit (h : db.Sound) {m : Mapping} (hm : m ∈ db.mappings)
    (hne : m.unit ≠ unit) : (db.withoutUnit unit).rowsUnder m.valueId = db.rowsUnder m.valueId := by
  unfold rowsUnder withoutUnit
  rw [List.filter_filter]
  refine List.filter_congr fun row _ => ?_
  by_cases hrow : row.valueId = m.valueId
  · have hkept : m.valueId ∉ (db.mappingsOf unit).map (·.valueId) := by
      intro hmem
      obtain ⟨n, hn, heq⟩ := List.mem_map.1 hmem
      obtain ⟨hn, hunit⟩ := List.mem_filter.1 hn
      rw [h.eq_of_valueId hn hm heq] at hunit
      exact hne (by simpa using hunit)
    simp [hrow, hkept]
  · simp [hrow]

theorem Sound.deleteUnit (h : db.Sound) (unit : UnitRef) : (db.withoutUnit unit).Sound := by
  have hsub : List.Sublist (db.withoutUnit unit).mappings db.mappings := List.filter_sublist
  have hunits : List.Sublist (db.withoutUnit unit).units db.units := List.filter_sublist
  have hmem := fun m (hm : m ∈ (db.withoutUnit unit).mappings) => mem_mappings_withoutUnit.1 hm
  refine { h with
    unitsDistinct := h.unitsDistinct.sublist (hunits.map _)
    unitsIssued := fun row hrow => h.unitsIssued row (hunits.mem hrow)
    mappingsDistinct := h.mappingsDistinct.sublist (hsub.map _)
    valuesDistinct := h.valuesDistinct.sublist (hsub.map _)
    valuesIssued := fun m hm => h.valuesIssued m (hmem m hm).1
    mappingsOwned := ?_
    mappingsWritten := ?_
    elementsOwned := ?_ }
  · intro m hm
    obtain ⟨hm, hne⟩ := hmem m hm
    obtain ⟨row, hrow, heq⟩ := hasUnit_iff.1 (h.mappingsOwned m hm)
    exact hasUnit_iff.2 ⟨row, mem_units_withoutUnit.2 ⟨hrow, heq ▸ hne⟩, heq⟩
  · intro m hm
    obtain ⟨hm, hne⟩ := hmem m hm
    obtain ⟨info, hinfo, hwritten⟩ := h.mappingsWritten m hm
    refine ⟨info, hinfo, ?_⟩
    rwa [h.rowsUnder_withoutUnit hm hne]
  · -- no value that owned the row can have gone, or the row would have gone with it
    intro row hrow
    obtain ⟨hrow, hkept⟩ := mem_elements_withoutUnit.1 hrow
    obtain ⟨m, hm, heq⟩ := h.elementsOwned row hrow
    exact ⟨m, mem_mappings_withoutUnit.2 ⟨hm, fun hunit => hkept m hm hunit heq⟩, heq⟩

/-! ## Definitions -/

/-- What holds of the definitions, whatever else is stored: their numbers were given out once, their names
differ beyond case, and their kinds are known. -/
structure Defined (db : Database) : Prop where
  distinct : (db.attributes.map (·.id)).Nodup
  issued : ∀ info ∈ db.attributes, info.id ≤ db.lastAttribute
  namesDistinct : (db.attributes.map fun info => Text.lower info.name).Nodup
  kindsKnown : ∀ info ∈ db.attributes, ∃ kind : Kind, kind.code = info.kindCode

theorem Sound.defined (h : db.Sound) : db.Defined where
  distinct := h.attributesDistinct
  issued := h.attributesIssued
  namesDistinct := h.namesDistinct
  kindsKnown := h.kindsKnown

theorem Defined.attribute?_of_mem (h : db.Defined) {info : AttributeRow} (hmem : info ∈ db.attributes) :
    db.attribute? info.id = some info :=
  find?_of_nodup AttributeRow.id h.distinct hmem

theorem Defined.eq_of_id (h : db.Defined) {a b : AttributeRow} (ha : a ∈ db.attributes)
    (hb : b ∈ db.attributes) (hid : a.id = b.id) : a = b :=
  eq_of_nodup AttributeRow.id h.distinct ha hb hid

theorem Defined.eq_of_name (h : db.Defined) {a b : AttributeRow} (ha : a ∈ db.attributes)
    (hb : b ∈ db.attributes) (hname : Text.lower a.name = Text.lower b.name) : a = b :=
  eq_of_nodup (fun info : AttributeRow => Text.lower info.name) h.namesDistinct ha hb hname

/-- An attribute with the next number and a name that differs beyond case is new. -/
theorem Defined.insertAttribute (h : db.Defined) (info : AttributeRow)
    (hid : info.id = db.lastAttribute + 1) (hkind : ∃ kind : Kind, kind.code = info.kindCode)
    (hname : ∀ other ∈ db.attributes, Text.lower other.name ≠ Text.lower info.name) :
    ({ db with attributes := db.attributes ++ [info], lastAttribute := db.lastAttribute + 1 } :
      Database).Defined where
  distinct := by
    refine nodup_map_append_single _ h.distinct fun old hold heq => ?_
    have hissued := h.issued old hold
    omega
  issued := by
    intro other hmem
    show other.id ≤ db.lastAttribute + 1
    rcases List.mem_append.1 hmem with hold | hnew
    · have := h.issued other hold
      omega
    · exact Int.le_of_eq (List.mem_singleton.1 hnew ▸ hid)
  namesDistinct := nodup_map_append_single _ h.namesDistinct hname
  kindsKnown := by
    intro other hmem
    rcases List.mem_append.1 hmem with hold | hnew
    · exact h.kindsKnown other hold
    · exact List.mem_singleton.1 hnew ▸ hkind

theorem Sound.insertAttribute (h : db.Sound) (info : AttributeRow)
    (hid : info.id = db.lastAttribute + 1) (hkind : ∃ kind : Kind, kind.code = info.kindCode)
    (hname : ∀ other ∈ db.attributes, Text.lower other.name ≠ Text.lower info.name) :
    ({ db with attributes := db.attributes ++ [info], lastAttribute := db.lastAttribute + 1 } :
      Database).Sound := by
  have hdefined := h.defined.insertAttribute info hid hkind hname
  refine { h with
    attributesDistinct := hdefined.distinct
    attributesIssued := hdefined.issued
    namesDistinct := hdefined.namesDistinct
    kindsKnown := hdefined.kindsKnown
    mappingsWritten := ?_ }
  intro m hm
  obtain ⟨old, hold, hwritten⟩ := h.mappingsWritten m hm
  exact ⟨old, attribute?_of_prefix (List.prefix_append _ _) hold, hwritten⟩

end Database

end MetadataStore
