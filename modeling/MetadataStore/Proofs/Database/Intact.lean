import MetadataStore.Proofs.Database.Linked

/-!
# `Proofs.Database.Intact` — the tables as a whole

What the tables say of units, values, locks and links, without a word on how they came to say it: values
belong to units and definitions, their elements are where their definition puts them and stand one after
the other, and locks and links stand on units.

## Contents
- `writtenFrom` row by row: tables, indices, texts.
- `Database.Intact`, and `intact_of_sound`: a sound and linked database is intact.
-/

namespace MetadataStore

/-! ## Rows of one value -/

section

variable {kind : Kind} {valueId : Int} {index : Nat} {ds : List Datum} {row : ElementRow}

theorem length_writtenFrom (kind : Kind) (valueId : Int) (index : Nat) (ds : List Datum) :
    (writtenFrom kind valueId index ds).length = ds.length := by
  induction ds generalizing index with
  | nil => rfl
  | cons d ds ih => rw [writtenFrom, List.length_cons, List.length_cons, ih]

theorem indices_writtenFrom (kind : Kind) (valueId : Int) (index : Nat) (ds : List Datum) :
    (writtenFrom kind valueId index ds).map (·.index) =
      (List.range' index ds.length).map fun i : Nat => (i : Int) := by
  induction ds generalizing index with
  | nil => rfl
  | cons d ds ih =>
    rw [writtenFrom, List.map_cons, List.length_cons, List.range'_succ, List.map_cons, ih]

/-- Every row is that of one of the elements. -/
theorem exists_of_mem_writtenFrom (h : row ∈ writtenFrom kind valueId index ds) :
    row.table = kind ∧ ∃ d ∈ ds, row.cell = d.toCell.settled := by
  induction ds generalizing index with
  | nil => cases h
  | cons d ds ih =>
    rcases List.mem_cons.1 h with rfl | hrest
    · exact ⟨rfl, d, List.mem_cons_self, rfl⟩
    · obtain ⟨htable, other, hother, hcell⟩ := ih hrest
      exact ⟨htable, other, List.mem_cons_of_mem d hother, hcell⟩

end

/-- When all elements fit, each of them does. -/
theorem Attribute.fits_of_allFit {name : String} {ds : List Datum} (h : allFit name ds = .ok ())
    {d : Datum} (hmem : d ∈ ds) : fits name d = .ok () := by
  induction ds with
  | nil => cases hmem
  | cons first rest ih =>
    rw [allFit] at h
    cases hfirst : fits name first with
    | error fault =>
      rw [hfirst] at h
      cases h
    | ok u =>
      rw [hfirst] at h
      rcases List.mem_cons.1 hmem with rfl | hrest
      · exact hfirst
      · exact ih h hrest

namespace Database

/-! ## All tables -/

/-- What the tables say. -/
structure Intact (db : Database) : Prop where
  /-- Every value is one of a catalogued attribute on a stored unit. -/
  valuesOwned : ∀ m ∈ db.mappings, db.hasUnit m.unit = true ∧ (db.attribute? m.attributeId).isSome = true
  /-- An attribute has one value on a unit at most. -/
  valuesLone : (db.mappings.map fun m => (m.unit, m.attributeId)).Nodup
  /-- No two values have one number. -/
  valuesDistinct : (db.mappings.map (·.valueId)).Nodup
  /-- Every row of an element is one of a value. -/
  elementsOwned : ∀ row ∈ db.elements, ∃ m ∈ db.mappings, m.valueId = row.valueId
  /-- The elements of a value are all in the table of the kind that its attribute has. -/
  elementsPlaced : ∀ m ∈ db.mappings, ∀ info, db.attribute? m.attributeId = some info →
    ∀ row ∈ db.rowsUnder m.valueId, row.table.code = info.kindCode
  /-- They are numbered from zero on, without a gap. -/
  elementsIndexed : ∀ m ∈ db.mappings, (db.rowsUnder m.valueId).map (·.index) =
    (List.range (db.rowsUnder m.valueId).length).map fun i : Nat => (i : Int)
  /-- A scalar has one element at most. -/
  scalarsLone : ∀ m ∈ db.mappings, ∀ info, db.attribute? m.attributeId = some info →
    info.scalar = true → (db.rowsUnder m.valueId).length ≤ 1
  /-- No text is too long. -/
  textsFit : ∀ row ∈ db.elements, row.table = .string →
    ∃ text, row.cell = .text text ∧ text.length ≤ maxTextLength
  /-- Relations join stored units. -/
  relationsStand : ∀ row ∈ db.relations, db.hasUnit row.left = true ∧ db.hasUnit row.right = true
  /-- Associations are of stored units. -/
  associationsStand : ∀ row ∈ db.associations, db.hasUnit row.left = true
  /-- A unit has one link at most, be it a relation or an association, of a kind that does not allow
  several. -/
  linksLone : ∀ kind : LinkKind, kind.allowsMultiple = false → ∀ unit,
    (db.relationsOf unit kind.code).length + (db.associationsOf unit kind.code).length ≤ 1
  /-- Locks are on stored units. -/
  locksStand : ∀ row ∈ db.locks, db.hasUnit row.unit = true
  /-- A unit has one lock at most. -/
  locksLone : ∀ unit, (db.locksOf unit).length ≤ 1

variable {db : Database}

/-- Rows that fit a definition are in its table, numbered from zero on, one at most for a scalar. -/
theorem WellWritten.rows {info : AttributeRow} {valueId : Int} {rows : List ElementRow}
    (h : WellWritten info valueId rows) :
    (∀ row ∈ rows, row.table.code = info.kindCode) ∧
      rows.map (·.index) = (List.range rows.length).map (fun i : Nat => (i : Int)) ∧
      (info.scalar = true → rows.length ≤ 1) := by
  obtain ⟨kind, ds, hkind, -, hscalar, -, rfl⟩ := h
  refine ⟨?_, ?_, ?_⟩
  · intro row hmem
    rw [(exists_of_mem_writtenFrom hmem).1]
    exact hkind
  · rw [indices_writtenFrom, length_writtenFrom, List.range_eq_range']
  · rw [length_writtenFrom]
    exact hscalar

/-- A row of a text holds the text of an element that could be written. -/
theorem WellWritten.text {info : AttributeRow} {valueId : Int} {rows : List ElementRow}
    (h : WellWritten info valueId rows) {row : ElementRow} (hmem : row ∈ rows)
    (htable : row.table = .string) :
    ∃ text, row.cell = .text text ∧ text.length ≤ maxTextLength := by
  obtain ⟨kind, ds, -, hds, -, hfit, rfl⟩ := h
  obtain ⟨hkind, d, hd, hcell⟩ := exists_of_mem_writtenFrom hmem
  have htyped : d.kind = .string := by rw [(hds d hd).1, ← hkind, htable]
  have hfits := Attribute.fits_of_allFit hfit hd
  cases d with
  | string text =>
    refine ⟨text, hcell, ?_⟩
    simp only [Attribute.fits] at hfits
    split at hfits
    · assumption
    · cases hfits
  | _ => cases htyped

/-- **A sound database in which all stands is intact.** -/
theorem intact_of_sound (hsound : db.Sound) (hlinked : db.Linked) : db.Intact where
  valuesOwned := by
    intro m hm
    obtain ⟨info, hinfo, -⟩ := hsound.mappingsWritten m hm
    exact ⟨hsound.mappingsOwned m hm, Option.isSome_iff_exists.2 ⟨info, hinfo⟩⟩
  valuesLone := hsound.mappingsDistinct
  valuesDistinct := hsound.valuesDistinct
  elementsOwned := hsound.elementsOwned
  elementsPlaced := by
    intro m hm info hinfo
    obtain ⟨other, hother, hwritten⟩ := hsound.mappingsWritten m hm
    cases hinfo.symm.trans hother
    exact hwritten.rows.1
  elementsIndexed := by
    intro m hm
    obtain ⟨info, -, hwritten⟩ := hsound.mappingsWritten m hm
    exact hwritten.rows.2.1
  scalarsLone := by
    intro m hm info hinfo
    obtain ⟨other, hother, hwritten⟩ := hsound.mappingsWritten m hm
    cases hinfo.symm.trans hother
    exact hwritten.rows.2.2
  textsFit := by
    intro row hrow htable
    obtain ⟨m, hm, hvalue⟩ := hsound.elementsOwned row hrow
    obtain ⟨info, -, hwritten⟩ := hsound.mappingsWritten m hm
    have hunder : row ∈ db.rowsUnder m.valueId :=
      List.mem_filter.2 ⟨hrow, by simpa using hvalue.symm⟩
    exact hwritten.text hunder htable
  relationsStand := hlinked.relationsStand
  associationsStand := hlinked.associationsStand
  linksLone := fun _ hlone unit => hlinked.length_links_le_one hlone unit
  locksStand := hlinked.locksStand
  locksLone := hlinked.length_locksOf_le_one

end Database

end MetadataStore
