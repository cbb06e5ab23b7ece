import MetadataStore.Proofs.Handle.Stored
import MetadataStore.Proofs.Rows

/-!
# `Proofs.Handle.Fetch` — the attributes that a fetch builds

A fetch joins the mappings of a unit with the tables of elements of all kinds and builds attributes from
the rows. In a sound state the elements of a value stand in one table, one row each in their order, or
there are none and a single row declares the value; so the rows of a value make one attribute again,
and the fetch builds each attribute that the unit has once.

## Contents
- `writtenFrom_inj`: rows determine the elements that are read back.
- `Database.joinedElements_eq`, `rowsOfMapping_eq`: the rows of one value.
- `Row.elementsOf_writtenFrom`, `Attribute.inflate_rowsFor`: one attribute from its rows.
- `Attribute.StoredOn`: the attribute is as storage has it on a unit; there is one for each number.
- `Attribute.storedOn_of_readBack`: an attribute of elements that come back is as storage has it.
- `Sound.inflateAll_attributeRows`: all attributes of a unit.
-/

namespace MetadataStore

/-! ## Rows and elements -/

/-- Elements that make the same cells make the same rows. -/
theorem writtenFrom_map {f : Datum → Datum} (hf : ∀ d, (f d).toCell.settled = d.toCell.settled)
    (kind : Kind) (valueId : Int) (index : Nat) (ds : List Datum) :
    writtenFrom kind valueId index (ds.map f) = writtenFrom kind valueId index ds := by
  induction ds generalizing index with
  | nil => rfl
  | cons d ds ih => rw [List.map_cons, writtenFrom, writtenFrom, hf, ih]

theorem index_of_mem_writtenFrom {kind : Kind} {valueId : Int} {index : Nat} {ds : List Datum}
    {row : ElementRow} (h : row ∈ writtenFrom kind valueId index ds) : (index : Int) ≤ row.index := by
  induction ds generalizing index with
  | nil => cases h
  | cons d ds ih =>
    rcases List.mem_cons.1 h with rfl | h
    · exact Int.le_refl _
    · have := ih h
      omega

/-- The rows of elements stand in the order of their indices. -/
theorem sorted_writtenFrom (kind : Kind) (valueId : Int) (index : Nat) (ds : List Datum) :
    (writtenFrom kind valueId index ds).Pairwise
      fun a b => decide (a.index ≤ b.index) = true := by
  induction ds generalizing index with
  | nil => exact List.Pairwise.nil
  | cons d ds ih =>
    refine List.Pairwise.cons ?_ (ih (index + 1))
    intro row hrow
    have := index_of_mem_writtenFrom hrow
    simp only [decide_eq_true_eq]
    omega

theorem writtenFrom_eq_nil {kind : Kind} {valueId : Int} {index : Nat} {ds : List Datum} :
    writtenFrom kind valueId index ds = [] ↔ ds = [] := by
  cases ds with
  | nil => simp [writtenFrom]
  | cons d ds => simp [writtenFrom]

theorem table_of_mem_writtenFrom {kind : Kind} {valueId : Int} {index : Nat} {ds : List Datum}
    {row : ElementRow} (h : row ∈ writtenFrom kind valueId index ds) : row.table = kind := by
  induction ds generalizing index with
  | nil => cases h
  | cons d ds ih =>
    rcases List.mem_cons.1 h with rfl | h
    · rfl
    · exact ih h

/-- Storable elements of one kind that make the same rows are read back alike. -/
theorem writtenFrom_inj {kind : Kind} {valueId : Int} {index : Nat} {xs ys : List Datum}
    (hxs : ∀ d ∈ xs, d.kind = kind ∧ d.IsStorable) (hys : ∀ d ∈ ys, d.kind = kind)
    (h : writtenFrom kind valueId index xs = writtenFrom kind valueId index ys) :
    xs.map Datum.readBack = ys.map Datum.readBack := by
  induction xs generalizing index ys with
  | nil =>
    have hnil : ys = [] := writtenFrom_eq_nil.1 h.symm
    rw [hnil]
  | cons x xs ih =>
    cases ys with
    | nil => cases h
    | cons y ys =>
      simp only [writtenFrom, List.cons.injEq, ElementRow.mk.injEq, true_and] at h
      obtain ⟨hcell, hrest⟩ := h
      obtain ⟨hkind, hstorable⟩ := hxs x List.mem_cons_self
      have hkinds : x.kind = y.kind := hkind.trans (hys y List.mem_cons_self).symm
      have hhead : x.readBack = y.readBack := Datum.readBack_eq_of_toCell hkinds hstorable hcell
      have htail := ih (fun d hd => hxs d (List.mem_cons_of_mem x hd))
        (fun d hd => hys d (List.mem_cons_of_mem y hd)) hrest
      rw [List.map_cons, List.map_cons, hhead, htail]

namespace Database

variable {db : Database} {unit : UnitRef}

theorem elementsIn_eq (db : Database) (table : Kind) (valueId : Int) :
    db.elementsIn table valueId = (db.rowsUnder valueId).filter fun row => row.table == table := by
  unfold elementsIn rowsUnder
  rw [List.filter_filter]

/-- Elements that stand in one table make one table of the join, met once each in their order. -/
theorem joinedElements_eq {kind : Kind} {valueId : Int} {ds : List Datum}
    (hrows : db.rowsUnder valueId = writtenFrom kind valueId 0 ds) :
    db.joinedElements valueId = writtenFrom kind valueId 0 ds := by
  have htable : ∀ table, db.elementsIn table valueId =
      if table = kind then writtenFrom kind valueId 0 ds else [] := by
    intro table
    rw [elementsIn_eq, hrows]
    split
    · rename_i heq
      rw [List.filter_eq_self]
      intro row hmem
      rw [table_of_mem_writtenFrom hmem, heq]
      exact beq_self_eq_true kind
    · rename_i hne
      rw [List.filter_eq_nil_iff]
      intro row hmem heq
      rw [table_of_mem_writtenFrom hmem] at heq
      exact hne (beq_iff_eq.1 heq).symm
  unfold joinedElements
  rw [show (fun table => db.elementsIn table valueId) = fun table =>
    if table = kind then writtenFrom kind valueId 0 ds else [] from funext htable]
  have hsorted : (writtenFrom kind valueId 0 ds).mergeSort (fun a b => decide (a.index ≤ b.index)) =
      writtenFrom kind valueId 0 ds :=
    List.mergeSort_of_pairwise (sorted_writtenFrom kind valueId 0 ds)
  cases hds : writtenFrom kind valueId 0 ds with
  | nil => simp
  | cons row rows =>
    rw [hds] at hsorted
    -- of the seven tables only the one of the kind has rows
    have htables : (Kind.all.map fun table => if table = kind then row :: rows else []).filter
        (fun rows => !rows.isEmpty) = [row :: rows] := by
      cases kind <;> rfl
    simp only [htables, List.map_nil, List.foldl_nil, List.replicate_one, hsorted]
    exact List.flatMap_singleton' (row :: rows)

/-- The rows of a fetch for a value: its elements in order, or one row that declares it empty. -/
def rowsFor (info : AttributeRow) (kind : Kind) (valueId : Int) (ds : List Datum) : List Row :=
  let row (index : Option Int) (cell : Cell) : Row :=
    ⟨info.id, info.name, info.kindCode, info.scalar, valueId, index, cell⟩
  match ds with
  | [] => [row none .null]
  | ds => (writtenFrom kind valueId 0 ds).map fun element => row (some element.index) element.cell

theorem rowsOfMapping_eq {m : Mapping} {info : AttributeRow} {kind : Kind} {ds : List Datum}
    (hinfo : db.attribute? m.attributeId = some info)
    (hrows : db.rowsUnder m.valueId = writtenFrom kind m.valueId 0 ds) :
    db.rowsOfMapping m = rowsFor info kind m.valueId ds := by
  unfold rowsOfMapping
  rw [hinfo, joinedElements_eq hrows]
  cases ds with
  | nil => rfl
  | cons d ds => rfl

theorem valueId_of_mem_rowsFor {info : AttributeRow} {kind : Kind} {valueId : Int} {ds : List Datum}
    {row : Row} (h : row ∈ rowsFor info kind valueId ds) : row.valueId = valueId := by
  cases ds with
  | nil =>
    rw [List.mem_singleton.1 h]
  | cons d ds =>
    obtain ⟨element, -, rfl⟩ := List.mem_map.1 h
    rfl

end Database

/-! ## One attribute -/

/-- Rows with the written elements of a value give the elements that are read back. -/
theorem Row.elementsOf_writtenFrom {kind : Kind} {valueId : Int} (row : Option Int → Cell → Row)
    (hrow : ∀ index cell, (row index cell).index = index ∧ (row index cell).cell = cell)
    (index : Nat) {ds : List Datum} (hds : ∀ d ∈ ds, d.kind = kind ∧ d.IsStorable) :
    Row.ElementsOf kind
      ((writtenFrom kind valueId index ds).map fun element => row (some element.index) element.cell)
      (ds.map Datum.readBack) := by
  unfold Row.ElementsOf
  induction ds generalizing index with
  | nil => exact .nil
  | cons d ds ih =>
    obtain ⟨hkind, hstorable⟩ := hds d List.mem_cons_self
    rw [writtenFrom, List.map_cons, List.filter_cons_of_pos (by simp [hrow]), List.map_cons]
    refine .cons ?_ (ih (index + 1) fun d' hd' => hds d' (List.mem_cons_of_mem d hd'))
    rw [(hrow _ _).2, ← hkind]
    exact Datum.ofCell_settled hstorable

/-- The rows of a value are read up to the first row of another one. -/
theorem Row.readElements_append {kind : Kind} {valueId : Int} (row : Option Int → Cell → Row)
    (hrow : ∀ index cell, (row index cell).valueId = valueId ∧ (row index cell).index = index ∧
      (row index cell).cell = cell)
    (index : Nat) {ds : List Datum} {rest : List Row}
    (hds : ∀ d ∈ ds, d.kind = kind ∧ d.IsStorable) (hrest : ∀ r ∈ rest, r.valueId ≠ valueId) :
    Row.readElements kind valueId
        (((writtenFrom kind valueId index ds).map fun element =>
          row (some element.index) element.cell) ++ rest) =
      (.ok (ds.map Datum.readBack), rest) := by
  have hrun : ∀ r ∈ (writtenFrom kind valueId index ds).map fun element =>
      row (some element.index) element.cell, r.valueId = valueId := by
    intro r hr
    obtain ⟨element, -, rfl⟩ := List.mem_map.1 hr
    exact (hrow _ _).1
  obtain ⟨htake, hdrop⟩ := Row.takeWhile_append hrun hrest
  rw [Row.readElements_eq_ok_iff, htake, hdrop]
  exact ⟨Row.elementsOf_writtenFrom row (fun i c => (hrow i c).2) index hds, rfl⟩

namespace Attribute

open Database (rowsFor)

/-- **The rows of one value make one attribute**, and the rows of other values are left. -/
theorem inflate_rowsFor {info : AttributeRow} {kind : Kind} {valueId : Int} {ds : List Datum}
    {rest : List Row} (hkind : kind.code = info.kindCode)
    (hds : ∀ d ∈ ds, d.kind = kind ∧ d.IsStorable) (hrest : ∀ row ∈ rest, row.valueId ≠ valueId) :
    ∃ typed, inflate (rowsFor info kind valueId ds ++ rest) =
      (.ok ⟨info.id, info.name, info.scalar, some valueId,
        .ofElements kind (ds.map Datum.readBack) false typed⟩, rest) := by
  have hcode : Kind.ofCode? info.kindCode = some kind := by
    rw [← hkind]
    exact Kind.ofCode?_code kind
  let row (index : Option Int) (cell : Cell) : Row :=
    ⟨info.id, info.name, info.kindCode, info.scalar, valueId, index, cell⟩
  have hrow : ∀ index cell, (row index cell).valueId = valueId ∧ (row index cell).index = index ∧
      (row index cell).cell = cell := fun _ _ => ⟨rfl, rfl, rfl⟩
  have hread := Row.readElements_append row hrow 0 hds hrest
  cases ds with
  -- no element: the one row only declares the value
  | nil =>
    have hdeclared : Row.readElements kind valueId (row none .null :: rest) = (.ok [], rest) := by
      rw [Row.readElements, if_pos rfl]
      exact hread
    exact inflate_of_read hcode hdeclared
  | cons d ds => exact inflate_of_read hcode hread

/-! ## As storage has it -/

/-- The attribute is as storage has it on a unit: under its value number stand the rows of its elements,
which are as reading gives them, and nothing about it is new or changed. -/
structure StoredOn (db : Database) (unit : UnitRef) (a : Attribute) : Prop where
  catalogued : a.Catalogued db
  value : ∃ v, a.valueId = some v ∧ db.HasValue unit a.id v a.kind a.value.elements
  isNew : a.value.isNew = false
  baseline : a.value.baseline = Digest.ofElements a.value.elements
  storable : ∀ d ∈ a.value.elements, d.IsStorable
  readBack : ∀ d ∈ a.value.elements, d.readBack = d

variable {db : Database} {unit : UnitRef} {a b : Attribute}

theorem StoredOn.needsWriting (h : a.StoredOn db unit) : a.needsWriting = false := by
  obtain ⟨v, hv, -⟩ := h.value
  unfold Attribute.needsWriting Attribute.isNew Attribute.isModified Value.isModified
  rw [hv, h.isNew, h.baseline]
  simp

theorem map_readBack_eq {ds : List Datum} (h : ∀ d ∈ ds, d.readBack = d) :
    ds.map Datum.readBack = ds := by
  rw [List.map_congr_left h, List.map_id']

/-- **Storage has one attribute for each number.** -/
theorem StoredOn.eq_of_id (hsound : db.Sound) (ha : a.StoredOn db unit) (hb : b.StoredOn db unit)
    (hid : a.id = b.id) : a = b := by
  obtain ⟨infoA, hinfoA, hnameA, hkindA, hscalarA⟩ := ha.catalogued
  obtain ⟨infoB, hinfoB, hnameB, hkindB, hscalarB⟩ := hb.catalogued
  rw [hid, hinfoB] at hinfoA
  cases hinfoA
  obtain ⟨v, hv, hmemA, hrowsA⟩ := ha.value
  obtain ⟨w, hw, hmemB, hrowsB⟩ := hb.value
  -- the unit has one mapping of this attribute, hence one value number
  have hsame := hsound.eq_of_key hmemA hmemB rfl hid
  simp only [Mapping.mk.injEq] at hsame
  obtain ⟨-, -, rfl⟩ := hsame
  have hkind : a.kind = b.kind := by
    have hcode := congrArg Kind.ofCode? (hkindA.symm.trans hkindB)
    rw [Kind.ofCode?_code, Kind.ofCode?_code] at hcode
    exact Option.some.inj hcode
  have helements : a.value.elements = b.value.elements := by
    rw [hrowsA, hkind] at hrowsB
    have hread := writtenFrom_inj (fun d hd => ⟨(a.value.typed d hd).trans hkind, ha.storable d hd⟩)
      b.value.typed hrowsB
    rwa [map_readBack_eq ha.readBack, map_readBack_eq hb.readBack] at hread
  have hvalue : a.value = b.value := by
    refine Value.ext hkind helements ?_ (ha.isNew.trans hb.isNew.symm)
    rw [ha.baseline, hb.baseline, helements]
  exact Attribute.ext hid (hnameA.symm.trans hnameB) (hscalarA.symm.trans hscalarB) (hv.trans hw.symm)
    hvalue

/-- **An attribute with the elements that were written, as they come back**, is as storage has it. -/
theorem storedOn_of_readBack {ds : List Datum} {v : Int} (hcatalogued : a.Catalogued db)
    (hv : a.valueId = some v) (hvalue : db.HasValue unit a.id v a.kind ds)
    (hstorable : ∀ d ∈ ds, d.IsStorable) (typed : ∀ d ∈ ds.map Datum.readBack, d.kind = a.kind)
    (hread : a.value = .ofElements a.kind (ds.map Datum.readBack) false typed) :
    a.StoredOn db unit := by
  -- what came back once comes back the same
  have helements : a.value.elements = ds.map Datum.readBack := by
    rw [hread]
    show (ds.map Datum.readBack).map Datum.settled = ds.map Datum.readBack
    rw [List.map_map]
    exact List.map_congr_left fun d _ => Datum.settled_readBack d
  refine ⟨hcatalogued, ⟨v, hv, hvalue.1, ?rows⟩, ?isNew, ?baseline, ?storable, ?readBack⟩
  case rows =>
    rw [helements, writtenFrom_map Datum.toCell_readBack]
    exact hvalue.2
  case isNew =>
    rw [hread]
    rfl
  case baseline =>
    rw [hread]
    rfl
  case storable =>
    rw [helements]
    intro d hd
    obtain ⟨old, hold, rfl⟩ := List.mem_map.1 hd
    unfold Datum.IsStorable
    rw [Datum.toCell_readBack]
    exact hstorable old hold
  case readBack =>
    rw [helements]
    intro d hd
    obtain ⟨old, -, rfl⟩ := List.mem_map.1 hd
    exact Datum.readBack_readBack old

/-- What is built from the rows of a mapping is as storage has it. -/
theorem exists_inflate_rowsOfMapping (hsound : db.Sound) {m : Mapping} (hm : m ∈ db.mappings)
    (hunit : m.unit = unit) (rest : List Row) (hrest : ∀ row ∈ rest, row.valueId ≠ m.valueId) :
    ∃ a, inflate (db.rowsOfMapping m ++ rest) = (.ok a, rest) ∧ a.StoredOn db unit ∧
      a.id = m.attributeId := by
  obtain ⟨info, hinfo, kind, ds, hcode, hds, -, -, hrows⟩ := hsound.mappingsWritten m hm
  obtain ⟨-, hid⟩ := Database.attribute?_eq_some hinfo
  obtain ⟨typed, hinflate⟩ := inflate_rowsFor hcode hds hrest
  rw [Database.rowsOfMapping_eq hinfo hrows]
  refine ⟨_, hinflate, ?_, hid⟩
  have hcatalogued : db.attribute? info.id = some info := by
    rw [hid]
    exact hinfo
  have hmapped : (⟨unit, info.id, m.valueId⟩ : Mapping) ∈ db.mappings := by
    rw [hid, ← hunit]
    exact hm
  exact storedOn_of_readBack ⟨info, hcatalogued, rfl, hcode.symm, rfl⟩ rfl ⟨hmapped, hrows⟩
    (fun d hd => (hds d hd).2) typed rfl

/-! ## All attributes -/

theorem inflateAll_of_inflate {rows rest : List Row} {a : Attribute}
    (h : inflate rows = (.ok a, rest)) :
    inflateAll rows =
      (a :: (inflateAll rest).1, (inflateAll rest).2.1, (inflateAll rest).2.2) := by
  have hrows : rows.isEmpty = false := by
    cases rows with
    | nil => cases h
    | cons row rows => rfl
  rw [inflateAll, hrows]
  simp only [Bool.false_eq_true, if_false]
  split
  · rename_i fault other heq
    rw [h] at heq
    cases heq
  · rename_i b other heq
    rw [h] at heq
    cases heq
    rfl

/-- The rows of mappings make their attributes, one each. -/
theorem inflateAll_flatMap (hsound : db.Sound) {ms : List Mapping}
    (hms : ∀ m ∈ ms, m ∈ db.mappings ∧ m.unit = unit) (hdistinct : (ms.map (·.valueId)).Nodup) :
    ∃ as, inflateAll (ms.flatMap db.rowsOfMapping) = (as, none, []) ∧
      (∀ a ∈ as, a.StoredOn db unit) ∧ as.map (·.id) = ms.map (·.attributeId) := by
  induction ms with
  | nil =>
    refine ⟨[], ?_, fun _ h => (List.not_mem_nil h).elim, rfl⟩
    rw [List.flatMap_nil, inflateAll]
    rfl
  | cons m ms ih =>
    rw [List.map_cons, List.nodup_cons] at hdistinct
    obtain ⟨as, hrest, hstored, hids⟩ :=
      ih (fun n hn => hms n (List.mem_cons_of_mem m hn)) hdistinct.2
    -- the rows of the later mappings have other value numbers, so the first attribute leaves them
    have hother : ∀ row ∈ ms.flatMap db.rowsOfMapping, row.valueId ≠ m.valueId := by
      intro row hrow heq
      obtain ⟨n, hn, hrow⟩ := List.mem_flatMap.1 hrow
      obtain ⟨info, hinfo, kind, ds, -, -, -, -, hrows⟩ :=
        hsound.mappingsWritten n (hms n (List.mem_cons_of_mem m hn)).1
      rw [Database.rowsOfMapping_eq hinfo hrows] at hrow
      rw [Database.valueId_of_mem_rowsFor hrow] at heq
      exact hdistinct.1 (heq ▸ List.mem_map_of_mem hn)
    obtain ⟨hm, hunit⟩ := hms m List.mem_cons_self
    obtain ⟨a, ha, hown, hid⟩ := exists_inflate_rowsOfMapping hsound hm hunit _ hother
    refine ⟨a :: as, ?_, ?_, ?_⟩
    · rw [List.flatMap_cons, inflateAll_of_inflate ha, hrest]
    · intro b hb
      rcases List.mem_cons.1 hb with rfl | hb
      · exact hown
      · exact hstored b hb
    · rw [List.map_cons, List.map_cons, hids, hid]

end Attribute

/-- The attributes that a fetch builds for a unit. -/
def Database.attributesOf (db : Database) (unit : UnitRef) : List Attribute :=
  (Attribute.inflateAll (db.attributeRows unit)).1

namespace Database

variable {db : Database} {unit : UnitRef}

/-- **A fetch builds the attributes that the unit has**, each once, and leaves no row and no fault. -/
theorem Sound.inflateAll_attributeRows (h : db.Sound) (unit : UnitRef) :
    Attribute.inflateAll (db.attributeRows unit) = (db.attributesOf unit, none, []) ∧
      (∀ a, a ∈ db.attributesOf unit ↔ a.StoredOn db unit) ∧
      ((db.attributesOf unit).map (·.id)).Nodup := by
  let ms := (db.mappingsOf unit).mergeSort fun a b => decide (a.valueId ≤ b.valueId)
  have hperm : ms.Perm (db.mappingsOf unit) := List.mergeSort_perm _ _
  have hmem : ∀ m, m ∈ ms ↔ m ∈ db.mappings ∧ m.unit = unit := by
    intro m
    rw [hperm.mem_iff]
    simp only [mappingsOf, List.mem_filter, beq_iff_eq]
  have hsub : List.Sublist (db.mappingsOf unit) db.mappings := List.filter_sublist
  have hvalues : (ms.map (·.valueId)).Nodup :=
    (hperm.map _).nodup_iff.2 (h.valuesDistinct.sublist (hsub.map _))
  have hkeys : (ms.map (·.attributeId)).Nodup := by
    have hnodup : ms.Nodup := List.Nodup.of_map _ hvalues
    refine hnodup.map_on fun m hm n hn heq => ?_
    obtain ⟨hm, hunitM⟩ := (hmem m).1 hm
    obtain ⟨hn, hunitN⟩ := (hmem n).1 hn
    exact h.eq_of_key hm hn (hunitM.trans hunitN.symm) heq
  obtain ⟨as, has, hstored, hids⟩ :=
    Attribute.inflateAll_flatMap h (fun m hm => (hmem m).1 hm) hvalues
  have hrows : db.attributeRows unit = ms.flatMap db.rowsOfMapping := rfl
  have hall : db.attributesOf unit = as := by
    unfold attributesOf
    rw [hrows, has]
  rw [hall]
  refine ⟨hrows ▸ has, ?_, hids ▸ hkeys⟩
  intro a
  constructor
  · exact hstored a
  · intro ha
    -- one with its number was built from its mapping, and storage has no other of that number
    obtain ⟨v, -, hmapped, -⟩ := ha.value
    have hid : a.id ∈ as.map (·.id) := by
      rw [hids]
      exact List.mem_map_of_mem (f := (·.attributeId)) ((hmem _).2 ⟨hmapped, rfl⟩)
    obtain ⟨b, hb, heq⟩ := List.mem_map.1 hid
    rw [ha.eq_of_id h (hstored b hb) heq.symm]
    exact hb

/-- Every mapping of a unit is that of an attribute which the unit has. -/
theorem Sound.exists_storedOn (h : db.Sound) {m : Mapping} (hm : m ∈ db.mappings) :
    ∃ a : Attribute, a.StoredOn db m.unit ∧ a.id = m.attributeId := by
  obtain ⟨a, -, hstored, hid⟩ :=
    Attribute.exists_inflate_rowsOfMapping h hm rfl [] fun _ hrow => by cases hrow
  exact ⟨a, hstored, hid⟩

theorem Sound.mem_attributesOf (h : db.Sound) {a : Attribute} :
    a ∈ db.attributesOf unit ↔ a.StoredOn db unit :=
  (h.inflateAll_attributeRows unit).2.1 a

end Database

end MetadataStore
