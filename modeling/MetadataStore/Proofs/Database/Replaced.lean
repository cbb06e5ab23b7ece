import Mathlib.Logic.Equiv.Basic
import MetadataStore.Proofs.Handle.Stored

/-!
# `Proofs.Database.Replaced` — values in place of others, at one stroke

A store takes values off one by one and puts others one by one. If no attribute is put twice, all of it
can be said at one stroke: what was there of these attributes is gone, and behind what is left stand the
new values, numbered from the last number on. The order in which attributes are put then matters to
nothing but the numbers: another order gives the same tables with the new numbers exchanged.

## Contents
- `Database.numbersOf`, the numbers of the values of certain attributes; `dropValues_eq`,
  `dropValues_congr`, `rowsUnder_dropValues_of_gone`: values that go.
- `withNumbers`, attributes with the numbers that they get; `Database.withValues`, all their values.
- `ValuesNumbered.putValues_eq`: values in place of others.
- `Database.Renumbered`, `exists_renumbering`, `ValuesNumbered.exists_renumbered`: another order.
-/

namespace MetadataStore

/-- Whether a mapping is one of certain attributes on a unit. -/
def Mapping.isOf (unit : UnitRef) (ids : List Int) (m : Mapping) : Bool :=
  m.unit == unit && ids.contains m.attributeId

theorem Mapping.isOf_iff {unit : UnitRef} {ids : List Int} {m : Mapping} :
    m.isOf unit ids = true ↔ m.unit = unit ∧ m.attributeId ∈ ids := by
  simp [isOf]

theorem Mapping.not_isOf_cons (unit : UnitRef) (id : Int) (ids : List Int) (m : Mapping) :
    (!m.isOf unit (id :: ids)) = (!m.isOf unit ids && !(m.unit == unit && m.attributeId == id)) := by
  rw [Bool.eq_iff_iff]
  simp only [Bool.and_eq_true, Bool.not_eq_true', ← Bool.not_eq_true, isOf_iff, beq_iff_eq,
    List.mem_cons, ← not_or, ← and_or_left]
  rw [or_comm]

namespace Database

variable {db db' : Database} {unit : UnitRef} {ids ids' : List Int}

/-! ## Values that go -/

/-- The numbers of the values that certain attributes have on a unit. -/
def numbersOf (db : Database) (unit : UnitRef) (ids : List Int) : List Int :=
  (db.mappings.filter (·.isOf unit ids)).map (·.valueId)

theorem mem_numbersOf {v : Int} :
    v ∈ db.numbersOf unit ids ↔
      ∃ m ∈ db.mappings, (m.unit = unit ∧ m.attributeId ∈ ids) ∧ m.valueId = v := by
  simp only [numbersOf, List.mem_map, List.mem_filter, Mapping.isOf_iff, and_assoc]

/-- The numbers that go are that of the first attribute and those that the others have then. -/
theorem mem_numbersOf_cons {id v : Int} :
    v ∈ db.numbersOf unit (id :: ids) ↔
      v ∈ (db.dropValue unit id).numbersOf unit ids ∨
        v ∈ (db.mappings.filter fun m => m.unit == unit && m.attributeId == id).map (·.valueId) := by
  simp only [mem_numbersOf, mem_mappings_dropValue, List.mem_map, List.mem_filter, Bool.and_eq_true,
    beq_iff_eq, List.mem_cons]
  constructor
  · rintro ⟨m, hm, ⟨hunit, hid⟩, hv⟩
    by_cases hfirst : m.attributeId = id
    · exact Or.inr ⟨m, ⟨hm, hunit, hfirst⟩, hv⟩
    · exact Or.inl ⟨m, ⟨hm, fun hc => hfirst hc.2⟩, ⟨hunit, hid.resolve_left hfirst⟩, hv⟩
  · rintro (⟨m, ⟨hm, -⟩, ⟨hunit, hid⟩, hv⟩ | ⟨m, ⟨hm, hunit, hid⟩, hv⟩)
    · exact ⟨m, hm, ⟨hunit, Or.inr hid⟩, hv⟩
    · exact ⟨m, hm, ⟨hunit, Or.inl hid⟩, hv⟩

/-- **Values taken off one after the other** are gone with their rows. -/
theorem dropValues_eq (db : Database) (unit : UnitRef) (ids : List Int) :
    db.dropValues unit ids =
      { db with
        mappings := db.mappings.filter fun m => !m.isOf unit ids
        elements := db.elements.filter fun row => !(db.numbersOf unit ids).contains row.valueId } := by
  induction ids generalizing db with
  | nil => simp [numbersOf, Mapping.isOf]
  | cons id ids ih =>
    rw [dropValues_cons, ih]
    simp only [dropValue, List.filter_filter, mk.injEq, and_true, true_and]
    refine ⟨List.filter_congr fun m _ => (Mapping.not_isOf_cons unit id ids m).symm,
      List.filter_congr fun row _ => ?_⟩
    rw [Bool.eq_iff_iff]
    simp only [Bool.and_eq_true, Bool.not_eq_true', List.contains_eq_mem, decide_eq_false_iff_not,
      mem_numbersOf_cons, not_or]
    exact Iff.rfl

/-- Which values go is a matter of the attributes, not of their order. -/
theorem dropValues_congr (hids : ∀ id, id ∈ ids ↔ id ∈ ids') :
    db.dropValues unit ids = db.dropValues unit ids' := by
  have hof : Mapping.isOf unit ids = Mapping.isOf unit ids' := by
    funext m
    rw [Bool.eq_iff_iff, Mapping.isOf_iff, Mapping.isOf_iff, hids]
  rw [dropValues_eq, dropValues_eq, numbersOf, numbersOf, hof]

theorem dropValues_append (db : Database) (unit : UnitRef) (ids ids' : List Int) :
    db.dropValues unit (ids ++ ids') = (db.dropValues unit ids).dropValues unit ids' :=
  List.foldl_append

/-- Nothing is left of a value that goes. -/
theorem rowsUnder_dropValues_of_gone {m : Mapping} (hm : m ∈ db.mappings)
    (hof : m.unit = unit ∧ m.attributeId ∈ ids) : (db.dropValues unit ids).rowsUnder m.valueId = [] := by
  rw [rowsUnder, List.filter_eq_nil_iff, dropValues_eq]
  intro row hrow hsame
  have hkept := (List.mem_filter.1 hrow).2
  rw [eq_of_beq hsame, Bool.not_eq_true', List.contains_eq_mem, decide_eq_false_iff_not] at hkept
  exact hkept (mem_numbersOf.2 ⟨m, hm, hof, rfl⟩)

/-! ## Values that come -/

/-- Attributes with the numbers that they get after the last one given out. -/
def withNumbers : Int → AttributeMap → List (Int × Attribute)
  | _, [] => []
  | last, entry :: rest => (last + 1, entry.2) :: withNumbers (last + 1) rest

/-- The mapping of an attribute on a unit under a number. -/
def mappingAt (unit : UnitRef) (numbered : Int × Attribute) : Mapping :=
  ⟨unit, numbered.2.id, numbered.1⟩

/-- The rows of the elements of an attribute under a number. -/
def rowsAt (numbered : Int × Attribute) : List ElementRow :=
  writtenFrom numbered.2.kind numbered.1 0 numbered.2.value.elements

/-- The database with values of more attributes on a unit. -/
def withValues (db : Database) (unit : UnitRef) (entries : AttributeMap) : Database :=
  { db with
    mappings := db.mappings ++ (withNumbers db.lastValue entries).map (mappingAt unit)
    elements := db.elements ++ (withNumbers db.lastValue entries).flatMap rowsAt
    lastValue := db.lastValue + entries.length }

variable {entries entries' : AttributeMap} {entry : String × Attribute} {last : Int}

theorem lt_of_mem_withNumbers {numbered : Int × Attribute} (h : numbered ∈ withNumbers last entries) :
    last < numbered.1 := by
  induction entries generalizing last with
  | nil => cases h
  | cons entry rest ih =>
    rcases List.mem_cons.1 h with rfl | hrest
    · exact Int.lt_succ last
    · have := ih hrest
      omega

/-- The numbers that attributes get are those of `numberedFrom`. -/
theorem map_snd_numberedFrom (last : Int) (entries : AttributeMap) :
    (Handle.numberedFrom last entries).map (·.2) = (withNumbers last entries).map (·.1) := by
  induction entries generalizing last with
  | nil => rfl
  | cons entry rest ih => rw [Handle.numberedFrom, withNumbers, List.map_cons, List.map_cons, ih]

theorem nodup_numberedFrom (last : Int) (entries : AttributeMap) :
    ((Handle.numberedFrom last entries).map (·.2)).Nodup := by
  rw [map_snd_numberedFrom]
  induction entries generalizing last with
  | nil => exact List.nodup_nil
  | cons entry rest ih =>
    refine List.nodup_cons.2 ⟨fun hmem => ?_, ih (last + 1)⟩
    obtain ⟨numbered, hnumbered, heq⟩ := List.mem_map.1 hmem
    have hlt : last + 1 < numbered.1 := lt_of_mem_withNumbers hnumbered
    exact absurd heq (Int.ne_of_gt hlt)

theorem attributes_withNumbers (last : Int) (entries : AttributeMap) :
    (withNumbers last entries).map (·.2) = entries.map (·.2) := by
  induction entries generalizing last with
  | nil => rfl
  | cons entry rest ih => rw [withNumbers, List.map_cons, List.map_cons, ih]

/-- Values that come have new numbers. -/
theorem rowsUnder_withValues {v : Int} (hle : v ≤ db.lastValue) :
    (db.withValues unit entries).rowsUnder v = db.rowsUnder v := by
  have hnone : ((withNumbers db.lastValue entries).flatMap rowsAt).filter (fun row => row.valueId == v) =
      [] := by
    rw [List.filter_eq_nil_iff]
    intro row hrow
    obtain ⟨numbered, hnumbered, hrow⟩ := List.mem_flatMap.1 hrow
    have hlt := lt_of_mem_withNumbers hnumbered
    rw [valueId_of_mem_writtenFrom hrow, beq_iff_eq]
    omega
  rw [rowsUnder, withValues, List.filter_append, hnone, List.append_nil, rowsUnder]

/-- Of attributes that come once each, each has one value. -/
theorem eq_of_mem_mappingAt (hids : (entries.map (·.2.id)).Nodup) {m n : Mapping}
    (hm : m ∈ (withNumbers last entries).map (mappingAt unit))
    (hn : n ∈ (withNumbers last entries).map (mappingAt unit)) (heq : m.attributeId = n.attributeId) :
    m = n := by
  obtain ⟨p, hp, rfl⟩ := List.mem_map.1 hm
  obtain ⟨q, hq, rfl⟩ := List.mem_map.1 hn
  have hdistinct : ((withNumbers last entries).map (·.2.id)).Nodup := by
    have hattributes := congrArg (List.map (·.id)) (attributes_withNumbers last entries)
    rw [List.map_map, List.map_map] at hattributes
    exact hattributes ▸ hids
  rw [eq_of_nodup (fun p : Int × Attribute => p.2.id) hdistinct hp hq heq]

/-- A value that is put does not touch those of other attributes that go. -/
theorem ValuesNumbered.dropValues_putValue (h : db.ValuesNumbered) {id : Int} (hid : id ∉ ids)
    (kind : Kind) (ds : List Datum) :
    (db.putValue unit id kind ds).dropValues unit ids =
      { db.dropValues unit (id :: ids) with
        mappings := (db.dropValues unit (id :: ids)).mappings ++ [⟨unit, id, db.lastValue + 1⟩]
        elements := (db.dropValues unit (id :: ids)).elements ++
          writtenFrom kind (db.lastValue + 1) 0 ds
        lastValue := db.lastValue + 1 } := by
  let own : Mapping := ⟨unit, id, db.lastValue + 1⟩
  have hown : own.isOf unit ids = false := by
    rw [← Bool.not_eq_true, Mapping.isOf_iff]
    exact fun hof => hid hof.2
  have hnumbers : (db.putValue unit id kind ds).numbersOf unit ids =
      (db.dropValue unit id).numbersOf unit ids := by
    show (((db.dropValue unit id).mappings ++ [own]).filter _).map _ = _
    rw [List.filter_append, List.filter_cons_of_neg (by simp [hown]), List.filter_nil, List.append_nil]
    rfl
  have hmappings : ((db.putValue unit id kind ds).mappings.filter fun m => !m.isOf unit ids) =
      ((db.dropValue unit id).mappings.filter fun m => !m.isOf unit ids) ++ [own] := by
    show ((db.dropValue unit id).mappings ++ [own]).filter _ = _
    rw [List.filter_append, List.filter_cons_of_pos (by simp [hown]), List.filter_nil]
  -- the number of the value is none of those that go
  have hrows : ∀ row ∈ writtenFrom kind (db.lastValue + 1) 0 ds,
      (!((db.dropValue unit id).numbersOf unit ids).contains row.valueId) = true := by
    intro row hrow
    rw [valueId_of_mem_writtenFrom hrow, Bool.not_eq_true', List.contains_eq_mem,
      decide_eq_false_iff_not, mem_numbersOf]
    rintro ⟨m, hm, -, hv⟩
    have := h.issued m (mem_mappings_dropValue.1 hm).1
    omega
  have helements : ((db.putValue unit id kind ds).elements.filter fun row =>
      !((db.dropValue unit id).numbersOf unit ids).contains row.valueId) =
        ((db.dropValue unit id).elements.filter fun row =>
          !((db.dropValue unit id).numbersOf unit ids).contains row.valueId) ++
            writtenFrom kind (db.lastValue + 1) 0 ds := by
    show ((db.dropValue unit id).elements ++ _).filter _ = _
    rw [List.filter_append, List.filter_eq_self.2 hrows]
  rw [dropValues_cons, dropValues_eq (db.putValue unit id kind ds), hnumbers, hmappings, helements,
    dropValues_eq (db.dropValue unit id)]
  rfl

/-- **Values put in place of others**, if no attribute is put twice. -/
theorem ValuesNumbered.putValues_eq (h : db.ValuesNumbered) (hids : (entries.map (·.2.id)).Nodup) :
    db.putValues unit entries = (db.dropValues unit (entries.map (·.2.id))).withValues unit entries := by
  induction entries generalizing db with
  | nil => simp [withValues, withNumbers]
  | cons entry rest ih =>
    rw [List.map_cons, List.nodup_cons] at hids
    have hlast : db.lastValue + 1 + (rest.length : Int) =
        db.lastValue + ((entry :: rest).length : Int) := by
      rw [List.length_cons]
      omega
    rw [putValues_cons, ih (h.putValue unit entry.2.id entry.2.kind entry.2.value.elements) hids.2,
      h.dropValues_putValue hids.1, List.map_cons]
    simp only [withValues, withNumbers, lastValue_dropValues, List.map_cons, List.flatMap_cons,
      List.append_assoc, List.singleton_append, hlast]
    rfl

end Database

/-! ## Another order -/

section

variable {σ : Equiv.Perm Int} {entries entries' : AttributeMap} {db : Database} {unit : UnitRef}

/-- A mapping under another number. -/
def Mapping.renumber (σ : Equiv.Perm Int) (m : Mapping) : Mapping :=
  { m with valueId := σ m.valueId }

/-- A row of an element under another number. -/
def ElementRow.renumber (σ : Equiv.Perm Int) (row : ElementRow) : ElementRow :=
  { row with valueId := σ row.valueId }

/-- The tables of two databases have the same rows, but for the numbers of values. -/
structure Database.Renumbered (σ : Equiv.Perm Int) (db db' : Database) : Prop where
  mappings : db'.mappings.Perm (db.mappings.map (·.renumber σ))
  elements : db'.elements.Perm (db.elements.map (·.renumber σ))
  others : db.SameButValues db'
  lastValue : db'.lastValue = db.lastValue

theorem writtenFrom_renumber (σ : Equiv.Perm Int) (kind : Kind) (v : Int) (index : Nat)
    (ds : List Datum) :
    (writtenFrom kind v index ds).map (·.renumber σ) = writtenFrom kind (σ v) index ds := by
  induction ds generalizing index with
  | nil => rfl
  | cons d ds ih => rw [writtenFrom, List.map_cons, ih, writtenFrom]; rfl

theorem Database.flatMap_rowsAt_renumber (σ : Equiv.Perm Int) (numbered : List (Int × Attribute)) :
    (numbered.map fun p => (σ p.1, p.2)).flatMap rowsAt =
      (numbered.flatMap rowsAt).map (·.renumber σ) := by
  induction numbered with
  | nil => rfl
  | cons p rest ih =>
    rw [List.map_cons, List.flatMap_cons, ih, List.flatMap_cons, List.map_append, rowsAt, rowsAt,
      writtenFrom_renumber]

/-- What has an old number is the same under numbers that only exchange new ones. -/
theorem Database.ValuesNumbered.renumber_eq (h : db.ValuesNumbered)
    (hσ : ∀ v, v ≤ db.lastValue → σ v = v) :
    db.mappings.map (·.renumber σ) = db.mappings ∧ db.elements.map (·.renumber σ) = db.elements := by
  constructor
  · refine (List.map_congr_left fun m hm => ?_).trans (List.map_id _)
    rw [Mapping.renumber, hσ m.valueId (h.issued m hm)]
    rfl
  · refine (List.map_congr_left fun row hrow => ?_).trans (List.map_id _)
    rw [ElementRow.renumber, hσ row.valueId (h.elements row hrow)]
    rfl

/-- **Attributes in another order** get the same numbers, each another one of them. -/
theorem Database.exists_renumbering (hperm : entries'.Perm entries) (last : Int) :
    ∃ σ : Equiv.Perm Int, (∀ v, v ≤ last → σ v = v) ∧
      (withNumbers last entries').Perm ((withNumbers last entries).map fun p => (σ p.1, p.2)) := by
  induction hperm generalizing last with
  | nil => exact ⟨Equiv.refl Int, fun _ _ => rfl, .nil⟩
  | @cons entry l₁ l₂ _ ih =>
    obtain ⟨σ, hσ, hrest⟩ := ih (last + 1)
    refine ⟨σ, fun v hv => hσ v (by omega), ?_⟩
    rw [withNumbers, withNumbers, List.map_cons, hσ (last + 1) (Int.le_refl _)]
    exact hrest.cons _
  | swap first second rest =>
    -- the two exchange their numbers, and those after them keep theirs
    let σ := Equiv.swap (last + 1) (last + 1 + 1)
    have hσ : ∀ v, v ≠ last + 1 → v ≠ last + 1 + 1 → σ v = v := fun v => Equiv.swap_apply_of_ne_of_ne
    refine ⟨σ, fun v hv => hσ v (by omega) (by omega), ?_⟩
    have hrest : (withNumbers (last + 1 + 1) rest).map (fun p => (σ p.1, p.2)) =
        withNumbers (last + 1 + 1) rest := by
      refine (List.map_congr_left fun p hp => ?_).trans (List.map_id _)
      have hlt := lt_of_mem_withNumbers hp
      rw [hσ p.1 (by omega) (by omega)]
      rfl
    have hfirst : σ (last + 1) = last + 1 + 1 := Equiv.swap_apply_left _ _
    have hsecond : σ (last + 1 + 1) = last + 1 := Equiv.swap_apply_right _ _
    simp only [withNumbers, List.map_cons, hrest, hfirst, hsecond]
    exact List.Perm.swap _ _ _
  | trans _ _ ih₁ ih₂ =>
    obtain ⟨σ₁, hσ₁, hperm₁⟩ := ih₁ last
    obtain ⟨σ₂, hσ₂, hperm₂⟩ := ih₂ last
    refine ⟨σ₂.trans σ₁, fun v hv => ?_, ?_⟩
    · rw [Equiv.trans_apply, hσ₂ v hv, hσ₁ v hv]
    · have hboth := hperm₁.trans (hperm₂.map fun p : Int × Attribute => (σ₁ p.1, p.2))
      rwa [List.map_map] at hboth

/-- Values that come in another order make the same tables, but for their numbers. -/
theorem Database.ValuesNumbered.exists_renumbered (h : db.ValuesNumbered)
    (hperm : entries'.Perm entries) (unit : UnitRef) :
    ∃ σ : Equiv.Perm Int, (∀ v, v ≤ db.lastValue → σ v = v) ∧
      (db.withValues unit entries).Renumbered σ (db.withValues unit entries') := by
  obtain ⟨σ, hσ, hnumbers⟩ := exists_renumbering hperm db.lastValue
  obtain ⟨hmappings, helements⟩ := h.renumber_eq hσ
  refine ⟨σ, hσ, ?mappings, ?elements, ⟨rfl, rfl, rfl, rfl, rfl, rfl, rfl⟩, ?last⟩
  case mappings =>
    show (db.mappings ++ _).Perm ((db.mappings ++ _).map _)
    rw [List.map_append, hmappings]
    refine List.Perm.append_left _ ?_
    have hmapped := hnumbers.map (mappingAt unit)
    rwa [List.map_map] at hmapped ⊢
  case elements =>
    show (db.elements ++ _).Perm ((db.elements ++ _).map _)
    rw [List.map_append, helements, ← flatMap_rowsAt_renumber]
    exact (hnumbers.flatMap_right _).append_left _
  case last =>
    show db.lastValue + (entries'.length : Int) = db.lastValue + (entries.length : Int)
    rw [hperm.length_eq]

end

end MetadataStore
