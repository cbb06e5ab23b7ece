import MetadataStore.Proofs.Database.Values

/-!
# `Proofs.Handle.Writing` — what a store writes

The transaction of a store, if it succeeds, is the row of the unit, then the values taken off dropped
one after the other, then the pending attributes put one after the other. Which numbers the values get
depends only on the last one given out and on the order of the attributes.

## Contents
- `Database.SameButValues`: what dropping and putting values leaves as it was.
- `Handle.IsWritable`: nothing about handle and database stands against the transaction.
- `Handle.writtenId`, `writtenTo`, `writtenValues`: the number of the unit, the database and the value
  numbers after it.
- `Handle.write_eq_ok`: when the transaction succeeds, and what it leaves.
-/

namespace MetadataStore

namespace Transaction

variable {α β : Type} {contention : Contention} {db db' : Database}

theorem forEach_cons_eq_ok {work : α → Transaction Unit} {a : α} {rest : List α} :
    forEach work (a :: rest) contention db = .ok ((), db') ↔
      ∃ mid, work a contention db = .ok ((), mid) ∧ forEach work rest contention mid = .ok ((), db') := by
  show ((work a) >>= fun _ => forEach work rest) contention db = _ ↔ _
  rw [bind_eq_ok]
  constructor
  · rintro ⟨_, mid, ha, hrest⟩
    exact ⟨mid, ha, hrest⟩
  · rintro ⟨mid, ha, hrest⟩
    exact ⟨(), mid, ha, hrest⟩

theorem collect_cons_eq_ok {work : α → Transaction β} {a : α} {rest : List α} {bs : List β} :
    collect work (a :: rest) contention db = .ok (bs, db') ↔
      ∃ b mid more, work a contention db = .ok (b, mid) ∧
        collect work rest contention mid = .ok (more, db') ∧ bs = b :: more := by
  show ((work a) >>= fun b => collect work rest >>= fun more => pure (b :: more)) contention db = _ ↔ _
  simp only [bind_eq_ok, pure_apply, Except.ok.injEq, Prod.mk.injEq]
  constructor
  · rintro ⟨b, mid, ha, more, _, hmore, rfl, rfl⟩
    exact ⟨b, mid, more, ha, hmore, rfl⟩
  · rintro ⟨b, mid, more, ha, hmore, rfl⟩
    exact ⟨b, mid, ha, more, db', hmore, rfl, rfl⟩

end Transaction

namespace Database

/-- The database without the values of several attributes on a unit. -/
def dropValues (unit : UnitRef) (ids : List Int) (db : Database) : Database :=
  ids.foldl (fun db id => db.dropValue unit id) db

/-- The database with fresh values of several attributes on a unit. -/
def putValues (unit : UnitRef) (entries : AttributeMap) (db : Database) : Database :=
  entries.foldl (fun db entry => db.putValue unit entry.2.id entry.2.kind entry.2.value.elements) db

@[simp] theorem dropValues_nil (unit : UnitRef) (db : Database) : db.dropValues unit [] = db := rfl

@[simp] theorem dropValues_cons (unit : UnitRef) (id : Int) (ids : List Int) (db : Database) :
    db.dropValues unit (id :: ids) = (db.dropValue unit id).dropValues unit ids := rfl

@[simp] theorem putValues_nil (unit : UnitRef) (db : Database) : db.putValues unit [] = db := rfl

@[simp] theorem putValues_cons (unit : UnitRef) (entry : String × Attribute) (entries : AttributeMap)
    (db : Database) :
    db.putValues unit (entry :: entries) =
      (db.putValue unit entry.2.id entry.2.kind entry.2.value.elements).putValues unit entries := rfl

/-- All but the values is as it was. -/
structure SameButValues (db db' : Database) : Prop where
  units : db'.units = db.units
  attributes : db'.attributes = db.attributes
  relations : db'.relations = db.relations
  associations : db'.associations = db.associations
  locks : db'.locks = db.locks
  lastUnit : db'.lastUnit = db.lastUnit
  lastAttribute : db'.lastAttribute = db.lastAttribute

theorem SameButValues.refl (db : Database) : db.SameButValues db :=
  ⟨rfl, rfl, rfl, rfl, rfl, rfl, rfl⟩

theorem SameButValues.trans {db mid db' : Database} (h : db.SameButValues mid)
    (h' : mid.SameButValues db') : db.SameButValues db' where
  units := h'.units.trans h.units
  attributes := h'.attributes.trans h.attributes
  relations := h'.relations.trans h.relations
  associations := h'.associations.trans h.associations
  locks := h'.locks.trans h.locks
  lastUnit := h'.lastUnit.trans h.lastUnit
  lastAttribute := h'.lastAttribute.trans h.lastAttribute

theorem sameButValues_dropValues (unit : UnitRef) (ids : List Int) (db : Database) :
    db.SameButValues (db.dropValues unit ids) := by
  induction ids generalizing db with
  | nil => exact .refl db
  | cons id ids ih =>
    have hfirst : db.SameButValues (db.dropValue unit id) := ⟨rfl, rfl, rfl, rfl, rfl, rfl, rfl⟩
    exact hfirst.trans (ih _)

theorem sameButValues_putValues (unit : UnitRef) (entries : AttributeMap) (db : Database) :
    db.SameButValues (db.putValues unit entries) := by
  induction entries generalizing db with
  | nil => exact .refl db
  | cons entry rest ih =>
    have hfirst : db.SameButValues (db.putValue unit entry.2.id entry.2.kind entry.2.value.elements) :=
      ⟨rfl, rfl, rfl, rfl, rfl, rfl, rfl⟩
    exact hfirst.trans (ih _)

theorem units_dropValues (unit : UnitRef) (ids : List Int) (db : Database) :
    (db.dropValues unit ids).units = db.units :=
  (sameButValues_dropValues unit ids db).units

theorem attributes_dropValues (unit : UnitRef) (ids : List Int) (db : Database) :
    (db.dropValues unit ids).attributes = db.attributes :=
  (sameButValues_dropValues unit ids db).attributes

theorem lastValue_dropValues (unit : UnitRef) (ids : List Int) (db : Database) :
    (db.dropValues unit ids).lastValue = db.lastValue := by
  induction ids generalizing db with
  | nil => rfl
  | cons id ids ih => rw [dropValues_cons, ih]; rfl

theorem units_putValues (unit : UnitRef) (entries : AttributeMap) (db : Database) :
    (db.putValues unit entries).units = db.units :=
  (sameButValues_putValues unit entries db).units

theorem attributes_putValues (unit : UnitRef) (entries : AttributeMap) (db : Database) :
    (db.putValues unit entries).attributes = db.attributes :=
  (sameButValues_putValues unit entries db).attributes

theorem ValuesIssued.dropValues (unit : UnitRef) (ids : List Int) {db : Database}
    (h : db.ValuesIssued) : (db.dropValues unit ids).ValuesIssued := by
  induction ids generalizing db with
  | nil => exact h
  | cons id ids ih => exact ih h.dropValue

end Database

namespace Handle

/-- The row of a unit that is stored for the first time. -/
def newRow (h : Handle) (id : Int) (created : DateTime) : UnitRow :=
  ⟨⟨h.tenant, id⟩, h.correlation, h.name, h.status.code, created.text⟩

/-- The number that the unit has once it is stored. -/
def writtenId (h : Handle) (db : Database) : Int :=
  h.id.getD (db.lastUnit + 1)

/-- The identity that the unit has once it is stored. -/
def writtenUnit (h : Handle) (db : Database) : UnitRef :=
  ⟨h.tenant, h.writtenId db⟩

/-- The database with the row of the unit as the handle has it. -/
def withRow (h : Handle) (created : DateTime) (db : Database) : Database :=
  match h.id with
  | some id =>
    if h.renamed then
      { db with units := db.units.map fun row =>
          if row.unit == ⟨h.tenant, id⟩ then { row with name := h.name } else row }
    else db
  | none =>
    { db with
      units := db.units ++ [h.newRow (db.lastUnit + 1) created]
      lastUnit := db.lastUnit + 1 }

/-- The database with all that the handle has and the database had not. -/
def writtenTo (h : Handle) (created : DateTime) (db : Database) : Database :=
  ((h.withRow created db).dropValues (h.writtenUnit db) h.detached).putValues (h.writtenUnit db)
    h.pending

/-- Attributes with the value numbers they get, after the last number given out. -/
def numberedFrom : Int → AttributeMap → List (String × Int)
  | _, [] => []
  | last, entry :: rest => (entry.1, last + 1) :: numberedFrom (last + 1) rest

/-- The value numbers that the pending attributes get. -/
def writtenValues (h : Handle) (db : Database) : List (String × Int) :=
  numberedFrom db.lastValue h.pending

/-- Nothing about handle and database stands against storing the unit: a new one has a correlation id
of its own; a stored one with pending attributes is still there; and every pending attribute is
catalogued and can be written. -/
structure IsWritable (h : Handle) (db : Database) : Prop where
  correlation : h.id = none → ∀ row ∈ db.units, row.correlation ≠ h.correlation
  stored : h.pending ≠ [] → ∀ id, h.id = some id → db.hasUnit ⟨h.tenant, id⟩ = true
  attributes : ∀ entry ∈ h.pending,
    entry.2.IsWritable ∧ (db.attribute? entry.2.id).isSome = true

variable {h : Handle} {created : DateTime} {contention : Contention} {db db' : Database}

theorem writtenUnit_of_new (hnew : h.id = none) : h.writtenUnit db = ⟨h.tenant, db.lastUnit + 1⟩ := by
  unfold writtenUnit writtenId
  rw [hnew]
  rfl

theorem writtenUnit_of_id {id : Int} (hid : h.id = some id) : h.writtenUnit db = ⟨h.tenant, id⟩ := by
  unfold writtenUnit writtenId
  rw [hid]
  rfl

theorem ref?_of_id {id : Int} (hid : h.id = some id) : h.ref? = some (h.writtenUnit db) := by
  rw [writtenUnit_of_id hid, ref?, hid]
  rfl

theorem writtenUnit_of_ref? {unit : UnitRef} (href : h.ref? = some unit) : h.writtenUnit db = unit := by
  obtain ⟨id, hid, rfl⟩ := Option.map_eq_some_iff.1 href
  exact writtenUnit_of_id hid

@[simp] theorem attributes_withRow (h : Handle) (created : DateTime) (db : Database) :
    (h.withRow created db).attributes = db.attributes := by
  unfold withRow
  split
  · split <;> rfl
  · rfl

@[simp] theorem mappings_withRow (h : Handle) (created : DateTime) (db : Database) :
    (h.withRow created db).mappings = db.mappings := by
  unfold withRow
  split
  · split <;> rfl
  · rfl

@[simp] theorem elements_withRow (h : Handle) (created : DateTime) (db : Database) :
    (h.withRow created db).elements = db.elements := by
  unfold withRow
  split
  · split <;> rfl
  · rfl

@[simp] theorem lastValue_withRow (h : Handle) (created : DateTime) (db : Database) :
    (h.withRow created db).lastValue = db.lastValue := by
  unfold withRow
  split
  · split <;> rfl
  · rfl

/-- The row of a unit is there afterwards when the unit is new, or was there. -/
theorem hasUnit_withRow (h : Handle) (created : DateTime) (db : Database) :
    (h.withRow created db).hasUnit (h.writtenUnit db) =
      (h.id.isNone || db.hasUnit (h.writtenUnit db)) := by
  cases hid : h.id with
  | none =>
    simp only [withRow, writtenUnit, writtenId, hid, Option.isNone_none, Bool.true_or, Option.getD_none]
    simp [Database.hasUnit, newRow]
  | some id =>
    simp only [withRow, writtenUnit, writtenId, hid, Option.isNone_some, Bool.false_or,
      Option.getD_some]
    split
    · simp only [Database.hasUnit, List.any_map]
      congr 1
      funext row
      simp only [Function.comp]
      split <;> rfl
    · rfl

/-! ## The parts of the transaction -/

/-- The row of a unit is written when its correlation id is its own. -/
theorem writeUnit_eq_ok {id : Int} :
    h.writeUnit created contention db = .ok (id, db') ↔
      (h.id = none ∨ h.renamed = true → contention.allowsWriting = true) ∧
        (h.id = none → ∀ row ∈ db.units, row.correlation ≠ h.correlation) ∧
        id = h.writtenId db ∧ db' = h.withRow created db := by
  cases hid : h.id with
  | none =>
    simp only [writeUnit, withRow, writtenId, newRow, hid, Transaction.perform_eq_ok,
      Database.insertUnit, Option.getD_none, true_or, forall_const]
    -- a new unit is refused for one reason only, that its correlation id is taken
    refine and_congr_right fun _ => ?_
    split
    · rename_i htaken
      obtain ⟨row, hmem, heq⟩ := List.any_eq_true.1 htaken
      constructor
      · intro hno
        cases hno
      · rintro ⟨hfree, -⟩
        exact absurd (by simpa using heq) (hfree row hmem)
    · rename_i hfree
      simp only [Except.ok.injEq, Prod.mk.injEq]
      constructor
      · rintro ⟨rfl, rfl⟩
        refine ⟨fun row hmem heq => hfree ?_, rfl, rfl⟩
        exact List.any_eq_true.2 ⟨row, hmem, by simpa using heq⟩
      · rintro ⟨-, rfl, rfl⟩
        exact ⟨rfl, rfl⟩
  | some n =>
    cases hrenamed : h.renamed with
    | true =>
      simp only [writeUnit, withRow, writtenId, hid, hrenamed, if_true, Option.getD_some, reduceCtorEq,
        false_implies, true_and, Transaction.bind_eq_ok, Transaction.perform_eq_ok,
        Transaction.pure_apply, Except.ok.injEq, Prod.mk.injEq, or_true, forall_const]
      constructor
      · rintro ⟨count, mid, ⟨hw, hrename⟩, rfl, rfl⟩
        cases hrename
        exact ⟨hw, rfl, rfl⟩
      · rintro ⟨hw, rfl, rfl⟩
        exact ⟨_, _, ⟨hw, rfl⟩, rfl, rfl⟩
    | false =>
      simp only [writeUnit, withRow, writtenId, hid, hrenamed, Bool.false_eq_true, if_false,
        Option.getD_some, reduceCtorEq, or_self, false_implies, true_and, Transaction.pure_apply,
        Except.ok.injEq, Prod.mk.injEq]
      exact and_congr eq_comm eq_comm

/-- Values are dropped whatever there is of them. -/
theorem forEach_deleteMapping_eq_ok {unit : UnitRef} {ids : List Int} :
    Transaction.forEach
        (fun attributeId => Transaction.perform (Database.deleteMapping unit attributeId)) ids
        contention db = .ok ((), db') ↔
      (ids ≠ [] → contention.allowsWriting = true) ∧ db' = db.dropValues unit ids := by
  induction ids generalizing db with
  | nil =>
    show Except.ok ((), db) = Except.ok ((), db') ↔ _
    simp only [Except.ok.injEq, Prod.mk.injEq, true_and, ne_eq, not_true_eq_false, false_implies,
      Database.dropValues_nil]
    exact eq_comm
  | cons id ids ih =>
    simp only [Transaction.forEach_cons_eq_ok, Transaction.perform_eq_ok, ih,
      Database.deleteMapping_apply, Database.dropValues_cons, Except.ok.injEq, Prod.mk.injEq, true_and]
    constructor
    · rintro ⟨_, ⟨hw, rfl⟩, -, rfl⟩
      exact ⟨fun _ => hw, rfl⟩
    · rintro ⟨hw, rfl⟩
      have hw := hw (List.cons_ne_nil id ids)
      exact ⟨_, ⟨hw, rfl⟩, fun _ => hw, rfl⟩

/-- Attributes are written one by one when each of them can be. -/
theorem collect_write_eq_ok {unit : UnitRef} {entries : AttributeMap} {written : List (String × Int)}
    (hissued : db.ValuesIssued) :
    Transaction.collect
        (fun entry : String × Attribute => do
          let valueId ← entry.2.write unit
          pure (entry.1, valueId)) entries contention db = .ok (written, db') ↔
      (entries ≠ [] → contention.allowsWriting = true ∧ db.hasUnit unit = true) ∧
        (∀ entry ∈ entries, entry.2.IsWritable ∧ (db.attribute? entry.2.id).isSome = true) ∧
        written = numberedFrom db.lastValue entries ∧ db' = db.putValues unit entries := by
  induction entries generalizing db written with
  | nil =>
    show Except.ok ([], db) = Except.ok (written, db') ↔ _
    simp only [Except.ok.injEq, Prod.mk.injEq, ne_eq, not_true_eq_false, false_implies, true_and,
      List.not_mem_nil, implies_true, numberedFrom, Database.putValues_nil]
    exact and_congr eq_comm eq_comm
  -- each value is put into the database that the ones before it left
  | cons entry rest ih =>
    simp only [Transaction.collect_cons_eq_ok, Transaction.bind_eq_ok, Attribute.write_eq_ok hissued,
      Transaction.pure_apply, Except.ok.injEq, Prod.mk.injEq, Database.putValues_cons, numberedFrom]
    constructor
    · rintro ⟨b, mid, more, ⟨v, _, ⟨hw, ha, hunit, hinfo, rfl, rfl⟩, rfl, rfl⟩, hrest, rfl⟩
      obtain ⟨-, hall, rfl, rfl⟩ := (ih hissued.putValue).1 hrest
      refine ⟨fun _ => ⟨hw, hunit⟩, ?_, rfl, rfl⟩
      intro other hmem
      rcases List.mem_cons.1 hmem with rfl | hmem
      · exact ⟨ha, hinfo⟩
      · exact hall other hmem
    · rintro ⟨hgo, hall, rfl, rfl⟩
      obtain ⟨hw, hunit⟩ := hgo (List.cons_ne_nil entry rest)
      obtain ⟨ha, hinfo⟩ := hall entry List.mem_cons_self
      refine ⟨_, _, _, ⟨_, _, ⟨hw, ha, hunit, hinfo, rfl, rfl⟩, rfl, rfl⟩,
        (ih hissued.putValue).2 ⟨fun _ => ⟨hw, hunit⟩, ?_, rfl, rfl⟩, rfl⟩
      exact fun other hmem => hall other (List.mem_cons_of_mem entry hmem)

/-! ## The whole transaction -/

/-- The database when the pending attributes are about to be put. -/
def beforePut (h : Handle) (created : DateTime) (db : Database) : Database :=
  (h.withRow created db).dropValues (h.writtenUnit db) h.detached

theorem hasUnit_beforePut :
    (h.beforePut created db).hasUnit (h.writtenUnit db) =
      (h.id.isNone || db.hasUnit (h.writtenUnit db)) := by
  rw [← hasUnit_withRow h created db, Database.hasUnit, beforePut, Database.units_dropValues]
  rfl

theorem attributes_beforePut : (h.beforePut created db).attributes = db.attributes := by
  rw [beforePut, Database.attributes_dropValues, attributes_withRow]

theorem lastValue_beforePut : (h.beforePut created db).lastValue = db.lastValue := by
  rw [beforePut, Database.lastValue_dropValues, lastValue_withRow]

theorem ValuesIssued_withRow (h : Handle) (created : DateTime) (hissued : db.ValuesIssued) :
    (h.withRow created db).ValuesIssued := by
  intro row hmem
  rw [elements_withRow] at hmem
  rw [lastValue_withRow]
  exact hissued row hmem

/-- **The transaction of a store succeeds** when handle and database allow it and, if it has anything to
write, writing is possible; it leaves the database with all that the handle has. -/
theorem write_eq_ok (hissued : db.ValuesIssued) {id : Int} {written : List (String × Int)} :
    h.write created contention db = .ok ((id, written), db') ↔
      (h.id = none ∨ h.renamed = true ∨ h.detached ≠ [] ∨ h.pending ≠ [] →
        contention.allowsWriting = true) ∧
      h.IsWritable db ∧ id = h.writtenId db ∧ written = h.writtenValues db ∧
        db' = h.writtenTo created db := by
  -- taking values off hides neither the unit nor the definitions from what is put afterwards
  have hunit : (h.beforePut created db).hasUnit (h.writtenUnit db) = _ := hasUnit_beforePut
  have hattribute : ∀ id, (h.beforePut created db).attribute? id = db.attribute? id := by
    intro id
    rw [Database.attribute?, attributes_beforePut]
    rfl
  have hissued' : (h.beforePut created db).ValuesIssued :=
    (ValuesIssued_withRow h created hissued).dropValues (h.writtenUnit db) h.detached
  have hlast : (h.beforePut created db).lastValue = db.lastValue := lastValue_beforePut
  constructor
  · intro hwrite
    obtain ⟨n, _, hrow, hrest⟩ := Transaction.bind_eq_ok.1 hwrite
    obtain ⟨hwRow, hfree, rfl, rfl⟩ := writeUnit_eq_ok.1 hrow
    obtain ⟨_, _, hdrop, hrest⟩ := Transaction.bind_eq_ok.1 hrest
    obtain ⟨hwDrop, rfl⟩ := forEach_deleteMapping_eq_ok.1 hdrop
    obtain ⟨pairs, _, hcollect, hdone⟩ := Transaction.bind_eq_ok.1 hrest
    cases hdone
    obtain ⟨hwPut, hall, rfl, rfl⟩ := (collect_write_eq_ok hissued').1 hcollect
    refine ⟨?_, ⟨hfree, ?_, ?_⟩, rfl, ?_, rfl⟩
    · rintro (hnew | hrenamed | hdetached | hpending)
      · exact hwRow (Or.inl hnew)
      · exact hwRow (Or.inr hrenamed)
      · exact hwDrop hdetached
      · exact (hwPut hpending).1
    · intro hpending n hid
      have hstored := (hwPut hpending).2
      rw [show (⟨h.tenant, h.writtenId db⟩ : UnitRef) = h.writtenUnit db from rfl, hunit, hid] at hstored
      simpa [writtenUnit, writtenId, hid] using hstored
    · intro entry hmem
      rw [← hattribute]
      exact hall entry hmem
    · rw [writtenValues, ← hlast]
  · rintro ⟨hw, ⟨hfree, hstored, hall⟩, rfl, rfl, rfl⟩
    refine Transaction.bind_eq_ok.2 ⟨_, _, writeUnit_eq_ok.2 ⟨?_, hfree, rfl, rfl⟩, ?_⟩
    · rintro (hnew | hrenamed)
      · exact hw (Or.inl hnew)
      · exact hw (Or.inr (Or.inl hrenamed))
    refine Transaction.bind_eq_ok.2 ⟨(), _, forEach_deleteMapping_eq_ok.2 ⟨?_, rfl⟩, ?_⟩
    · exact fun hdetached => hw (Or.inr (Or.inr (Or.inl hdetached)))
    refine Transaction.bind_eq_ok.2 ⟨h.writtenValues db, h.writtenTo created db, ?_, rfl⟩
    refine (collect_write_eq_ok hissued').2 ⟨?_, ?_, ?_, rfl⟩
    · intro hpending
      refine ⟨hw (Or.inr (Or.inr (Or.inr hpending))), ?_⟩
      rw [show (⟨h.tenant, h.writtenId db⟩ : UnitRef) = h.writtenUnit db from rfl, hunit]
      cases hid : h.id with
      | none => rfl
      | some n => simpa [writtenUnit, writtenId, hid] using hstored hpending n hid
    · intro entry hmem
      rw [hattribute]
      exact hall entry hmem
    · rw [writtenValues, ← hlast]

end Handle

end MetadataStore
