import MetadataStore.Proofs.Handle.Settled
import MetadataStore.Proofs.Repository.Sound

/-!
# `Proofs.Handle.Agreement` — copies that say what storage says

A copy of a unit is fresh when it says what a load would say: the row of the unit, nothing renamed or
taken off since, and its attributes, if they are loaded, as storage has them. That is a matter of the row
of the unit and of its values, so it survives whatever is done to the rest of the database.

## Contents
- `Handle.Agrees`, `Handle.Fresh`, and `Handle.fresh_iff`, part by part.
- `Database.stored?_extend`: what is stored of a unit after changes elsewhere.
- `Database.withStatus`, and what is stored after it.
- `Database.Sound.stored?_withoutUnit`: other units when one goes.
-/

namespace MetadataStore

/-! ## Fresh copies -/

namespace Handle

/-- A copy agrees with a unit as it was loaded: same identity, correlation id, name, status and creation
time, no name and no removal that was not stored, and the same attributes if the copy has loaded them. -/
structure Agrees (copy made : Handle) (attributes : List Attribute) : Prop where
  ref : copy.ref? = made.ref?
  correlation : copy.correlation = made.correlation
  name : copy.name = made.name
  status : copy.status = made.status
  created : copy.created = made.created
  renamed : copy.renamed = false
  detached : copy.detached = []
  attributes : ∀ loaded, copy.attributes = some loaded → AttributeMap.sorted loaded = attributes

/-- A copy agrees with storage. -/
def Fresh (db : Database) (copy : Handle) : Prop :=
  ∃ unit made attributes, copy.ref? = some unit ∧ db.stored? unit = some (made, attributes) ∧
    copy.Agrees made attributes

variable {db : Database} {h made : Handle} {created : DateTime} {unit : UnitRef}

theorem name_of_ofRow {row : UnitRow} (hmake : ofRow row = .ok made) : made.name = row.name := by
  obtain ⟨created, status, -, -, rfl⟩ := ofRow_eq_ok.1 hmake
  rfl

/-- What a row makes agrees with itself. -/
theorem agrees_of_ofRow {row : UnitRow} (hmake : ofRow row = .ok made) (attributes : List Attribute) :
    made.Agrees made attributes := by
  obtain ⟨created, status, -, -, rfl⟩ := ofRow_eq_ok.1 hmake
  refine ⟨rfl, rfl, rfl, rfl, rfl, rfl, rfl, ?_⟩
  intro loaded hloaded
  cases hloaded

theorem fresh_of_ofRow {row : UnitRow} (hrow : db.unit? unit = some row) (hmake : ofRow row = .ok made) :
    made.Fresh db := by
  obtain ⟨-, rfl⟩ := Database.unit?_eq_some hrow
  exact ⟨row.unit, made, _, ref?_of_ofRow hmake,
    Database.stored?_eq_some.2 ⟨row, hrow, hmake, rfl⟩, agrees_of_ofRow hmake _⟩

/-- Whether a copy is fresh, part by part. -/
theorem fresh_iff {copy : Handle} (href : copy.ref? = some unit) :
    copy.Fresh db ↔
      (∃ row made, db.unit? unit = some row ∧ ofRow row = .ok made ∧
        copy.correlation = made.correlation ∧ copy.name = made.name ∧ copy.status = made.status ∧
        copy.created = made.created) ∧
      copy.renamed = false ∧ copy.detached = [] ∧
      (copy.attributes ≠ none →
        AttributeMap.sorted copy.loaded = Attribute.sortById (db.attributesOf unit)) := by
  constructor
  · rintro ⟨other, made, attributes, hother, hstored, hagrees⟩
    cases href.symm.trans hother
    obtain ⟨row, hrow, hmake, rfl⟩ := Database.stored?_eq_some.1 hstored
    refine ⟨⟨row, made, hrow, hmake, hagrees.correlation, hagrees.name, hagrees.status,
      hagrees.created⟩, hagrees.renamed, hagrees.detached, fun hne => ?_⟩
    obtain ⟨loaded, hloaded⟩ := Option.ne_none_iff_exists'.1 hne
    rw [loaded_of_attributes hloaded]
    exact hagrees.attributes loaded hloaded
  · rintro ⟨⟨row, made, hrow, hmake, hcorrelation, hname, hstatus, hcreated⟩, hrenamed, hdetached,
      hattributes⟩
    refine ⟨unit, made, _, href, Database.stored?_eq_some.2 ⟨row, hrow, hmake, rfl⟩, ?_, hcorrelation,
      hname, hstatus, hcreated, hrenamed, hdetached, ?_⟩
    · rw [href, ref?_of_ofRow hmake, (Database.unit?_eq_some hrow).2]
    · intro loaded hloaded
      rw [← loaded_of_attributes hloaded]
      exact hattributes (hloaded ▸ Option.some_ne_none loaded)

end Handle

/-! ## What is stored after changes -/

namespace Database

variable {db db' : Database} {unit : UnitRef}

/-- Attributes that are stored alike are fetched alike. -/
theorem sortById_attributesOf_congr (hsound : db.Sound) (hsound' : db'.Sound)
    (hstored : ∀ a : Attribute, a.StoredOn db' unit ↔ a.StoredOn db unit) :
    Attribute.sortById (db'.attributesOf unit) = Attribute.sortById (db.attributesOf unit) := by
  rw [Attribute.sortById_eq_iff (hsound'.inflateAll_attributeRows unit).2.2
    (hsound.inflateAll_attributeRows unit).2.2]
  intro a
  rw [hsound'.mem_attributesOf, hsound.mem_attributesOf]
  exact hstored a

/-- What is stored of a unit is a matter of its row and of its attributes. -/
theorem stored?_congr (hsound : db.Sound) (hsound' : db'.Sound) (hrow : db'.unit? unit = db.unit? unit)
    (hstored : ∀ a : Attribute, a.StoredOn db' unit ↔ a.StoredOn db unit) :
    db'.stored? unit = db.stored? unit := by
  unfold stored?
  rw [hrow, sortById_attributesOf_congr hsound hsound' hstored]

theorem unit?_map (db : Database) {f : UnitRow → UnitRow} (hf : ∀ row, (f row).unit = row.unit)
    (unit : UnitRef) :
    ({ db with units := db.units.map f } : Database).unit? unit = (db.unit? unit).map f := by
  unfold unit?
  rw [List.find?_map]
  congr 2
  funext row
  simp only [Function.comp, hf]

end Database

namespace Attribute

variable {db db' : Database} {unit : UnitRef} {a : Attribute}

/-- New definitions, and changes to rows of units, do not bear on what is stored of an attribute. -/
theorem storedOn_extend (hsound : db.Sound) (hattributes : db.attributes <+: db'.attributes)
    (hmappings : db'.mappings = db.mappings) (helements : db'.elements = db.elements) :
    a.StoredOn db' unit ↔ a.StoredOn db unit := by
  have hvalue : ∀ v, db'.HasValue unit a.id v a.kind a.value.elements ↔
      db.HasValue unit a.id v a.kind a.value.elements := by
    intro v
    unfold Database.HasValue Database.rowsUnder
    rw [hmappings, helements]
  constructor
  · intro ha
    obtain ⟨v, hv, hown⟩ := ha.value
    have hbefore := (hvalue v).1 hown
    obtain ⟨info, hinfo, -⟩ := hsound.mappingsWritten _ hbefore.1
    -- the definition was there before
    obtain ⟨other, hother, hrest⟩ := ha.catalogued
    rw [Database.attribute?_of_prefix hattributes hinfo] at hother
    cases hother
    exact { ha with
      catalogued := ⟨info, hinfo, hrest⟩
      value := ⟨v, hv, hbefore⟩ }
  · intro ha
    exact ha.congr (ha.catalogued.extend hattributes) fun v hown => (hvalue v).2 hown

end Attribute

namespace Database

variable {db db' : Database} {unit : UnitRef} {status : Status}

/-- What is stored of a unit survives new definitions and changes to other rows. -/
theorem stored?_extend (hsound : db.Sound) (hsound' : db'.Sound)
    (hattributes : db.attributes <+: db'.attributes) (hmappings : db'.mappings = db.mappings)
    (helements : db'.elements = db.elements) (hrow : db'.unit? unit = db.unit? unit) :
    db'.stored? unit = db.stored? unit :=
  stored?_congr hsound hsound' hrow fun _ =>
    Attribute.storedOn_extend hsound hattributes hmappings helements

/-! ## Another status -/

/-- The database with another status for a unit. -/
def withStatus (db : Database) (unit : UnitRef) (status : Status) : Database :=
  { db with units := db.units.map fun row =>
      if row.unit == unit then { row with status := status.code } else row }

theorem setUnitStatus_apply (unit : UnitRef) (status : Status) (db : Database) :
    ∃ count, setUnitStatus unit status.code db = .ok (count, db.withStatus unit status) :=
  ⟨_, rfl⟩

theorem unit?_withStatus (db : Database) (unit other : UnitRef) (status : Status) :
    (db.withStatus unit status).unit? other =
      (db.unit? other).map fun row => if other = unit then { row with status := status.code } else row := by
  unfold withStatus
  rw [unit?_map db (by intro row; split <;> rfl)]
  refine Option.map_congr fun row hrow => ?_
  rw [(unit?_eq_some hrow).2]
  simp only [beq_iff_eq]

theorem Sound.withStatus (h : db.Sound) (unit : UnitRef) (status : Status) :
    (db.withStatus unit status).Sound :=
  h.updateUnits fun row _ => by split <;> rfl

theorem readable_withStatus (h : db.Readable) (unit : UnitRef) (status : Status) :
    (db.withStatus unit status).Readable := by
  intro row hmem
  obtain ⟨old, hold, rfl⟩ := List.mem_map.1 hmem
  obtain ⟨made, hmake⟩ := h old hold
  split
  · exact ⟨_, Handle.ofRow_status hmake status⟩
  · exact ⟨made, hmake⟩

theorem Sound.stored?_withStatus_of_ne (h : db.Sound) {other : UnitRef} (hne : other ≠ unit) :
    (db.withStatus unit status).stored? other = db.stored? other := by
  refine stored?_extend h (h.withStatus unit status) List.prefix_rfl rfl rfl ?_
  rw [unit?_withStatus]
  simp only [hne, if_false]
  exact Option.map_id'

/-! ## A unit gone -/

theorem readable_withoutUnit (h : db.Readable) (unit : UnitRef) : (db.withoutUnit unit).Readable :=
  fun row hmem => h row (mem_units_withoutUnit.1 hmem).1

/-- Other units stay as they are stored when a unit goes. -/
theorem Sound.stored?_withoutUnit (h : db.Sound) {other : UnitRef} (hne : other ≠ unit) :
    (db.withoutUnit unit).stored? other = db.stored? other := by
  refine stored?_congr h (h.deleteUnit unit) ?_ fun a => ?_
  · unfold unit? withoutUnit
    rw [List.find?_filter]
    refine congrArg (fun p => db.units.find? p) (funext fun row => ?_)
    by_cases hrow : row.unit = other
    · simp [hrow, hne]
    · simp [hrow]
  · constructor
    · intro ha
      refine ha.congr ha.catalogued ?_
      rintro v ⟨hmem, hrows⟩
      have hold := mem_mappings_withoutUnit.1 hmem
      exact ⟨hold.1, (h.rowsUnder_withoutUnit hold.1 hold.2).symm.trans hrows⟩
    · intro ha
      refine ha.congr ha.catalogued ?_
      rintro v ⟨hmem, hrows⟩
      exact ⟨mem_mappings_withoutUnit.2 ⟨hmem, hne⟩, (h.rowsUnder_withoutUnit hmem hne).trans hrows⟩

end Database

end MetadataStore
