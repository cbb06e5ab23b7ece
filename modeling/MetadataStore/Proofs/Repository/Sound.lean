import MetadataStore.Proofs.Handle.Loading
import MetadataStore.Proofs.Repository.Definitions

/-!
# `Proofs.Repository.Sound` — a repository on a sound state

A repository works on a sound database whose rows can be read, and remembers of the catalogue what is
stored.

## Contents
- `Repository.Sound`, and `Sound.stored?_eq`: a unit that is stored can be loaded.
- `Handle.ofRow_of_text`, `ofRow_name`, `ofRow_status`: what rows make that were written or changed.
- `Handle.readable_writtenTo`, `sound_of_writtenTo`: a repository after a store.
-/

namespace MetadataStore

/-- The database is sound, its rows can be read, and what is remembered of the catalogue is stored. -/
structure Repository.Sound (r : Repository) : Prop where
  database : r.database.Sound
  readable : r.database.Readable
  catalog : r.catalog.Of r.database

namespace Repository

variable {r r' : Repository}

theorem Sound.withCatalog (h : r.Sound) {catalog : Catalog} (hof : catalog.Of r.database) :
    (r.withCatalog catalog).Sound :=
  ⟨h.database, h.readable, hof⟩

/-- Whether a repository is sound is a matter of its database and its catalogue. -/
theorem Sound.congr (h : r.Sound) (hdatabase : r'.database = r.database)
    (hcatalog : r'.catalog = r.catalog) : r'.Sound := by
  refine ⟨?_, ?_, ?_⟩
  · rw [hdatabase]
    exact h.database
  · rw [hdatabase]
    exact h.readable
  · rw [hdatabase, hcatalog]
    exact h.catalog

/-- A unit that is stored is answered by a cold load as it is stored. -/
theorem Sound.stored?_eq (h : r.Sound) {unit : UnitRef} (hunit : r.database.hasUnit unit = true) :
    ∃ made, r.database.stored? unit =
      some (made, Attribute.sortById (r.database.attributesOf unit)) ∧ made.ref? = some unit := by
  rw [Database.hasUnit_eq_isSome_unit?] at hunit
  obtain ⟨row, hrow⟩ := Option.isSome_iff_exists.1 hunit
  obtain ⟨hmem, rfl⟩ := Database.unit?_eq_some hrow
  obtain ⟨made, hmake⟩ := h.readable row hmem
  exact ⟨made, Database.stored?_eq_some.2 ⟨row, hrow, hmake, rfl⟩, Handle.ref?_of_ofRow hmake⟩

end Repository

/-! ## Rows that a store writes -/

/-- A row with the code of a status and the text of a time can be read. -/
theorem Handle.ofRow_of_text {row : UnitRow} (status : Status) (created : DateTime)
    (hstatus : row.status = status.code) (hcreated : row.created = created.text) :
    Handle.ofRow row = .ok ⟨row.unit.tenant, some row.unit.id, row.correlation, row.name, status,
      some created.truncate, none, [], false⟩ := by
  refine Handle.ofRow_eq_ok.2 ⟨created.truncate, status, ?_, ?_, rfl⟩
  · rw [hcreated, DateTime.ofText_text]
  · rw [hstatus, Status.ofCode_code]

namespace Handle

variable {h : Handle} {created : DateTime} {db : Database}

/-- What the row of a unit makes under another name. -/
theorem ofRow_name {row : UnitRow} {made : Handle} (hmake : ofRow row = .ok made)
    (name : Option String) : ofRow { row with name } = .ok { made with name } := by
  obtain ⟨created, status, hcreated, hstatus, rfl⟩ := ofRow_eq_ok.1 hmake
  exact ofRow_eq_ok.2 ⟨created, status, hcreated, hstatus, rfl⟩

/-- What the row of a unit makes with another status. -/
theorem ofRow_status {row : UnitRow} {made : Handle} (hmake : ofRow row = .ok made)
    (status : Status) : ofRow { row with status := status.code } = .ok { made with status } := by
  obtain ⟨created, -, hcreated, -, rfl⟩ := ofRow_eq_ok.1 hmake
  exact ofRow_eq_ok.2 ⟨created, status, hcreated, Status.ofCode_code status, rfl⟩

theorem readable_writtenTo (hreadable : db.Readable) : (h.writtenTo created db).Readable := by
  unfold Database.Readable
  rw [units_writtenTo]
  unfold withRow
  intro row hmem
  cases hid : h.id with
  | none =>
    rw [hid] at hmem
    rcases List.mem_append.1 hmem with hold | hnew
    · exact hreadable row hold
    · -- the row of a new unit was written by this library
      rw [List.mem_singleton.1 hnew]
      exact ⟨_, ofRow_of_text h.status created rfl rfl⟩
  | some id =>
    rw [hid] at hmem
    cases hrenamed : h.renamed with
    | false =>
      simp only [hrenamed, Bool.false_eq_true, if_false] at hmem
      exact hreadable row hmem
    | true =>
      simp only [hrenamed, if_true] at hmem
      obtain ⟨old, hold, rfl⟩ := List.mem_map.1 hmem
      obtain ⟨made, hmake⟩ := hreadable old hold
      split
      · exact ⟨_, ofRow_name hmake h.name⟩
      · exact ⟨made, hmake⟩

/-- A store of a known handle leaves a sound repository. -/
theorem sound_of_writtenTo {r : Repository} (hsound : r.Sound)
    (hknown : AttributeMap.Known r.database h.loaded) (hwritable : h.IsWritable r.database)
    (cache : Cache) :
    ({ r with database := h.writtenTo created r.database, cache } : Repository).Sound where
  database := sound_writtenTo hsound.database hknown hwritable
  readable := readable_writtenTo hsound.readable
  catalog := hsound.catalog.extend attributes_prefix_writtenTo

end Handle

end MetadataStore
