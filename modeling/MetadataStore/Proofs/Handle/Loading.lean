import MetadataStore.Handle.Actions
import MetadataStore.Proofs.Handle.Fetch
import MetadataStore.Proofs.Repository.Lookup

/-!
# `Proofs.Handle.Loading` — a unit as the database has it

What the database has of a unit is its row and its attributes by number. That is also what the
repository answers when the cache is dropped and the unit is loaded again with its attributes.

## Contents
- `Attribute.sortById`, `sortById_eq_iff`: attributes by number, and when two such lists are equal.
- `Database.Readable`, `Database.stored?`: the unit as the database has it.
- `Handle.fetched`, `Handle.fetch_of_sound`: the attributes loaded on a handle.
- `Repository.reload`, `Repository.reload_eq_stored?`: a cold load.
-/

namespace MetadataStore

/-! ## Attributes by number -/

namespace Attribute

/-- Attributes by number. -/
def sortById (as : List Attribute) : List Attribute :=
  as.mergeSort fun a b => decide (a.id ≤ b.id)

theorem mem_sortById {as : List Attribute} {a : Attribute} : a ∈ sortById as ↔ a ∈ as :=
  List.mem_mergeSort

/-- Of attributes with numbers of their own, those by number are equal when the attributes are. -/
theorem sortById_eq_iff {as bs : List Attribute} (has : (as.map (·.id)).Nodup)
    (hbs : (bs.map (·.id)).Nodup) : sortById as = sortById bs ↔ ∀ a, a ∈ as ↔ a ∈ bs :=
  mergeSort_eq_iff Attribute.id has hbs

end Attribute

/-! ## What is stored -/

namespace Database

variable {db : Database} {unit : UnitRef}

/-- The status and the creation time of every row can be read. -/
def Readable (db : Database) : Prop :=
  ∀ row ∈ db.units, ∃ h, Handle.ofRow row = .ok h

/-- A unit as the database has it: what its row makes, and its attributes by number. -/
def stored? (db : Database) (unit : UnitRef) : Option (Handle × List Attribute) :=
  match db.unit? unit with
  | none => none
  | some row =>
    match Handle.ofRow row with
    | .ok h => some (h, Attribute.sortById (db.attributesOf unit))
    | .error _ => none

theorem stored?_eq_some {made : Handle} {as : List Attribute} :
    db.stored? unit = some (made, as) ↔
      ∃ row, db.unit? unit = some row ∧ Handle.ofRow row = .ok made ∧
        as = Attribute.sortById (db.attributesOf unit) := by
  unfold stored?
  cases db.unit? unit with
  | none => simp
  | some row =>
    cases hmake : Handle.ofRow row with
    | error fault => simp [hmake]
    | ok h =>
      simp only [Option.some.injEq, Prod.mk.injEq, exists_eq_left', hmake, Except.ok.injEq]
      exact and_congr_right fun _ => eq_comm

/-- Names that a fetch gives differ beyond case. -/
theorem Sound.namesDistinct_attributesOf (h : db.Sound) :
    ((db.attributesOf unit).map fun a => Text.lower a.name).Nodup := by
  have hids := (h.inflateAll_attributeRows unit).2.2
  have hnodup : (db.attributesOf unit).Nodup := List.Nodup.of_map _ hids
  refine hnodup.map_on fun a ha b hb heq => ?_
  obtain ⟨infoA, hinfoA, hnameA, -⟩ := (h.mem_attributesOf.1 ha).catalogued
  obtain ⟨infoB, hinfoB, hnameB, -⟩ := (h.mem_attributesOf.1 hb).catalogued
  obtain ⟨hmemA, hidA⟩ := attribute?_eq_some hinfoA
  obtain ⟨hmemB, hidB⟩ := attribute?_eq_some hinfoB
  rw [← hnameA, ← hnameB] at heq
  have hinfo : infoA = infoB :=
    eq_of_nodup (fun info : AttributeRow => Text.lower info.name) h.namesDistinct hmemA hmemB heq
  refine eq_of_nodup Attribute.id hids ha hb ?_
  rw [← hidA, ← hidB, hinfo]

/-- The attributes of a fetch under their names. -/
theorem Sound.ofAttributes_attributesOf (h : db.Sound) (unit : UnitRef) :
    AttributeMap.ofAttributes (db.attributesOf unit) =
      (db.attributesOf unit).map fun a => (Text.lower a.name, a) :=
  AttributeMap.ofAttributes_eq_map h.namesDistinct_attributesOf

theorem Sound.known_attributesOf (h : db.Sound) (unit : UnitRef) :
    AttributeMap.Known db (AttributeMap.ofAttributes (db.attributesOf unit)) := by
  rw [h.ofAttributes_attributesOf]
  refine ⟨?_, ?_, ?_⟩
  · rw [List.map_map]
    exact h.namesDistinct_attributesOf
  · intro entry hmem
    obtain ⟨a, -, rfl⟩ := List.mem_map.1 hmem
    rfl
  · intro entry hmem
    obtain ⟨a, ha, rfl⟩ := List.mem_map.1 hmem
    exact (h.mem_attributesOf.1 ha).catalogued

theorem Sound.mem_ofAttributes (h : db.Sound) {entry : String × Attribute} :
    entry ∈ AttributeMap.ofAttributes (db.attributesOf unit) ↔
      entry.1 = Text.lower entry.2.name ∧ entry.2.StoredOn db unit := by
  rw [h.ofAttributes_attributesOf, List.mem_map]
  constructor
  · rintro ⟨a, ha, rfl⟩
    exact ⟨rfl, h.mem_attributesOf.1 ha⟩
  · rintro ⟨hkey, hstored⟩
    exact ⟨entry.2, h.mem_attributesOf.2 hstored, Prod.ext hkey.symm rfl⟩

end Database

/-! ## Loading attributes -/

namespace Handle

variable {r : Repository} {h : Handle} {db : Database}

/-- The handle with its attributes loaded, if they were not. -/
def fetched (h : Handle) (db : Database) : Handle :=
  match h.attributes, h.ref? with
  | some _, _ => h
  | none, none => { h with attributes := some [] }
  | none, some unit =>
    { h with attributes := some (AttributeMap.ofAttributes (db.attributesOf unit)) }

theorem fetched_of_loaded {attributes : AttributeMap} (h' : h.attributes = some attributes) :
    h.fetched db = h := by
  unfold fetched
  rw [h']

theorem fetched_of_new (h' : h.attributes = none) (hnew : h.ref? = none) :
    h.fetched db = { h with attributes := some [] } := by
  unfold fetched
  rw [h', hnew]

theorem fetched_of_unloaded {unit : UnitRef} (h' : h.attributes = none) (href : h.ref? = some unit) :
    h.fetched db = { h with attributes := some (AttributeMap.ofAttributes (db.attributesOf unit)) } := by
  unfold fetched
  rw [h', href]

theorem loaded_fetched_of_unloaded {unit : UnitRef} (h' : h.attributes = none)
    (href : h.ref? = some unit) :
    (h.fetched db).loaded = AttributeMap.ofAttributes (db.attributesOf unit) := by
  rw [fetched_of_unloaded h' href]
  rfl

theorem loaded_of_attributes {attributes : AttributeMap} (hloaded : h.attributes = some attributes) :
    h.loaded = attributes := by
  unfold loaded
  rw [hloaded]
  rfl

theorem attributes_fetched (h : Handle) (db : Database) :
    (h.fetched db).attributes = some (h.fetched db).loaded := by
  cases hloaded : h.attributes with
  | some attributes => rw [fetched_of_loaded hloaded, loaded_of_attributes hloaded, hloaded]
  | none =>
    cases href : h.ref? with
    | none =>
      rw [fetched_of_new hloaded href]
      rfl
    | some unit =>
      rw [fetched_of_unloaded hloaded href]
      rfl

theorem attributes_of_ofRow {row : UnitRow} (hmake : ofRow row = .ok h) : h.attributes = none := by
  obtain ⟨created, status, -, -, rfl⟩ := ofRow_eq_ok.1 hmake
  rfl

/-- **Loading the attributes** goes through unless the database has to be looked at and others hold
everything, in which case nothing changes. -/
theorem fetch_of_sound (h : Handle) (hsound : r.database.Sound) :
    fetch (r, h) = (.ok (), (r, h.fetched r.database)) ∨
      (r.contention.allowsReading = false ∧ ∃ fault, fetch (r, h) = (.error fault, (r, h))) := by
  unfold fetch fetched
  rw [Action.bind_of_ok (held_apply (r, h))]
  cases hloaded : h.attributes with
  | some attributes => exact Or.inl rfl
  | none =>
    cases href : h.ref? with
    | none => exact Or.inl rfl
    | some unit =>
      cases hread : r.contention.allowsReading with
      | true =>
        have hlook : Action.onFirst (Repository.read (·.attributeRows unit)) (r, h) =
            (.ok (r.database.attributeRows unit), (r, h)) :=
          Action.onFirst_eq_ok.2 ⟨r, Repository.read_of_allows _ hread, rfl⟩
        have hall := (hsound.inflateAll_attributeRows unit).1
        refine Or.inl ?_
        simp only [Action.bind_of_ok hlook, hall]
        rfl
      | false =>
        have hlook : Action.onFirst (Repository.read (·.attributeRows unit)) (r, h) =
            (.error (.read .locked), (r, h)) :=
          Action.onFirst_eq_error.2 ⟨r, Repository.read_eq_error.2 ⟨hread, rfl, rfl⟩, rfl⟩
        refine Or.inr ⟨rfl, .read .locked, ?_⟩
        simp only [Action.bind_of_error hlook]

end Handle

/-! ## A cold load -/

theorem Database.Sound.sorted_ofAttributes {db : Database} (h : db.Sound) (unit : UnitRef) :
    AttributeMap.sorted (AttributeMap.ofAttributes (db.attributesOf unit)) =
      Attribute.sortById (db.attributesOf unit) := by
  have hvalues : (AttributeMap.ofAttributes (db.attributesOf unit)).map (·.2) =
      db.attributesOf unit := by
    rw [h.ofAttributes_attributesOf, List.map_map]
    exact List.map_id' _
  unfold AttributeMap.sorted Attribute.sortById
  rw [hvalues]

/-- Attributes with numbers of their own are those of storage when each of them is stored and each that is
stored is among them. -/
theorem Database.Sound.sorted_eq_iff {db : Database} (h : db.Sound) {unit : UnitRef}
    {attributes : AttributeMap} (hids : (attributes.map (·.2.id)).Nodup) :
    AttributeMap.sorted attributes = Attribute.sortById (db.attributesOf unit) ↔
      ∀ a : Attribute, (∃ entry ∈ attributes, entry.2 = a) ↔ a.StoredOn db unit := by
  have hids' : ((attributes.map (·.2)).map (·.id)).Nodup := by
    rw [List.map_map]
    exact hids
  show Attribute.sortById (attributes.map (·.2)) = _ ↔ _
  rw [Attribute.sortById_eq_iff hids' (h.inflateAll_attributeRows unit).2.2]
  simp only [List.mem_map, h.mem_attributesOf]

namespace Repository

/-- Drops the cache and loads a unit again with its attributes. -/
def reload (unit : UnitRef) : Action Repository (Option (Handle × List Attribute)) := do
  Action.modify fun r => { r with cache := r.cache.clear }
  match ← Repository.unit unit with
  | none => pure none
  | some h => fun r =>
    match Handle.attributeList (r, h) with
    | (.ok attributes, (r, _)) => (.ok (some (h, attributes)), r)
    | (.error fault, (r, _)) => (.error fault, r)

variable {r : Repository}

/-- The attributes are answered as they are loaded, when the database can be looked at. -/
theorem attributeList_of_reading (hsound : r.database.Sound)
    (hread : r.contention.allowsReading = true) (h : Handle) :
    Handle.attributeList (r, h) =
      (.ok (AttributeMap.sorted (h.fetched r.database).loaded), (r, h.fetched r.database)) := by
  rcases Handle.fetch_of_sound h hsound with hfetch | ⟨hlocked, -⟩
  · have hloaded : Handle.loadedAttributes (r, h) =
        (.ok (h.fetched r.database).loaded, (r, h.fetched r.database)) := by
      unfold Handle.loadedAttributes
      rw [Action.bind_of_ok hfetch]
      rfl
    unfold Handle.attributeList
    rw [Action.bind_of_ok hloaded]
    rfl
  · rw [hread] at hlocked
    cases hlocked

/-- The attributes of a unit just loaded. -/
theorem attributeList_of_ofRow (hsound : r.database.Sound) (hread : r.contention.allowsReading = true)
    {row : UnitRow} {made : Handle} (hmake : Handle.ofRow row = .ok made) :
    ∃ h, Handle.attributeList (r, made) =
      (.ok (Attribute.sortById (r.database.attributesOf row.unit)), (r, h)) := by
  have hfetched : (made.fetched r.database).loaded =
      AttributeMap.ofAttributes (r.database.attributesOf row.unit) :=
    Handle.loaded_fetched_of_unloaded (Handle.attributes_of_ofRow hmake) (Handle.ref?_of_ofRow hmake)
  refine ⟨made.fetched r.database, ?_⟩
  rw [attributeList_of_reading hsound hread, hfetched, hsound.sorted_ofAttributes]

/-- **A cold load answers what is stored**, and leaves the database alone. -/
theorem reload_eq_stored? (hsound : r.database.Sound) (hreadable : r.database.Readable)
    (hread : r.contention.allowsReading = true) (unit : UnitRef) :
    (reload unit r).1 = .ok (r.database.stored? unit) ∧ (reload unit r).2.database = r.database := by
  let cold : Repository := { r with cache := r.cache.clear }
  have hclear : (Action.modify fun r : Repository => { r with cache := r.cache.clear }) r =
      (.ok (), cold) := rfl
  -- the cache is empty, so the unit comes from its row
  have hmiss : (cold.cache.lookup unit.text).1 = none := by
    rw [Cache.fst_lookup]
    rfl
  unfold reload
  rw [Action.bind_of_ok hclear]
  cases hrow : r.database.unit? unit with
  | none =>
    have hload : load unit (cold.looked unit.text) = (.ok none, cold.looked unit.text) :=
      load_eq_ok_none.2 ⟨hread, hrow, rfl⟩
    have hunit : Repository.unit unit cold = (.ok none, cold.looked unit.text) := by
      rw [unit_of_uncached hmiss, hload]
    have hstored : r.database.stored? unit = none := by
      unfold Database.stored?
      rw [hrow]
    rw [Action.bind_of_ok hunit, hstored]
    exact ⟨rfl, rfl⟩
  | some row =>
    obtain ⟨hmem, rfl⟩ := Database.unit?_eq_some hrow
    obtain ⟨made, hmake⟩ := hreadable row hmem
    have hload : load row.unit (cold.looked row.unit.text) =
        (.ok (some made), cold.looked row.unit.text) :=
      load_eq_ok_some.2 ⟨hread, row, hrow, hmake, rfl⟩
    let kept : Repository := (cold.looked row.unit.text).keeping made
    have hunit : Repository.unit row.unit cold = (.ok (some made), kept) := by
      rw [unit_of_uncached hmiss, hload]
    have hstored : r.database.stored? row.unit =
        some (made, Attribute.sortById (r.database.attributesOf row.unit)) :=
      Database.stored?_eq_some.2 ⟨row, hrow, hmake, rfl⟩
    obtain ⟨h, hlist⟩ := attributeList_of_ofRow (r := kept) hsound hread hmake
    rw [Action.bind_of_ok hunit, hstored]
    simp only [hlist]
    exact ⟨rfl, rfl⟩

end Repository

end MetadataStore
