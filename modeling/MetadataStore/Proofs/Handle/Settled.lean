import MetadataStore.Proofs.Handle.Storing
import MetadataStore.Proofs.Handle.Tracking

/-!
# `Proofs.Handle.Settled` — handle and storage after a store

After a store each pending attribute has its elements under a new number, on the handle as in storage.
All other attributes are what they were, on the handle, and in storage unless they were taken off.

## Contents
- `Handle.mem_loaded_settle`, `pending_settle`: the attributes of the handle after a store.
- `Attribute.StoredOn.writtenTo`, `storedOn_of_writtenTo`: what storage has after a store.
- `Handle.hasUnit_writtenTo`: the row of the unit.
- `Handle.Tracks.store`: a handle that keeps up goes on doing so.
-/

namespace MetadataStore

namespace Handle

variable {db : Database} {h : Handle} {created : DateTime}

variable {r r' : Repository} {h' : Handle}

/-- A successful store as a step of repository and handle. -/
theorem store_eq_ok_of_issued (hissued : r.database.ValuesIssued)
    (hstore : store (r, h) = (.ok (), (r', h'))) :
    h.Unlocked r ∧ h.IsWritable r.database ∧
      (h.id = none → r.contention.allowsWriting = true) ∧
      h' = h.settle (h.writtenId r.database) (h.creationTime r) (h.writtenValues r.database) ∧
      r' = { r with database := h.writtenTo (h.creationTime r) r.database, cache := r.cache.store h' } := by
  obtain ⟨hunlocked, id, written, database, hwrite, hsettled, hkept⟩ := store_eq_ok.1 hstore
  obtain ⟨hwriting, hwritable, rfl, rfl, rfl⟩ := (write_eq_ok hissued).1 hwrite
  exact ⟨hunlocked, hwritable, fun hnew => hwriting (Or.inl hnew), hsettled, hkept⟩

theorem store_eq_ok_of_sound (hsound : r.database.Sound) (hstore : store (r, h) = (.ok (), (r', h'))) :
    h.Unlocked r ∧ h.IsWritable r.database ∧
      (h.id = none → r.contention.allowsWriting = true) ∧
      h' = h.settle (h.writtenId r.database) (h.creationTime r) (h.writtenValues r.database) ∧
      r' = { r with database := h.writtenTo (h.creationTime r) r.database, cache := r.cache.store h' } :=
  store_eq_ok_of_issued hsound.issued hstore

/-- A store that succeeds leaves the handle of a stored unit. -/
theorem ref?_of_store (hsound : r.database.Sound) (hstore : store (r, h) = (.ok (), (r', h'))) :
    h'.ref? = some (h.writtenUnit r.database) := by
  obtain ⟨-, -, -, hsettled, -⟩ := store_eq_ok_of_sound hsound hstore
  rw [hsettled]
  exact ref?_settle h _ _ _

/-- A store that succeeds has written or looked for a lock, so that others let it read. -/
theorem allowsReading_of_store (hsound : r.database.Sound)
    (hstore : store (r, h) = (.ok (), (r', h'))) : r'.contention.allowsReading = true := by
  obtain ⟨hunlocked, -, hnewWrites, -, hkept⟩ := store_eq_ok_of_sound hsound hstore
  have hsame : r'.contention = r.contention := by rw [hkept]
  rw [hsame]
  cases hid : h.id with
  | none => exact Contention.allowsReading_of_allowsWriting (hnewWrites hid)
  | some id => exact (hunlocked (h.writtenUnit r.database) (ref?_of_id hid)).1

/-! ## The handle -/

theorem keys_numberedFrom (last : Int) (entries : AttributeMap) :
    (numberedFrom last entries).map (·.1) = entries.map (·.1) := by
  induction entries generalizing last with
  | nil => rfl
  | cons entry rest ih =>
    rw [numberedFrom, List.map_cons, List.map_cons, ih]

/-- An attribute that is not pending gets no number. -/
theorem lookup_writtenValues_eq_none (hkeys : (h.loaded.map (·.1)).Nodup)
    {entry : String × Attribute} (hmem : entry ∈ h.loaded) (hneeds : entry.2.needsWriting = false) :
    (h.writtenValues db).lookup entry.1 = none := by
  rw [Keyed.lookup_eq_none]
  intro numbered hnumbered hkey
  have hin : numbered.1 ∈ h.pending.map (·.1) := by
    rw [← keys_numberedFrom db.lastValue h.pending]
    exact List.mem_map_of_mem hnumbered
  obtain ⟨other, hother, heq⟩ := List.mem_map.1 hin
  obtain ⟨hloaded, hpending⟩ := List.mem_filter.1 hother
  have hsame : other = entry :=
    eq_of_nodup Prod.fst hkeys hloaded hmem (heq.trans hkey)
  rw [hsame, hneeds] at hpending
  cases hpending

/-- **The attributes after a store** are those that were not pending, and the pending ones under the
numbers of the values that they have in storage. -/
theorem mem_loaded_settle (hsound : db.Sound) (hknown : AttributeMap.Known db h.loaded) (id : Int)
    {entry : String × Attribute} :
    entry ∈ (h.settle id created (h.writtenValues db)).loaded ↔
      (entry ∈ h.loaded ∧ entry.2.needsWriting = false) ∨
        ∃ old ∈ h.pending, ∃ v, entry = (old.1, old.2.markStored v) ∧
          (h.writtenValues db).lookup old.1 = some v ∧
          (h.writtenTo created db).HasValue (h.writtenUnit db) old.2.id v old.2.kind
            old.2.value.elements := by
  rw [loaded_settle, AttributeMap.mem_markWritten]
  constructor
  · rintro ⟨old, hold, rfl⟩
    cases hneeds : old.2.needsWriting with
    | false =>
      rw [lookup_writtenValues_eq_none hknown.keysDistinct hold hneeds]
      exact Or.inl ⟨hold, hneeds⟩
    | true =>
      have hpending : old ∈ h.pending := List.mem_filter.2 ⟨hold, hneeds⟩
      obtain ⟨v, hlookup, -, hvalue⟩ := hasValue_of_pending created hsound hknown hpending
      refine Or.inr ⟨old, hpending, v, ?_, hlookup, hvalue⟩
      rw [hlookup]
  · rintro (⟨hmem, hneeds⟩ | ⟨old, hpending, v, rfl, hlookup, -⟩)
    · refine ⟨entry, hmem, ?_⟩
      rw [lookup_writtenValues_eq_none hknown.keysDistinct hmem hneeds]
    · refine ⟨old, (List.mem_filter.1 hpending).1, ?_⟩
      rw [hlookup]

/-- An attribute stands after a store where it stood before. -/
theorem get?_settle (hkeys : (h.loaded.map (·.1)).Nodup) {id : Int} {written : List (String × Int)}
    {entry : String × Attribute} (hmem : entry ∈ h.loaded) :
    AttributeMap.get? (h.settle id created written).loaded entry.1 =
      some ((written.lookup entry.1).elim entry.2 entry.2.markStored) := by
  have hkeys' : ((h.settle id created written).loaded.map (·.1)).Nodup := by
    rw [loaded_settle, AttributeMap.keys_markWritten]
    exact hkeys
  rw [AttributeMap.get?_eq_some_iff_mem hkeys', loaded_settle, AttributeMap.mem_markWritten]
  refine ⟨entry, hmem, ?_⟩
  cases written.lookup entry.1 <;> rfl

theorem exists_lookup_of_pending (db : Database) {entry : String × Attribute}
    (hmem : entry ∈ h.pending) :
    ∃ v, (h.writtenValues db).lookup entry.1 = some v := by
  cases hlookup : (h.writtenValues db).lookup entry.1 with
  | some v => exact ⟨v, rfl⟩
  | none =>
    have hkey : entry.1 ∈ (h.writtenValues db).map (·.1) := by
      rw [writtenValues, keys_numberedFrom]
      exact List.mem_map_of_mem hmem
    obtain ⟨numbered, hnumbered, heq⟩ := List.mem_map.1 hkey
    exact absurd heq (Keyed.lookup_eq_none.1 hlookup numbered hnumbered)

/-- After a store nothing on the handle is pending. -/
theorem pending_settle {id : Int} : (h.settle id created (h.writtenValues db)).pending = [] := by
  rw [pending, List.filter_eq_nil_iff]
  intro entry hmem hneeds
  rw [loaded_settle, AttributeMap.mem_markWritten] at hmem
  obtain ⟨old, hold, rfl⟩ := hmem
  cases hlookup : (h.writtenValues db).lookup old.1 with
  | some v =>
    rw [hlookup, Attribute.needsWriting_markStored] at hneeds
    cases hneeds
  | none =>
    -- what got no number was not pending
    rw [hlookup] at hneeds
    obtain ⟨v, hnumber⟩ := exists_lookup_of_pending db (List.mem_filter.2 ⟨hold, hneeds⟩)
    rw [hlookup] at hnumber
    cases hnumber

/-- An attribute that is not pending is not among the numbers of pending ones. -/
theorem not_mem_ids_pending (hknown : AttributeMap.Known db h.loaded) {entry : String × Attribute}
    (hmem : entry ∈ h.loaded) (hneeds : entry.2.needsWriting = false) :
    entry.2.id ∉ h.pending.map (·.2.id) := by
  intro hin
  obtain ⟨other, hother, heq⟩ := List.mem_map.1 hin
  obtain ⟨hloaded, hpending⟩ := List.mem_filter.1 hother
  rw [hknown.eq_of_id hloaded hmem heq, hneeds] at hpending
  cases hpending

/-! ## Storage -/

/-- A unit that is not stored yet has nothing in storage. -/
theorem unit_ne_of_new (hsound : db.Sound) (hnew : h.id = none) {m : Mapping}
    (hm : m ∈ db.mappings) : m.unit ≠ h.writtenUnit db := by
  intro heq
  obtain ⟨row, hrow, hunit⟩ := Database.hasUnit_iff.1 (hsound.mappingsOwned m hm)
  have hissued := hsound.unitsIssued row hrow
  rw [hunit, heq, writtenUnit_of_new hnew] at hissued
  simp only at hissued
  omega

theorem hasUnit_writtenTo (h : Handle) (created : DateTime) (db : Database) :
    (h.writtenTo created db).hasUnit (h.writtenUnit db) =
      (h.id.isNone || db.hasUnit (h.writtenUnit db)) := by
  rw [← hasUnit_withRow h created db]
  unfold Database.hasUnit
  rw [units_writtenTo]

end Handle

namespace Attribute

variable {db db' : Database} {h : Handle} {created : DateTime} {a : Attribute} {unit : UnitRef}

/-- What storage has of an attribute is a matter of its definition and its value. -/
theorem StoredOn.congr (ha : a.StoredOn db unit) (hcatalogued : a.Catalogued db')
    (hvalue : ∀ v, db.HasValue unit a.id v a.kind a.value.elements →
      db'.HasValue unit a.id v a.kind a.value.elements) : a.StoredOn db' unit := by
  obtain ⟨v, hv, hold⟩ := ha.value
  exact { ha with catalogued := hcatalogued, value := ⟨v, hv, hvalue v hold⟩ }

theorem catalogued_congr (hattributes : db'.attributes = db.attributes) :
    a.Catalogued db' ↔ a.Catalogued db := by
  unfold Catalogued Database.attribute?
  rw [hattributes]

/-- Storage keeps the attributes that a store neither takes off nor writes. -/
theorem StoredOn.writtenTo (hsound : db.Sound) (ha : a.StoredOn db unit)
    (hne : ¬(unit = h.writtenUnit db ∧ a.id ∈ h.touched)) :
    a.StoredOn (h.writtenTo created db) unit := by
  refine ha.congr ((catalogued_congr Handle.attributes_writtenTo).2 ha.catalogued) ?_
  rintro v ⟨hmem, hrows⟩
  obtain ⟨hkept, hsame⟩ := Handle.keeps_untouched created hsound.valuesNumbered hmem hne
  exact ⟨hkept, hsame.trans hrows⟩

/-- What storage has after a store it had before, or it is one of the attributes written. -/
theorem storedOn_of_writtenTo (hsound : db.Sound) (ha : a.StoredOn (h.writtenTo created db) unit) :
    (a.StoredOn db unit ∧ ¬(unit = h.writtenUnit db ∧ a.id ∈ h.touched)) ∨
      (unit = h.writtenUnit db ∧ a.id ∈ h.pending.map (·.2.id)) := by
  obtain ⟨v, hv, hmem, hrows⟩ := ha.value
  rcases Handle.mem_mappings_writtenTo hmem with ⟨hold, hne⟩ | hpending
  · refine Or.inl ⟨?_, hne⟩
    -- a value that the store did not touch has the rows that it had
    obtain ⟨-, hsame⟩ := Handle.keeps_untouched created hsound.valuesNumbered hold hne
    have hvalue : db.HasValue unit a.id v a.kind a.value.elements := ⟨hold, hsame.symm.trans hrows⟩
    exact { ha with
      catalogued := (catalogued_congr Handle.attributes_writtenTo).1 ha.catalogued
      value := ⟨v, hv, hvalue⟩ }
  · exact Or.inr hpending

end Attribute

/-! ## Keeping up -/

namespace Handle

variable {db : Database} {h : Handle} {created : DateTime}

theorem catalogued_of_pending (hknown : AttributeMap.Known db h.loaded) {entry : String × Attribute}
    (hpending : entry ∈ h.pending) : entry.2.Catalogued (h.writtenTo created db) :=
  (Attribute.catalogued_congr attributes_writtenTo).2
    ((known_pending hknown).catalogued entry hpending)

/-- A pending attribute is as storage has it afterwards exactly when no zero with a sign was written. -/
theorem storedOn_of_pending (hknown : AttributeMap.Known db h.loaded)
    (hwritable : h.IsWritable db) {entry : String × Attribute} (hpending : entry ∈ h.pending) {v : Int}
    (hvalue : (h.writtenTo created db).HasValue (h.writtenUnit db) entry.2.id v entry.2.kind
      entry.2.value.elements) :
    (entry.2.markStored v).StoredOn (h.writtenTo created db) (h.writtenUnit db) ↔
      ∀ d ∈ entry.2.value.elements, ¬ d.IsNegativeZero :=
  Attribute.storedOn_markStored (catalogued_of_pending hknown hpending)
    (hwritable.attributes entry hpending).1 hvalue

/-- Nothing is done to an attribute of the handle that is neither new nor changed. -/
theorem Tracks.not_mem_touched (ht : h.Tracks db) {entry : String × Attribute} (hmem : entry ∈ h.loaded)
    (hneeds : entry.2.needsWriting = false) : entry.2.id ∉ h.touched := by
  intro htouched
  rcases List.mem_append.1 htouched with hgone | hwritten
  · exact (ht.entries entry hmem (Attribute.needsWriting_eq_false_iff.1 hneeds).1).1 hgone
  · exact not_mem_ids_pending ht.known hmem hneeds hwritten

/-- What the handle has after a store continues what storage then has. -/
theorem Tracks.exists_continues_settle (hsound : db.Sound) (ht : h.Tracks db)
    (hwritable : h.IsWritable db) {id : Int} {entry : String × Attribute}
    (hmem : entry ∈ (h.settle id created (h.writtenValues db)).loaded) :
    ∃ was : Attribute, was.StoredOn (h.writtenTo created db) (h.writtenUnit db) ∧
      was.Continues entry.2 := by
  rcases (mem_loaded_settle hsound ht.known _).1 hmem with
    ⟨hold, hneeds⟩ | ⟨old, hpending, v, rfl, -, hvalue⟩
  · obtain ⟨-, unit, was, hunit, hwas, hof⟩ :=
      ht.entries entry hold (Attribute.needsWriting_eq_false_iff.1 hneeds).1
    rw [writtenUnit_of_ref? hunit]
    refine ⟨was, hwas.writtenTo hsound ?_, hof⟩
    rintro ⟨-, htouched⟩
    rw [← hof.id] at htouched
    exact ht.not_mem_touched hold hneeds htouched
  · exact Attribute.exists_continues_markStored (catalogued_of_pending ht.known hpending)
      (hwritable.attributes old hpending).1 hvalue

/-- What storage has of the unit after a store, the handle has. -/
theorem Tracks.exists_of_mem_writtenTo (hsound : db.Sound) (ht : h.Tracks db)
    (hloaded : h.attributes ≠ none) {m : Mapping} {id : Int}
    (hm : m ∈ (h.writtenTo created db).mappings) (hunit : m.unit = h.writtenUnit db) :
    ∃ entry ∈ (h.settle id created (h.writtenValues db)).loaded,
      entry.2.id = m.attributeId ∧ entry.2.isNew = false := by
  have hknown := ht.known
  rcases mem_mappings_writtenTo hm with ⟨hold, hne⟩ | ⟨-, hwritten⟩
  -- A value that was there before stays when the store neither takes it off nor replaces it.
  · cases hid : h.id with
    | none => exact absurd hunit (unit_ne_of_new hsound hid hold)
    | some n =>
      rcases ht.complete hloaded _ (ref?_of_id hid) m hold hunit with
        hgone | ⟨entry, hmem, hsame, hentry⟩
      · exact absurd ⟨hunit, List.mem_append_left _ hgone⟩ hne
      · cases hneeds : entry.2.needsWriting with
        | false =>
          exact ⟨entry, (mem_loaded_settle hsound hknown _).2 (Or.inl ⟨hmem, hneeds⟩),
            hsame, hentry⟩
        | true =>
          have hpending : entry ∈ h.pending := List.mem_filter.2 ⟨hmem, hneeds⟩
          have hwritten : m.attributeId ∈ h.pending.map (·.2.id) :=
            hsame ▸ List.mem_map_of_mem (f := (·.2.id)) hpending
          exact absurd ⟨hunit, List.mem_append_right _ hwritten⟩ hne
  · -- one that the store wrote is that of a pending attribute
    obtain ⟨old, hpending, hsame⟩ := List.mem_map.1 hwritten
    obtain ⟨v, hlookup, -, hvalue⟩ := hasValue_of_pending created hsound hknown hpending
    exact ⟨(old.1, old.2.markStored v), (mem_loaded_settle hsound hknown _).2
      (Or.inr ⟨old, hpending, v, rfl, hlookup, hvalue⟩), hsame, rfl⟩

/-- **A store keeps up**: what it wrote continues in the attributes that storage has, and all else is as
it was. -/
theorem Tracks.store (hsound : db.Sound) (ht : h.Tracks db) (hwritable : h.IsWritable db) :
    (h.settle (h.writtenId db) created (h.writtenValues db)).Tracks (h.writtenTo created db) := by
  have href : (h.settle (h.writtenId db) created (h.writtenValues db)).ref? =
      some (h.writtenUnit db) := ref?_settle h _ created _
  refine ⟨?known, ?stored, fun _ => rfl, ?entries, ?complete⟩
  case known =>
    rw [loaded_settle]
    exact (ht.known.markWritten _).extend attributes_prefix_writtenTo
  case stored =>
    intro unit hunit
    rw [href] at hunit
    cases hunit
    rw [hasUnit_writtenTo]
    cases hid : h.id with
    | none => rfl
    | some id => exact ht.stored _ (ref?_of_id hid)
  case entries =>
    intro entry hmem _
    obtain ⟨was, hwas, hof⟩ := ht.exists_continues_settle hsound hwritable hmem
    exact ⟨List.not_mem_nil, h.writtenUnit db, was, href, hwas, hof⟩
  case complete =>
    intro hloaded unit hunit m hm hmunit
    rw [href] at hunit
    cases hunit
    have hattributes : h.attributes ≠ none := by
      intro hnone
      apply hloaded
      unfold settle
      rw [hnone]
      rfl
    exact Or.inr (ht.exists_of_mem_writtenTo hsound hattributes hm hmunit)

end Handle

end MetadataStore
