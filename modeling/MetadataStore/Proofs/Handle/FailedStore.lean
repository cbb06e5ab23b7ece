import MetadataStore.Proofs.Handle.Settled

/-!
# `Proofs.Handle.FailedStore` — what a failed store leaves, and what a later one does

A store that fails leaves database, cache and handle alone, whatever it had written inside its
transaction before the fault. So everything that was pending is pending still; and as soon as nothing
stands against it any more, a store goes through and writes all of it.

## Contents
- `Handle.Storable`: nothing stands against a store.
- `Handle.WrittenIn`: everything pending was written, and nothing is pending any more.
- `store_of_storable`: a store against which nothing stands.
- `store_error_changes_nothing`: a store that fails, and the later one.
-/

namespace MetadataStore.Handle

/-- Nothing stands against storing the unit: no one else is writing; the unit is stored and unlocked, or
new with a correlation id of its own; and every pending attribute can be written. -/
structure Storable (h : Handle) (r : Repository) : Prop where
  contention : r.contention.allowsWriting = true
  sound : r.database.Sound
  known : AttributeMap.Known r.database h.loaded
  stored : ∀ unit, h.ref? = some unit → r.database.hasUnit unit = true
  unlocked : ∀ unit, h.ref? = some unit → r.database.isLocked unit = false
  correlation : h.id = none → ∀ row ∈ r.database.units, row.correlation ≠ h.correlation
  attributes : ∀ entry ∈ h.pending, entry.2.IsWritable

/-- Everything that was pending on a handle was written, and nothing is pending on the handle after. -/
structure WrittenIn (h : Handle) (before after : Database) (settled : Handle) : Prop where
  /-- The unit has a row, of the handle's name if it is new or was renamed. -/
  row : ∃ row ∈ after.units, settled.ref? = some row.unit ∧ row.unit = h.writtenUnit before ∧
    (h.id = none ∨ h.renamed = true → row.name = h.name)
  /-- Each attribute that was new or changed has a value under a new number with its elements. -/
  pending : ∀ entry ∈ h.pending, ∃ v, before.lastValue < v ∧
    after.HasValue (h.writtenUnit before) entry.2.id v entry.2.kind entry.2.value.elements ∧
    AttributeMap.get? settled.loaded entry.1 = some (entry.2.markStored v)
  /-- What was taken off and not attached again has no value. -/
  detached : ∀ id ∈ h.detached, id ∉ h.pending.map (·.2.id) →
    ∀ m ∈ after.mappings, ¬(m.unit = h.writtenUnit before ∧ m.attributeId = id)
  nothingPending : settled.pending = [] ∧ settled.detached = [] ∧ settled.renamed = false

variable {r r' : Repository} {h h' : Handle} {created : DateTime} {db : Database}

theorem ref?_eq_some_iff {unit : UnitRef} :
    h.ref? = some unit ↔ ∃ id, h.id = some id ∧ unit = ⟨h.tenant, id⟩ := by
  rw [ref?, Option.map_eq_some_iff]
  exact exists_congr fun id => and_congr_right fun _ => eq_comm

theorem Storable.isWritable (hstorable : h.Storable r) : h.IsWritable r.database where
  correlation := hstorable.correlation
  stored := fun _ id hid => hstorable.stored _ (ref?_eq_some_iff.2 ⟨id, hid, rfl⟩)
  attributes := fun entry hmem =>
    ⟨hstorable.attributes entry hmem,
      ((known_pending hstorable.known).catalogued entry hmem).isSome⟩

/-- The row of the unit is there when it was there, or the unit is new. -/
theorem exists_row_withRow (created : DateTime)
    (hstored : ∀ unit, h.ref? = some unit → db.hasUnit unit = true) :
    ∃ row ∈ (h.withRow created db).units, row.unit = h.writtenUnit db ∧
      (h.id = none ∨ h.renamed = true → row.name = h.name) := by
  unfold withRow writtenUnit writtenId
  cases hid : h.id with
  | none => exact ⟨_, List.mem_append_right _ List.mem_cons_self, rfl, fun _ => rfl⟩
  | some id =>
    obtain ⟨row, hmem, hunit⟩ :=
      Database.hasUnit_iff.1 (hstored _ (ref?_eq_some_iff.2 ⟨id, hid, rfl⟩))
    cases hrenamed : h.renamed with
    | true =>
      refine ⟨_, List.mem_map_of_mem hmem, ?_⟩
      rw [if_pos (show (row.unit == ⟨h.tenant, id⟩) = true by simpa using hunit)]
      exact ⟨hunit, fun _ => rfl⟩
    | false => exact ⟨row, hmem, hunit, by simp⟩

/-- **A store against which nothing stands** goes through and writes everything that is pending. -/
theorem store_of_storable (hstorable : h.Storable r) :
    ∃ r' h', store (r, h) = (.ok (), (r', h')) ∧ h.WrittenIn r.database r'.database h' := by
  have hwritable := hstorable.isWritable
  obtain ⟨hcontention, hsound, hknown, hstored, hunlocked, -, -⟩ := hstorable
  have hreading := Contention.allowsReading_of_allowsWriting hcontention
  have hwrite : h.write (h.creationTime r) r.contention r.database =
      .ok ((h.writtenId r.database, h.writtenValues r.database),
        h.writtenTo (h.creationTime r) r.database) :=
    (write_eq_ok hsound.issued).2 ⟨fun _ => hcontention, hwritable, rfl, rfl, rfl⟩
  refine ⟨_, _, store_eq_ok.2 ⟨fun unit href => ⟨hreading, hunlocked unit href⟩, _, _, _, hwrite, rfl,
    rfl⟩, ?_⟩
  refine ⟨?row, ?pending, ?detached, pending_settle, rfl, rfl⟩
  case row =>
    obtain ⟨row, hmem, hunit, hname⟩ := exists_row_withRow (h.creationTime r) hstored
    refine ⟨row, ?_, ?_, hunit, hname⟩
    · show row ∈ (h.writtenTo (h.creationTime r) r.database).units
      rwa [units_writtenTo]
    · rw [hunit]
      rfl
  case pending =>
    intro entry hmem
    obtain ⟨v, hlookup, hlt, hvalue⟩ := hasValue_of_pending (h.creationTime r) hsound hknown hmem
    refine ⟨v, hlt, hvalue, ?_⟩
    rw [get?_settle hknown.keysDistinct (List.mem_filter.1 hmem).1, hlookup]
    rfl
  case detached => exact fun id hid hnot m hm => not_mapped_of_detached hid hnot hm

/-- **A failed store changes nothing**, neither database nor cache nor handle, whatever it fails for and
in whatever order the attributes come. What was pending on the handle is pending still: once nothing
stands against it, with the cause removed from the repository or corrected on the handle, a later store
goes through and writes all of it. -/
theorem store_error_changes_nothing {fault : Fault} {s' : Repository × Handle}
    (hfail : store (r, h) = (.error fault, s')) :
    s' = (r, h) ∧ ¬ h.Storable r ∧
      (∀ later : Repository, h.Storable later →
        ∃ r' h', store (later, s'.2) = (.ok (), (r', h')) ∧
          h.WrittenIn later.database r'.database h') ∧
      (∀ (later : Repository) (corrected : Handle), corrected.Storable later →
        ∃ r' h', store (later, corrected) = (.ok (), (r', h')) ∧
          corrected.WrittenIn later.database r'.database h' ∧
          ∀ entry ∈ h.pending, entry ∈ corrected.loaded → ∃ v,
            r'.database.HasValue (corrected.writtenUnit later.database) entry.2.id v entry.2.kind
              entry.2.value.elements) := by
  obtain rfl := store_eq_error hfail
  refine ⟨rfl, ?_, fun later hstorable => store_of_storable hstorable, ?_⟩
  · -- it would have gone through
    intro hstorable
    obtain ⟨r', h', hok, -⟩ := store_of_storable hstorable
    rw [hok] at hfail
    cases hfail
  · intro later corrected hstorable
    obtain ⟨r', h', hok, hwritten⟩ := store_of_storable hstorable
    refine ⟨r', h', hok, hwritten, fun entry hmem hkept => ?_⟩
    obtain ⟨v, -, hvalue, -⟩ := hwritten.pending entry
      (List.mem_filter.2 ⟨hkept, (List.mem_filter.1 hmem).2⟩)
    exact ⟨v, hvalue⟩

/-! ## A sample -/

/-- A stored unit, an attribute of texts, and one of at most one integer. -/
def sampleDatabase : Database :=
  { Database.empty with
    attributes := [⟨1, "note", 1, false⟩, ⟨2, "size", 3, true⟩]
    lastAttribute := 2
    units := [⟨⟨1, 1⟩, "first", some "before", 30, "2024-05-01 08:00:00.000"⟩]
    lastUnit := 1 }

theorem sound_sampleDatabase : sampleDatabase.Sound := by
  have hnote := (Database.Sound.blank .nearest).insertAttribute ⟨1, "note", 1, false⟩ rfl ⟨.string, rfl⟩
    fun _ h => by cases h
  have hsize := hnote.insertAttribute ⟨2, "size", 3, true⟩ rfl ⟨.integer, rfl⟩ (by decide +kernel)
  exact hsize.insertUnit ⟨⟨1, 1⟩, "first", some "before", 30, "2024-05-01 08:00:00.000"⟩ rfl

def sampleRepository : Repository :=
  .open .inMemory sampleDatabase .epoch 0

/-- The unit renamed, with a note that can be written, and with sizes. -/
def sampleHandle (sizes : List Int32) : Handle :=
  { tenant := 1
    id := some 1
    correlation := "first"
    name := some "after"
    status := .effective
    created := some .epoch
    attributes := some
      [("note", ⟨1, "note", false, none, .ofElements .string [.string "kept"] true (by simp [Datum.kind])⟩),
        ("size", ⟨2, "size", true, none, .ofElements .integer (sizes.map .integer) true (by
          intro datum h
          obtain ⟨size, -, rfl⟩ := List.mem_map.1 h
          rfl)⟩)]
    detached := []
    renamed := true }

theorem storable_sampleHandle : (sampleHandle [1]).Storable sampleRepository where
  contention := rfl
  sound := sound_sampleDatabase
  known :=
    { keysDistinct := by decide
      keyed := by
        intro entry hmem
        rcases List.mem_pair.1 hmem with rfl | rfl
        · decide +kernel
        · decide +kernel
      catalogued := by
        intro entry hmem
        rcases List.mem_pair.1 hmem with rfl | rfl
        · exact ⟨_, rfl, rfl, rfl, rfl⟩
        · exact ⟨_, rfl, rfl, rfl, rfl⟩ }
  stored := by
    rintro unit href
    cases href
    rfl
  unlocked := fun _ _ => rfl
  correlation := fun hnew => by cases hnew
  attributes := by
    intro entry hmem
    rcases List.mem_pair.1 (List.mem_filter.1 hmem).1 with rfl | rfl
    · exact ⟨rfl, rfl, by decide⟩
    · exact ⟨rfl, rfl, by decide⟩

/-- With two sizes the store fails after the name and the note were written, and nothing is left of
them. With one size it writes all three. -/
theorem store_two_sizes_changes_nothing :
    store (sampleRepository, sampleHandle [1, 2]) =
        (.error (.notScalar "size" 2), (sampleRepository, sampleHandle [1, 2])) ∧
      ∃ r' h', store (sampleRepository, sampleHandle [1]) = (.ok (), (r', h')) ∧
        (sampleHandle [1]).WrittenIn sampleDatabase r'.database h' := by
  have hfail : store (sampleRepository, sampleHandle [1, 2]) =
      (.error (.notScalar "size" 2), (sampleRepository, sampleHandle [1, 2])) := rfl
  obtain ⟨-, -, -, hlater⟩ := store_error_changes_nothing hfail
  obtain ⟨r', h', hok, hwritten, -⟩ := hlater _ _ storable_sampleHandle
  exact ⟨hfail, r', h', hok, hwritten⟩

end MetadataStore.Handle
