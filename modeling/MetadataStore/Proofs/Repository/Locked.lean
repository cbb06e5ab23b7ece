import MetadataStore.Proofs.Handle.Current
import MetadataStore.Proofs.Repository.Standing

/-!
# `Proofs.Repository.Locked` — what a lock keeps of its unit

Storing a unit, disposing of it and taking another lock each look for locks first, every one in its own
way. Nothing else writes to the row of a stored unit but a change of its status, nothing else to its
values but what writes them past the unit. So a unit that is locked keeps its lock, its row but for the
status, and its values, move by move, as long as nobody gives the lock up.

## Contents
- `Database.SameValues`, the values of one unit, with one lemma for each kind of write to another.
- `Database.Frozen`, what a lock keeps.
- `Move.keepsLocks`, `Move.frozen`, `Move.sameValues`: one move.
- `Repository.lock_eq_ok`, and `lock_of_locked`: asking for a lock.
- `Handle.lockedFault`, `Handle.store_of_locked`, `inactivate_of_isLocked`: what a locked unit refuses.
-/

namespace MetadataStore

namespace Database

variable {db mid db' : Database} {unit other : UnitRef}

/-! ## The values of one unit -/

/-- The values of a unit are the same in both. -/
structure SameValues (db db' : Database) (unit : UnitRef) : Prop where
  mappings : db'.mappingsOf unit = db.mappingsOf unit
  elements : ∀ m ∈ db.mappingsOf unit, db'.rowsUnder m.valueId = db.rowsUnder m.valueId

theorem SameValues.of_eq (hmappings : db'.mappings = db.mappings) (helements : db'.elements = db.elements) :
    db.SameValues db' unit where
  mappings := by
    unfold mappingsOf
    rw [hmappings]
  elements := by
    intro m _
    unfold rowsUnder
    rw [helements]

theorem SameValues.trans (h : db.SameValues mid unit) (h' : mid.SameValues db' unit) :
    db.SameValues db' unit where
  mappings := h'.mappings.trans h.mappings
  elements := fun m hm => (h'.elements m (h.mappings.symm ▸ hm)).trans (h.elements m hm)

theorem SameUnit.sameValues (h : db.SameUnit db' unit) : db.SameValues db' unit :=
  ⟨h.mappings, h.elements⟩

theorem Numbered.sameValues_dropValue (h : db.Numbered) (attributeId : Int) (hne : unit ≠ other) :
    db.SameValues (db.dropValue other attributeId) unit where
  mappings := by
    unfold mappingsOf Database.dropValue
    rw [List.filter_filter]
    refine List.filter_congr fun m _ => ?_
    by_cases hunit : m.unit = unit
    · simp [hunit, hne]
    · simp [hunit]
  elements := by
    intro m hm
    obtain ⟨hmem, hunit⟩ := List.mem_filter.1 hm
    refine rowsUnder_dropValue fun n hn hother _ hvalue => hne ?_
    rw [← hother, h.eq_of_valueId hn hmem hvalue, beq_iff_eq.1 hunit]

theorem Numbered.sameValues_putValue (h : db.Numbered) (attributeId : Int) (kind : Kind)
    (ds : List Datum) (hne : unit ≠ other) :
    db.SameValues (db.putValue other attributeId kind ds) unit := by
  refine (h.sameValues_dropValue attributeId hne).trans ⟨?_, fun m hm => rowsUnder_putValue ?_⟩
  · unfold mappingsOf Database.putValue
    rw [List.filter_append, List.filter_cons_of_neg (by simpa using hne.symm), List.filter_nil,
      List.append_nil]
  · -- the rows that are put are under a number that was not given out yet
    have hissued := h.valuesIssued m (mem_mappings_dropValue.1 (List.mem_filter.1 hm).1).1
    omega

theorem Numbered.sameValues_dropValues (h : db.Numbered) (ids : List Int) (hne : unit ≠ other) :
    db.SameValues (db.dropValues other ids) unit := by
  induction ids generalizing db with
  | nil => exact .of_eq rfl rfl
  | cons id ids ih => exact (h.sameValues_dropValue id hne).trans (ih (h.dropValue other id))

theorem Numbered.sameValues_putValues (h : db.Numbered) (entries : AttributeMap) (hne : unit ≠ other) :
    db.SameValues (db.putValues other entries) unit := by
  induction entries generalizing db with
  | nil => exact .of_eq rfl rfl
  | cons entry rest ih =>
    exact (h.sameValues_putValue _ _ _ hne).trans (ih (h.putValue other entry.2.id entry.2.kind _))

theorem Numbered.sameUnit_withoutUnit (h : db.Numbered) (hne : unit ≠ other) :
    db.SameUnit (db.withoutUnit other) unit := by
  rw [← without_nil (db.withoutUnit other), without_withoutUnit]
  exact h.sameUnit_without (by simpa using hne)

/-- Work on locks and links leaves values alone. -/
theorem SameButLinks.sameValues (h : db.SameButLinks db') : db.SameValues db' unit := by
  rw [h]
  exact .of_eq rfl rfl

/-! ## Locks of one unit -/

theorem isLocked_iff : db.isLocked unit = true ↔ db.locksOf unit ≠ [] := by
  rw [← Bool.not_eq_false, ne_eq, not_iff_not]
  unfold isLocked locksOf
  rw [List.any_eq_false, ← List.filter_eq_nil_iff, ← List.length_eq_zero_iff,
    ← List.length_eq_zero_iff, List.length_mergeSort]

theorem isLocked_of_locksOf {row : LockRow} (hlocks : db.locksOf unit = [row]) :
    db.isLocked unit = true :=
  isLocked_iff.2 (hlocks ▸ List.cons_ne_nil row [])

theorem ne_of_isLocked (hlocked : db.isLocked unit = true) (hfree : db.isLocked other = false) :
    unit ≠ other := by
  rintro rfl
  rw [hlocked] at hfree
  cases hfree

theorem locksOf_withLock_of_ne {row : LockRow} (hne : row.unit ≠ unit) :
    (db.withLock row).locksOf unit = db.locksOf unit := by
  unfold locksOf withLock
  rw [List.filter_append, List.filter_cons_of_neg (by simpa using hne), List.filter_nil,
    List.append_nil]

/-- A lock that is put on a unit without locks is its only one. -/
theorem locksOf_withLock_of_free {row : LockRow} (hfree : db.isLocked row.unit = false) :
    (db.withLock row).locksOf row.unit = [row] := by
  unfold isLocked at hfree
  rw [List.any_eq_false, ← List.filter_eq_nil_iff] at hfree
  have hown : [row].filter (fun other => other.unit == row.unit) = [row] := by simp
  unfold locksOf withLock
  rw [List.filter_append, hfree, hown, List.nil_append, List.mergeSort_singleton]

theorem locksOf_filter_of_ne {db' : Database}
    (hlocks : db'.locks = db.locks.filter fun row => row.unit != other) (hne : unit ≠ other) :
    db'.locksOf unit = db.locksOf unit := by
  unfold locksOf
  rw [hlocks, List.filter_filter]
  refine congrArg (fun rows => List.mergeSort rows _) (List.filter_congr fun row _ => ?_)
  by_cases hrow : row.unit = unit
  · simp [hrow, hne]
  · simp [hrow]

/-! ## What a lock keeps -/

/-- A unit has the locks that it had in `base`, and its row but for the status. -/
structure Frozen (base db : Database) (unit : UnitRef) : Prop where
  locks : db.locksOf unit = base.locksOf unit
  row : ∀ old, base.unit? unit = some old → ∃ status, db.unit? unit = some { old with status }

theorem Frozen.refl (db : Database) (unit : UnitRef) : db.Frozen db unit :=
  ⟨rfl, fun old hold => ⟨old.status, hold⟩⟩

theorem Frozen.trans (h : db.Frozen mid unit) (h' : mid.Frozen db' unit) : db.Frozen db' unit where
  locks := h'.locks.trans h.locks
  row := by
    intro old hold
    obtain ⟨status, hmid⟩ := h.row old hold
    obtain ⟨status', hnew⟩ := h'.row _ hmid
    exact ⟨status', hnew⟩

theorem Frozen.isLocked (h : db.Frozen db' unit) (hlocked : db.isLocked unit = true) :
    db'.isLocked unit = true := by
  rw [isLocked_iff] at hlocked ⊢
  rwa [h.locks]

end Database

namespace Handle

variable {r : Repository} {h : Handle} {created : DateTime} {db : Database} {unit : UnitRef}

/-- A store leaves the values of other units alone. -/
theorem sameValues_writtenTo (hnumbered : db.Numbered) (hne : unit ≠ h.writtenUnit db) :
    db.SameValues (h.writtenTo created db) unit := by
  have hrow : db.SameValues (h.withRow created db) unit :=
    .of_eq (mappings_withRow h created db) (elements_withRow h created db)
  have hnumbered : (h.withRow created db).Numbered := numbered_withRow hnumbered
  exact (hrow.trans (hnumbered.sameValues_dropValues h.detached hne)).trans
    ((hnumbered.dropValues _ _).sameValues_putValues h.pending hne)

/-- What is unlocked and may be stored is none of the units that are locked. -/
theorem Unlocked.ne_writtenUnit (hunlocked : h.Unlocked r) (hlocked : r.database.isLocked unit = true)
    (hissued : unit.id ≤ r.database.lastUnit) : unit ≠ h.writtenUnit r.database := by
  rintro rfl
  cases hid : h.id with
  | none =>
    rw [writtenUnit_of_new hid] at hissued
    simp only at hissued
    omega
  | some id =>
    have hfree := (hunlocked (h.writtenUnit r.database) (ref?_of_id hid)).2
    rw [hlocked] at hfree
    cases hfree

/-- Why a locked unit is refused: that it is locked, unless others keep its locks from being read. -/
def lockedFault (r : Repository) (unit : UnitRef) : Fault :=
  if r.contention.allowsReading then .unitLocked unit else .read .locked

theorem lockedFault_of_readable (hread : r.contention.allowsReading = true) :
    lockedFault r unit = .unitLocked unit := by
  rw [lockedFault, if_pos hread]

theorem expectUnlocked_of_locked (href : h.ref? = some unit) (hlocked : r.database.isLocked unit = true) :
    Action.onFirst (expectUnlocked h.ref?) (r, h) = (.error (lockedFault r unit), (r, h)) := by
  refine Action.onFirst_eq_error.2 ⟨r, ?_, rfl⟩
  rw [href]
  simp only [expectUnlocked, Repository.isLocked, Action.bind_apply, Repository.read_apply, lockedFault]
  cases r.contention.allowsReading with
  | true => simp [hlocked]
  | false => rfl

/-- **A locked unit is not stored**, through any handle of it: database, cache and handle stay as they
are. -/
theorem store_of_locked (href : h.ref? = some unit) (hlocked : r.database.isLocked unit = true) :
    store (r, h) = (.error (lockedFault r unit), (r, h)) := by
  unfold store
  rw [Action.bind_of_ok (held_apply (r, h)),
    Action.bind_of_error (expectUnlocked_of_locked href hlocked)]

/-- Nor is it inactivated by the request that looks for locks. -/
theorem inactivate_of_isLocked (href : h.ref? = some unit) (hlocked : r.database.isLocked unit = true) :
    inactivate (r, h) = (.error (lockedFault r unit), (r, h)) := by
  unfold inactivate
  rw [Action.bind_of_ok (held_apply (r, h)),
    Action.bind_of_error (expectUnlocked_of_locked href hlocked)]

end Handle

namespace Repository

variable {terms : Terms} {r r' : Repository} {unit : UnitRef}

/-! ## One move -/

/-- **A locked unit keeps its locks** unless they are given up. -/
theorem Move.keepsLocks (hmove : Move terms r r') (hnumbered : r.database.Numbered)
    (hlocked : r.database.isLocked unit = true) (hheld : ¬terms.unlocks unit) :
    r'.database.locksOf unit = r.database.locksOf unit := by
  cases hmove with
  | forget _ => rfl
  | learn _ => rfl
  | count _ => rfl
  | load _ _ => rfl
  | bring _ => rfl
  | define hinsert =>
    unfold Database.locksOf
    rw [(Database.insertAttribute_leaves hinsert).2.locks]
  | store _ _ hwrite _ =>
    obtain ⟨-, -, -, -, rfl⟩ := (Handle.write_eq_ok hnumbered.elementsIssued).1 hwrite
    unfold Database.locksOf
    rw [Handle.sameLinks_writtenTo.locks]
  | storeAttribute hstore _ =>
    rcases Attribute.store_cases hnumbered.elementsIssued hstore with ⟨-, rfl⟩ | ⟨-, -, -, -, rfl⟩
    · rfl
    · rfl
  | storeValue hstore _ =>
    obtain ⟨rows, rfl, -⟩ := Value.store_appends hstore
    rfl
  | transit _ _ _ => rfl
  | lock hlock =>
    -- a lock that is taken is on a unit that has none
    obtain ⟨-, ⟨-, -, rfl⟩ | ⟨hfree, -, -, -, rfl⟩⟩ := Database.takeLock_eq_ok.1 hlock
    · rfl
    · exact Database.locksOf_withLock_of_ne (Database.ne_of_isLocked hlocked hfree).symm
  | unlock hunlock hterms =>
    cases hunlock
    exact Database.locksOf_filter_of_ne rfl fun hsame => hheld (hsame ▸ hterms)
  | relate _ hrelate => rcases Database.putRelation_cases hrelate with rfl | ⟨-, -, rfl⟩ <;> rfl
  | unrelate hunrelate =>
    cases hunrelate
    rfl
  | associate _ hassociate => rcases Database.putAssociation_cases hassociate with rfl | ⟨-, rfl⟩ <;> rfl
  | dissociate hdissociate =>
    cases hdissociate
    rfl
  | dispose hfree =>
    exact (hnumbered.sameUnit_withoutUnit (Database.ne_of_isLocked hlocked hfree)).locks

section

variable (hmove : Move terms r r') (hnumbered : r.database.Numbered)
  (hlocked : r.database.isLocked unit = true)
include hmove hnumbered hlocked

/-- **A locked unit is frozen** unless its locks are given up. -/
theorem Move.frozen (hheld : ¬terms.unlocks unit) : r.database.Frozen r'.database unit where
  locks := hmove.keepsLocks hnumbered hlocked hheld
  row := by
    intro old hold
    have hissued := hnumbered.issued_of_unit? hold
    rcases hmove.units_cases hnumbered with
      hsame | ⟨h, created, hunlocked, -, hdb⟩ | ⟨other, requested, -, -, hdb⟩ | ⟨other, hfree, rfl⟩
    · refine ⟨old.status, ?_⟩
      unfold Database.unit? at hold ⊢
      rwa [hsame.units]
    · refine ⟨old.status, ?_⟩
      rwa [hdb, Handle.unit?_writtenTo_of_ne (hunlocked.ne_writtenUnit hlocked hissued)]
    · rw [hdb, Database.unit?_withStatus, hold, Option.map_some]
      split
      · exact ⟨requested.code, rfl⟩
      · exact ⟨old.status, rfl⟩
    · refine ⟨old.status, ?_⟩
      rwa [(hnumbered.sameUnit_withoutUnit (Database.ne_of_isLocked hlocked hfree)).row]

/-- **A locked unit keeps its values** unless they are written past it. -/
theorem Move.sameValues (hissued : unit.id ≤ r.database.lastUnit) (hpatches : ¬terms.patches) :
    r.database.SameValues r'.database unit := by
  cases hmove with
  | forget _ => exact .of_eq rfl rfl
  | learn _ => exact .of_eq rfl rfl
  | count _ => exact .of_eq rfl rfl
  | load _ _ => exact .of_eq rfl rfl
  | bring _ => exact .of_eq rfl rfl
  | define hinsert =>
    unfold Database.insertAttribute at hinsert
    split at hinsert
    · cases hinsert
    · cases hinsert
      exact .of_eq rfl rfl
  | store hunlocked _ hwrite _ =>
    obtain ⟨-, -, -, -, rfl⟩ := (Handle.write_eq_ok hnumbered.elementsIssued).1 hwrite
    exact Handle.sameValues_writtenTo hnumbered (hunlocked.ne_writtenUnit hlocked hissued)
  | storeAttribute _ hterms => exact absurd hterms hpatches
  | storeValue _ hterms => exact absurd hterms hpatches
  | transit _ _ _ => exact .of_eq rfl rfl
  | lock hlock => exact (onlyLinks_takeLock _ _ _ _ _ _ _ _ hlock).sameValues
  | unlock hunlock _ =>
    cases hunlock
    exact .of_eq rfl rfl
  | relate _ hrelate => exact (onlyLinks_putRelation _ _ _ _ _ _ _ hrelate).sameValues
  | unrelate hunrelate =>
    cases hunrelate
    exact .of_eq rfl rfl
  | associate _ hassociate => exact (onlyLinks_putAssociation _ _ _ _ _ _ _ hassociate).sameValues
  | dissociate hdissociate =>
    cases hdissociate
    exact .of_eq rfl rfl
  | dispose hfree =>
    exact (hnumbered.sameUnit_withoutUnit (Database.ne_of_isLocked hlocked hfree)).sameValues

end

/-! ## Asking for a lock -/

variable {kind : LockKind} {purpose : String}

/-- **A lock that is asked for** is taken exactly if the unit is stored and has none; if it has one, nothing
changes. -/
theorem lock_eq_ok {taken : Bool} :
    lock unit kind purpose r = (.ok taken, r') ↔
      r.contention.allowsReading = true ∧
        ((r.database.isLocked unit = true ∧ taken = false ∧ r' = r) ∨
          (r.database.isLocked unit = false ∧ r.contention.allowsWriting = true ∧
            r.database.hasUnit unit = true ∧ taken = true ∧
            r' = { r with
              database := r.database.withLock ⟨unit, purpose, kind.code, r.now.text, none⟩ })) := by
  have hlock : lock unit kind purpose r = write (takeLock unit kind purpose r.now) r := rfl
  simp only [hlock, write_eq_ok, Database.takeLock_eq_ok]
  constructor
  · rintro ⟨database, ⟨hread, ⟨hlocked, htaken, rfl⟩ | ⟨hfree, hwrite, hunit, htaken, rfl⟩⟩, rfl⟩
    · exact ⟨hread, Or.inl ⟨hlocked, htaken, rfl⟩⟩
    · exact ⟨hread, Or.inr ⟨hfree, hwrite, hunit, htaken, rfl⟩⟩
  · rintro ⟨hread, ⟨hlocked, htaken, rfl⟩ | ⟨hfree, hwrite, hunit, htaken, rfl⟩⟩
    · exact ⟨_, ⟨hread, Or.inl ⟨hlocked, htaken, rfl⟩⟩, rfl⟩
    · exact ⟨_, ⟨hread, Or.inr ⟨hfree, hwrite, hunit, htaken, rfl⟩⟩, rfl⟩

/-- A unit that is locked is not locked again. -/
theorem lock_of_locked (hlocked : r.database.isLocked unit = true) :
    lock unit kind purpose r =
      (if r.contention.allowsReading then .ok false else .error (.write .locked), r) := by
  cases hread : r.contention.allowsReading with
  | true => exact lock_eq_ok.2 ⟨hread, Or.inl ⟨hlocked, rfl, rfl⟩⟩
  | false =>
    have hrefused : takeLock unit kind purpose r.now r.contention r.database =
        .error (.write .locked) := by
      unfold takeLock
      rw [Transaction.bind_apply]
      unfold Transaction.query
      rw [hread]
      rfl
    exact write_eq_error.2 ⟨hrefused, rfl⟩

end Repository

end MetadataStore
