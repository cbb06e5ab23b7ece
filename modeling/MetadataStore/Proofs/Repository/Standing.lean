import MetadataStore.Proofs.Database.Linked
import MetadataStore.Proofs.Repository.Moves

/-!
# `Proofs.Repository.Standing` — what every move keeps of the database

Whatever moves a repository makes, and whoever answers for the copies in its cache, its units and values
keep numbers of their own, and its locks and links stand on stored units. A unit that is stored stays
stored until it is disposed of, and then never is again.

## Contents
- `Database.SameRows`: the rows of units are as they were.
- `Move.numbered`; `Move.units_cases`, what a move can do to the rows of units, and from it
  `Move.idsDistinct`, `Move.hasUnit_or_dispose`, `Move.hasUnit_of_issued` and `Move.linked`.
-/

namespace MetadataStore

namespace LinkKind

variable {kind : LinkKind}

theorem isRelational_of_expectRelation (h : kind.expectRelation = .ok ()) :
    kind.isRelational = true := by
  unfold expectRelation at h
  split at h
  · assumption
  · cases h

theorem isRelational_of_expectAssociation (h : kind.expectAssociation = .ok ()) :
    kind.isRelational = false := by
  unfold expectAssociation at h
  split at h
  · cases h
  · rename_i hmeant
    simp only [Bool.or_eq_true, not_or, Bool.not_eq_true] at hmeant
    exact hmeant.2

end LinkKind

namespace Database

variable {db : Database} {unit : UnitRef}

theorem Numbered.withStatus (h : db.Numbered) (unit : UnitRef) (status : Status) :
    (db.withStatus unit status).Numbered :=
  h.updateUnits fun row _ => by split <;> rfl

theorem hasUnit_withStatus (other : UnitRef) (status : Status) :
    (db.withStatus unit status).hasUnit other = db.hasUnit other := by
  rw [hasUnit_eq_isSome_unit?, unit?_withStatus, Option.isSome_map, hasUnit_eq_isSome_unit?]

theorem Numbered.insertAttribute (h : db.Numbered) {name : String} {kindCode : Int} {scalar : Bool}
    {id : Int} {db' : Database} (hinsert : insertAttribute name kindCode scalar db = .ok (id, db')) :
    db'.Numbered := by
  unfold Database.insertAttribute at hinsert
  split at hinsert
  · cases hinsert
  · cases hinsert
    exact { h with }

/-- The rows of units are as they were, and so is the last number that was given out. -/
structure SameRows (db db' : Database) : Prop where
  units : db'.units = db.units
  lastUnit : db'.lastUnit = db.lastUnit

/-- A definition that is added bears on nothing else. -/
theorem insertAttribute_leaves {name : String} {kindCode : Int} {scalar : Bool} {id : Int}
    {db' : Database} (hinsert : insertAttribute name kindCode scalar db = .ok (id, db')) :
    db.SameRows db' ∧ db.SameLinks db' := by
  unfold Database.insertAttribute at hinsert
  split at hinsert
  · cases hinsert
  · cases hinsert
    exact ⟨⟨rfl, rfl⟩, rfl, rfl, rfl⟩

theorem SameRows.hasUnit {db' : Database} (h : db.SameRows db') (unit : UnitRef) :
    db'.hasUnit unit = db.hasUnit unit := by
  unfold Database.hasUnit
  rw [h.units]

/-- Locks and links are none of the units. -/
theorem SameButLinks.sameRows {db' : Database} (h : db.SameButLinks db') : db.SameRows db' := by
  rw [h]
  exact ⟨rfl, rfl⟩

end Database

namespace Handle

variable {h : Handle} {created : DateTime} {db : Database} {unit : UnitRef}

theorem lastUnit_writtenTo : (h.writtenTo created db).lastUnit = (h.withRow created db).lastUnit :=
  ((Database.sameButValues_dropValues _ _ _).trans (Database.sameButValues_putValues _ _ _)).lastUnit

theorem lastAttribute_withRow : (h.withRow created db).lastAttribute = db.lastAttribute := by
  unfold withRow
  split
  · split <;> rfl
  · rfl

theorem lastAttribute_writtenTo : (h.writtenTo created db).lastAttribute = db.lastAttribute :=
  ((Database.sameButValues_dropValues _ _ _).trans
    (Database.sameButValues_putValues _ _ _)).lastAttribute.trans lastAttribute_withRow

theorem lastUnit_le_writtenTo : db.lastUnit ≤ (h.writtenTo created db).lastUnit := by
  rw [lastUnit_writtenTo]
  unfold withRow
  split
  · split <;> exact Int.le_refl _
  · exact Int.le_add_one (Int.le_refl _)

/-- A store brings a row to its own unit at most. -/
theorem hasUnit_writtenTo_of_ne (hne : unit ≠ h.writtenUnit db) :
    (h.writtenTo created db).hasUnit unit = db.hasUnit unit := by
  rw [Database.hasUnit_eq_isSome_unit?, unit?_writtenTo_of_ne hne, ← Database.hasUnit_eq_isSome_unit?]

/-- A unit that is stored stays stored when another one is, or the same. -/
theorem hasUnit_writtenTo_of_hasUnit (hunit : db.hasUnit unit = true) :
    (h.writtenTo created db).hasUnit unit = true := by
  by_cases hsame : unit = h.writtenUnit db
  · subst hsame
    rw [hasUnit_writtenTo, hunit, Bool.or_true]
  · rw [hasUnit_writtenTo_of_ne hsame, hunit]

/-- No store brings back a unit whose number was given out. -/
theorem hasUnit_of_writtenTo (hissued : unit.id ≤ db.lastUnit)
    (hunit : (h.writtenTo created db).hasUnit unit = true) : db.hasUnit unit = true := by
  by_cases hsame : unit = h.writtenUnit db
  · subst hsame
    cases hid : h.id with
    | some id => rwa [hasUnit_writtenTo, hid, Option.isNone_some, Bool.false_or] at hunit
    | none =>
      -- a new unit gets the number after the last one
      rw [writtenUnit_of_new hid] at hissued
      simp only at hissued
      omega
  · rwa [hasUnit_writtenTo_of_ne hsame] at hunit

end Handle

namespace Repository

variable {terms : Terms} {r r' : Repository}

/-! ## One move -/

/-- **No move gives out a number twice.** -/
theorem Move.numbered (hmove : Move terms r r') (h : r.database.Numbered) : r'.database.Numbered := by
  cases hmove with
  | forget _ => exact h
  | learn _ => exact h
  | count _ => exact h
  | load _ _ => exact h
  | bring _ => exact h
  | define hinsert => exact h.insertAttribute hinsert
  | store _ _ hwrite _ =>
    obtain ⟨-, -, -, -, rfl⟩ := (Handle.write_eq_ok h.elementsIssued).1 hwrite
    exact Handle.numbered_writtenTo h
  | storeAttribute hstore =>
    rcases Attribute.store_cases h.elementsIssued hstore with ⟨-, rfl⟩ | ⟨-, -, -, -, rfl⟩
    · exact h
    · exact h.putValue _ _ _ _
  | storeValue hstore =>
    obtain ⟨rows, rfl, hrows⟩ := Value.store_appends hstore
    exact h.appendElements hrows
  | transit _ _ _ => exact h.withStatus _ _
  | lock hlock => exact (onlyLinks_takeLock _ _ _ _ _ _ _ _ hlock).numbered h
  | unlock hunlock =>
    cases hunlock
    exact { h with }
  | relate _ hrelate => exact (onlyLinks_putRelation _ _ _ _ _ _ _ hrelate).numbered h
  | unrelate hunrelate =>
    cases hunrelate
    exact { h with }
  | associate _ hassociate => exact (onlyLinks_putAssociation _ _ _ _ _ _ _ hassociate).numbered h
  | dissociate hdissociate =>
    cases hdissociate
    exact { h with }
  | dispose _ => exact h.withoutUnit _

/-- **What a move can do to the rows of units**: nothing, or it stores a unit that is not locked, gives one
a status that it may have, or takes one away for good that is not locked. -/
theorem Move.units_cases (hmove : Move terms r r') (hnumbered : r.database.Numbered) :
    r.database.SameRows r'.database ∨
      (∃ (h : Handle) (created : DateTime), h.Unlocked r ∧ terms.stores h ∧
        r'.database = h.writtenTo created r.database) ∨
      (∃ unit status, (∃ h : Handle, h.Transits r status unit) ∧ terms.transits unit status ∧
        r'.database = r.database.withStatus unit status) ∨
      ∃ unit, r.database.isLocked unit = false ∧
        r' = { r with database := r.database.withoutUnit unit, cache := r.cache.remove unit } := by
  cases hmove with
  | store hunlocked hstores hwrite _ =>
    obtain ⟨-, -, -, -, rfl⟩ := (Handle.write_eq_ok hnumbered.elementsIssued).1 hwrite
    exact Or.inr (Or.inl ⟨_, _, hunlocked, hstores, rfl⟩)
  | transit ht hterms _ => exact Or.inr (Or.inr (Or.inl ⟨_, _, ⟨_, ht⟩, hterms, rfl⟩))
  | dispose hunlocked => exact Or.inr (Or.inr (Or.inr ⟨_, hunlocked, rfl⟩))
  | forget _ => exact Or.inl ⟨rfl, rfl⟩
  | learn _ => exact Or.inl ⟨rfl, rfl⟩
  | count _ => exact Or.inl ⟨rfl, rfl⟩
  | load _ _ => exact Or.inl ⟨rfl, rfl⟩
  | bring _ => exact Or.inl ⟨rfl, rfl⟩
  | define hinsert => exact Or.inl (Database.insertAttribute_leaves hinsert).1
  | storeAttribute hstore =>
    rcases Attribute.store_cases hnumbered.elementsIssued hstore with ⟨-, rfl⟩ | ⟨-, -, -, -, rfl⟩
    · exact Or.inl ⟨rfl, rfl⟩
    · exact Or.inl ⟨rfl, rfl⟩
  | storeValue hstore =>
    obtain ⟨rows, rfl, -⟩ := Value.store_appends hstore
    exact Or.inl ⟨rfl, rfl⟩
  | lock hlock => exact Or.inl (onlyLinks_takeLock _ _ _ _ _ _ _ _ hlock).sameRows
  | unlock hunlock =>
    cases hunlock
    exact Or.inl ⟨rfl, rfl⟩
  | relate _ hrelate => exact Or.inl (onlyLinks_putRelation _ _ _ _ _ _ _ hrelate).sameRows
  | unrelate hunrelate =>
    cases hunrelate
    exact Or.inl ⟨rfl, rfl⟩
  | associate _ hassociate => exact Or.inl (onlyLinks_putAssociation _ _ _ _ _ _ _ hassociate).sameRows
  | dissociate hdissociate =>
    cases hdissociate
    exact Or.inl ⟨rfl, rfl⟩

/-- **The number of a unit stays the key of the table**, whatever the tenants. -/
theorem Move.idsDistinct (hmove : Move terms r r') (hnumbered : r.database.Numbered)
    (hids : r.database.IdsDistinct) : r'.database.IdsDistinct := by
  unfold Database.IdsDistinct
  rcases hmove.units_cases hnumbered with
    hsame | ⟨h, created, -, -, hdb⟩ | ⟨unit, status, -, -, hdb⟩ | ⟨unit, -, rfl⟩
  · rw [hsame.units]
    exact hids
  · rw [hdb, Handle.units_writtenTo]
    exact Handle.idsDistinct_withRow hids hnumbered
  · rw [hdb]
    refine hids.updateUnits fun row _ => ?_
    split <;> rfl
  · exact hids.sublist (List.filter_sublist.map _)

/-- **A stored unit stays stored**, except in a move that disposes of one. -/
theorem Move.hasUnit_or_dispose (hmove : Move terms r r') (hnumbered : r.database.Numbered) :
    (∀ unit, r.database.hasUnit unit = true → r'.database.hasUnit unit = true) ∨
      ∃ unit, r.database.isLocked unit = false ∧
        r' = { r with database := r.database.withoutUnit unit, cache := r.cache.remove unit } := by
  rcases hmove.units_cases hnumbered with
    hsame | ⟨h, created, -, -, hdb⟩ | ⟨unit, status, -, -, hdb⟩ | hdispose
  · exact Or.inl fun unit hunit => (hsame.hasUnit unit).trans hunit
  · exact Or.inl fun unit hunit => hdb ▸ Handle.hasUnit_writtenTo_of_hasUnit hunit
  · exact Or.inl fun other hunit => hdb ▸ (Database.hasUnit_withStatus other status).trans hunit
  · exact Or.inr hdispose

/-- **No move brings back a unit whose number was given out**, and numbers only go up. -/
theorem Move.hasUnit_of_issued (hmove : Move terms r r') (hnumbered : r.database.Numbered) :
    r.database.lastUnit ≤ r'.database.lastUnit ∧
      ∀ unit : UnitRef, unit.id ≤ r.database.lastUnit → r'.database.hasUnit unit = true →
        r.database.hasUnit unit = true := by
  rcases hmove.units_cases hnumbered with
    hsame | ⟨h, created, -, -, hdb⟩ | ⟨unit, status, -, -, hdb⟩ | ⟨unit, -, rfl⟩
  · exact ⟨Int.le_of_eq hsame.lastUnit.symm, fun unit _ hunit => (hsame.hasUnit unit).symm.trans hunit⟩
  · rw [hdb]
    exact ⟨Handle.lastUnit_le_writtenTo, fun _ => Handle.hasUnit_of_writtenTo⟩
  · rw [hdb]
    exact ⟨Int.le_refl _, fun other _ hunit => (Database.hasUnit_withStatus other status).symm.trans hunit⟩
  · exact ⟨Int.le_refl _, fun _ _ hunit => (Database.hasUnit_withoutUnit.1 hunit).1⟩

/-- **Locks and links go on standing on stored units**, one where only one is allowed. -/
theorem Move.linked (hmove : Move terms r r') (hnumbered : r.database.Numbered)
    (h : r.database.Linked) : r'.database.Linked := by
  rcases hmove.hasUnit_or_dispose hnumbered with hunits | ⟨unit, -, rfl⟩
  · cases hmove with
    | forget _ => exact h
    | learn _ => exact h
    | count _ => exact h
    | load _ _ => exact h
    | bring _ => exact h
    | define hinsert => exact h.stand (Database.insertAttribute_leaves hinsert).2 hunits
    | store _ _ hwrite _ =>
      obtain ⟨-, -, -, -, rfl⟩ := (Handle.write_eq_ok hnumbered.elementsIssued).1 hwrite
      exact h.stand Handle.sameLinks_writtenTo hunits
    | storeAttribute hstore =>
      rcases Attribute.store_cases hnumbered.elementsIssued hstore with ⟨-, rfl⟩ | ⟨-, -, -, -, rfl⟩
      · exact h
      · exact h.stand ⟨rfl, rfl, rfl⟩ hunits
    | storeValue hstore =>
      obtain ⟨rows, rfl, -⟩ := Value.store_appends hstore
      exact h.stand ⟨rfl, rfl, rfl⟩ hunits
    | transit _ _ _ => exact h.stand ⟨rfl, rfl, rfl⟩ hunits
    | lock hlock => exact h.takeLock hlock
    | unlock hunlock =>
      cases hunlock
      exact h.withLocks List.filter_sublist
    | relate hkind hrelate => exact h.putRelation (LinkKind.isRelational_of_expectRelation hkind) hrelate
    | unrelate hunrelate =>
      cases hunrelate
      exact h.withRelations List.filter_sublist
    | associate hkind hassociate =>
      exact h.putAssociation (LinkKind.isRelational_of_expectAssociation hkind) hassociate
    | dissociate hdissociate =>
      cases hdissociate
      exact h.withAssociations List.filter_sublist
    | dispose _ => exact h.withoutUnit _
  · exact h.withoutUnit unit

end Repository

end MetadataStore
