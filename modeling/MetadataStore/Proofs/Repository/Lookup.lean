import MetadataStore.Proofs.Action
import MetadataStore.Proofs.Cache.Copies
import MetadataStore.Proofs.Database.Keys
import MetadataStore.Proofs.Repository.Access

/-!
# `Proofs.Repository.Lookup` — units from the cache or from the database

A unit is answered from the cache when there is a copy of it, and otherwise as its row has it, which
then goes into the cache. The database is only looked at.

## Contents
- `Repository.load_eq_ok_some`, `load_eq_ok_none`: a unit as its row has it.
- `unit_eq_ok_some`, `unit_eq_ok_none`, `unit_eq_error`: what a look-up answers and leaves.
- `ref?_of_unit`: the unit that is answered is the one asked for.
- `exists_unit_eq_ok`: when there is an answer.
-/

namespace MetadataStore.Repository

variable {r r' : Repository}

/-- The repository after the cache was asked for a key. -/
def looked (r : Repository) (key : String) : Repository :=
  { r with cache := (r.cache.lookup key).2 }

/-- The repository with a copy of a unit in its cache. -/
def keeping (r : Repository) (h : Handle) : Repository :=
  { r with cache := r.cache.store h }

@[simp] theorem database_looked (r : Repository) (key : String) :
    (r.looked key).database = r.database := rfl

@[simp] theorem contention_looked (r : Repository) (key : String) :
    (r.looked key).contention = r.contention := rfl

@[simp] theorem database_keeping (r : Repository) (h : Handle) :
    (r.keeping h).database = r.database := rfl

@[simp] theorem contention_keeping (r : Repository) (h : Handle) :
    (r.keeping h).contention = r.contention := rfl

theorem load_eq_ok_some {unit : UnitRef} {h : Handle} :
    load unit r = (.ok (some h), r') ↔
      r.contention.allowsReading = true ∧
        ∃ row, r.database.unit? unit = some row ∧ Handle.ofRow row = .ok h ∧ r' = r := by
  simp only [load, Action.bind_eq_ok, read_eq_ok]
  constructor
  · rintro ⟨found, t, ⟨hread, rfl, rfl⟩, h⟩
    refine ⟨hread, ?_⟩
    cases hrow : t.database.unit? unit with
    | none =>
      rw [hrow] at h
      cases h
    | some row =>
      rw [hrow] at h
      obtain ⟨made, t', hmake, hdone⟩ := Action.bind_eq_ok.1 h
      cases hdone
      simp only [Action.ofResult_apply, Prod.mk.injEq] at hmake
      exact ⟨row, rfl, hmake.1, hmake.2.symm⟩
  · rintro ⟨hread, row, hrow, hmake, rfl⟩
    refine ⟨some row, r', ⟨hread, hrow.symm, rfl⟩, ?_⟩
    exact Action.bind_eq_ok.2 ⟨h, r', by rw [Action.ofResult_apply, hmake], rfl⟩

theorem load_eq_ok_none {unit : UnitRef} :
    load unit r = (.ok none, r') ↔
      r.contention.allowsReading = true ∧ r.database.unit? unit = none ∧ r' = r := by
  simp only [load, Action.bind_eq_ok, read_eq_ok]
  constructor
  · rintro ⟨found, t, ⟨hread, rfl, rfl⟩, h⟩
    cases hrow : t.database.unit? unit with
    | none =>
      rw [hrow] at h
      cases h
      exact ⟨hread, rfl, rfl⟩
    | some row =>
      rw [hrow] at h
      obtain ⟨made, t', -, hdone⟩ := Action.bind_eq_ok.1 h
      cases hdone
  · rintro ⟨hread, hrow, rfl⟩
    exact ⟨none, r', ⟨hread, hrow.symm, rfl⟩, rfl⟩

/-- Loading a unit changes nothing, whatever it answers. -/
theorem snd_load (unit : UnitRef) (r : Repository) : (load unit r).2 = r := by
  refine Action.Keeps.bind (I := (· = r)) ?_ ?_ r rfl
  · intro s hs
    rw [snd_read, hs]
  · intro found
    cases found with
    | none => exact Action.Keeps.pure none
    | some row => exact Action.Keeps.bind (Action.Keeps.ofResult _) fun h => Action.Keeps.pure _

/-- A look-up answers the copy that is cached, if there is one. -/
theorem unit_of_cached {unit : UnitRef} {copy : Handle}
    (hcopy : (r.cache.lookup unit.text).1 = some copy) :
    Repository.unit unit r = (.ok (some copy), r.looked unit.text) := by
  have hcached : cached unit.text r = (.ok (some copy), r.looked unit.text) := by
    rw [← hcopy]
    rfl
  unfold Repository.unit
  rw [Action.bind_of_ok hcached]
  rfl

/-- Without a cached copy a look-up loads the unit, and keeps what it loads. -/
theorem unit_of_uncached {unit : UnitRef} (hcopy : (r.cache.lookup unit.text).1 = none) :
    Repository.unit unit r =
      match load unit (r.looked unit.text) with
      | (.ok (some h), r') => (.ok (some h), r'.keeping h)
      | (.ok none, r') => (.ok none, r')
      | (.error fault, r') => (.error fault, r') := by
  have hcached : cached unit.text r = (.ok none, r.looked unit.text) := by
    rw [← hcopy]
    rfl
  unfold Repository.unit
  rw [Action.bind_of_ok hcached]
  simp only [Action.bind_apply]
  cases load unit (r.looked unit.text) with
  | mk outcome r' =>
    cases outcome with
    | error fault => rfl
    | ok found => cases found <;> rfl

/-- **A unit that is answered** was cached, or is what its row makes and cached from now on. -/
theorem unit_eq_ok_some {unit : UnitRef} {h : Handle}
    (hunit : Repository.unit unit r = (.ok (some h), r')) :
    ((r.cache.lookup unit.text).1 = some h ∧ r' = r.looked unit.text) ∨
      ((r.cache.lookup unit.text).1 = none ∧ r.contention.allowsReading = true ∧
        ∃ row, r.database.unit? unit = some row ∧ Handle.ofRow row = .ok h ∧
          r' = (r.looked unit.text).keeping h) := by
  cases hcopy : (r.cache.lookup unit.text).1 with
  | some copy =>
    rw [unit_of_cached hcopy] at hunit
    cases hunit
    exact Or.inl ⟨rfl, rfl⟩
  | none =>
    rw [unit_of_uncached hcopy] at hunit
    refine Or.inr ⟨rfl, ?_⟩
    split at hunit
    · rename_i made t hload
      cases hunit
      obtain ⟨hread, row, hrow, hmake, rfl⟩ := load_eq_ok_some.1 hload
      exact ⟨hread, row, hrow, hmake, rfl⟩
    · cases hunit
    · cases hunit

/-- A look-up answers nothing only for a unit that is neither cached nor stored. -/
theorem unit_eq_ok_none {unit : UnitRef} (hunit : Repository.unit unit r = (.ok none, r')) :
    (r.cache.lookup unit.text).1 = none ∧ r.database.unit? unit = none ∧
      r' = r.looked unit.text := by
  cases hcopy : (r.cache.lookup unit.text).1 with
  | some copy =>
    rw [unit_of_cached hcopy] at hunit
    cases hunit
  | none =>
    rw [unit_of_uncached hcopy] at hunit
    split at hunit
    · cases hunit
    · rename_i t hload
      cases hunit
      obtain ⟨-, hrow, rfl⟩ := load_eq_ok_none.1 hload
      exact ⟨rfl, hrow, rfl⟩
    · cases hunit

/-- A look-up that fails has only counted as a use of the cache. -/
theorem unit_eq_error {unit : UnitRef} {fault : Fault}
    (hunit : Repository.unit unit r = (.error fault, r')) : r' = r.looked unit.text := by
  cases hcopy : (r.cache.lookup unit.text).1 with
  | some copy =>
    rw [unit_of_cached hcopy] at hunit
    cases hunit
  | none =>
    rw [unit_of_uncached hcopy] at hunit
    have hload := snd_load unit (r.looked unit.text)
    split at hunit
    · cases hunit
    · cases hunit
    · rename_i fault' t hfail
      cases hunit
      rw [hfail] at hload
      exact hload

/-! ## Answers are the units asked for -/

/-- While copies stand under their own keys, an answered unit is the one asked for. -/
theorem ref?_of_unit {unit : UnitRef} {h : Handle} (hkeyed : r.cache.Keyed)
    (hunit : Repository.unit unit r = (.ok (some h), r')) :
    h.ref? = some unit ∧ r'.cache.Keyed ∧ r'.database = r.database ∧
      r'.contention = r.contention := by
  rcases unit_eq_ok_some hunit with ⟨hcopy, rfl⟩ | ⟨-, -, row, hrow, hmake, rfl⟩
  · exact ⟨hkeyed.ref?_of_lookup hcopy, hkeyed.lookup unit.text, rfl, rfl⟩
  · obtain ⟨-, rfl⟩ := Database.unit?_eq_some hrow
    exact ⟨Handle.ref?_of_ofRow hmake, (hkeyed.lookup _).store h, rfl, rfl⟩

/-- A stored unit whose row can be read is answered. -/
theorem exists_unit_eq_ok {unit : UnitRef} (hread : r.contention.allowsReading = true)
    {row : UnitRow} (hrow : r.database.unit? unit = some row) {made : Handle}
    (hmake : Handle.ofRow row = .ok made) :
    ∃ h r', Repository.unit unit r = (.ok (some h), r') := by
  cases hcopy : (r.cache.lookup unit.text).1 with
  | some copy => exact ⟨copy, _, unit_of_cached hcopy⟩
  | none =>
    refine ⟨made, (r.looked unit.text).keeping made, ?_⟩
    have hload : load unit (r.looked unit.text) = (.ok (some made), r.looked unit.text) :=
      load_eq_ok_some.2 ⟨hread, row, hrow, hmake, rfl⟩
    rw [unit_of_uncached hcopy, hload]

end MetadataStore.Repository
