import MetadataStore.Proofs.Database.Attempts
import MetadataStore.Repository.Basic

/-!
# `Proofs.Repository.Access` — looks and writes while contention lasts

What others hold does not change during one call of the repository, so all attempts of a call meet the
same and end alike: a look answers from the database or finds it locked, and a write is a single run of
its transaction.

## Contents
- `fst_retry`: equal attempts have the outcome of each.
- `Repository.read_apply`, `Repository.write_apply`, and when the two succeed and fail.
- `Repository.write_perform_eq_ok`: the same for a single change.
-/

namespace MetadataStore

/-- Attempts that are all alike have the outcome of each. -/
theorem fst_retry {α : Type} (budget : Nat) (outcome : Except Fault α) :
    (retry budget fun _ => outcome).1 = outcome := by
  obtain ⟨last, -, heq⟩ := retry_stopsAt budget fun _ => outcome
  rw [heq]

namespace Repository

variable {α : Type} {r r' : Repository}

/-! ## Looking -/

theorem read_apply (f : Database → α) (r : Repository) :
    read f r =
      (if r.contention.allowsReading then .ok (f r.database) else .error (.read .locked), r) := by
  simp only [read, Database.read]
  rw [fst_retry]

theorem read_eq_ok {f : Database → α} {a : α} :
    read f r = (.ok a, r') ↔ r.contention.allowsReading = true ∧ a = f r.database ∧ r' = r := by
  rw [read_apply]
  split
  · rename_i h
    simp only [h, Prod.mk.injEq, Except.ok.injEq, true_and]
    constructor
    · rintro ⟨rfl, rfl⟩
      exact ⟨rfl, rfl⟩
    · rintro ⟨rfl, rfl⟩
      exact ⟨rfl, rfl⟩
  · rename_i h
    simp [h]

theorem read_of_allows (f : Database → α) (h : r.contention.allowsReading = true) :
    read f r = (.ok (f r.database), r) := by
  rw [read_apply, if_pos h]

theorem read_eq_error {f : Database → α} {fault : Fault} :
    read f r = (.error fault, r') ↔
      r.contention.allowsReading = false ∧ fault = .read .locked ∧ r' = r := by
  rw [read_apply]
  split
  · rename_i h
    simp [h]
  · rename_i h
    simp only [h, Prod.mk.injEq, Except.error.injEq, true_and]
    constructor
    · rintro ⟨rfl, rfl⟩
      exact ⟨rfl, rfl⟩
    · rintro ⟨rfl, rfl⟩
      exact ⟨rfl, rfl⟩

/-- A look changes nothing, whatever it answers. -/
theorem snd_read (f : Database → α) (r : Repository) : (read f r).2 = r := by
  rw [read_apply]

/-! ## Writing -/

theorem write_apply (work : Transaction α) (r : Repository) :
    write work r =
      match work r.contention r.database with
      | .ok (a, database) => (.ok a, { r with database })
      | .error fault => (.error fault, r) := by
  simp only [write, Database.write]
  rw [fst_retry]
  cases work r.contention r.database with
  | ok result => rfl
  | error fault => rfl

/-- A write succeeds exactly when its transaction does, and changes the database alone. -/
theorem write_eq_ok {work : Transaction α} {a : α} :
    write work r = (.ok a, r') ↔
      ∃ database, work r.contention r.database = .ok (a, database) ∧ r' = { r with database } := by
  rw [write_apply]
  cases work r.contention r.database with
  | error fault => simp
  | ok result =>
    obtain ⟨b, database⟩ := result
    simp only [Prod.mk.injEq, Except.ok.injEq]
    constructor
    · rintro ⟨rfl, rfl⟩
      exact ⟨database, ⟨rfl, rfl⟩, rfl⟩
    · rintro ⟨database', ⟨rfl, rfl⟩, rfl⟩
      exact ⟨rfl, rfl⟩

/-- A write that fails fails as its transaction does, and changes nothing. -/
theorem write_eq_error {work : Transaction α} {fault : Fault} :
    write work r = (.error fault, r') ↔ work r.contention r.database = .error fault ∧ r' = r := by
  rw [write_apply]
  cases work r.contention r.database with
  | ok result => simp
  | error fault' =>
    simp only [Prod.mk.injEq, Except.error.injEq]
    constructor
    · rintro ⟨rfl, rfl⟩
      exact ⟨rfl, rfl⟩
    · rintro ⟨rfl, rfl⟩
      exact ⟨rfl, rfl⟩

/-- The write of a single change makes it, and nothing else. -/
theorem write_perform_eq_ok {change : Change α} {a : α} :
    write (Transaction.perform change) r = (.ok a, r') ↔
      r.contention.allowsWriting = true ∧
        ∃ database, change r.database = .ok (a, database) ∧ r' = { r with database } := by
  simp only [write_eq_ok, Transaction.perform_eq_ok]
  constructor
  · rintro ⟨database, ⟨hw, hchange⟩, rfl⟩
    exact ⟨hw, database, hchange, rfl⟩
  · rintro ⟨hw, database, hchange, rfl⟩
    exact ⟨database, ⟨hw, hchange⟩, rfl⟩

end Repository

end MetadataStore
