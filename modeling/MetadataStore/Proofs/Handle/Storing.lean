import MetadataStore.Handle.Actions
import MetadataStore.Proofs.Action
import MetadataStore.Proofs.Handle.Writing
import MetadataStore.Proofs.Repository.Access

/-!
# `Proofs.Handle.Storing` — a store as one step

A store looks for locks, runs its transaction, and only then changes the handle and the cache, which
cannot fail. So it is all or nothing: it fails before anything was changed, or goes through.

## Contents
- `Handle.expectUnlocked_eq_ok`, `expectUnlocked_of_not_unlocked`.
- `Handle.store_eq_ok`, `Handle.store_eq_error`: what a store leaves when it succeeds and when it fails.
-/

namespace MetadataStore.Handle

variable {r r' : Repository} {h h' : Handle}

/-- The creation time that a store writes for a new unit. -/
def creationTime (h : Handle) (r : Repository) : DateTime :=
  h.created.getD r.now.truncate

/-- The unit, if it is stored, is known to be unlocked. -/
def Unlocked (h : Handle) (r : Repository) : Prop :=
  ∀ unit, h.ref? = some unit →
    r.contention.allowsReading = true ∧ r.database.isLocked unit = false

theorem expectUnlocked_eq_ok :
    expectUnlocked h.ref? r = (.ok (), r') ↔ h.Unlocked r ∧ r' = r := by
  unfold Unlocked
  cases href : h.ref? with
  | none =>
    show ((.ok (), r) : Except Fault Unit × Repository) = (.ok (), r') ↔ _
    simp only [Prod.mk.injEq, true_and, reduceCtorEq, false_implies, implies_true]
    exact eq_comm
  | some unit =>
    simp only [expectUnlocked, Repository.isLocked, Action.bind_eq_ok, Repository.read_eq_ok,
      Option.some.injEq, forall_eq']
    constructor
    · rintro ⟨locked, t, ⟨hread, rfl, rfl⟩, hgo⟩
      cases hlocked : t.database.isLocked unit with
      | true =>
        rw [hlocked] at hgo
        cases hgo
      | false =>
        rw [hlocked] at hgo
        cases hgo
        exact ⟨⟨hread, rfl⟩, rfl⟩
    · rintro ⟨⟨hread, hlocked⟩, rfl⟩
      refine ⟨false, r', ⟨hread, hlocked.symm, rfl⟩, rfl⟩

/-- Looking for locks changes nothing, whatever it finds. -/
theorem snd_expectUnlocked (unit? : Option UnitRef) (r : Repository) :
    (expectUnlocked unit? r).2 = r := by
  cases unit? with
  | none => rfl
  | some unit =>
    refine Action.Keeps.bind (I := (· = r)) ?_ ?_ r rfl
    · intro s hs
      show (Repository.read _ s).2 = r
      rw [Repository.snd_read, hs]
    · intro locked
      exact Action.Keeps.ite (Action.Keeps.fail _) (Action.Keeps.pure ())

theorem expectUnlocked_of_unlocked (hunlocked : h.Unlocked r) :
    Action.onFirst (expectUnlocked h.ref?) (r, h) = (.ok (), (r, h)) :=
  Action.onFirst_eq_ok.2 ⟨r, expectUnlocked_eq_ok.2 ⟨hunlocked, rfl⟩, rfl⟩

/-- A unit that is found locked is refused, and so is one that locks cannot be looked for of. -/
theorem expectUnlocked_of_not_unlocked (hlocked : ¬ h.Unlocked r) :
    ∃ fault, Action.onFirst (expectUnlocked h.ref?) (r, h) = (.error fault, (r, h)) := by
  have hkept := snd_expectUnlocked h.ref? r
  cases hexpect : expectUnlocked h.ref? r with
  | mk outcome t =>
    rw [hexpect] at hkept
    cases hkept
    cases outcome with
    | ok u => exact absurd (expectUnlocked_eq_ok.1 hexpect).1 hlocked
    | error fault => exact ⟨fault, Action.onFirst_eq_error.2 ⟨t, hexpect, rfl⟩⟩

/-- The steps of a store after the unit was found unlocked. -/
theorem store_of_unlocked (h : Handle) (hunlocked : h.Unlocked r) :
    store (r, h) =
      match h.write (h.creationTime r) r.contention r.database with
      | .ok ((id, written), database) =>
        let settled := h.settle id (h.creationTime r) written
        (.ok (), ({ r with database, cache := r.cache.store settled }, settled))
      | .error fault => (.error fault, (r, h)) := by
  unfold store
  rw [Action.bind_of_ok (held_apply (r, h)), Action.bind_of_ok (expectUnlocked_of_unlocked hunlocked),
    Action.bind_of_ok (Action.get_apply (r, h))]
  simp only [Action.bind_apply]
  have hwrite : Action.onFirst (Repository.write (h.write (h.created.getD r.now.truncate))) (r, h) =
      match h.write (h.creationTime r) r.contention r.database with
      | .ok (result, database) => (.ok result, ({ r with database }, h))
      | .error fault => (.error fault, (r, h)) := by
    rw [Action.onFirst_apply, Repository.write_apply]
    unfold creationTime
    cases h.write (h.created.getD r.now.truncate) r.contention r.database <;> rfl
  rw [hwrite]
  cases h.write (h.creationTime r) r.contention r.database with
  | ok result =>
    obtain ⟨⟨id, written⟩, database⟩ := result
    rfl
  | error fault => rfl

/-- **A store succeeds** when the unit is unlocked and its transaction goes through; the handle is then
settled and cached. -/
theorem store_eq_ok :
    store (r, h) = (.ok (), (r', h')) ↔
      h.Unlocked r ∧ ∃ id written database,
        h.write (h.creationTime r) r.contention r.database = .ok ((id, written), database) ∧
          h' = h.settle id (h.creationTime r) written ∧
          r' = { r with database, cache := r.cache.store h' } := by
  constructor
  · intro hstore
    -- the first step that can fail is the one that looks for locks
    have hunlocked : h.Unlocked r := by
      obtain ⟨h₁, s₁, hheld, hrest⟩ := Action.bind_eq_ok.1 hstore
      cases hheld
      obtain ⟨_, s₂, hcheck, -⟩ := Action.bind_eq_ok.1 hrest
      obtain ⟨_, hcheck, -⟩ := Action.onFirst_eq_ok.1 hcheck
      exact (expectUnlocked_eq_ok.1 hcheck).1
    refine ⟨hunlocked, ?_⟩
    rw [store_of_unlocked h hunlocked] at hstore
    split at hstore
    · rename_i id written database hwrite
      cases hstore
      exact ⟨id, written, database, hwrite, rfl, rfl⟩
    · cases hstore
  · rintro ⟨hunlocked, id, written, database, hwrite, rfl, rfl⟩
    rw [store_of_unlocked h hunlocked, hwrite]

/-- **A store that fails changes nothing.** -/
theorem store_eq_error {fault : Fault} {s' : Repository × Handle}
    (hstore : store (r, h) = (.error fault, s')) : s' = (r, h) := by
  by_cases hunlocked : h.Unlocked r
  · rw [store_of_unlocked h hunlocked] at hstore
    split at hstore
    · cases hstore
    · cases hstore
      rfl
  · obtain ⟨fault', hcheck⟩ := expectUnlocked_of_not_unlocked hunlocked
    unfold store at hstore
    rw [Action.bind_of_ok (held_apply (r, h)), Action.bind_of_error hcheck] at hstore
    cases hstore
    rfl

end MetadataStore.Handle
