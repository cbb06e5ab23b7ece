import MetadataStore.Proofs.Repository.Locked
import MetadataStore.Proofs.Session.Disposal
import MetadataStore.Proofs.Session.Lifecycle

/-!
# `Proofs.Session.Inactivation` — locked units that are set aside for deletion

Two requests set a unit aside for deletion. The one looks for locks first and refuses a locked unit. The
other is the plain request for that status, which goes by the table of transitions alone, and which a lock
does not keep out. There is no third.

## Contents
- `Event.SetsAside`, the plain request, where the table grants it.
- `Session.inactivated_iff_setsAside`, with samples of both requests.
-/

namespace MetadataStore.Session

open MetadataStore.Repository (Terms)

variable {s : Session} {unit : UnitRef}

/-- The event is a plain request that a unit be set aside for deletion, through a handle of it, and the
table of transitions grants it. -/
def Event.SetsAside (s : Session) (unit : UnitRef) (event : Event) : Prop :=
  ∃ name h, event = .perform (.request name .pendingDeletion) ∧ s.handle? name = some h ∧
    h.Transits s.repository .pendingDeletion unit

/-- The terms on which a unit is not set aside for deletion. -/
def keepingTerms (unit : UnitRef) : Terms :=
  { Terms.all with transits := fun other requested => other = unit → requested ≠ .pendingDeletion }

/-- But for the plain request, nothing sets a locked unit aside. -/
theorem Event.answersFor_of_locked (hlocked : s.repository.database.isLocked unit = true) {event : Event}
    (hnot : ¬event.SetsAside s unit) : event.AnswersFor (keepingTerms unit) s := by
  cases event with
  | circumstances contention now => trivial
  | perform operation =>
    cases operation with
    | request name status =>
      intro h hfind other ht
      refine ⟨?_, fun _ => trivial⟩
      rintro rfl rfl
      exact hnot ⟨name, h, rfl, hfind, ht⟩
    | inactivate name =>
      -- the handle is one of another unit, since it was found unlocked
      intro h hfind hunlocked other ht
      refine ⟨?_, fun _ => trivial⟩
      rintro rfl -
      rw [(hunlocked other ht.ref).2] at hlocked
      cases hlocked
    | activate name => exact fun h _ other _ => ⟨fun _ => by decide, fun _ => trivial⟩
    | delete name => exact fun h _ other _ => ⟨fun _ => by decide, fun _ => trivial⟩
    | store name => exact fun h _ r' h' _ => ⟨trivial, fun _ => trivial⟩
    | cacheStore name => exact fun h _ _ => trivial
    | unlock name => exact fun _ _ _ _ => trivial
    | _ => trivial

/-- **Without the plain request** a locked unit that is not set aside yet is not set aside next. -/
theorem not_inactivated (hnumbered : s.repository.database.Numbered) {old new : UnitRow}
    (hlocked : s.repository.database.isLocked unit = true)
    (hold : s.repository.database.unit? unit = some old)
    (hstatus : old.status ≠ Status.pendingDeletion.code) {event : Event} (hnot : ¬event.SetsAside s unit)
    (hnew : (s.after event).repository.database.unit? unit = some new) :
    new.status ≠ Status.pendingDeletion.code := by
  have hstays : ∀ code requested, code ≠ Status.pendingDeletion.code →
      (keepingTerms unit).transits unit requested → Status.Permitted code requested.code →
      requested.code ≠ Status.pendingDeletion.code :=
    fun _ requested _ hterms _ heq => hterms rfl (Status.code_injective heq)
  have hbefore : ∀ row, s.repository.database.unit? unit = some row →
      row.status ≠ Status.pendingDeletion.code := by
    intro row hrow
    cases hold.symm.trans hrow
    exact hstatus
  have hafter := (invariant_status (· ≠ Status.pendingDeletion.code) hstays).after
    ⟨⟨hnumbered, hnumbered.issued_of_unit? hold⟩, hbefore⟩ (Event.answersFor_of_locked hlocked hnot)
  exact hafter.2 new hnew

theorem database_of_setsAside {event : Event} (hsets : event.SetsAside s unit) :
    (s.after event).repository.database = s.repository.database.withStatus unit .pendingDeletion := by
  obtain ⟨name, h, rfl, hfind, ht⟩ := hsets
  show (s.working name (Handle.request .pendingDeletion) .status).2.repository.database = _
  rw [repository_working hfind, Handle.request_of_transits ht]

/-- **The request that looks for locks is refused.** -/
theorem perform_inactivate_of_locked {name : String} {h : Handle}
    (hlocked : s.repository.database.isLocked unit = true) (hfind : s.handle? name = some h)
    (href : h.ref? = some unit) :
    s.perform (.inactivate name) = (.fault (Handle.lockedFault s.repository unit), s.hold name h) := by
  show s.working name Handle.inactivate .status = _
  rw [working_of_handle? hfind]
  unfold Session.work
  rw [Handle.inactivate_of_isLocked href hlocked]
  rfl

/-- **A locked unit is set aside for deletion** by a plain request for that status, whenever the table of
transitions grants it, and by nothing else: in every state, whatever happens next and through whatever
handle. The request that looks for locks is refused as an illegal one, unless others keep the locks from
being read, and leaves everything as it was. -/
theorem inactivated_iff_setsAside (hs : s.Reachable) {old : UnitRow}
    (hlocked : s.repository.database.isLocked unit = true)
    (hold : s.repository.database.unit? unit = some old)
    (hstatus : old.status ≠ Status.pendingDeletion.code) :
    (∀ event : Event, (∃ new, (s.after event).repository.database.unit? unit = some new ∧
        new.status = Status.pendingDeletion.code) ↔ event.SetsAside s unit) ∧
      ∀ name h, s.handle? name = some h → h.ref? = some unit →
        ∃ fault, s.perform (.inactivate name) = (.fault fault, s.hold name h) ∧
          (s.repository.contention.allowsReading = true →
            fault = .unitLocked unit ∧ fault.category = .illegalRequest) := by
  refine ⟨fun event => ⟨?_, fun hsets => ?_⟩, fun name h hfind href => ?_⟩
  · rintro ⟨new, hnew, hcode⟩
    by_contra hnot
    exact not_inactivated hs.numbered hlocked hold hstatus hnot hnew hcode
  · refine ⟨{ old with status := Status.pendingDeletion.code }, ?_, rfl⟩
    rw [database_of_setsAside hsets, Database.unit?_withStatus, hold, Option.map_some, if_pos rfl]
  · refine ⟨_, perform_inactivate_of_locked hlocked hfind href, fun hread => ?_⟩
    rw [Handle.lockedFault_of_readable hread]
    exact ⟨rfl, rfl⟩

/-- A unit is stored and locked. -/
def lockedUnit : List Event :=
  storedUnit ++ [.perform (.lock "a" .write "edit")]

/-- The request that looks for locks leaves it as it is. -/
theorem lockedUnit_not_inactivated :
    let s := fresh.afterAll lockedUnit
    s.Reachable ∧ s.repository.database.isLocked ⟨1, 1⟩ = true ∧
      (∃ old, s.repository.database.unit? ⟨1, 1⟩ = some old ∧
        old.status ≠ Status.pendingDeletion.code) ∧
      ¬∃ new, (s.after (.perform (.inactivate "a"))).repository.database.unit? ⟨1, 1⟩ = some new ∧
        new.status = Status.pendingDeletion.code := by
  intro s
  have hreachable : s.Reachable := .afterAll (.connect .inMemory .nearest .epoch 0) lockedUnit
  have hlocked : s.repository.database.isLocked ⟨1, 1⟩ = true := by decide +kernel
  have hstored : (s.repository.database.unit? ⟨1, 1⟩).map (·.status) = some Status.effective.code := by
    decide +kernel
  obtain ⟨old, hold, hcode⟩ := Option.map_eq_some_iff.1 hstored
  have hstatus : old.status ≠ Status.pendingDeletion.code := by
    rw [hcode]
    decide
  refine ⟨hreachable, hlocked, ⟨old, hold, hstatus⟩, ?_⟩
  rw [(inactivated_iff_setsAside hreachable hlocked hold hstatus).1]
  rintro ⟨name, h, hno, -⟩
  cases hno

/-- The plain request does set it aside. -/
theorem lockedUnit_set_aside :
    ¬∀ (s : Session) (unit : UnitRef) (event : Event), s.Reachable →
      s.repository.database.isLocked unit = true →
      (∀ old, s.repository.database.unit? unit = some old → old.status ≠ Status.pendingDeletion.code) →
      ∀ new, (s.after event).repository.database.unit? unit = some new →
        new.status ≠ Status.pendingDeletion.code := by
  intro hnever
  have hlocked : (fresh.afterAll lockedUnit).repository.database.isLocked ⟨1, 1⟩ = true := by
    decide +kernel
  have hbefore : ((fresh.afterAll lockedUnit).repository.database.unit? ⟨1, 1⟩).map (·.status) =
      some Status.effective.code := by decide +kernel
  have hafter : (((fresh.afterAll lockedUnit).after
      (.perform (.request "a" .pendingDeletion))).repository.database.unit? ⟨1, 1⟩).map (·.status) =
        some Status.pendingDeletion.code := by decide +kernel
  obtain ⟨old, hold, hcode⟩ := Option.map_eq_some_iff.1 hbefore
  obtain ⟨new, hnew, hset⟩ := Option.map_eq_some_iff.1 hafter
  refine hnever _ ⟨1, 1⟩ _ (.afterAll (.connect .inMemory .nearest .epoch 0) lockedUnit) hlocked ?_ new hnew hset
  intro row hrow
  cases hold.symm.trans hrow
  rw [hcode]
  decide

end MetadataStore.Session
