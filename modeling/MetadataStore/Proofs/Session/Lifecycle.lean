import MetadataStore.Proofs.Repository.Lifecycle
import MetadataStore.Proofs.Session.Finality

/-!
# `Proofs.Session.Lifecycle` — statuses through whole sessions

A status is held in three places: with the unit in the database, with the copy in the cache, and with
every handle on the unit, each as old as its last use. Only the first counts. A request asks the database
what the unit may leave, so that a handle that missed a change learns of it and cannot undo it. A unit
that is not stored yet has its status from its handle alone, which goes by the same table.

## Contents
- `Handle.Arisen`, kept by all work with a handle.
- `Session.HeldArisen`, `heldArisen_perform`: the units that are held.
- `Session.Answered`, `perform_of_asks`: requests for a status and their answers.
- `Session.status_after`: the rows of units over one event.
- `Session.statuses_follow_table`: whole sessions.
-/

namespace MetadataStore

/-! ## Handles -/

namespace Handle

variable {r : Repository} {h h' : Handle}

/-- A unit that is not stored yet has a status that leads from effective. -/
def Arisen (h : Handle) : Prop :=
  h.ref? = none → Status.Leads .effective h.status

theorem arisen_of_ref? {unit : UnitRef} (href : h.ref? = some unit) : h.Arisen := by
  intro hnew
  rw [href] at hnew
  cases hnew

theorem arisen_create (tenant : Int) (name : Option String) (correlation : String) :
    (Handle.create tenant name correlation).Arisen :=
  fun _ => .refl

/-- What is on the same unit with the same status has arisen as well. -/
theorem Arisen.same (ha : h.Arisen) (href : h'.ref? = h.ref?) (hstatus : h'.status = h.status) :
    h'.Arisen := by
  intro hnew
  rw [hstatus]
  exact ha (href.symm.trans hnew)

theorem Arisen.reached {terms : Repository.Terms} {base s : Repository × Handle} (ha : base.2.Arisen)
    (hs : Reached terms base s) : s.2.Arisen :=
  ha.same hs.ref hs.status

theorem Arisen.store (ha : h.Arisen) : (Handle.store (r, h)).2.2.Arisen := by
  cases hstore : Handle.store (r, h) with
  | mk outcome t =>
    obtain ⟨r', h'⟩ := t
    cases outcome with
    | error fault =>
      cases store_eq_error hstore
      exact ha
    | ok u =>
      obtain ⟨-, id, written, db', -, rfl, -⟩ := store_eq_ok.1 hstore
      exact arisen_of_ref? (ref?_settle h id _ written)

theorem Arisen.request (ha : h.Arisen) (requested : Status) :
    (Handle.request requested (r, h)).2.2.Arisen := by
  by_cases ht : ∃ unit, h.Transits r requested unit
  · obtain ⟨unit, ht⟩ := ht
    rw [request_of_transits ht]
    have href : ({ h with status := requested } : Handle).ref? = some unit := ht.ref
    exact arisen_of_ref? href
  · rcases request_of_not_transits (not_exists.1 ht) with
      ⟨fault, status, hrequest, hsame⟩ | ⟨current, status, hstands, hrequest, hanswer⟩
    · rw [hrequest]
      intro hnew
      rw [hsame hnew]
      exact ha hnew
    · rw [hrequest]
      intro hnew
      have hheld : h.status = current := hstands.held hnew
      rcases hanswer with ⟨-, rfl⟩ | ⟨hpermits, rfl, -⟩
      · rw [← hheld]
        exact ha hnew
      · exact (ha hnew).tail (hheld ▸ hpermits)

theorem Arisen.inactivate (ha : h.Arisen) : (Handle.inactivate (r, h)).2.2.Arisen := by
  by_cases hunlocked : h.Unlocked r
  · rw [inactivate_of_unlocked hunlocked]
    exact ha.request .pendingDeletion
  · obtain ⟨fault, hlocked⟩ := inactivate_of_locked hunlocked
    rw [hlocked]
    exact ha

end Handle

/-! ## Requests for a status -/

namespace Session

open MetadataStore.Repository (Moves Terms)

variable {s : Session} {h : Handle} {name : String} {requested : Status} {operation : Operation} {α : Type}

/-- The answer to a request for a status of a held unit. It is a fault, and the database is as it was; or it
is the status asked for, if the status of the unit may be left for it, and else the status of the unit,
with the database as it was. That status the handle then holds, and it is the status of the unit. -/
def Answered (s : Session) (name : String) (requested : Status) (h : Handle) (answer : Answer)
    (after : Session) : Prop :=
  (∃ fault, answer = .fault fault ∧ after.repository.database = s.repository.database) ∨
    ∃ current status h',
      h.Stands s.repository.database current ∧
      status = (if current.permits requested then requested else current) ∧
      (current.permits requested = false → after.repository.database = s.repository.database) ∧
      answer = .status status ∧
      after.handle? name = some h' ∧ h'.ref? = h.ref? ∧ h'.status = status ∧
      h'.Stands after.repository.database status

theorem working_of_handle? (hfind : s.handle? name = some h) (action : Handle.Work α) (make : α → Answer) :
    s.working name action make = answered make (s.work name h action) := by
  unfold Session.working Session.withHandle
  rw [hfind]

/-- Every request for a status is one by the lifecycle, but for one that a lock refuses. -/
theorem perform_of_asks (hasks : operation.asks? = some (name, requested))
    (hfind : s.handle? name = some h) :
    s.perform operation = answered .status (s.work name h (Handle.request requested)) ∨
      ∃ fault, s.perform operation = (.fault fault, s.hold name h) := by
  cases operation with
  | request other status =>
    cases hasks
    exact Or.inl (working_of_handle? hfind _ _)
  | activate other =>
    cases hasks
    exact Or.inl (working_of_handle? hfind _ _)
  | delete other =>
    cases hasks
    exact Or.inl (working_of_handle? hfind _ _)
  | inactivate other =>
    cases hasks
    have hperform : s.perform (.inactivate name) =
        answered .status (s.work name h Handle.inactivate) := working_of_handle? hfind _ _
    rw [hperform]
    unfold Session.work
    by_cases hunlocked : h.Unlocked s.repository
    · rw [Handle.inactivate_of_unlocked hunlocked]
      exact Or.inl rfl
    · obtain ⟨fault, hlocked⟩ := Handle.inactivate_of_locked hunlocked
      rw [hlocked]
      exact Or.inr ⟨fault, rfl⟩
  | _ => cases hasks

/-- **Every request for a status is answered** as the status of the unit and the table say. -/
theorem answered_of_asks (hasks : operation.asks? = some (name, requested))
    (hfind : s.handle? name = some h) :
    s.Answered name requested h (s.perform operation).1 (s.perform operation).2 := by
  rcases perform_of_asks hasks hfind with hperform | ⟨fault, hperform⟩
  · rw [hperform]
    unfold Session.work
    by_cases ht : ∃ unit, h.Transits s.repository requested unit
    · obtain ⟨unit, ht⟩ := ht
      obtain ⟨row, current, hrow, hcurrent, hpermits⟩ := ht.permitted
      rw [Handle.request_of_transits ht]
      refine Or.inr ⟨current, requested, { h with status := requested }, ⟨?_, ?_⟩, ?_, ?_, rfl,
        handle?_hold _ _ _, rfl, rfl, ⟨fun _ => rfl, ?_⟩⟩
      · intro hnew
        rw [ht.ref] at hnew
        cases hnew
      · intro other hother
        cases ht.ref.symm.trans hother
        exact ⟨row, hrow, Status.code_of_ofCode hcurrent⟩
      · rw [hpermits, if_pos rfl]
      · intro hrefused
        rw [hpermits] at hrefused
        cases hrefused
      · intro other hother
        cases ht.ref.symm.trans hother
        refine ⟨{ row with status := requested.code }, ?_, rfl⟩
        show (s.repository.database.withStatus unit requested).unit? unit = _
        rw [Database.unit?_withStatus, hrow, Option.map_some, if_pos rfl]
    · rcases Handle.request_of_not_transits (not_exists.1 ht) with
        ⟨fault, status, hrequest, -⟩ | ⟨current, status, hstands, hrequest, hanswer⟩
      · rw [hrequest]
        exact Or.inl ⟨fault, rfl, rfl⟩
      · rw [hrequest]
        refine Or.inr ⟨current, status, { h with status }, hstands, ?_, fun _ => rfl, rfl,
          handle?_hold _ _ _, rfl, rfl, ⟨fun _ => rfl, ?_⟩⟩
        · rcases hanswer with ⟨hrefused, rfl⟩ | ⟨hpermits, rfl, -⟩
          · rw [hrefused, if_neg Bool.false_ne_true]
          · rw [hpermits, if_pos rfl]
        · intro unit href
          rcases hanswer with ⟨-, rfl⟩ | ⟨-, -, hnew⟩
          · exact hstands.stored unit href
          · have href : h.ref? = some unit := href
            rw [hnew] at href
            cases href
  · rw [hperform]
    exact Or.inl ⟨fault, rfl, rfl⟩

/-! ## Units that are held -/

/-- Every unit that is held and not stored yet has a status that leads from effective. -/
def HeldArisen (s : Session) : Prop :=
  ∀ name h, s.handle? name = some h → h.Arisen

theorem heldArisen_ofRepository (r : Repository) : (ofRepository r).HeldArisen := by
  intro name h hfind
  cases hfind

theorem HeldArisen.of_held {t : Session} (hs : s.HeldArisen) (hheld : t.held = s.held) : t.HeldArisen := by
  intro name h hfind
  refine hs name h ?_
  unfold Session.handle? at hfind ⊢
  rwa [hheld] at hfind

theorem HeldArisen.hold (hs : s.HeldArisen) (ha : h.Arisen) (name : String) :
    (s.hold name h).HeldArisen := by
  intro other h' hfind
  by_cases hother : other = name
  · rw [hother, handle?_hold] at hfind
    cases hfind
    exact ha
  · rw [handle?_hold_of_ne hother] at hfind
    exact hs other h' hfind

theorem HeldArisen.withHandle (hs : s.HeldArisen) {step : Handle → Answer × Session}
    (hstep : ∀ h, s.handle? name = some h → (step h).2.HeldArisen) :
    (s.withHandle name step).2.HeldArisen := by
  unfold Session.withHandle
  cases hfind : s.handle? name with
  | none => exact hs
  | some h => exact hstep h hfind

/-- Asking the repository bears on none of the units that are held. -/
theorem HeldArisen.consulting (hs : s.HeldArisen) (action : Action Repository α) (make : α → Answer) :
    (s.consulting action make).2.HeldArisen := by
  refine hs.of_held ?_
  unfold Session.consulting
  rw [snd_answered]
  rfl

theorem HeldArisen.asking (hs : s.HeldArisen) (name : String) (action : Handle → Action Repository α)
    (make : α → Answer) : (s.asking name action make).2.HeldArisen :=
  hs.withHandle fun h _ => hs.consulting (action h) make

theorem HeldArisen.working (hs : s.HeldArisen) {action : Handle.Work α}
    (hwork : ∀ h, h.Arisen → (action (s.repository, h)).2.2.Arisen) (make : α → Answer) :
    (s.working name action make).2.HeldArisen := by
  refine hs.withHandle fun h hfind => ?_
  rw [snd_answered]
  have hrest : ({ s with repository := (action (s.repository, h)).2.1 } : Session).HeldArisen :=
    hs.of_held rfl
  exact hrest.hold (hwork h (hs name h hfind)) name

/-- Work that leaves the handle on its unit with its status. -/
theorem HeldArisen.handling (hs : s.HeldArisen) (name : String) {action : Handle.Work α}
    (hkeeps : ∀ h, Action.Keeps (Handle.Reached .all (s.repository, h)) action) (make : α → Answer) :
    (s.working name action make).2.HeldArisen :=
  hs.working (fun h ha => ha.reached (hkeeps h _ (.refl _))) make

/-- What is got from the cache stands there under its own key, and what is loaded is stored. -/
theorem HeldArisen.get (hs : s.HeldArisen) (hkeyed : s.repository.cache.Keyed) (name : String)
    (unit : UnitRef) : (s.perform (.get name unit)).2.HeldArisen := by
  simp only [Session.perform, Session.consult]
  cases hunit : Repository.unit unit s.repository with
  | mk outcome r =>
    have hrest : ({ s with repository := r } : Session).HeldArisen := hs.of_held rfl
    cases outcome with
    | error fault => exact hrest
    | ok found =>
      cases found with
      | none => exact hrest
      | some h =>
        exact hrest.hold (Handle.arisen_of_ref? (Repository.ref?_of_unit hkeyed hunit).1) name

theorem HeldArisen.addAttribute (hs : s.HeldArisen) (name source attributeName : String) :
    (s.perform (.addAttribute name source attributeName)).2.HeldArisen := by
  refine hs.withHandle fun h _ => ?_
  simp only [Session.ask]
  cases hfound : Handle.attribute? attributeName (s.repository, h) with
  | mk outcome t =>
    have hrest : ({ s with repository := t.1 } : Session).HeldArisen := hs.of_held rfl
    cases outcome with
    | error fault => exact hrest
    | ok found =>
      cases found with
      | none => exact hrest
      | some a => exact hrest.handling name (fun _ => Handle.moves_addAttribute a) _

/-- **No operation holds a new unit whose status does not lead from effective.** -/
theorem HeldArisen.perform (hs : s.HeldArisen) (hkeyed : s.repository.cache.Keyed)
    (operation : Operation) : (s.perform operation).2.HeldArisen := by
  cases operation with
  | define name kind scalar => exact hs.consulting _ _
  | info name => exact hs.consulting _ _
  | infoById id => exact hs.consulting _ _
  | infos => exact hs.consulting _ _
  | create name tenant unitName =>
    have hrest : (s.consult (Repository.create tenant unitName)).2.HeldArisen := hs.of_held rfl
    exact hrest.hold (Handle.arisen_create _ _ _) name
  | get name unit => exact hs.get hkeyed name unit
  | clone name other => exact hs.withHandle fun h hfind => hs.hold (hs other h hfind) name
  | look name => exact hs.withHandle fun h _ => hs
  | «exists» unit => exact hs.consulting _ _
  | rename name unitName =>
    exact hs.withHandle fun h hfind => hs.hold ((hs name h hfind).same (h.ref?_rename unitName) rfl) name
  | store name =>
    refine hs.working (fun h ha => ?_) _
    rw [snd_store_held]
    exact ha.store
  | sameCorrelation name other => exact hs.withHandle fun h _ => hs.withHandle fun h' _ => hs
  | currentStatus name => exact hs.asking name _ _
  | request name status => exact hs.working (fun h ha => ha.request status) _
  | activate name => exact hs.working (fun h ha => ha.request .effective) _
  | inactivate name => exact hs.working (fun h ha => ha.inactivate) _
  | delete name => exact hs.working (fun h ha => ha.request .pendingDisposition) _
  | dispose tenant => exact hs.consulting _ _
  | fetch name => exact hs.handling name (fun _ => Handle.moves_fetch) _
  | attributeNames name => exact hs.handling name (fun _ => Handle.moves_attributeNames) _
  | attributes name => exact hs.handling name (fun _ => Handle.moves_attributeList) _
  | findAttribute name attributeName =>
    exact hs.handling name (fun _ => Handle.moves_attribute? attributeName) _
  | attributeOrCreate name attributeName =>
    exact hs.handling name (fun _ => Handle.moves_attributeOrCreate attributeName) _
  | editAttribute name attributeName step =>
    exact hs.handling name (fun _ => Handle.moves_changeAttribute attributeName _) _
  | addAttribute name source attributeName => exact hs.addAttribute name source attributeName
  | removeAttribute name attributeName =>
    exact hs.handling name (fun _ => Handle.moves_removeAttribute attributeName) _
  | storeAttribute name attributeName =>
    exact hs.handling name (fun _ => Handle.moves_storeAttribute trivial attributeName) _
  | storeValue name attributeName valueId =>
    exact hs.handling name (fun _ => Handle.moves_storeValue trivial attributeName valueId) _
  | lock name kind purpose => exact hs.asking name _ _
  | lockUnit unit kind purpose => exact hs.consulting _ _
  | unlock name => exact hs.asking name _ _
  | isLocked name => exact hs.asking name _ _
  | locks name => exact hs.asking name _ _
  | addRelation name kind other => exact hs.withHandle fun h' _ => hs.asking name _ _
  | removeRelation name kind other => exact hs.withHandle fun h' _ => hs.asking name _ _
  | relations name kind => exact hs.asking name _ _
  | relatedFrom name kind => exact hs.asking name _ _
  | addAssociation name kind reference => exact hs.asking name _ _
  | removeAssociation name kind reference => exact hs.asking name _ _
  | associations name kind => exact hs.asking name _ _
  | associatedUnits kind reference => exact hs.consulting _ _
  | search search => exact hs.consulting _ _
  | cacheSize => exact hs.of_held rfl
  | cacheClear => exact hs.of_held rfl
  | cacheRemove target =>
    simp only [Session.perform]
    split
    · exact hs.of_held rfl
    · exact hs.of_held rfl
  | cacheStore name => exact hs.withHandle fun h _ => hs.of_held rfl
  | cacheEntry target => exact hs
  | cacheLookup key => exact hs.consulting _ _
  | cacheSweep => exact hs.of_held rfl

/-! ## Whole sessions -/

theorem invariant_keyed : Invariant .all fun r => r.cache.Keyed where
  move := fun _ _ hr hmove => hmove.keyed hr
  circumstances := fun _ _ _ hr => hr

theorem HeldArisen.afterAll (hs : s.HeldArisen) (hkeyed : s.repository.cache.Keyed)
    (events : List Event) : (s.afterAll events).HeldArisen := by
  induction events using List.reverseRecOn with
  | nil => exact hs
  | append_singleton events event ih =>
    rw [afterAll_append_single]
    cases event with
    | circumstances contention now => exact ih.of_held rfl
    | perform operation => exact ih.perform (invariant_keyed.always hkeyed events) operation

/-- A unit whose status may not be left for any but some codes has one of them while it is stored. -/
theorem invariant_status {terms : Terms} {unit : UnitRef} (among : Int → Prop)
    (hstays : ∀ code requested, among code → terms.transits unit requested →
      Status.Permitted code requested.code → among requested.code) :
    Invariant terms fun r => (r.database.Numbered ∧ unit.id ≤ r.database.lastUnit) ∧
      ∀ row, r.database.unit? unit = some row → among row.status where
  move := fun _ _ hr hmove =>
    ⟨⟨hmove.numbered hr.1.1, Int.le_trans hr.1.2 (hmove.hasUnit_of_issued hr.1.1).1⟩,
      hmove.keepsStatus hr.1.1 hr.1.2 hstays hr.2⟩
  circumstances := fun _ _ _ hr => hr

/-- An event in which no unit is given a status. -/
theorem Event.answersFor_of_asks_none {operation : Operation} (hasks : operation.asks? = none) :
    (Event.perform operation).AnswersFor { Terms.all with transits := fun _ _ => False } s := by
  refine Operation.answersFor_of_parts (fun _ _ => trivial) (fun _ _ _ _ => trivial) ?_
    (fun _ _ _ _ _ _ => trivial) (Or.inr trivial) (Or.inr trivial)
  intro name requested hasked
  rw [hasks] at hasked
  cases hasked

/-- Nothing is asked of a unit that is not held. -/
theorem snd_perform_of_asks_none (hasks : operation.asks? = some (name, requested))
    (hfind : s.handle? name = none) : (s.perform operation).2 = s := by
  have hnone : ∀ (action : Handle.Work Status), (s.working name action .status).2 = s := by
    intro action
    unfold Session.working Session.withHandle
    rw [hfind]
  cases operation with
  | request other status =>
    cases hasks
    exact hnone _
  | activate other =>
    cases hasks
    exact hnone _
  | inactivate other =>
    cases hasks
    exact hnone _
  | delete other =>
    cases hasks
    exact hnone _
  | _ => cases hasks

/-- A request for a status is one move at most. -/
theorem move_of_asks (hasks : operation.asks? = some (name, requested)) :
    (s.perform operation).2.repository = s.repository ∨
      Repository.Move .all s.repository (s.perform operation).2.repository := by
  cases hfind : s.handle? name with
  | none =>
    rw [snd_perform_of_asks_none hasks hfind]
    exact Or.inl rfl
  | some h =>
    rcases perform_of_asks hasks hfind with hperform | ⟨fault, hperform⟩
    · rw [hperform, snd_answered]
      unfold Session.work
      by_cases ht : ∃ unit, h.Transits s.repository requested unit
      · obtain ⟨unit, ht⟩ := ht
        rw [Handle.request_of_transits ht]
        exact Or.inr (.transit ht trivial fun _ => trivial)
      · obtain ⟨status, hrequest⟩ := Handle.snd_request_of_not_transits (not_exists.1 ht)
        left
        rw [repository_hold]
        exact congrArg Prod.fst hrequest
    · rw [hperform]
      exact Or.inl rfl

/-- **In one event the status of a unit takes a step of the table at most.** -/
theorem status_after (hnumbered : s.repository.database.Numbered) (event : Event) {unit : UnitRef}
    {old new : UnitRow} (hold : s.repository.database.unit? unit = some old)
    (hnew : (s.after event).repository.database.unit? unit = some new) :
    new.status = old.status ∨ Status.Permitted old.status new.status := by
  cases event with
  | circumstances contention now =>
    cases hold.symm.trans hnew
    exact Or.inl rfl
  | perform operation =>
    cases hasks : operation.asks? with
    | none =>
      have hissued := hnumbered.issued_of_unit? hold
      have hsame : ∀ row, s.repository.database.unit? unit = some row → row.status = old.status := by
        intro row hrow
        cases hold.symm.trans hrow
        rfl
      have hkept := (invariant_status (· = old.status) fun _ _ _ => False.elim).after
        ⟨⟨hnumbered, hissued⟩, hsame⟩ (Event.answersFor_of_asks_none hasks)
      exact Or.inl (hkept.2 new hnew)
    | some asked =>
      obtain ⟨name, requested⟩ := asked
      rcases move_of_asks (s := s) hasks with hsame | hmove
      · rw [Session.after, hsame] at hnew
        cases hold.symm.trans hnew
        exact Or.inl rfl
      · rcases hmove.status_cases hnumbered hnew with
          ⟨row, hrow, hkept | ⟨status, -, -, hpermitted⟩⟩ | ⟨hnone, -⟩
        · cases hold.symm.trans hrow
          exact Or.inl hkept
        · cases hold.symm.trans hrow
          exact Or.inr hpermitted
        · cases hold.symm.trans hnone

/-- **A unit that may not leave its status has it as long as it is stored.** -/
theorem status_afterAll (hnumbered : s.repository.database.Numbered) {unit : UnitRef} {row : UnitRow}
    {status : Status} (hfinal : ∀ requested, status.permits requested = false)
    (hrow : s.repository.database.unit? unit = some row) (hstatus : row.status = status.code)
    (later : List Event) {row' : UnitRow}
    (hlater : (s.afterAll later).repository.database.unit? unit = some row') :
    row'.status = status.code := by
  have hissued := hnumbered.issued_of_unit? hrow
  have hstays : ∀ code requested, code = status.code → Terms.all.transits unit requested →
      Status.Permitted code requested.code → requested.code = status.code := by
    rintro code requested rfl - ⟨current, next, hcurrent, -, hpermits⟩
    cases Status.code_injective hcurrent
    rw [hfinal next] at hpermits
    cases hpermits
  have hbegin : ∀ row', s.repository.database.unit? unit = some row' → row'.status = status.code := by
    intro row' hrow'
    cases hrow.symm.trans hrow'
    exact hstatus
  exact ((invariant_status (· = status.code) hstays).always ⟨⟨hnumbered, hissued⟩, hbegin⟩ later).2 row'
    hlater

/-- The terms on which units are stored that have a status leading from effective. -/
def arisenTerms : Terms :=
  { Terms.all with stores := Handle.Arisen }

theorem HeldArisen.answersFor (hs : s.HeldArisen) (event : Event) : event.AnswersFor arisenTerms s := by
  cases event with
  | circumstances contention now => trivial
  | perform operation =>
    exact Operation.answersFor_of_parts (fun _ _ => trivial) (fun name h _ hfind => hs name h hfind)
      (fun _ _ _ _ => trivial) (fun _ _ _ _ _ _ => trivial) (Or.inr trivial) (Or.inr trivial)

theorem invariant_arisenSince (base : Database) : Invariant arisenTerms
    fun r => r.database.Numbered ∧ Repository.ArisenSince base r.database where
  move := fun _ _ hr hmove =>
    ⟨hmove.numbered hr.1, hmove.arisenSince hr.1 (fun _ ha hid => ha (by rw [Handle.ref?, hid]; rfl)) hr.2⟩
  circumstances := fun _ _ _ hr => hr

/-- **The lifecycle of units.** Whatever is done through any number of handles, however old: in one event
the status of a stored unit takes a step of the table of transitions at most, so that a unit given up for
disposal, or archived, has that status as long as it is stored; a unit that is stored for the first time
has a status that leads from effective; and every request for a status is answered as the status of the
unit and the table say, and is refused without a trace. -/
theorem statuses_follow_table {settings : Settings} {db : Database} {now : DateTime} {serial : Nat}
    (hnumbered : db.Numbered) (events : List Event) (event : Event) :
    let before := (ofRepository (.open settings db now serial)).afterAll events
    let after := before.after event
    (∀ unit old new, before.repository.database.unit? unit = some old →
        after.repository.database.unit? unit = some new →
        new.status = old.status ∨ Status.Permitted old.status new.status) ∧
      (∀ unit row status, status = .pendingDisposition ∨ status = .archived →
        before.repository.database.unit? unit = some row → row.status = Status.code status →
        ∀ later row', (before.afterAll later).repository.database.unit? unit = some row' →
          row'.status = Status.code status) ∧
      (∀ unit row, before.repository.database.unit? unit = none →
        after.repository.database.unit? unit = some row →
        ∃ status, Status.Leads .effective status ∧ row.status = status.code) ∧
      ∀ operation name requested h, event = .perform operation →
        operation.asks? = some (name, requested) → before.handle? name = some h →
        before.Answered name requested h (before.perform operation).1 after := by
  intro before after
  have hbefore : before.repository.database.Numbered := invariant_numbered.always hnumbered events
  refine ⟨fun unit old new => status_after hbefore event, ?final, ?arisen, ?requests⟩
  case final =>
    rintro unit row status hstatus hrow hcode later row' hlater
    refine status_afterAll hbefore ?_ hrow hcode later hlater
    rcases hstatus with rfl | rfl
    · exact Status.not_permits_of_pendingDisposition
    · exact Status.not_permits_of_archived
  case arisen =>
    intro unit row hnone hrow
    have hkeyed : (Repository.open settings db now serial).cache.Keyed := Cache.all_empty _
    have hheld : before.HeldArisen := (heldArisen_ofRepository _).afterAll hkeyed events
    have hafter := (invariant_arisenSince before.repository.database).after
      ⟨hbefore, Repository.arisenSince_refl _⟩ (hheld.answersFor event)
    exact hafter.2 unit row hrow hnone
  case requests =>
    rintro operation name requested h rfl hasks hfind
    exact answered_of_asks hasks hfind

/-- A unit is stored, and given up for disposal through one of two handles. -/
def givenUp : List Event :=
  storedUnit ++ [.perform (.clone "b" "a"), .perform (.delete "a")]

/-- The other handle does not know, but its request finds out, and the unit stays given up. -/
theorem givenUp_stays :
    Database.empty.Numbered ∧
      ∃ h, (fresh.afterAll givenUp).handle? "b" = some h ∧ h.status = .effective ∧
        (fresh.afterAll givenUp).Answered "b" .effective h
          ((fresh.afterAll givenUp).perform (.activate "b")).1
          ((fresh.afterAll givenUp).after (.perform (.activate "b"))) ∧
        ∀ later row, ((fresh.afterAll givenUp).afterAll later).repository.database.unit? ⟨1, 1⟩ = some row →
          row.status = Status.pendingDisposition.code := by
  have hheld : ((fresh.afterAll givenUp).handle? "b").map (·.status) = some .effective := by
    decide +kernel
  have hrow : ((fresh.afterAll givenUp).repository.database.unit? ⟨1, 1⟩).map (·.status) =
      some Status.pendingDisposition.code := by decide +kernel
  obtain ⟨h, hfind, hstatus⟩ := Option.map_eq_some_iff.1 hheld
  obtain ⟨row, hrow, hcode⟩ := Option.map_eq_some_iff.1 hrow
  have hnumbered : Database.empty.Numbered := .blank _
  obtain ⟨-, hfinal, -, hanswers⟩ := statuses_follow_table hnumbered givenUp (.perform (.activate "b"))
  exact ⟨hnumbered, h, hfind, hstatus, hanswers _ "b" .effective h rfl rfl hfind,
    hfinal ⟨1, 1⟩ row _ (Or.inl rfl) hrow hcode⟩

end Session

end MetadataStore
