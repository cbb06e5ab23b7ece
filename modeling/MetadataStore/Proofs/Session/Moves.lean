import MetadataStore.Proofs.Handle.Moves
import MetadataStore.Proofs.Session.Coherence

/-!
# `Proofs.Session.Moves` — sessions as runs of moves

Every operation of a session, whatever it answers, makes moves of its repository only. So a property that
every move keeps, and that does not depend on what others hold nor on the time, holds throughout a
session once it holds at the beginning.

## Contents
- `Operation.AnswersFor`, what the caller answers for in an operation; `Operation.asks?`, requests for a
  status; `Operation.IsLinking`, work on links; `Operation.answersFor_of_parts`.
- `Session.moves_perform`: one operation.
- `Session.Invariant`, with `Invariant.after`, `afterAll` and `always`: events, and whole sessions.
- `Session.Continues`, `Invariant.continues`: sessions in which the database is opened again.
-/

namespace MetadataStore

/-- What an operation does is answered for, and a copy that it puts into the cache. -/
def Operation.AnswersFor (terms : Repository.Terms) (s : Session) : Operation → Prop
  | .store name => ∀ h, s.handle? name = some h → h.StoreBrings terms s.repository
  | .request name status =>
    ∀ h, s.handle? name = some h → h.RequestBrings terms s.repository status
  | .activate name => ∀ h, s.handle? name = some h → h.RequestBrings terms s.repository .effective
  | .inactivate name => ∀ h, s.handle? name = some h → h.Unlocked s.repository →
      h.RequestBrings terms s.repository .pendingDeletion
  | .delete name =>
    ∀ h, s.handle? name = some h → h.RequestBrings terms s.repository .pendingDisposition
  | .cacheStore name => ∀ h, s.handle? name = some h → s.repository.cache.Admits h →
      terms.brings s.repository.database h
  | .unlock name => ∀ h unit, s.handle? name = some h → h.ref? = some unit → terms.unlocks unit
  | .storeAttribute _ _ => terms.patches
  | .storeValue _ _ _ => terms.patches
  | .addRelation _ _ _ | .removeRelation _ _ _ => terms.links
  | .addAssociation _ _ _ | .removeAssociation _ _ _ => terms.links
  | .dispose _ => terms.links
  | _ => True

/-- Links may come or go in an operation. -/
def Operation.IsLinking : Operation → Prop
  | .addRelation _ _ _ | .removeRelation _ _ _ => True
  | .addAssociation _ _ _ | .removeAssociation _ _ _ => True
  | .dispose _ => True
  | _ => False

/-- The name of the unit that is asked for another status, and that status. -/
def Operation.asks? : Operation → Option (String × Status)
  | .request name status => some (name, status)
  | .activate name => some (name, .effective)
  | .inactivate name => some (name, .pendingDeletion)
  | .delete name => some (name, .pendingDisposition)
  | _ => none

/-- Where any copy may come into the cache, an operation is answered for by what it stores, the status that
it asks for, the locks that it gives up, what it writes past a unit, and links that come or go. -/
theorem Operation.answersFor_of_parts {terms : Repository.Terms} {s : Session} {operation : Operation}
    (hbrings : ∀ db h, terms.brings db h)
    (hstores : ∀ name h, operation = .store name → s.handle? name = some h → terms.stores h)
    (htransits : ∀ name requested, operation.asks? = some (name, requested) →
      ∀ unit, terms.transits unit requested)
    (hunlocks : ∀ name h unit, operation = .unlock name → s.handle? name = some h →
      h.ref? = some unit → terms.unlocks unit)
    (hpatches : operation.IsOrdinary ∨ terms.patches)
    (hlinks : ¬ operation.IsLinking ∨ terms.links) : operation.AnswersFor terms s := by
  cases operation with
  | store name => exact fun h hfind r' h' _ => ⟨hstores name h rfl hfind, fun _ => hbrings _ _⟩
  | request name status => exact fun h _ unit _ => ⟨htransits name _ rfl unit, fun _ => hbrings _ _⟩
  | activate name => exact fun h _ unit _ => ⟨htransits name _ rfl unit, fun _ => hbrings _ _⟩
  | inactivate name => exact fun h _ _ unit _ => ⟨htransits name _ rfl unit, fun _ => hbrings _ _⟩
  | delete name => exact fun h _ unit _ => ⟨htransits name _ rfl unit, fun _ => hbrings _ _⟩
  | cacheStore name => exact fun h _ _ => hbrings _ _
  | unlock name => exact fun h unit hfind href => hunlocks name h unit rfl hfind href
  | storeAttribute name attributeName => exact hpatches.resolve_left id
  | storeValue name attributeName valueId => exact hpatches.resolve_left id
  | addRelation | removeRelation => exact hlinks.resolve_left fun hno => hno trivial
  | addAssociation | removeAssociation => exact hlinks.resolve_left fun hno => hno trivial
  | dispose tenant => exact hlinks.resolve_left fun hno => hno trivial
  | _ => trivial

namespace Session

open MetadataStore.Action (Keeps)
open MetadataStore.Repository (Move Moves Terms)

variable {terms : Terms} {s : Session} {α : Type}

/-! ## Acting -/

theorem repository_consulting (action : Action Repository α) (make : α → Answer) :
    (s.consulting action make).2.repository = (action s.repository).2 := by
  unfold Session.consulting
  rw [snd_answered]
  rfl

/-- A step on a unit that is held makes moves when it does so on every unit. -/
theorem moves_withHandle {name : String} {step : Handle → Answer × Session}
    (hstep : ∀ h, s.handle? name = some h → Moves terms s.repository (step h).2.repository) :
    Moves terms s.repository (s.withHandle name step).2.repository := by
  unfold Session.withHandle
  cases hfind : s.handle? name with
  | none => exact .refl
  | some h => exact hstep h hfind

theorem moves_consulting {action : Action Repository α}
    (hkeeps : Keeps (Moves terms s.repository) action) (make : α → Answer) :
    Moves terms s.repository (s.consulting action make).2.repository := by
  rw [repository_consulting]
  exact hkeeps _ .refl

theorem moves_asking (name : String) {action : Handle → Action Repository α}
    (hkeeps : ∀ h, Keeps (Moves terms s.repository) (action h)) (make : α → Answer) :
    Moves terms s.repository (s.asking name action make).2.repository :=
  moves_withHandle fun h _ => moves_consulting (hkeeps h) make

theorem moves_working {name : String} {action : Handle.Work α}
    (hwork : ∀ h, s.handle? name = some h → Moves terms s.repository (action (s.repository, h)).2.1)
    (make : α → Answer) : Moves terms s.repository (s.working name action make).2.repository := by
  cases hfind : s.handle? name with
  | none =>
    unfold Session.working Session.withHandle
    rw [hfind]
  | some h =>
    rw [repository_working hfind]
    exact hwork h hfind

/-- Work that makes moves whatever the handle is. -/
theorem moves_handling (name : String) {action : Handle.Work α}
    (hkeeps : ∀ h, Keeps (Handle.Reached terms (s.repository, h)) action) (make : α → Answer) :
    Moves terms s.repository (s.working name action make).2.repository :=
  moves_working (fun h _ => (hkeeps h _ (.refl _)).moves) make

theorem moves_caching {f : Cache → Cache}
    (hf : ∀ P, s.repository.cache.All P → (f s.repository.cache).All P) (make : Cache → Answer) :
    Moves terms s.repository (s.caching f make).2.repository :=
  .single (.forget hf)

theorem moves_get (name : String) (unit : UnitRef) :
    Moves terms s.repository (s.perform (.get name unit)).2.repository := by
  have hmoves : Moves terms s.repository (Repository.unit unit s.repository).2 :=
    Repository.moves_unit unit _ .refl
  simp only [Session.perform, Session.consult]
  cases hunit : Repository.unit unit s.repository with
  | mk outcome r =>
    rw [hunit] at hmoves
    cases outcome with
    | error fault => exact hmoves
    | ok found => cases found <;> exact hmoves

/-- The attribute of another unit is looked up on a copy of that unit, and then attached. -/
theorem moves_addAttribute (name source attributeName : String) :
    Moves terms s.repository (s.perform (.addAttribute name source attributeName)).2.repository := by
  refine moves_withHandle fun h _ => ?_
  have hlooked : Moves terms s.repository
      (Handle.attribute? attributeName (s.repository, h)).2.1 :=
    (Handle.moves_attribute? attributeName (s.repository, h) (.refl _)).moves
  simp only [Session.ask]
  cases hfound : Handle.attribute? attributeName (s.repository, h) with
  | mk outcome t =>
    obtain ⟨r, h'⟩ := t
    rw [hfound] at hlooked
    cases outcome with
    | error fault => exact hlooked
    | ok found =>
      cases found with
      | none => exact hlooked
      | some a =>
        let t : Session := { s with repository := r }
        have hadded : Moves terms t.repository
            (t.working name (Handle.addAttribute a) (Answer.attribute ∘ some)).2.repository :=
          moves_handling name (fun _ => Handle.moves_addAttribute a) _
        exact hlooked.trans hadded

/-! ## One operation -/

/-- **Every operation makes moves of the repository, and nothing else.** -/
theorem moves_perform {operation : Operation} (hanswers : operation.AnswersFor terms s) :
    Moves terms s.repository (s.perform operation).2.repository := by
  cases operation with
  | define name kind scalar => exact moves_consulting (Repository.moves_define name kind scalar) _
  | info name => exact moves_consulting (Repository.moves_findInfo _) _
  | infoById id => exact moves_consulting (Repository.moves_findInfo _) _
  | infos => exact moves_consulting Repository.moves_infos _
  | create name tenant unitName => exact .single (.count _)
  | get name unit => exact moves_get name unit
  | clone name other => exact moves_withHandle fun h _ => .refl
  | look name => exact moves_withHandle fun h _ => .refl
  | «exists» unit => exact moves_consulting (Repository.moves_read _) _
  | rename name unitName => exact moves_withHandle fun h _ => .refl
  | store name =>
    refine moves_working (fun h hfind => ?_) _
    rw [snd_store_held]
    exact Handle.moves_store (hanswers h hfind)
  | sameCorrelation name other => exact moves_withHandle fun h _ => moves_withHandle fun h' _ => .refl
  | currentStatus name => exact moves_asking name Handle.moves_currentStatus _
  | request name status =>
    exact moves_working (fun h hfind => Handle.moves_request (hanswers h hfind)) _
  | activate name =>
    exact moves_working (fun h hfind => Handle.moves_request (hanswers h hfind)) _
  | inactivate name =>
    exact moves_working (fun h hfind => Handle.moves_inactivate (hanswers h hfind)) _
  | delete name =>
    exact moves_working (fun h hfind => Handle.moves_request (hanswers h hfind)) _
  | dispose tenant =>
    rw [Session.perform]
    exact moves_consulting (Repository.moves_dispose hanswers tenant) _
  | fetch name => exact moves_handling name (fun _ => Handle.moves_fetch) _
  | attributeNames name => exact moves_handling name (fun _ => Handle.moves_attributeNames) _
  | attributes name => exact moves_handling name (fun _ => Handle.moves_attributeList) _
  | findAttribute name attributeName =>
    exact moves_handling name (fun _ => Handle.moves_attribute? attributeName) _
  | attributeOrCreate name attributeName =>
    exact moves_handling name (fun _ => Handle.moves_attributeOrCreate attributeName) _
  | editAttribute name attributeName step =>
    exact moves_handling name (fun _ => Handle.moves_changeAttribute attributeName _) _
  | addAttribute name source attributeName => exact moves_addAttribute name source attributeName
  | removeAttribute name attributeName =>
    exact moves_handling name (fun _ => Handle.moves_removeAttribute attributeName) _
  | storeAttribute name attributeName =>
    exact moves_handling name (fun _ => Handle.moves_storeAttribute hanswers attributeName) _
  | storeValue name attributeName valueId =>
    exact moves_handling name (fun _ => Handle.moves_storeValue hanswers attributeName valueId) _
  | lock name kind purpose => exact moves_asking name (Handle.moves_lock · kind purpose) _
  | lockUnit unit kind purpose => exact moves_consulting (Repository.moves_lock unit kind purpose) _
  | unlock name =>
    exact moves_withHandle fun h hfind => moves_consulting (Handle.moves_unlock (hanswers h · hfind)) _
  | isLocked name => exact moves_asking name Handle.moves_isLocked _
  | locks name => exact moves_asking name Handle.moves_locks _
  | addRelation name kind other =>
    exact moves_withHandle fun h' _ => moves_asking name (Handle.moves_addRelation hanswers · kind h') _
  | removeRelation name kind other =>
    exact moves_withHandle fun h' _ => moves_asking name (Handle.moves_removeRelation hanswers · kind h') _
  | relations name kind => exact moves_asking name (Handle.moves_relations · kind) _
  | relatedFrom name kind => exact moves_asking name (Handle.moves_relatedFrom · kind) _
  | addAssociation name kind reference =>
    exact moves_asking name (Handle.moves_addAssociation hanswers · kind reference) _
  | removeAssociation name kind reference =>
    exact moves_asking name (Handle.moves_removeAssociation hanswers · kind reference) _
  | associations name kind => exact moves_asking name (Handle.moves_associations · kind) _
  | associatedUnits kind reference =>
    exact moves_consulting
      (.bind (Repository.moves_associatedWith kind reference) Repository.moves_resolve) _
  | search search => exact moves_consulting (Repository.moves_search search) _
  | cacheSize => exact moves_caching (fun _ hall => hall) _
  | cacheClear => exact moves_caching (fun _ _ => Cache.all_clear _) _
  | cacheRemove target =>
    simp only [Session.perform]
    split
    · exact moves_caching (fun _ hall => hall.remove _) _
    · exact moves_caching (fun _ hall => hall) _
  | cacheStore name => exact moves_withHandle fun h hfind => .single (.bring (hanswers h hfind))
  | cacheEntry target => exact .refl
  | cacheLookup key => exact moves_consulting (Repository.moves_cached key) _
  | cacheSweep => exact .single (.forget fun _ hall => hall.sweep)

/-! ## Whole sessions -/

/-- What is answered for at an event. -/
def Event.AnswersFor (terms : Terms) (s : Session) : Event → Prop
  | .perform operation => operation.AnswersFor terms s
  | .circumstances _ _ => True

/-- A property of repositories that all moves keep, under all circumstances. -/
structure Invariant (terms : Terms) (I : Repository → Prop) : Prop where
  move : ∀ r r', I r → Move terms r r' → I r'
  circumstances : ∀ r contention now, I r → I { r with contention, now }

theorem Invariant.perform {I : Repository → Prop} (hI : Invariant terms I)
    (hs : I s.repository) {operation : Operation} (hanswers : operation.AnswersFor terms s) :
    I (s.perform operation).2.repository :=
  (moves_perform hanswers).keep hI.move hs

theorem Invariant.after {I : Repository → Prop} (hI : Invariant terms I) (hs : I s.repository)
    {event : Event} (hanswers : event.AnswersFor terms s) : I (s.after event).repository := by
  cases event with
  | perform operation => exact hI.perform hs hanswers
  | circumstances contention now => exact hI.circumstances s.repository contention now hs

/-- **An invariant holds throughout a session** in which every copy that comes into the cache of itself is
answered for. -/
theorem Invariant.afterAll {I : Repository → Prop} (hI : Invariant terms I) (hs : I s.repository)
    (events : List Event)
    (hanswers : ∀ done event, done ++ [event] <+: events → event.AnswersFor terms (s.afterAll done)) :
    I (s.afterAll events).repository := by
  induction events using List.reverseRecOn with
  | nil => exact hs
  | append_singleton events event ih =>
    rw [afterAll_append_single]
    have hbefore := ih fun done other hdone =>
      hanswers done other (hdone.trans (List.prefix_append _ _))
    exact hI.after hbefore (hanswers events event List.prefix_rfl)

/-- Where everything may be done, nothing need be answered for. -/
theorem Event.answersFor_all (s : Session) (event : Event) : event.AnswersFor .all s := by
  cases event with
  | perform operation =>
    exact Operation.answersFor_of_parts (fun _ _ => trivial) (fun _ _ _ _ => trivial)
      (fun _ _ _ _ => trivial) (fun _ _ _ _ _ _ => trivial) (Or.inr trivial) (Or.inr trivial)
  | circumstances contention now => trivial

/-- **An invariant that asks for nothing** holds throughout every session. -/
theorem Invariant.always {I : Repository → Prop} (hI : Invariant .all I)
    (hs : I s.repository) (events : List Event) : I (s.afterAll events).repository :=
  hI.afterAll hs events fun _ event _ => event.answersFor_all _

/-! ## Sessions and reopenings -/

/-- How a session may go on: with events that are allowed where they happen, and by opening the database
again, under any settings, while what is held stays as it is. -/
inductive Continues (allows : Session → Event → Prop) (s : Session) : Session → Prop
  | refl : Continues allows s s
  | event {t : Session} (event : Event) :
    Continues allows s t → allows t event → Continues allows s (t.after event)
  | reopen {t : Session} (settings : Settings) (now : DateTime) (serial : Nat) :
    Continues allows s t →
      Continues allows s { t with repository := .open settings t.repository.database now serial }

/-- **An invariant that opening anew keeps** holds however a session goes on, as long as all that is
allowed is answered for. -/
theorem Invariant.continues {I : Repository → Prop} (hI : Invariant terms I)
    {allows : Session → Event → Prop} {t : Session}
    (hanswers : ∀ t event, allows t event → event.AnswersFor terms t)
    (hopen : ∀ r settings now serial, I r → I (.open settings r.database now serial))
    (h : Continues allows s t) (hs : I s.repository) : I t.repository := by
  induction h with
  | refl => exact hs
  | event event _ hallowed ih => exact hI.after ih (hanswers _ event hallowed)
  | reopen settings now serial _ ih => exact hopen _ settings now serial ih

end Session

end MetadataStore
