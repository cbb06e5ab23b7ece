import Mathlib.Data.List.Induction
import MetadataStore.Proofs.Handle.Coherence
import MetadataStore.Session.Operation

/-!
# `Proofs.Session.Coherence` — caches through whole sessions

Any number of handles may be held of one unit, each as old as its last use, and any of them may store or
change a status. Both put a copy into the cache, and that copy is all the handle has. So the cache is
coherent through a session exactly as long as each such call is clean: as long as what it does not write
is as it is stored.

## Contents
- `Session.Kept`, with one lemma for each way of acting.
- `Operation.IsClean`; `Session.Kept.perform`, `Session.isClean_of_coherent`: one operation.
- `Session.Event`, `Session.afterAll`, `Session.coherent_iff_clean`: whole sessions.
-/

namespace MetadataStore.Session

/-! ## What is kept -/

/-- The repository is kept well, and every unit that is held is one of its units. -/
structure Kept (asked : Prop) (s : Session) : Prop where
  repository : s.repository.Kept s.repository.database asked
  held : ∀ entry ∈ s.held, entry.2.Sound s.repository.database

variable {asked : Prop} {s : Session} {α : Type}

theorem Kept.handle? (hs : Kept asked s) {name : String} {h : Handle}
    (hfind : s.handle? name = some h) : h.Sound s.repository.database :=
  hs.held (name, h) (Keyed.mem_of_lookup hfind)

/-- A unit that is held, together with the repository. -/
theorem Kept.handleKept (hs : Kept asked s) {name : String} {h : Handle}
    (hfind : s.handle? name = some h) :
    Handle.Kept s.repository.database asked (s.repository, h) :=
  ⟨hs.repository, hs.handle? hfind⟩

/-- The repository goes on, and the units held are as good as before. -/
theorem Kept.goOn (hs : Kept asked s) {r : Repository}
    (hr : r.Kept s.repository.database asked) : Kept asked { s with repository := r } where
  repository := { hr with definitions := List.prefix_rfl }
  held := fun entry hmem => (hs.held entry hmem).extend hr.definitions

theorem Kept.hold (hs : Kept asked s) {h : Handle} (hsound : h.Sound s.repository.database)
    (name : String) : Kept asked (s.hold name h) where
  repository := hs.repository
  held := by
    intro entry hmem
    rcases List.mem_cons.1 hmem with rfl | hold
    · exact hsound
    · exact hs.held entry (List.mem_filter.1 hold).1

/-! ## Acting -/

theorem Kept.consult (hs : Kept asked s) {action : Action Repository α}
    (hkeeps : Action.Keeps (Repository.Kept s.repository.database asked) action) :
    Kept asked (s.consult action).2 :=
  hs.goOn (hkeeps _ hs.repository)

theorem snd_answered (make : α → Answer) (result : Except Fault α × Session) :
    (answered make result).2 = result.2 := by
  obtain ⟨outcome, t⟩ := result
  cases outcome <;> rfl

theorem Kept.consulting (hs : Kept asked s) {action : Action Repository α}
    (hkeeps : Action.Keeps (Repository.Kept s.repository.database asked) action)
    (make : α → Answer) : Kept asked (s.consulting action make).2 := by
  unfold Session.consulting
  rw [snd_answered]
  exact hs.consult hkeeps

/-- A step on a unit that is held, if there is one under the name. -/
theorem Kept.withHandle (hs : Kept asked s) {name : String} {step : Handle → Answer × Session}
    (hstep : ∀ h, s.handle? name = some h → Kept asked (step h).2) :
    Kept asked (s.withHandle name step).2 := by
  unfold Session.withHandle
  cases hfind : s.handle? name with
  | none => exact hs
  | some h => exact hstep h hfind

theorem Kept.asking (hs : Kept asked s) (name : String) {action : Handle → Action Repository α}
    (hkeeps : ∀ h, Action.Keeps (Repository.Kept s.repository.database asked) (action h))
    (make : α → Answer) : Kept asked (s.asking name action make).2 :=
  hs.withHandle fun h _ => hs.consulting (hkeeps h) make

theorem Kept.working (hs : Kept asked s) {name : String} {action : Handle.Work α}
    (hwork : ∀ h, s.handle? name = some h →
      Handle.Kept s.repository.database asked (s.repository, h) →
      Handle.Kept s.repository.database asked (action (s.repository, h)).2)
    (make : α → Answer) : Kept asked (s.working name action make).2 := by
  refine hs.withHandle fun h hfind => ?_
  rw [snd_answered]
  have hafter := hwork h hfind (hs.handleKept hfind)
  exact (hs.goOn hafter.repository).hold hafter.handle name

/-- Edits of a unit that is held. -/
theorem Kept.editing (hs : Kept asked s) {name : String} {action : Handle.Work α}
    (hedit : ∀ h, h.Sound s.repository.database → ∃ allowed,
      Handle.Edited allowed (s.repository, h) (action (s.repository, h)).2)
    (make : α → Answer) : Kept asked (s.working name action make).2 :=
  hs.working (fun h _ hboth => by
    obtain ⟨allowed, hedited⟩ := hedit h hboth.handle
    exact hboth.edited hedited) make

theorem Kept.caching (hs : Kept asked s) {f : Cache → Cache}
    (hf : ∀ P, s.repository.cache.All P → (f s.repository.cache).All P) (make : Cache → Answer) :
    Kept asked (s.caching f make).2 :=
  hs.goOn (hs.repository.withCache hf)

/-- Attaching an attribute of another unit: the attribute is looked up on a copy of that unit. -/
theorem Kept.adding (hs : Kept asked s) (name source attributeName : String) :
    Kept asked (s.perform (.addAttribute name source attributeName)).2 := by
  refine hs.withHandle fun h hfind => ?_
  have hsound := hs.repository.sound.database
  rcases Handle.attribute?_of_sound hsound h attributeName with hfound | ⟨fault, hfound⟩
  · have hask : s.ask h (Handle.attribute? attributeName) =
        (.ok (AttributeMap.get? (h.fetched s.repository.database).loaded (Text.lower attributeName)),
          s) := by
      unfold Session.ask
      rw [hfound]
    rw [hask]
    cases hget : AttributeMap.get? (h.fetched s.repository.database).loaded
        (Text.lower attributeName) with
    | none => exact hs
    | some a =>
      have hfetch : Handle.Change (fun _ => True) s.repository.database h
          (h.fetched s.repository.database) := .fetch h
      have hknown : AttributeMap.Known s.repository.database (h.fetched s.repository.database).loaded :=
        hfetch.known hsound (hs.handle? hfind).known
      have hcatalogued := hknown.catalogued _ (hknown.get?_eq_some_iff.1 hget)
      exact hs.editing (fun other _ => ⟨fun _ => True, Handle.edited_addAttribute hsound
        hs.repository.sound.catalog other hcatalogued⟩) _
  · have hask : s.ask h (Handle.attribute? attributeName) = (.error fault, s) := by
      unfold Session.ask
      rw [hfound]
    rw [hask]
    exact hs

end MetadataStore.Session

namespace MetadataStore.Operation

/-- The operations on units as wholes and on the repository; the other two write one attribute of a unit
alone, past the unit. -/
def IsOrdinary : Operation → Prop
  | .storeAttribute _ _ => False
  | .storeValue _ _ _ => False
  | _ => True

/-- An operation that puts a unit into the cache does so with what it wrote, and with what is stored. -/
def IsClean (s : Session) : Operation → Prop
  | .store name => ∀ h, s.handle? name = some h → h.StoresCleanly s.repository
  | .request name status => ∀ h, s.handle? name = some h → h.TransitsCleanly s.repository status
  | .activate name => ∀ h, s.handle? name = some h → h.TransitsCleanly s.repository .effective
  | .inactivate name => ∀ h, s.handle? name = some h → h.Unlocked s.repository →
      h.TransitsCleanly s.repository .pendingDeletion
  | .delete name => ∀ h, s.handle? name = some h → h.TransitsCleanly s.repository .pendingDisposition
  | .cacheStore name => ∀ h, s.handle? name = some h → s.repository.cache.Admits h →
      h.Fresh s.repository.database
  | _ => True

end MetadataStore.Operation

namespace MetadataStore.Session

variable {asked : Prop} {s : Session}

/-! ## One operation -/

/-- What a store leaves is what it leaves when the unit is answered too. -/
theorem snd_store_held (t : Repository × Handle) :
    ((do Handle.store; Handle.held : Handle.Work Handle) t).2 = (Handle.store t).2 := by
  rw [Action.bind_apply]
  cases Handle.store t with
  | mk outcome u => cases outcome <;> rfl

theorem Kept.get (hs : Kept asked s) (name : String) (unit : UnitRef) :
    Kept asked (s.perform (.get name unit)).2 := by
  have hkept := hs.consult (Repository.keeps_unit unit)
  unfold Session.consult at hkept
  simp only [Session.perform, Session.consult]
  cases hunit : Repository.unit unit s.repository with
  | mk outcome r =>
    rw [hunit] at hkept
    cases outcome with
    | error fault => exact hkept
    | ok found =>
      cases found with
      | none => exact hkept
      | some copy => exact hkept.hold (hs.repository.sound_of_unit hunit) name

theorem Kept.cacheStore (hs : Kept asked s) {name : String}
    (hclean : asked → (Operation.cacheStore name).IsClean s) :
    Kept asked (s.perform (.cacheStore name)).2 := by
  refine hs.withHandle fun h hfind => ?_
  cases href : h.ref? with
  | none =>
    -- a unit without a number is not cached
    refine hs.caching (fun P hall => ?_) _
    rw [Cache.store_of_ref?_none href]
    exact hall
  | some unit =>
    exact hs.goOn (hs.repository.replacing href hs.repository.sound List.prefix_rfl (fun _ _ => rfl)
      (hs.handle? hfind) fun hasked => hclean hasked h hfind)

/-- **Every clean operation keeps the cache coherent**, and every operation keeps all else. -/
theorem Kept.perform (hs : Kept asked s) {operation : Operation} (hordinary : operation.IsOrdinary)
    (hclean : asked → operation.IsClean s) : Kept asked (s.perform operation).2 := by
  have hdb := hs.repository.sound.database
  have hof := hs.repository.sound.catalog
  cases operation with
  | define name kind scalar => exact hs.consulting (Repository.keeps_define name kind scalar) _
  | info name => exact hs.consulting (Repository.keeps_findInfo _) _
  | infoById id => exact hs.consulting (Repository.keeps_findInfo _) _
  | infos => exact hs.consulting Repository.keeps_infos _
  | create name tenant unitName =>
    exact (hs.consult (Repository.keeps_create tenant unitName)).hold (.create _ _ _ _) name
  | get name unit => exact hs.get name unit
  | clone name other => exact hs.withHandle fun h hfind => hs.hold (hs.handle? hfind) name
  | look name => exact hs.withHandle fun h _ => hs
  | «exists» unit => exact hs.consulting (Repository.keeps_read _) _
  | rename name unitName =>
    exact hs.withHandle fun h hfind =>
      hs.hold (h := h.rename unitName) ⟨(hs.handle? hfind).known, (hs.handle? hfind).dated⟩ name
  | store name =>
    refine hs.working (fun h hfind hboth => ?_) _
    rw [snd_store_held]
    exact hboth.store fun hasked => hclean hasked h hfind
  | sameCorrelation name other => exact hs.withHandle fun h _ => hs.withHandle fun h' _ => hs
  | currentStatus name => exact hs.asking name Handle.keeps_currentStatus _
  | request name status =>
    exact hs.working (fun h hfind hboth => hboth.request fun hasked => hclean hasked h hfind) _
  | activate name =>
    exact hs.working (fun h hfind hboth => hboth.request fun hasked => hclean hasked h hfind) _
  | inactivate name =>
    exact hs.working (fun h hfind hboth => hboth.inactivate fun hasked => hclean hasked h hfind) _
  | delete name =>
    exact hs.working (fun h hfind hboth => hboth.request fun hasked => hclean hasked h hfind) _
  | dispose tenant => exact hs.consulting (Repository.keeps_dispose tenant) _
  | fetch name =>
    exact hs.editing (fun h _ => ⟨fun _ => True, Handle.edited_fetch hdb hof h⟩) _
  | attributeNames name =>
    exact hs.editing (fun h _ => ⟨fun _ => True, Handle.edited_looking hdb hof h AttributeMap.names⟩) _
  | attributes name =>
    exact hs.editing (fun h _ => ⟨fun _ => True, Handle.edited_looking hdb hof h AttributeMap.sorted⟩) _
  | findAttribute name attributeName =>
    exact hs.editing (fun h _ => ⟨fun _ => True, Handle.edited_looking hdb hof h
      fun attributes => AttributeMap.get? attributes (Text.lower attributeName)⟩) _
  | attributeOrCreate name attributeName =>
    exact hs.editing (fun h _ =>
      ⟨fun _ => True, (Handle.edited_attributeOrCreate hdb hof h attributeName).1⟩) _
  | editAttribute name attributeName step =>
    exact hs.editing (fun h _ =>
      ⟨fun _ => True, Handle.edited_changeAttribute hdb hof h attributeName trivial⟩) _
  | addAttribute name source attributeName => exact hs.adding name source attributeName
  | removeAttribute name attributeName =>
    exact hs.editing (fun h _ =>
      ⟨fun _ => True, Handle.edited_removeAttribute hdb hof h attributeName⟩) _
  | storeAttribute name attributeName => exact hordinary.elim
  | storeValue name attributeName valueId => exact hordinary.elim
  | lock name kind purpose => exact hs.asking name (Handle.keeps_lock · kind purpose) _
  | lockUnit unit kind purpose => exact hs.consulting (Repository.keeps_lock unit kind purpose) _
  | unlock name => exact hs.asking name Handle.keeps_unlock _
  | isLocked name => exact hs.asking name Handle.keeps_isLocked _
  | locks name => exact hs.asking name Handle.keeps_locks _
  | addRelation name kind other =>
    exact hs.withHandle fun h' _ => hs.asking name (Handle.keeps_addRelation · kind h') _
  | removeRelation name kind other =>
    exact hs.withHandle fun h' _ => hs.asking name (Handle.keeps_removeRelation · kind h') _
  | relations name kind => exact hs.asking name (Handle.keeps_relations · kind) _
  | relatedFrom name kind => exact hs.asking name (Handle.keeps_relatedFrom · kind) _
  | addAssociation name kind reference =>
    exact hs.asking name (Handle.keeps_addAssociation · kind reference) _
  | removeAssociation name kind reference =>
    exact hs.asking name (Handle.keeps_removeAssociation · kind reference) _
  | associations name kind => exact hs.asking name (Handle.keeps_associations · kind) _
  | associatedUnits kind reference =>
    exact hs.consulting
      (.bind (Repository.keeps_associatedWith kind reference) Repository.keeps_resolve) _
  | search search => exact hs.consulting (Repository.keeps_search search) _
  | cacheSize => exact hs.caching (fun _ hall => hall) _
  | cacheClear => exact hs.caching (fun _ _ => Cache.all_clear _) _
  | cacheRemove target =>
    simp only [Session.perform]
    split
    · exact hs.caching (fun _ hall => hall.remove _) _
    · exact hs.caching (fun _ hall => hall) _
  | cacheStore name => exact hs.cacheStore hclean
  | cacheEntry target => exact hs
  | cacheLookup key => exact hs.consulting (Repository.keeps_cached key) _
  | cacheSweep => exact hs.goOn (hs.repository.withCache fun _ hall => hall.sweep)

theorem repository_working {name : String} {h : Handle} (hfind : s.handle? name = some h)
    {α : Type} (action : Handle.Work α) (make : α → Answer) :
    (s.working name action make).2.repository = (action (s.repository, h)).2.1 := by
  unfold Session.working Session.withHandle
  rw [hfind]
  dsimp only
  rw [snd_answered]
  rfl

/-- A request that leaves a coherent cache was clean. -/
theorem Kept.transitsCleanly_of_coherent (hs : Kept asked s) {name : String} {h : Handle}
    (hfind : s.handle? name = some h) {requested : Status} {make : Status → Answer}
    (hcoherent : (s.working name (Handle.request requested) make).2.repository.Coherent) :
    h.TransitsCleanly s.repository requested := by
  rw [repository_working hfind] at hcoherent
  exact (hs.handleKept hfind).transitsCleanly_of_coherent hcoherent

/-- **And only clean ones do.** -/
theorem isClean_of_coherent (hs : Kept asked s) {operation : Operation}
    (hcoherent : (s.perform operation).2.repository.Coherent) : operation.IsClean s := by
  cases operation with
  | store name =>
    intro h hfind
    refine (hs.handleKept hfind).storesCleanly_of_coherent ?_
    rw [← snd_store_held, ← repository_working hfind]
    exact hcoherent
  | request name status => exact fun h hfind => hs.transitsCleanly_of_coherent hfind hcoherent
  | activate name => exact fun h hfind => hs.transitsCleanly_of_coherent hfind hcoherent
  | inactivate name =>
    intro h hfind hunlocked
    refine (hs.handleKept hfind).transitsCleanly_of_coherent ?_
    rw [← Handle.inactivate_of_unlocked hunlocked, ← repository_working hfind]
    exact hcoherent
  | delete name => exact fun h hfind => hs.transitsCleanly_of_coherent hfind hcoherent
  | cacheStore name =>
    rintro h hfind ⟨unit, href, hfound⟩
    obtain ⟨entry, hentry⟩ := Option.isSome_iff_exists.1 hfound
    have hcopy := Cache.copy_of_find?_store href hentry
    have hafter : (s.perform (.cacheStore name)).2.repository =
        { s.repository with cache := s.repository.cache.store h } := by
      simp only [Session.perform, Session.withHandle, hfind]
      rfl
    rw [hafter] at hcoherent
    have hfresh := hcoherent.fresh_of_find? (hs.repository.sound.congr rfl rfl)
      (hs.repository.keyed.store h) hentry
    rwa [hcopy] at hfresh
  -- nothing else puts a handle into the cache
  | _ => trivial

/-! ## Whole sessions -/

/-- What may happen to a session: an operation, or other circumstances, which are what others hold of the
database, and the time. -/
inductive Event where
  | perform (operation : Operation)
  | circumstances (contention : Contention) (now : DateTime)

/-- The session after an event. -/
def after (s : Session) : Event → Session
  | .perform operation => (s.perform operation).2
  | .circumstances contention now =>
    { s with repository := { s.repository with contention, now } }

/-- The session after events in turn. -/
def afterAll (s : Session) (events : List Event) : Session :=
  events.foldl after s

@[simp] theorem afterAll_append_single (s : Session) (events : List Event) (event : Event) :
    s.afterAll (events ++ [event]) = (s.afterAll events).after event := by
  simp [afterAll]

def Event.IsOrdinary : Event → Prop
  | .perform operation => operation.IsOrdinary
  | .circumstances _ _ => True

def Event.IsClean (s : Session) : Event → Prop
  | .perform operation => operation.IsClean s
  | .circumstances _ _ => True

theorem Kept.after (hs : Kept asked s) {event : Event} (hordinary : event.IsOrdinary)
    (hclean : asked → event.IsClean s) : Kept asked (s.after event) := by
  cases event with
  | perform operation => exact hs.perform hordinary hclean
  | circumstances contention now =>
    have hr := hs.repository
    exact ⟨⟨hr.sound.congr rfl rfl, hr.definitions, hr.keyed, hr.copies, hr.fresh⟩, hs.held⟩

theorem isClean_of_coherent_after (hs : Kept asked s) {event : Event}
    (hcoherent : (s.after event).repository.Coherent) : event.IsClean s := by
  cases event with
  | perform operation => exact isClean_of_coherent hs hcoherent
  | circumstances contention now => trivial

/-- A session that begins with a sound database. -/
theorem kept_ofRepository (asked : Prop) {settings : Settings} {db : Database} {now : DateTime}
    {serial : Nat} (hsound : db.Sound) (hreadable : db.Readable) :
    Kept asked (ofRepository (.open settings db now serial)) where
  repository := ⟨⟨hsound, hreadable, .empty db⟩, List.prefix_rfl, Cache.all_empty _, Cache.all_empty _,
    fun _ => Cache.all_empty _⟩
  held := fun _ hmem => by cases hmem

/-- **Every session keeps the database sound**, and the copies in its cache under their own keys. -/
theorem kept_afterAll (hs : Kept False s) {events : List Event}
    (hordinary : ∀ event ∈ events, event.IsOrdinary) : Kept False (s.afterAll events) := by
  induction events using List.reverseRecOn with
  | nil => exact hs
  | append_singleton events event ih =>
    rw [afterAll_append_single]
    have hbefore := ih fun other hmem => hordinary other (List.mem_append_left _ hmem)
    exact hbefore.after (hordinary event (List.mem_append_right _ List.mem_cons_self)) False.elim

/-- A session in which everything so far was clean is coherent. -/
theorem kept_of_clean (hs : Kept True s) {events : List Event}
    (hordinary : ∀ event ∈ events, event.IsOrdinary)
    (hclean : ∀ done event, done ++ [event] <+: events → event.IsClean (s.afterAll done)) :
    Kept True (s.afterAll events) := by
  -- from the end: what the last event needs is what all before it keep
  induction events using List.reverseRecOn with
  | nil => exact hs
  | append_singleton events event ih =>
    rw [afterAll_append_single]
    have hbefore := ih (fun other hmem => hordinary other (List.mem_append_left _ hmem))
      fun done other hdone => hclean done other (hdone.trans (List.prefix_append _ _))
    exact hbefore.after (hordinary event (List.mem_append_right _ List.mem_cons_self))
      fun _ => hclean events event List.prefix_rfl

/-- **The cache is coherent throughout a session** exactly when each operation in it that puts a unit into
the cache does so with what it wrote and what is stored: a store is of a handle that is current, a change
of status of one that is fresh but for its status. -/
theorem coherent_iff_clean {settings : Settings} {db : Database} {now : DateTime} {serial : Nat}
    (hsound : db.Sound) (hreadable : db.Readable) {events : List Event}
    (hordinary : ∀ event ∈ events, event.IsOrdinary) :
    let start := ofRepository (.open settings db now serial)
    (∀ done, done <+: events → (start.afterAll done).repository.Coherent) ↔
      ∀ done event, done ++ [event] <+: events → event.IsClean (start.afterAll done) := by
  intro start
  have hstart : ∀ asked, Kept asked start := fun asked => kept_ofRepository asked hsound hreadable
  have hall : ∀ done, done <+: events → ∀ event ∈ done, event.IsOrdinary :=
    fun done hdone event hmem => hordinary event (hdone.subset hmem)
  constructor
  · intro hcoherent done event hdone
    have hbefore := (List.prefix_append done [event]).trans hdone
    -- soundness needs no cleanness, so it is there before the event in any case
    refine isClean_of_coherent_after (kept_afterAll (hstart False) (hall done hbefore)) ?_
    rw [← afterAll_append_single]
    exact hcoherent _ hdone
  · intro hclean done hdone
    have hkept := kept_of_clean (hstart True) (hall done hdone) fun first event hfirst =>
      hclean first event (hfirst.trans hdone)
    exact hkept.repository.coherent trivial

/-! ## Samples -/

/-- A session on a new database. -/
def fresh : Session :=
  ofRepository (.open .inMemory .empty .epoch 0)

/-- A unit is made and stored. -/
def storedUnit : List Event :=
  [.perform (.create "a" 1 (some "first")), .perform (.store "a")]

/-- The cache is coherent as long as no more happens. -/
theorem storedUnit_coherent :
    Database.empty.Sound ∧ Database.empty.Readable ∧ (∀ event ∈ storedUnit, event.IsOrdinary) ∧
      ∀ done, done <+: storedUnit → (fresh.afterAll done).repository.Coherent := by
  have hreadable : Database.empty.Readable := fun _ hmem => by cases hmem
  have hordinary : ∀ event ∈ storedUnit, event.IsOrdinary := by
    intro event hmem
    rcases List.mem_cons.1 hmem with rfl | hmem
    · trivial
    · rw [List.mem_singleton.1 hmem]
      trivial
  refine ⟨.blank _, hreadable, hordinary, (coherent_iff_clean (.blank _) hreadable hordinary).2 ?_⟩
  intro done event hdone
  match done, hdone with
  | [], hdone =>
    obtain ⟨rfl, -⟩ := List.cons_prefix_cons.1 hdone
    trivial
  | [first], hdone =>
    obtain ⟨rfl, hrest⟩ := List.cons_prefix_cons.1 hdone
    obtain ⟨rfl, -⟩ := List.cons_prefix_cons.1 hrest
    intro h hfind r' h' _ _
    cases hfind
    exact Handle.isCurrent_create (.blank _) 1 (some "first") _
  | first :: second :: rest, hdone =>
    have hlength := hdone.length_le
    simp [storedUnit] at hlength

/-- The stored unit gets another name, and is inactivated before that is stored. -/
def renamedUnit : List Event :=
  storedUnit ++ [.perform (.rename "a" (some "second")), .perform (.inactivate "a")]

/-- The cache then has the name that was never stored. -/
theorem renamedUnit_not_coherent :
    (∀ event ∈ renamedUnit, event.IsOrdinary) ∧ ¬(fresh.afterAll renamedUnit).repository.Coherent := by
  have hordinary : ∀ event ∈ renamedUnit, event.IsOrdinary := by
    unfold renamedUnit storedUnit
    simp only [List.cons_append, List.nil_append, List.forall_mem_cons, List.not_mem_nil, false_implies,
      implies_true, and_true]
    exact ⟨trivial, trivial, trivial, trivial⟩
  refine ⟨hordinary, fun hcoherent => ?_⟩
  have hcopy : ((fresh.afterAll renamedUnit).repository.cache.lookup (⟨1, 1⟩ : UnitRef).text).1.map
      (·.name) = some (some "second") := by decide +kernel
  have hrow : ((fresh.afterAll renamedUnit).repository.database.unit? ⟨1, 1⟩).map (·.name) =
      some (some "first") := by decide +kernel
  have hkept := kept_afterAll (s := fresh)
    (kept_ofRepository False (.blank _) fun _ hmem => by cases hmem) hordinary
  exact absurd (hcoherent.name_eq hkept.repository.sound hcopy hrow) (by decide)

end MetadataStore.Session
