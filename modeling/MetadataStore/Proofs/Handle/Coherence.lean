import MetadataStore.Proofs.Handle.Current
import MetadataStore.Proofs.Handle.Storing
import MetadataStore.Proofs.Repository.Coherence

/-!
# `Proofs.Handle.Coherence` — the cache and the copies that handles leave in it

Two calls on a handle put a copy of it into the cache, a store and a change of status. The copy is all
that the handle has, so the cache stays coherent only if what the call did not write was as it is stored.

## Contents
- `Handle.Transits`, `request_of_transits`, `request_of_not_transits`: what a request for a status leaves;
  `Handle.Stands`, the status of a unit.
- `Handle.StoresCleanly`, `Handle.TransitsCleanly`.
- `Handle.Kept`; `Kept.edited`, `Kept.store`, `Kept.request`: what calls on a handle keep.
- `Kept.storesCleanly_of_coherent`, `Kept.transitsCleanly_of_coherent`: and only clean calls keep it.
-/

namespace MetadataStore.Handle

variable {r r' : Repository} {h h' : Handle} {unit : UnitRef}

/-! ## Requests -/

/-- The unit is stored with a status that it may leave for the one asked for, and writing is possible. -/
structure Transits (r : Repository) (h : Handle) (requested : Status) (unit : UnitRef) : Prop where
  ref : h.ref? = some unit
  permitted : ∃ row current, r.database.unit? unit = some row ∧ Status.ofCode row.status = .ok current ∧
    current.permits requested = true
  writing : r.contention.allowsWriting = true

theorem currentStatus_eq_ok (href : h.ref? = some unit) {current : Status} :
    currentStatus h r = (.ok current, r') ↔
      r.contention.allowsReading = true ∧ r' = r ∧
        ∃ row, r.database.unit? unit = some row ∧ Status.ofCode row.status = .ok current := by
  unfold currentStatus
  rw [href]
  simp only [Action.bind_eq_ok, Repository.read_eq_ok]
  constructor
  · rintro ⟨found, t, ⟨hread, rfl, rfl⟩, hrest⟩
    cases hrow : t.database.unit? unit with
    | none =>
      rw [hrow] at hrest
      cases hrest
    | some row =>
      rw [hrow] at hrest
      simp only [Action.ofResult_apply, Prod.mk.injEq] at hrest
      exact ⟨hread, hrest.2.symm, row, rfl, hrest.1⟩
  · rintro ⟨hread, rfl, row, hrow, hstatus⟩
    refine ⟨some row, r', ⟨hread, hrow.symm, rfl⟩, ?_⟩
    simp only [Action.ofResult_apply, hstatus]

/-- Looking for the status changes nothing. -/
theorem snd_currentStatus (h : Handle) (r : Repository) : (currentStatus h r).2 = r := by
  unfold currentStatus
  cases h.ref? with
  | none => rfl
  | some unit =>
    -- nothing after the reading changes anything either
    refine Action.Keeps.bind (I := (· = r)) ?_ ?_ r rfl
    · intro s hs
      rw [Repository.snd_read, hs]
    · intro found
      cases found with
      | none => exact Action.Keeps.fail _
      | some row => exact Action.Keeps.ofResult _

/-- **A request that is granted** is written, and handle and cache have the new status. -/
theorem request_of_transits {requested : Status} (ht : h.Transits r requested unit) :
    request requested (r, h) = (.ok requested,
      ({ r with
        database := r.database.withStatus unit requested
        cache := r.cache.store { h with status := requested } }, { h with status := requested })) := by
  obtain ⟨href, ⟨row, current, hrow, hstatus, hpermits⟩, hwriting⟩ := ht
  have hcurrent : Action.onFirst (currentStatus h) (r, h) = (.ok current, (r, h)) :=
    Action.onFirst_eq_ok.2 ⟨r, (currentStatus_eq_ok href).2
      ⟨Contention.allowsReading_of_allowsWriting hwriting, rfl, row, hrow, hstatus⟩, rfl⟩
  obtain ⟨count, hset⟩ := Database.setUnitStatus_apply unit requested r.database
  have hwrite : Action.onFirst (Repository.write (Transaction.perform
      (Database.setUnitStatus unit requested.code))) (r, { h with status := current }) =
      (.ok count, ({ r with database := r.database.withStatus unit requested },
        { h with status := current })) :=
    Action.onFirst_eq_ok.2 ⟨_, Repository.write_perform_eq_ok.2 ⟨hwriting, _, hset, rfl⟩, rfl⟩
  unfold request
  rw [Action.bind_of_ok (held_apply (r, h)), Action.bind_of_ok hcurrent,
    Action.bind_of_ok (hold_apply { h with status := current } (r, h))]
  simp only [hpermits, Bool.not_true, Bool.false_eq_true, if_false, href]
  rw [Action.bind_of_ok hwrite]
  rfl

/-- The status of the unit: as it is stored, or as it is held while the unit is not stored yet. -/
structure Stands (db : Database) (h : Handle) (status : Status) : Prop where
  held : h.ref? = none → h.status = status
  stored : ∀ unit, h.ref? = some unit → ∃ row, db.unit? unit = some row ∧ row.status = status.code

theorem stands_of_currentStatus {current : Status} (hlook : currentStatus h r = (.ok current, r')) :
    h.Stands r.database current where
  held := by
    intro hnew
    unfold currentStatus at hlook
    rw [hnew] at hlook
    cases hlook
    rfl
  stored := by
    intro unit href
    obtain ⟨-, -, row, hrow, hstatus⟩ := (currentStatus_eq_ok href).1 hlook
    exact ⟨row, hrow, Status.code_of_ofCode hstatus⟩

/-- **A request that is not written** leaves the repository as it is. It fails, or it tells the handle the
status and answers it; a unit that is not stored yet gets the status asked for, if it may have it. -/
theorem request_of_not_transits {requested : Status} (hnot : ∀ unit, ¬ h.Transits r requested unit) :
    (∃ fault status, request requested (r, h) = (.error fault, (r, { h with status })) ∧
        (h.ref? = none → status = h.status)) ∨
      ∃ current status, h.Stands r.database current ∧
        request requested (r, h) = (.ok status, (r, { h with status })) ∧
        (current.permits requested = false ∧ status = current ∨
          current.permits requested = true ∧ status = requested ∧ h.ref? = none) := by
  have hsnd := snd_currentStatus h r
  unfold request
  rw [Action.bind_of_ok (held_apply (r, h))]
  cases hcurrent : currentStatus h r with
  | mk outcome t =>
    rw [hcurrent] at hsnd
    cases hsnd
    cases outcome with
    | error fault =>
      have hfail : Action.onFirst (currentStatus h) (t, h) = (.error fault, (t, h)) :=
        Action.onFirst_eq_error.2 ⟨t, hcurrent, rfl⟩
      rw [Action.bind_of_error hfail]
      exact Or.inl ⟨fault, h.status, rfl, fun _ => rfl⟩
    | ok current =>
      have hlook : Action.onFirst (currentStatus h) (t, h) = (.ok current, (t, h)) :=
        Action.onFirst_eq_ok.2 ⟨t, hcurrent, rfl⟩
      have hstands := stands_of_currentStatus hcurrent
      rw [Action.bind_of_ok hlook, Action.bind_of_ok (hold_apply { h with status := current } (t, h))]
      cases hpermits : current.permits requested with
      | false =>
        exact Or.inr ⟨current, current, hstands, rfl, Or.inl ⟨hpermits, rfl⟩⟩
      | true =>
        simp only [Bool.not_true, Bool.false_eq_true, if_false]
        cases href : h.ref? with
        | none => exact Or.inr ⟨current, requested, hstands, rfl, Or.inr ⟨hpermits, rfl, rfl⟩⟩
        | some unit =>
          -- all is well but for the writing
          obtain ⟨-, -, row, hrow, hstatus⟩ := (currentStatus_eq_ok href).1 hcurrent
          have hblocked : t.contention.allowsWriting = false := by
            by_contra hwriting
            exact hnot unit ⟨href, ⟨row, current, hrow, hstatus, hpermits⟩, by simpa using hwriting⟩
          have hwrite : Action.onFirst (Repository.write (Transaction.perform
              (Database.setUnitStatus unit requested.code))) (t, { h with status := current }) =
              (.error (.write .locked), (t, { h with status := current })) := by
            refine Action.onFirst_eq_error.2 ⟨t, Repository.write_eq_error.2 ⟨?_, rfl⟩, rfl⟩
            unfold Transaction.perform
            rw [hblocked]
            rfl
          simp only [Action.bind_of_error hwrite]
          exact Or.inl ⟨_, current, rfl, nofun⟩

/-- So such a request tells the handle the status at most. -/
theorem snd_request_of_not_transits {requested : Status} (hnot : ∀ unit, ¬ h.Transits r requested unit) :
    ∃ status, (request requested (r, h)).2 = (r, { h with status }) := by
  rcases request_of_not_transits hnot with
    ⟨fault, status, hrequest, -⟩ | ⟨current, status, -, hrequest, -⟩
  · exact ⟨status, by rw [hrequest]⟩
  · exact ⟨status, by rw [hrequest]⟩

/-! ## Clean calls -/

/-- A store, if it succeeds and its copy gets into the cache, is of a current handle. -/
def StoresCleanly (r : Repository) (h : Handle) : Prop :=
  ∀ r' h', store (r, h) = (.ok (), (r', h')) → r.cache.Admits h' → h.IsCurrent r.database

/-- A request for a status, if it is granted and its copy gets into the cache, is of a handle that is fresh
but for its status. -/
def TransitsCleanly (r : Repository) (h : Handle) (requested : Status) : Prop :=
  ∀ unit, h.Transits r requested unit → r.cache.Admits { h with status := requested } →
    h.FreshButStatus r.database

/-- What is kept of a repository and a handle on one of its units. -/
structure Kept (base : Database) (asked : Prop) (s : Repository × Handle) : Prop where
  repository : s.1.Kept base asked
  handle : s.2.Sound s.1.database

variable {base : Database} {asked : Prop} {s t : Repository × Handle}

/-- Soundness goes without freshness. -/
theorem Kept.unasked (hs : Kept base asked s) : Kept base False s where
  repository := { hs.repository with fresh := False.elim }
  handle := hs.handle

/-- Edits bear on the handle alone. -/
theorem Kept.edited {allowed : AttributeStep → Prop} (hs : Kept base asked s)
    (hedited : Edited allowed s t) : Kept base asked t := by
  obtain ⟨r, h⟩ := s
  obtain ⟨r', h'⟩ := t
  obtain ⟨⟨catalog, ht, hof⟩, hchanges⟩ := hedited
  obtain ⟨hrepository, hhandle⟩ := hs
  dsimp only at ht hof hchanges hrepository hhandle
  subst ht
  refine ⟨hrepository.withCatalog hof, ?_⟩
  show h'.Sound r.database
  -- one change after the other, each keeping the attributes catalogued
  induction hchanges with
  | refl => exact hhandle
  | tail _ hchange ih =>
    obtain ⟨hid, hcreated⟩ := hchange.id_eq
    refine ⟨hchange.known hrepository.sound.database ih.known, ?_⟩
    rw [hid, hcreated]
    exact ih.dated

/-! ## Looking and linking -/

open MetadataStore.Action (Keeps)

theorem keeps_currentStatus (h : Handle) :
    Keeps (Repository.Kept base asked) (currentStatus h) := by
  intro r hs
  rw [snd_currentStatus]
  exact hs

theorem keeps_lock (h : Handle) (kind : LockKind) (purpose : String) :
    Keeps (Repository.Kept base asked) (h.lock kind purpose) :=
  .bind (.ofResult _) fun unit => Repository.keeps_lock unit kind purpose

theorem keeps_unlock (h : Handle) : Keeps (Repository.Kept base asked) h.unlock :=
  .bind (.ofResult _) Repository.keeps_unlock

theorem keeps_isLocked (h : Handle) : Keeps (Repository.Kept base asked) h.isLocked := by
  unfold isLocked
  cases h.ref? with
  | none => exact .pure false
  | some unit => exact Repository.keeps_read _

theorem keeps_locks (h : Handle) : Keeps (Repository.Kept base asked) h.locks := by
  unfold locks
  cases h.ref? with
  | none => exact .pure []
  | some unit => exact Repository.keeps_locks unit

theorem keeps_addRelation (h : Handle) (kind : LinkKind) (other : Handle) :
    Keeps (Repository.Kept base asked) (h.addRelation kind other) :=
  .bind (.ofResult _) fun left => .bind (.ofResult _) fun right =>
    Repository.keeps_addRelation left kind right

theorem keeps_removeRelation (h : Handle) (kind : LinkKind) (other : Handle) :
    Keeps (Repository.Kept base asked) (h.removeRelation kind other) :=
  .bind (.ofResult _) fun left => .bind (.ofResult _) fun right =>
    Repository.keeps_removeRelation left kind right

/-- Units at the other end are looked up, those that are not cached in the database. -/
theorem keeps_relations (h : Handle) (kind : LinkKind) :
    Keeps (Repository.Kept base asked) (h.relations kind) := by
  unfold relations
  cases h.ref? with
  | none => exact .pure []
  | some unit => exact .bind (Repository.keeps_relations unit kind) Repository.keeps_resolve

theorem keeps_relatedFrom (h : Handle) (kind : LinkKind) :
    Keeps (Repository.Kept base asked) (h.relatedFrom kind) := by
  unfold relatedFrom
  cases h.ref? with
  | none => exact .pure []
  | some unit => exact .bind (Repository.keeps_relatedTo unit kind) Repository.keeps_resolve

theorem keeps_addAssociation (h : Handle) (kind : LinkKind) (reference : String) :
    Keeps (Repository.Kept base asked) (h.addAssociation kind reference) :=
  .bind (.ofResult _) fun unit => Repository.keeps_addAssociation unit kind reference

theorem keeps_removeAssociation (h : Handle) (kind : LinkKind) (reference : String) :
    Keeps (Repository.Kept base asked) (h.removeAssociation kind reference) :=
  .bind (.ofResult _) fun unit => Repository.keeps_removeAssociation unit kind reference

theorem keeps_associations (h : Handle) (kind : LinkKind) :
    Keeps (Repository.Kept base asked) (h.associations kind) := by
  unfold associations
  cases h.ref? with
  | none => exact .pure []
  | some unit => exact Repository.keeps_associations unit kind

/-! ## Copies in the cache -/

/-- **A clean store keeps the cache coherent.** -/
theorem Kept.store (hs : Kept base asked (r, h)) (hclean : asked → h.StoresCleanly r) :
    Kept base asked (Handle.store (r, h)).2 := by
  cases hstore : Handle.store (r, h) with
  | mk outcome t =>
    obtain ⟨r', h'⟩ := t
    cases outcome with
    | error fault =>
      -- a store that fails changes neither the repository nor the handle
      rw [store_eq_error hstore]
      exact hs
    | ok u =>
      obtain ⟨hrepository, hknown, hdated⟩ := hs
      have hdb := hrepository.sound.database
      obtain ⟨-, hwritable, -, rfl, rfl⟩ := store_eq_ok_of_sound hdb hstore
      have hclean := fun hasked => hclean hasked _ _ hstore
      have hattributes : r.database.attributes <+:
          (h.writtenTo (h.creationTime r) r.database).attributes := attributes_prefix_writtenTo
      have hsound : Handle.Sound (h.writtenTo (h.creationTime r) r.database)
          (h.settle (h.writtenId r.database) (h.creationTime r) (h.writtenValues r.database)) := by
        refine ⟨?_, iff_of_false (Option.some_ne_none _) (Option.some_ne_none _)⟩
        rw [loaded_settle]
        exact (hknown.markWritten _).extend hattributes
      refine ⟨hrepository.replacing (ref?_settle h _ _ _)
        (sound_of_writtenTo hrepository.sound hknown hwritable r.cache) hattributes
        (fun other hne => stored?_writtenTo_of_ne hdb hknown hwritable hne) hsound
        fun hasked hadmits => ?_, hsound⟩
      exact (fresh_settle_iff hdb hknown hwritable hdated r.now).2 (hclean hasked hadmits)

/-- **A clean change of status keeps the cache coherent.** -/
theorem Kept.request {requested : Status} (hs : Kept base asked (r, h))
    (hclean : asked → h.TransitsCleanly r requested) :
    Kept base asked (Handle.request requested (r, h)).2 := by
  obtain ⟨hrepository, hhandle⟩ := hs
  by_cases ht : ∃ unit, h.Transits r requested unit
  · obtain ⟨unit, ht⟩ := ht
    rw [request_of_transits ht]
    have hdb := hrepository.sound.database
    have hcopy : Handle.Sound (r.database.withStatus unit requested) { h with status := requested } :=
      ⟨hhandle.known.extend List.prefix_rfl, hhandle.dated⟩
    refine ⟨hrepository.replacing ht.ref ⟨hdb.withStatus unit requested,
      Database.readable_withStatus hrepository.sound.readable unit requested,
      hrepository.sound.catalog.extend List.prefix_rfl⟩ List.prefix_rfl
      (fun other hne => hdb.stored?_withStatus_of_ne hne) hcopy fun hasked hadmits => ?_, hcopy⟩
    exact (fresh_withStatus_iff hdb hrepository.sound.readable ht.ref requested).2
      (hclean hasked unit ht hadmits)
  · obtain ⟨status, hsnd⟩ := snd_request_of_not_transits (not_exists.1 ht)
    rw [hsnd]
    exact ⟨hrepository, ⟨hhandle.known, hhandle.dated⟩⟩

/-- Inactivating a unit is a request, if it is unlocked. -/
theorem inactivate_of_unlocked (hunlocked : h.Unlocked r) :
    inactivate (r, h) = Handle.request .pendingDeletion (r, h) := by
  unfold inactivate
  rw [Action.bind_of_ok (held_apply (r, h)), Action.bind_of_ok (expectUnlocked_of_unlocked hunlocked)]

theorem inactivate_of_locked (hlocked : ¬ h.Unlocked r) :
    ∃ fault, inactivate (r, h) = (.error fault, (r, h)) := by
  obtain ⟨fault, hcheck⟩ := expectUnlocked_of_not_unlocked hlocked
  unfold inactivate
  rw [Action.bind_of_ok (held_apply (r, h)), Action.bind_of_error hcheck]
  exact ⟨fault, rfl⟩

theorem Kept.inactivate (hs : Kept base asked (r, h))
    (hclean : asked → h.Unlocked r → h.TransitsCleanly r .pendingDeletion) :
    Kept base asked (Handle.inactivate (r, h)).2 := by
  by_cases hunlocked : h.Unlocked r
  · rw [inactivate_of_unlocked hunlocked]
    exact hs.request fun hasked => hclean hasked hunlocked
  · obtain ⟨fault, hlocked⟩ := inactivate_of_locked hunlocked
    rw [hlocked]
    exact hs

/-! ## And only clean calls do -/

/-- A store that leaves a coherent cache was clean. -/
theorem Kept.storesCleanly_of_coherent (hs : Kept base asked (r, h))
    (hcoherent : (Handle.store (r, h)).2.1.Coherent) : h.StoresCleanly r := by
  rintro r' h' hstore ⟨unit, href, hfound⟩
  -- the copy is in the cache afterwards, and a coherent cache holds fresh copies only
  have hafter := hs.unasked.store False.elim
  rw [hstore] at hafter hcoherent
  obtain ⟨-, hwritable, -, hsettled, hkept⟩ :=
    store_eq_ok_of_sound hs.repository.sound.database hstore
  obtain ⟨entry, hentry⟩ := Option.isSome_iff_exists.1 hfound
  have hcopy := Cache.copy_of_find?_store href hentry
  have hcache : r'.cache = r.cache.store h' := by rw [hkept]
  rw [← hcache] at hentry
  have hfresh := hcoherent.fresh_of_find? hafter.repository.sound hafter.repository.keyed hentry
  rw [hcopy, hkept, hsettled] at hfresh
  exact (fresh_settle_iff hs.repository.sound.database hs.handle.known hwritable hs.handle.dated
    r.now).1 hfresh

/-- So was a change of status. -/
theorem Kept.transitsCleanly_of_coherent {requested : Status} (hs : Kept base asked (r, h))
    (hcoherent : (Handle.request requested (r, h)).2.1.Coherent) : h.TransitsCleanly r requested := by
  rintro unit ht ⟨other, href, hfound⟩
  have hafter : Kept base False (Handle.request requested (r, h)).2 := hs.unasked.request False.elim
  rw [request_of_transits ht] at hafter hcoherent
  obtain ⟨entry, hentry⟩ := Option.isSome_iff_exists.1 hfound
  have hcopy := Cache.copy_of_find?_store href hentry
  have hfresh := hcoherent.fresh_of_find? hafter.repository.sound hafter.repository.keyed hentry
  rw [hcopy] at hfresh
  exact (fresh_withStatus_iff hs.repository.sound.database hs.repository.sound.readable ht.ref
    requested).1 hfresh

end MetadataStore.Handle
