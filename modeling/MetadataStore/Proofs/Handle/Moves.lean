import MetadataStore.Proofs.Repository.Moves

/-!
# `Proofs.Handle.Moves` — what work with a held unit does to the repository

Work with a held unit looks at the repository, asks its catalogue, and at most once writes to it; a
store and a granted request put the unit into the cache as they leave it. All of that are moves, whatever
the handle has become.

## Contents
- `Handle.moves_fetch`, `moves_attributeOrCreate` and others: attributes.
- `Handle.StoreBrings`, `RequestBrings`; `moves_store`, `moves_request`, `moves_inactivate`: stores and
  changes of status.
- `Handle.moves_lock` and others: locks and links.
-/

namespace MetadataStore.Handle

open MetadataStore.Action (Keeps)
open MetadataStore.Repository (Moves Terms)

variable {terms : Terms} {r : Repository} {h : Handle} {α : Type}

/-- Moves alone led to the repository, and the handle is on the same unit with the same status. -/
structure Reached (terms : Terms) (base s : Repository × Handle) : Prop where
  moves : Moves terms base.1 s.1
  ref : s.2.ref? = base.2.ref?
  status : s.2.status = base.2.status

variable {base : Repository × Handle}

theorem Reached.refl (base : Repository × Handle) : Reached terms base base :=
  ⟨.refl, rfl, rfl⟩

/-! ## Attributes -/

/-- Work that begins with the handle and goes on with any that is on the unit with the status. -/
theorem moves_held_bind {next : Handle → Work α}
    (hnext : ∀ h, h.ref? = base.2.ref? → h.status = base.2.status → Keeps (Reached terms base) (next h)) :
    Keeps (Reached terms base) (held >>= next) :=
  fun s hs => hnext s.2 hs.ref hs.status s hs

theorem moves_hold (href : h.ref? = base.2.ref?) (hstatus : h.status = base.2.status) :
    Keeps (Reached terms base) (hold h) :=
  fun _ hs => ⟨hs.moves, href, hstatus⟩

theorem moves_onFirst {action : Action Repository α} (h : Keeps (Moves terms base.1) action) :
    Keeps (Reached terms base) (Action.onFirst action) :=
  fun (r, _) hs => ⟨h r hs.moves, hs.ref, hs.status⟩

theorem moves_fetch : Keeps (Reached terms base) fetch := by
  refine moves_held_bind fun h href hstatus => ?_
  split
  · exact .pure ()
  · exact moves_hold href hstatus
  · refine .bind (moves_onFirst (Repository.moves_read _)) fun rows => ?_
    split
    · exact .fail _
    · exact moves_hold href hstatus

theorem moves_loadedAttributes : Keeps (Reached terms base) loadedAttributes :=
  .bind moves_fetch fun _ => moves_held_bind fun _ _ _ => .pure _

theorem moves_putAttribute (key : String) (a : Attribute) :
    Keeps (Reached terms base) (putAttribute key a) :=
  moves_held_bind fun _ href hstatus => moves_hold href hstatus

theorem moves_attributeNames : Keeps (Reached terms base) attributeNames :=
  .bind moves_loadedAttributes fun _ => .pure _

theorem moves_attributeList : Keeps (Reached terms base) attributeList :=
  .bind moves_loadedAttributes fun _ => .pure _

theorem moves_attribute? (name : String) : Keeps (Reached terms base) (attribute? name) :=
  .bind moves_loadedAttributes fun _ => .pure _

theorem moves_attributeOrCreate (name : String) :
    Keeps (Reached terms base) (attributeOrCreate name) := by
  refine .bind (moves_attribute? name) fun found => ?_
  cases found with
  | some a => exact .pure a
  | none =>
    refine .bind (moves_onFirst (Repository.moves_findInfo _)) fun info => ?_
    cases info with
    | none => exact .fail _
    | some info => exact .bind (moves_putAttribute _ _) fun _ => .pure _

theorem moves_addAttribute (a : Attribute) : Keeps (Reached terms base) (addAttribute a) := by
  refine .bind (moves_attribute? a.name) fun found => ?_
  cases found with
  | some other => exact .fail _
  | none => exact .bind (moves_putAttribute _ _) fun _ => .pure _

theorem moves_removeAttribute (name : String) :
    Keeps (Reached terms base) (removeAttribute name) := by
  refine .bind (moves_attribute? name) fun found => ?_
  cases found with
  | none => exact .pure none
  | some a => exact moves_held_bind fun _ href hstatus => .bind (moves_hold href hstatus) fun _ => .pure _

theorem moves_changeAttribute (name : String) (f : Attribute → Except Fault Attribute) :
    Keeps (Reached terms base) (changeAttribute name f) :=
  .bind (moves_attributeOrCreate name) fun _ => .bind (.ofResult _) fun _ =>
    .bind (moves_putAttribute _ _) fun _ => .pure _

theorem moves_storeAttribute (hpatches : terms.patches) (name : String) :
    Keeps (Reached terms base) (storeAttribute name) :=
  .bind (moves_attributeOrCreate name) fun _ => moves_held_bind fun _ _ _ =>
    .bind (moves_onFirst (Repository.moves_write fun _ _ _ hrun => .storeAttribute hrun hpatches)) fun _ =>
      .bind (moves_putAttribute _ _) fun _ => .pure _

theorem moves_storeValue (hpatches : terms.patches) (name : String) (valueId : Int) :
    Keeps (Reached terms base) (storeValue name valueId) :=
  .bind (moves_attributeOrCreate name) fun _ =>
    .bind (moves_onFirst (Repository.moves_write fun _ _ _ hrun => .storeValue hrun hpatches)) fun _ =>
      .bind (moves_putAttribute _ _) fun _ => .pure _

/-! ## Stores and changes of status -/

/-- A store, if it succeeds, is of a handle that may be stored, and if its copy gets into the cache, the copy
is answered for. -/
def StoreBrings (terms : Terms) (r : Repository) (h : Handle) : Prop :=
  ∀ r' h', store (r, h) = (.ok (), (r', h')) →
    terms.stores h ∧ (r.cache.Admits h' → terms.brings r'.database h')

/-- So does a request for a status, if it is granted, and the status is one that may be given. -/
def RequestBrings (terms : Terms) (r : Repository) (h : Handle)
    (requested : Status) : Prop :=
  ∀ unit, h.Transits r requested unit → terms.transits unit requested ∧
    (r.cache.Admits { h with status := requested } →
      terms.brings (r.database.withStatus unit requested) { h with status := requested })

/-- A store is one move if it succeeds, and none if it fails. -/
theorem moves_store (hbrings : h.StoreBrings terms r) : Moves terms r (store (r, h)).2.1 := by
  cases hstore : store (r, h) with
  | mk outcome t =>
    obtain ⟨r', h'⟩ := t
    cases outcome with
    | error fault =>
      cases store_eq_error hstore
      exact .refl
    | ok u =>
      obtain ⟨hunlocked, id, written, db', hwrite, rfl, rfl⟩ := store_eq_ok.1 hstore
      exact .single (.store hunlocked (hbrings _ _ hstore).1 hwrite (hbrings _ _ hstore).2)

/-- A request is one move if it is granted, and otherwise none. -/
theorem moves_request {requested : Status} (hbrings : h.RequestBrings terms r requested) :
    Moves terms r (request requested (r, h)).2.1 := by
  by_cases ht : ∃ unit, h.Transits r requested unit
  · obtain ⟨unit, ht⟩ := ht
    rw [request_of_transits ht]
    exact .single (.transit ht (hbrings unit ht).1 (hbrings unit ht).2)
  · obtain ⟨status, hsnd⟩ := snd_request_of_not_transits (not_exists.1 ht)
    rw [hsnd]

theorem moves_inactivate (hbrings : h.Unlocked r → h.RequestBrings terms r .pendingDeletion) :
    Moves terms r (inactivate (r, h)).2.1 := by
  by_cases hunlocked : h.Unlocked r
  · rw [inactivate_of_unlocked hunlocked]
    exact moves_request (hbrings hunlocked)
  · obtain ⟨fault, hlocked⟩ := inactivate_of_locked hunlocked
    rw [hlocked]

/-! ## Locks and links -/

section Links

variable {base : Repository}

theorem moves_currentStatus (h : Handle) : Keeps (Moves terms base) (currentStatus h) := by
  intro r hs
  rw [snd_currentStatus]
  exact hs

theorem moves_lock (h : Handle) (kind : LockKind) (purpose : String) :
    Keeps (Moves terms base) (h.lock kind purpose) :=
  .bind (.ofResult _) fun unit => Repository.moves_lock unit kind purpose

theorem moves_unlock {h : Handle} (hunlocks : ∀ unit, h.ref? = some unit → terms.unlocks unit) :
    Keeps (Moves terms base) h.unlock := by
  unfold unlock Handle.stored
  cases href : h.ref? with
  | none => exact fun r hs => hs
  | some unit => exact fun r hs => Repository.moves_unlock (hunlocks unit href) r hs

theorem moves_isLocked (h : Handle) : Keeps (Moves terms base) h.isLocked := by
  unfold isLocked
  cases h.ref? with
  | none => exact .pure false
  | some unit => exact Repository.moves_read _

theorem moves_locks (h : Handle) : Keeps (Moves terms base) h.locks := by
  unfold locks
  cases h.ref? with
  | none => exact .pure []
  | some unit => exact Repository.moves_locks unit

theorem moves_addRelation (hlinks : terms.links) (h : Handle) (kind : LinkKind) (other : Handle) :
    Keeps (Moves terms base) (h.addRelation kind other) :=
  .bind (.ofResult _) fun left => .bind (.ofResult _) fun right =>
    Repository.moves_addRelation hlinks left kind right

theorem moves_removeRelation (hlinks : terms.links) (h : Handle) (kind : LinkKind) (other : Handle) :
    Keeps (Moves terms base) (h.removeRelation kind other) :=
  .bind (.ofResult _) fun left => .bind (.ofResult _) fun right =>
    Repository.moves_removeRelation hlinks left kind right

theorem moves_relations (h : Handle) (kind : LinkKind) :
    Keeps (Moves terms base) (h.relations kind) := by
  unfold relations
  cases h.ref? with
  | none => exact .pure []
  | some unit => exact .bind (Repository.moves_relations unit kind) Repository.moves_resolve

theorem moves_relatedFrom (h : Handle) (kind : LinkKind) :
    Keeps (Moves terms base) (h.relatedFrom kind) := by
  unfold relatedFrom
  cases h.ref? with
  | none => exact .pure []
  | some unit => exact .bind (Repository.moves_relatedTo unit kind) Repository.moves_resolve

theorem moves_addAssociation (hlinks : terms.links) (h : Handle) (kind : LinkKind) (reference : String) :
    Keeps (Moves terms base) (h.addAssociation kind reference) :=
  .bind (.ofResult _) fun unit => Repository.moves_addAssociation hlinks unit kind reference

theorem moves_removeAssociation (hlinks : terms.links) (h : Handle) (kind : LinkKind) (reference : String) :
    Keeps (Moves terms base) (h.removeAssociation kind reference) :=
  .bind (.ofResult _) fun unit => Repository.moves_removeAssociation hlinks unit kind reference

theorem moves_associations (h : Handle) (kind : LinkKind) :
    Keeps (Moves terms base) (h.associations kind) := by
  unfold associations
  cases h.ref? with
  | none => exact .pure []
  | some unit => exact Repository.moves_associations unit kind

end Links

end MetadataStore.Handle
