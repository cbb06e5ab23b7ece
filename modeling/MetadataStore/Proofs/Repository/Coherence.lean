import MetadataStore.Proofs.Database.Links
import MetadataStore.Proofs.Handle.Agreement
import MetadataStore.Proofs.Repository.Lookup
import MetadataStore.Repository.Disposal

/-!
# `Proofs.Repository.Coherence` — the cache and what is stored

A cache is coherent when each copy that it answers says what a load from the database would say. What
repositories do by themselves keeps it so: they cache what they have just loaded, drop what they remove,
and change nothing else that is stored of a unit.

## Contents
- `Repository.Coherent`.
- `Handle.Sound`; `Repository.Kept`, the invariant, with the changes that keep it.
- `Repository.keeps_…`: the actions on a repository that keep it.
-/

namespace MetadataStore

/-- Whatever is answered of a unit from the cache agrees with what a load from the database would answer
if it is asked at that moment. -/
def Repository.Coherent (r : Repository) : Prop :=
  ∀ unit copy, (Repository.cached unit.text r).1 = .ok (some copy) →
    ∃ made attributes,
      (Repository.reload unit { r with contention := .none }).1 = .ok (some (made, attributes)) ∧
        copy.Agrees made attributes

/-- A handle that a repository made: its attributes are catalogued, and it has a creation time as soon as
it has a number. -/
structure Handle.Sound (db : Database) (h : Handle) : Prop where
  known : AttributeMap.Known db h.loaded
  dated : h.created = none ↔ h.id = none

namespace Handle

variable {db db' : Database} {h copy : Handle}

theorem Sound.extend (hs : h.Sound db) (hattributes : db.attributes <+: db'.attributes) : h.Sound db' :=
  ⟨hs.known.extend hattributes, hs.dated⟩

theorem Sound.create (db : Database) (tenant : Int) (name : Option String) (correlation : String) :
    (Handle.create tenant name correlation).Sound db :=
  ⟨.nil, iff_of_true rfl rfl⟩

theorem sound_of_ofRow {row : UnitRow} (hmake : ofRow row = .ok h) : h.Sound db := by
  obtain ⟨created, status, -, -, rfl⟩ := ofRow_eq_ok.1 hmake
  exact ⟨.nil, iff_of_false (Option.some_ne_none _) (Option.some_ne_none _)⟩

/-- Fresh copies stay fresh while what is stored of their units stays. -/
theorem Fresh.congr (hfresh : copy.Fresh db)
    (hstored : ∀ unit, copy.ref? = some unit → db'.stored? unit = db.stored? unit) : copy.Fresh db' := by
  obtain ⟨unit, made, attributes, href, hmade, hagrees⟩ := hfresh
  exact ⟨unit, made, attributes, href, (hstored unit href).trans hmade, hagrees⟩

end Handle

namespace Repository

/-! ## The invariant -/

/-- What is kept: the repository is sound and its definitions go on from those of `base`; the copies in its
cache are sound and stand under their own keys; and they are fresh, as long as that is asked for. -/
structure Kept (base : Database) (asked : Prop) (r : Repository) : Prop where
  sound : r.Sound
  definitions : base.attributes <+: r.database.attributes
  keyed : r.cache.Keyed
  copies : r.cache.All fun _ copy => copy.Sound r.database
  fresh : asked → r.cache.All fun _ copy => copy.Fresh r.database

variable {base db' : Database} {asked : Prop} {r r' : Repository}

/-- **Fresh copies make a coherent cache.** -/
theorem Kept.coherent (hs : Kept base asked r) (hasked : asked) : r.Coherent := by
  intro unit copy hcached
  have hfind : (r.cache.lookup unit.text).1 = some copy := Except.ok.inj hcached
  have href := hs.keyed.ref?_of_lookup hfind
  rw [Cache.fst_lookup] at hfind
  obtain ⟨entry, hentry, rfl⟩ := Option.map_eq_some_iff.1 hfind
  obtain ⟨other, made, attributes, hother, hstored, hagrees⟩ := (hs.fresh hasked).find? hentry
  cases href.symm.trans hother
  have hreload := (reload_eq_stored? (r := { r with contention := .none }) hs.sound.database
    hs.sound.readable rfl unit).1
  exact ⟨made, attributes, hreload.trans (congrArg Except.ok hstored), hagrees⟩

/-- A copy that is found in a coherent cache is fresh. -/
theorem Coherent.fresh_of_find? (h : r.Coherent) (hsound : r.Sound) (hkeyed : r.cache.Keyed) {unit : UnitRef}
    {entry : CacheEntry} (hfind : r.cache.find? unit.text = some entry) :
    entry.copy.Fresh r.database := by
  have hlookup : (r.cache.lookup unit.text).1 = some entry.copy := by
    rw [Cache.fst_lookup, hfind]
    rfl
  obtain ⟨made, attributes, hreload, hagrees⟩ := h unit entry.copy (congrArg Except.ok hlookup)
  have hstored := (reload_eq_stored? (r := { r with contention := .none }) hsound.database
    hsound.readable rfl unit).1
  rw [hreload] at hstored
  exact ⟨unit, made, attributes, hkeyed.ref?_of_lookup hlookup, (Except.ok.inj hstored).symm, hagrees⟩

/-- In a coherent cache a copy has the name that is stored. -/
theorem Coherent.name_eq (h : r.Coherent) (hsound : r.Sound) {unit : UnitRef}
    {cached stored : Option String}
    (hcopy : (r.cache.lookup unit.text).1.map (·.name) = some cached)
    (hrow : (r.database.unit? unit).map (·.name) = some stored) : cached = stored := by
  obtain ⟨copy, hfound, rfl⟩ := Option.map_eq_some_iff.1 hcopy
  obtain ⟨row, hown, rfl⟩ := Option.map_eq_some_iff.1 hrow
  obtain ⟨made, attributes, hreload, hagrees⟩ := h unit copy (congrArg Except.ok hfound)
  have hstored := (reload_eq_stored? (r := { r with contention := .none }) hsound.database
    hsound.readable rfl unit).1
  obtain ⟨other, hother, hmake, -⟩ :=
    Database.stored?_eq_some.1 (Except.ok.inj (hstored.symm.trans hreload))
  cases hown.symm.trans hother
  rw [hagrees.name, Handle.name_of_ofRow hmake]

/-! ## Changes that keep it -/

/-- A call of the cache that brings nothing in. -/
theorem Kept.withCache (hs : Kept base asked r) {cache : Cache}
    (hall : ∀ P, r.cache.All P → cache.All P) : Kept base asked { r with cache } where
  sound := hs.sound.congr rfl rfl
  definitions := hs.definitions
  keyed := hall _ hs.keyed
  copies := hall _ hs.copies
  fresh := fun hasked => hall _ (hs.fresh hasked)

/-- A sound copy comes in, which is fresh. -/
theorem Kept.keeping (hs : Kept base asked r) {h : Handle} (hsound : h.Sound r.database)
    (hfresh : h.Fresh r.database) : Kept base asked (r.keeping h) where
  sound := hs.sound.congr rfl rfl
  definitions := hs.definitions
  keyed := hs.keyed.store h
  copies := hs.copies.store fun _ _ => hsound
  fresh := fun hasked => (hs.fresh hasked).store fun _ _ => hfresh

theorem Kept.withCatalog (hs : Kept base asked r) {catalog : Catalog} (hof : catalog.Of r.database) :
    Kept base asked (r.withCatalog catalog) where
  sound := hs.sound.withCatalog hof
  definitions := hs.definitions
  keyed := hs.keyed
  copies := hs.copies
  fresh := hs.fresh

/-- The database changes, but not what is stored of any unit. -/
theorem Kept.withDatabase (hs : Kept base asked r)
    (hsound : ({ r with database := db' } : Repository).Sound)
    (hdefinitions : r.database.attributes <+: db'.attributes)
    (hstored : ∀ unit, db'.stored? unit = r.database.stored? unit) :
    Kept base asked { r with database := db' } where
  sound := hsound
  definitions := hs.definitions.trans hdefinitions
  keyed := hs.keyed
  copies := hs.copies.mono fun _ _ hcopy => hcopy.extend hdefinitions
  fresh := fun hasked => (hs.fresh hasked).mono fun _ _ hcopy => hcopy.congr fun unit _ => hstored unit

/-- Copies of other units stay fresh when one unit changes. -/
theorem Kept.fresh_of_ne (hs : Kept base asked r) {unit : UnitRef}
    (hstored : ∀ other, other ≠ unit → db'.stored? other = r.database.stored? other) (hasked : asked) :
    r.cache.All fun key copy => key = unit.text ∨ copy.Fresh db' := by
  refine (hs.keyed.and (hs.fresh hasked)).mono fun key copy ⟨hkey, hfresh⟩ => ?_
  -- copies stand under their own keys, so one under another key is of another unit
  by_cases hsame : key = unit.text
  · exact Or.inl hsame
  · refine Or.inr (hfresh.congr fun other href => hstored other ?_)
    rintro rfl
    rw [href] at hkey
    exact hsame (Option.some.inj hkey).symm

/-- One unit changes, and the cache gets a copy of it. -/
theorem Kept.replacing (hs : Kept base asked r) {unit : UnitRef} {h : Handle}
    (href : h.ref? = some unit) (hsound : ({ r with database := db' } : Repository).Sound)
    (hdefinitions : r.database.attributes <+: db'.attributes)
    (hstored : ∀ other, other ≠ unit → db'.stored? other = r.database.stored? other)
    (hcopy : h.Sound db') (hfresh : asked → r.cache.Admits h → h.Fresh db') :
    Kept base asked { r with database := db', cache := r.cache.store h } where
  sound := hsound.congr rfl rfl
  definitions := hs.definitions.trans hdefinitions
  keyed := hs.keyed.store h
  copies := (hs.copies.mono fun _ _ hold => hold.extend hdefinitions).store fun _ _ => hcopy
  fresh := fun hasked => .store_of_ne href (hs.fresh_of_ne hstored hasked) (hfresh hasked)

/-- One unit changes, and the cache loses its copy. -/
theorem Kept.removing (hs : Kept base asked r) {unit : UnitRef}
    (hsound : ({ r with database := db' } : Repository).Sound)
    (hdefinitions : r.database.attributes <+: db'.attributes)
    (hstored : ∀ other, other ≠ unit → db'.stored? other = r.database.stored? other) :
    Kept base asked { r with database := db', cache := r.cache.remove unit } where
  sound := hsound.congr rfl rfl
  definitions := hs.definitions.trans hdefinitions
  keyed := hs.keyed.remove unit
  copies := (hs.copies.mono fun _ _ hold => hold.extend hdefinitions).remove unit
  fresh := fun hasked => .remove_of_ne (hs.fresh_of_ne hstored hasked)

/-! ## Looking and linking -/

open MetadataStore.Action (Keeps)

theorem keeps_read {α : Type} (f : Database → α) : Keeps (Kept base asked) (read f) := by
  intro r hs
  rw [snd_read]
  exact hs

theorem keeps_write_of_onlyLinks {α : Type} {work : Transaction α} (hwork : work.OnlyLinks) :
    Keeps (Kept base asked) (write work) := by
  intro r hs
  rw [write_apply]
  cases hrun : work r.contention r.database with
  | error fault => exact hs
  | ok result =>
    obtain ⟨a, database⟩ := result
    have hsame := hwork _ _ _ _ hrun
    exact hs.withDatabase
      ⟨hsame.sound hs.sound.database, hsame.readable hs.sound.readable,
        hs.sound.catalog.extend hsame.attributes_prefix⟩ hsame.attributes_prefix hsame.stored?_eq

theorem keeps_lock (unit : UnitRef) (kind : LockKind) (purpose : String) :
    Keeps (Kept base asked) (lock unit kind purpose) :=
  .bind .get fun r => keeps_write_of_onlyLinks (onlyLinks_takeLock unit kind purpose r.now)

theorem keeps_unlock (unit : UnitRef) : Keeps (Kept base asked) (unlock unit) :=
  keeps_write_of_onlyLinks (Transaction.onlyLinks_total fun _ => rfl)

theorem keeps_locks (unit : UnitRef) : Keeps (Kept base asked) (locks unit) :=
  .bind (keeps_read _) fun _ => .ofResult _

theorem keeps_relations (left : UnitRef) (kind : LinkKind) :
    Keeps (Kept base asked) (relations left kind) :=
  .bind (.ofResult _) fun _ => keeps_read _

theorem keeps_relatedTo (right : UnitRef) (kind : LinkKind) :
    Keeps (Kept base asked) (relatedTo right kind) :=
  .bind (.ofResult _) fun _ => keeps_read _

theorem keeps_associations (left : UnitRef) (kind : LinkKind) :
    Keeps (Kept base asked) (associations left kind) :=
  .bind (.ofResult _) fun _ => keeps_read _

theorem keeps_associatedWith (kind : LinkKind) (reference : String) :
    Keeps (Kept base asked) (associatedWith kind reference) :=
  .bind (.ofResult _) fun _ => .bind (.ofResult _) fun _ => keeps_read _

theorem keeps_addRelation (left : UnitRef) (kind : LinkKind) (right : UnitRef) :
    Keeps (Kept base asked) (addRelation left kind right) :=
  .bind (.ofResult _) fun _ => keeps_write_of_onlyLinks (onlyLinks_putRelation left kind right)

theorem keeps_removeRelation (left : UnitRef) (kind : LinkKind) (right : UnitRef) :
    Keeps (Kept base asked) (removeRelation left kind right) :=
  .bind (.ofResult _) fun _ =>
    keeps_write_of_onlyLinks (Transaction.onlyLinks_total fun _ => rfl)

theorem keeps_addAssociation (left : UnitRef) (kind : LinkKind) (reference : String) :
    Keeps (Kept base asked) (addAssociation left kind reference) :=
  .bind (.ofResult _) fun _ => .bind (.ofResult _) fun reference =>
    keeps_write_of_onlyLinks (onlyLinks_putAssociation left kind reference)

theorem keeps_removeAssociation (left : UnitRef) (kind : LinkKind) (reference : String) :
    Keeps (Kept base asked) (removeAssociation left kind reference) :=
  .bind (.ofResult _) fun _ => .bind (.ofResult _) fun _ =>
    keeps_write_of_onlyLinks (Transaction.onlyLinks_total fun _ => rfl)

/-! ## Definitions -/

theorem keeps_findInfo (find : Catalog → Option AttributeInfo) :
    Keeps (Kept base asked) (findInfo find) := by
  intro r hs
  obtain ⟨catalog, hkept, hof⟩ := snd_findInfo hs.sound.database.defined hs.sound.catalog find
  rw [hkept]
  exact hs.withCatalog hof

theorem keeps_refreshCatalog : Keeps (Kept base asked) refreshCatalog := by
  intro r hs
  obtain ⟨catalog, hkept, hof⟩ := snd_refreshCatalog hs.sound.database.defined hs.sound.catalog
  rw [hkept]
  exact hs.withCatalog hof

theorem keeps_infos : Keeps (Kept base asked) infos :=
  .bind .get fun _ => .ite
    (.bind keeps_refreshCatalog fun _ => .bind .get fun _ => .pure _) (.bind .get fun _ => .pure _)

/-- A new definition, of a name that no other has. -/
theorem Kept.defined (hs : Kept base asked r) {name : String} {kind : Kind} {scalar : Bool} {id : Int}
    (hfree : ∀ row ∈ r.database.attributes, Text.lower row.name ≠ Text.lower name)
    (hinsert : Database.insertAttribute name kind.code scalar r.database = .ok (id, db')) :
    Kept base asked { r with
      database := db', catalog := r.catalog.keep ⟨id, name, kind, scalar⟩ } := by
  unfold Database.insertAttribute at hinsert
  split at hinsert
  · cases hinsert
  · cases hinsert
    have hsound := hs.sound.database.insertAttribute
      ⟨r.database.lastAttribute + 1, name, kind.code, scalar⟩ rfl ⟨kind, rfl⟩ hfree
    have hattributes := List.prefix_append r.database.attributes
      [⟨r.database.lastAttribute + 1, name, kind.code, scalar⟩]
    have hnew : (Attribute.ofInfo ⟨r.database.lastAttribute + 1, name, kind, scalar⟩).Catalogued
        { r.database with
          attributes := r.database.attributes ++
            [⟨r.database.lastAttribute + 1, name, kind.code, scalar⟩]
          lastAttribute := r.database.lastAttribute + 1 } :=
      ⟨_, hsound.attribute?_of_mem (List.mem_append_right _ List.mem_cons_self), rfl, rfl, rfl⟩
    -- no unit has the new attribute yet, so what is stored of units is as it was
    have hdatabase := hs.withDatabase
      ⟨hsound, hs.sound.readable, hs.sound.catalog.extend hattributes⟩ hattributes fun unit =>
        Database.stored?_extend hs.sound.database hsound hattributes rfl rfl rfl
    exact hdatabase.withCatalog (hdatabase.sound.catalog.keep hnew)

theorem keeps_define (name : String) (kind : Kind) (scalar : Bool) :
    Keeps (Kept base asked) (define name kind scalar) := by
  refine .ite (.fail _) ?_
  intro r hs
  obtain ⟨catalog, hof, hcases⟩ :=
    infoByName_cases hs.sound.database.defined hs.sound.catalog (Text.trim name)
  have ht := hs.withCatalog hof
  rcases hcases with ⟨fault, hinfo⟩ | ⟨hinfo, hfree⟩ | ⟨info, hinfo, -, -⟩
  · rw [Action.bind_of_error hinfo]
    exact ht
  · rw [Action.bind_of_ok hinfo]
    show Kept base asked (Action.bind (write _) _ _).2
    unfold Action.bind
    cases hwrite : write (Transaction.perform
        (Database.insertAttribute (Text.trim name) kind.code scalar)) (r.withCatalog catalog) with
    | mk outcome t =>
      cases outcome with
      | error fault =>
        rw [(write_eq_error.1 hwrite).2]
        exact ht
      | ok id =>
        obtain ⟨-, database, hinsert, rfl⟩ := write_perform_eq_ok.1 hwrite
        exact ht.defined hfree hinsert
  · rw [Action.bind_of_ok hinfo]
    exact Action.Keeps.ite (.pure info) (.fail _) _ ht

/-! ## Units -/

theorem keeps_create (tenant : Int) (name : Option String) :
    Keeps (Kept base asked) (create tenant name) :=
  fun _ hs => ⟨hs.sound.congr rfl rfl, hs.definitions, hs.keyed, hs.copies, hs.fresh⟩

theorem keeps_cached (key : String) : Keeps (Kept base asked) (cached key) :=
  fun _ hs => hs.withCache fun _ hall => hall.lookup key

/-- A unit that is looked up comes into the cache as it was loaded. -/
theorem keeps_unit (unit : UnitRef) : Keeps (Kept base asked) (Repository.unit unit) := by
  intro r hs
  have hlooked : Kept base asked (r.looked unit.text) := hs.withCache fun _ hall => hall.lookup _
  cases hunit : Repository.unit unit r with
  | mk outcome t =>
    cases outcome with
    | error fault =>
      rw [unit_eq_error hunit]
      exact hlooked
    | ok found =>
      cases found with
      | none =>
        rw [(unit_eq_ok_none hunit).2.2]
        exact hlooked
      | some h =>
        rcases unit_eq_ok_some hunit with ⟨-, rfl⟩ | ⟨-, -, row, hrow, hmake, rfl⟩
        · exact hlooked
        · exact hlooked.keeping (Handle.sound_of_ofRow hmake) (Handle.fresh_of_ofRow hrow hmake)

/-- The unit that is answered is a sound one. -/
theorem Kept.sound_of_unit (hs : Kept base asked r) {unit : UnitRef} {h : Handle}
    (hunit : Repository.unit unit r = (.ok (some h), r')) : h.Sound r'.database := by
  rcases unit_eq_ok_some hunit with ⟨hcopy, rfl⟩ | ⟨-, -, row, -, hmake, rfl⟩
  · rw [Cache.fst_lookup] at hcopy
    obtain ⟨entry, hentry, rfl⟩ := Option.map_eq_some_iff.1 hcopy
    exact hs.copies.find? hentry
  · exact Handle.sound_of_ofRow hmake

theorem keeps_resolve (units : List UnitRef) : Keeps (Kept base asked) (resolve units) :=
  .bind (.collect fun unit _ => keeps_unit unit) fun _ => .pure _

theorem keeps_matching (search : Search) : Keeps (Kept base asked) (matching search) :=
  .bind (.ofResult _) fun _ => .bind (.ofResult _) fun _ => keeps_read _

theorem keeps_search (search : Search) : Keeps (Kept base asked) (Repository.search search) :=
  .bind (keeps_matching search) fun units => .bind (keeps_resolve units) fun _ => .pure _

/-! ## Disposal -/

/-- A unit goes from database and cache together. -/
theorem keeps_disposeUnit (unit : UnitRef) : Keeps (Kept base asked) (disposeUnit unit) := by
  refine .bind (keeps_read _) fun locked => .ite (.pure false) ?_
  intro r hs
  show Kept base asked (Action.bind (write _) _ _).2
  unfold Action.bind
  cases hwrite : write (Transaction.perform (Database.deleteUnit unit)) r with
  | mk outcome t =>
    cases outcome with
    | error fault =>
      rw [(write_eq_error.1 hwrite).2]
      exact hs
    | ok u =>
      obtain ⟨-, database, hdelete, rfl⟩ := write_perform_eq_ok.1 hwrite
      rw [Database.deleteUnit_apply] at hdelete
      cases hdelete
      exact hs.removing
        ⟨hs.sound.database.deleteUnit unit, Database.readable_withoutUnit hs.sound.readable unit,
          hs.sound.catalog.extend List.prefix_rfl⟩
        List.prefix_rfl fun other hne => hs.sound.database.stored?_withoutUnit hne

theorem keeps_disposePage (units : List UnitRef) : Keeps (Kept base asked) (disposePage units) := by
  induction units with
  | nil => exact .pure _
  | cons unit rest ih =>
    refine .bind (.attempt (keeps_disposeUnit unit)) fun outcome => .bind ih fun (_, _) => ?_
    dsimp only
    split
    · exact .pure _
    · exact .pure _

theorem keeps_disposeFrom (tenant : Int32) (batch fuel skipped : Nat) :
    Keeps (Kept base asked) (disposeFrom tenant batch fuel skipped) := by
  induction fuel generalizing skipped with
  | zero => exact .pure 0
  | succ fuel ih =>
    refine .bind (keeps_matching _) fun page => .bind (keeps_disposePage page) fun counts => ?_
    exact .ite (.pure _) (.bind (ih _) fun _ => .pure _)

theorem keeps_dispose (tenant : Int32) : Keeps (Kept base asked) (dispose tenant) :=
  .bind .get fun r => keeps_disposeFrom tenant r.settings.batch (r.database.units.length + 1) 0

end Repository

end MetadataStore
