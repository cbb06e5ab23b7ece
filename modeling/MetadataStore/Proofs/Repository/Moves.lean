import MetadataStore.Proofs.Handle.Coherence
import MetadataStore.Proofs.Repository.Disposed

/-!
# `Proofs.Repository.Moves` — all that can happen to a repository

Whatever is asked of a repository, by itself or through the units held of it, comes down to a few moves:
a transaction that goes through, a copy that comes into the cache or leaves it, a definition that is
remembered, a number that is given out. Each move says what it needs and what it leaves. A property that
all of them keep is kept by everything that can be asked, so invariants are proved move by move. What a
caller may do is a matter of terms: which copies it may put into the cache, which handles it may store,
which statuses it may give and which locks give up.

## Contents
- `Repository.Terms`, what the caller answers for.
- `Repository.Move`, one move; `Repository.Moves`, any number of them.
- `Repository.moves_…`: the actions of a repository make moves only.
-/

namespace MetadataStore.Repository

/-- What the caller of a repository answers for. -/
structure Terms where
  /-- The copies that may come into the cache of themselves, and not because they were loaded, given the
  database that is left. -/
  brings : Database → Handle → Prop
  /-- The handles that may be stored. -/
  stores : Handle → Prop
  /-- The statuses that units may be given. -/
  transits : UnitRef → Status → Prop
  /-- The units whose locks may be given up. -/
  unlocks : UnitRef → Prop
  /-- Whether attributes and values may be written past their units. -/
  patches : Prop
  /-- Whether links may come and go, also with the units that they are of. -/
  links : Prop

/-- Everything may be done, as long as such copies come into the cache. -/
def Terms.bringing (brings : Database → Handle → Prop) : Terms :=
  ⟨brings, fun _ => True, fun _ _ => True, fun _ => True, True, True⟩

/-- Everything may be done. -/
def Terms.all : Terms :=
  .bringing fun _ _ => True

/-- One move of a repository, on the caller's terms. -/
inductive Move (terms : Terms) (r : Repository) : Repository → Prop
  /-- A call of the cache that brings nothing in. -/
  | forget {cache : Cache} :
    (∀ P, r.cache.All P → cache.All P) → Move terms r { r with cache }
  /-- The catalogue sees what is stored. -/
  | learn {catalog : Catalog} :
    catalog = (r.catalog.absorb r.database.attributes).2 → Move terms r (r.withCatalog catalog)
  | count (serial : Nat) : Move terms r { r with serial }
  /-- A unit is loaded. -/
  | load {unit : UnitRef} {row : UnitRow} {made : Handle} :
    r.database.unit? unit = some row → Handle.ofRow row = .ok made → Move terms r (r.keeping made)
  /-- The caller puts a unit into the cache. -/
  | bring {h : Handle} :
    (r.cache.Admits h → terms.brings r.database h) → Move terms r (r.keeping h)
  /-- A name is defined that was looked for in vain, all that is stored being seen. -/
  | define {name : String} {kind : Kind} {scalar : Bool} {id : Int} {db' : Database} :
    Database.insertAttribute name kind.code scalar r.database = .ok (id, db') →
      (∃ before : Catalog, before.absorb r.database.attributes = (.ok (), r.catalog)) →
      r.catalog.byName? name = none →
      Move terms r
        { r with database := db', catalog := r.catalog.keep ⟨id, name, kind, scalar⟩ }
  /-- A unit is stored that nobody has locked. -/
  | store {h : Handle} {id : Int} {written : List (String × Int)} {db' : Database} :
    h.Unlocked r → terms.stores h →
      h.write (h.creationTime r) r.contention r.database = .ok ((id, written), db') →
      (r.cache.Admits (h.settle id (h.creationTime r) written) →
        terms.brings db' (h.settle id (h.creationTime r) written)) →
      Move terms r
        { r with database := db', cache := r.cache.store (h.settle id (h.creationTime r) written) }
  /-- One attribute is written, past its unit. -/
  | storeAttribute {a a' : Attribute} {unit : UnitRef} {db' : Database} :
    a.store unit r.contention r.database = .ok (a', db') → terms.patches →
      Move terms r { r with database := db' }
  /-- One value is written, past its attribute. -/
  | storeValue {value value' : Value} {name : String} {valueId : Int} {db' : Database} :
    value.store name valueId r.contention r.database = .ok (value', db') → terms.patches →
      Move terms r { r with database := db' }
  /-- The status of a unit changes as the table of transitions permits. -/
  | transit {h : Handle} {requested : Status} {unit : UnitRef} :
    h.Transits r requested unit → terms.transits unit requested →
      (r.cache.Admits { h with status := requested } →
        terms.brings (r.database.withStatus unit requested) { h with status := requested }) →
      Move terms r
        { r with
          database := r.database.withStatus unit requested
          cache := r.cache.store { h with status := requested } }
  | lock {unit : UnitRef} {kind : LockKind} {purpose : String} {taken : Bool} {db' : Database} :
    takeLock unit kind purpose r.now r.contention r.database = .ok (taken, db') →
      Move terms r { r with database := db' }
  | unlock {unit : UnitRef} {db' : Database} :
    Database.deleteLocks unit r.database = .ok ((), db') → terms.unlocks unit →
      Move terms r { r with database := db' }
  | relate {left right : UnitRef} {kind : LinkKind} {db' : Database} :
    kind.expectRelation = .ok () →
      putRelation left kind right r.contention r.database = .ok ((), db') → terms.links →
      Move terms r { r with database := db' }
  | unrelate {row : RelationRow} {db' : Database} :
    Database.deleteRelation row r.database = .ok ((), db') → terms.links →
      Move terms r { r with database := db' }
  | associate {left : UnitRef} {kind : LinkKind} {reference : String} {db' : Database} :
    kind.expectAssociation = .ok () →
      putAssociation left kind reference r.contention r.database = .ok ((), db') → terms.links →
      Move terms r { r with database := db' }
  | dissociate {row : AssociationRow} {db' : Database} :
    Database.deleteAssociation row r.database = .ok ((), db') → terms.links →
      Move terms r { r with database := db' }
  /-- A unit that nobody has locked goes for good. -/
  | dispose {unit : UnitRef} :
    r.database.isLocked unit = false → terms.links →
      Move terms r
        { r with database := r.database.withoutUnit unit, cache := r.cache.remove unit }

/-- Any number of moves. -/
abbrev Moves (terms : Terms) : Repository → Repository → Prop :=
  Relation.ReflTransGen (Move terms)

open MetadataStore.Action (Keeps)

variable {terms : Terms} {base r r' : Repository} {α : Type}

/-- **What every move keeps any number of moves keep.** -/
theorem Moves.keep {I : Repository → Prop} (h : Moves terms r r')
    (hmove : ∀ s t, I s → Move terms s t → I t) (hr : I r) : I r' := by
  induction h with
  | refl => exact hr
  | tail _ hlast ih => exact hmove _ _ ih hlast

/-! ## Looking and writing -/

theorem moves_read (f : Database → α) : Keeps (Moves terms base) (read f) := by
  intro r hs
  rw [snd_read]
  exact hs

/-- A write is a move when its transaction is one, if it goes through. -/
theorem moves_write {work : Transaction α}
    (hmove : ∀ (r : Repository) a db', work r.contention r.database = .ok (a, db') →
      Move terms r { r with database := db' }) : Keeps (Moves terms base) (write work) := by
  intro r hs
  rw [write_apply]
  cases hrun : work r.contention r.database with
  | error fault => exact hs
  | ok result => exact hs.tail (hmove r result.1 result.2 hrun)

/-- The same for a single change. -/
theorem moves_write_perform {change : Change α}
    (hmove : ∀ (r : Repository) a db', change r.database = .ok (a, db') →
      Move terms r { r with database := db' }) :
    Keeps (Moves terms base) (write (Transaction.perform change)) :=
  moves_write fun r a db' hrun => hmove r a db' (Transaction.perform_eq_ok.1 hrun).2

theorem moves_refreshCatalog : Keeps (Moves terms base) refreshCatalog := by
  intro r hs
  rw [refreshCatalog_apply]
  split
  · exact hs.tail (.learn rfl)
  · exact hs

theorem moves_findInfo (find : Catalog → Option AttributeInfo) :
    Keeps (Moves terms base) (findInfo find) := by
  refine .bind .get fun r => ?_
  cases find r.catalog with
  | some info => exact .pure (some info)
  | none => exact .bind moves_refreshCatalog fun _ => .bind .get fun _ => .pure _

theorem moves_infos : Keeps (Moves terms base) infos :=
  .bind .get fun _ => .ite
    (.bind moves_refreshCatalog fun _ => .bind .get fun _ => .pure _) (.bind .get fun _ => .pure _)

theorem moves_define (name : String) (kind : Kind) (scalar : Bool) :
    Keeps (Moves terms base) (define name kind scalar) := by
  refine .ite (.fail _) ?_
  intro r hs
  obtain ⟨catalog, hcatalog⟩ : ∃ catalog, (infoByName (Text.trim name) r).2 = r.withCatalog catalog :=
    (snd_findInfo_cases r _).elim (fun hsame => ⟨r.catalog, hsame⟩) fun hseen => ⟨_, hseen⟩
  have hlooked : Moves terms base (r.withCatalog catalog) :=
    hcatalog ▸ moves_findInfo (fun catalog => catalog.byName? (Text.trim name)) r hs
  cases hinfo : infoByName (Text.trim name) r with
  | mk outcome t =>
    obtain rfl : t = r.withCatalog catalog := by
      rw [← hcatalog]
      exact (congrArg Prod.snd hinfo).symm
    cases outcome with
    | error fault =>
      rw [Action.bind_of_error hinfo]
      exact hlooked
    | ok found =>
      rw [Action.bind_of_ok hinfo]
      obtain ⟨hfound, hseen⟩ := findInfo_eq_ok hinfo
      cases found with
      | some info => exact Keeps.ite (.pure info) (.fail _) _ hlooked
      | none =>
        show Moves terms base (Action.bind (write _) _ _).2
        unfold Action.bind
        cases hwrite : write (Transaction.perform
            (Database.insertAttribute (Text.trim name) kind.code scalar)) (r.withCatalog catalog) with
        | mk outcome t =>
          cases outcome with
          | error fault =>
            rw [(write_eq_error.1 hwrite).2]
            exact hlooked
          | ok id =>
            obtain ⟨-, database, hinsert, rfl⟩ := write_perform_eq_ok.1 hwrite
            exact hlooked.tail (.define hinsert ⟨r.catalog, hseen rfl⟩ hfound.symm)

/-! ## Units -/

theorem moves_cached (key : String) : Keeps (Moves terms base) (cached key) :=
  fun _ hs => hs.tail (.forget fun _ hall => hall.lookup key)

theorem moves_unit (unit : UnitRef) : Keeps (Moves terms base) (Repository.unit unit) := by
  intro r hs
  have hlooked : Moves terms base (r.looked unit.text) :=
    hs.tail (.forget fun _ hall => hall.lookup unit.text)
  cases hunit : Repository.unit unit r with
  | mk outcome t =>
    cases outcome with
    | error fault =>
      rw [unit_eq_error hunit]
      exact hlooked
    | ok found =>
      cases found with
      | none =>
        rw [(unit_eq_ok_none hunit).2.2]
        exact hlooked
      | some h =>
        rcases unit_eq_ok_some hunit with ⟨-, rfl⟩ | ⟨-, -, row, hrow, hmake, rfl⟩
        · exact hlooked
        · exact hlooked.tail (.load hrow hmake)

theorem moves_resolve (units : List UnitRef) : Keeps (Moves terms base) (resolve units) :=
  .bind (.collect fun unit _ => moves_unit unit) fun _ => .pure _

theorem moves_matching (search : Search) : Keeps (Moves terms base) (matching search) :=
  .bind (.ofResult _) fun _ => .bind (.ofResult _) fun _ => moves_read _

theorem moves_search (search : Search) : Keeps (Moves terms base) (Repository.search search) :=
  .bind (moves_matching search) fun units => .bind (moves_resolve units) fun _ => .pure _

/-! ## Locks and links -/

theorem moves_lock (unit : UnitRef) (kind : LockKind) (purpose : String) :
    Keeps (Moves terms base) (lock unit kind purpose) := by
  -- the time that the lock is taken at is the one of the repository that it is written to
  intro r hs
  have hlock : lock unit kind purpose r = write (takeLock unit kind purpose r.now) r := rfl
  rw [hlock, write_apply]
  cases hrun : takeLock unit kind purpose r.now r.contention r.database with
  | error fault => exact hs
  | ok result => exact hs.tail (.lock hrun)

theorem moves_unlock {unit : UnitRef} (hunlocks : terms.unlocks unit) :
    Keeps (Moves terms base) (unlock unit) :=
  moves_write_perform fun _ _ _ h => .unlock h hunlocks

theorem moves_locks (unit : UnitRef) : Keeps (Moves terms base) (locks unit) :=
  .bind (moves_read _) fun _ => .ofResult _

theorem moves_relations (left : UnitRef) (kind : LinkKind) :
    Keeps (Moves terms base) (relations left kind) :=
  .bind (.ofResult _) fun _ => moves_read _

theorem moves_relatedTo (right : UnitRef) (kind : LinkKind) :
    Keeps (Moves terms base) (relatedTo right kind) :=
  .bind (.ofResult _) fun _ => moves_read _

theorem moves_associations (left : UnitRef) (kind : LinkKind) :
    Keeps (Moves terms base) (associations left kind) :=
  .bind (.ofResult _) fun _ => moves_read _

theorem moves_associatedWith (kind : LinkKind) (reference : String) :
    Keeps (Moves terms base) (associatedWith kind reference) :=
  .bind (.ofResult _) fun _ => .bind (.ofResult _) fun _ => moves_read _

/-- A check and what follows it when it passes. -/
theorem moves_of_check {β : Type} {check : Except Fault Unit} {next : Unit → Action Repository β}
    (hnext : check = .ok () → Keeps (Moves terms base) (next ())) :
    Keeps (Moves terms base) (Action.ofResult check >>= next) := by
  cases check with
  | error fault => exact fun r hs => hs
  | ok u => exact fun r hs => hnext rfl r hs

theorem moves_addRelation (hlinks : terms.links) (left : UnitRef) (kind : LinkKind) (right : UnitRef) :
    Keeps (Moves terms base) (addRelation left kind right) :=
  moves_of_check fun hkind => moves_write fun _ _ _ h => .relate hkind h hlinks

theorem moves_removeRelation (hlinks : terms.links) (left : UnitRef) (kind : LinkKind)
    (right : UnitRef) : Keeps (Moves terms base) (removeRelation left kind right) :=
  .bind (.ofResult _) fun _ => moves_write_perform fun _ _ _ h => .unrelate h hlinks

theorem moves_addAssociation (hlinks : terms.links) (left : UnitRef) (kind : LinkKind)
    (reference : String) : Keeps (Moves terms base) (addAssociation left kind reference) :=
  moves_of_check fun hkind => .bind (.ofResult _) fun _ =>
    moves_write fun _ _ _ h => .associate hkind h hlinks

theorem moves_removeAssociation (hlinks : terms.links) (left : UnitRef) (kind : LinkKind)
    (reference : String) : Keeps (Moves terms base) (removeAssociation left kind reference) :=
  .bind (.ofResult _) fun _ => .bind (.ofResult _) fun _ =>
    moves_write_perform fun _ _ _ h => .dissociate h hlinks

/-! ## Disposal -/

theorem moves_disposeUnit (hlinks : terms.links) (unit : UnitRef) :
    Keeps (Moves terms base) (disposeUnit unit) := by
  intro r hs
  cases hread : r.contention.allowsReading with
  | false =>
    rw [disposeUnit_of_unreadable hread]
    exact hs
  | true =>
    rw [disposeUnit_apply hread]
    split
    · rename_i htakes
      simp only [takes, Bool.and_eq_true, Bool.not_eq_true'] at htakes
      rw [without_singleton]
      exact hs.tail (.dispose htakes.2 hlinks)
    · split <;> exact hs

theorem moves_disposePage (hlinks : terms.links) (units : List UnitRef) :
    Keeps (Moves terms base) (disposePage units) := by
  induction units with
  | nil => exact .pure _
  | cons unit rest ih =>
    refine .bind (.attempt (moves_disposeUnit hlinks unit)) fun outcome => .bind ih fun (_, _) => ?_
    dsimp only
    split
    · exact .pure _
    · exact .pure _

theorem moves_disposeFrom (hlinks : terms.links) (tenant : Int32) (batch fuel skipped : Nat) :
    Keeps (Moves terms base) (disposeFrom tenant batch fuel skipped) := by
  induction fuel generalizing skipped with
  | zero => exact .pure 0
  | succ fuel ih =>
    refine .bind (moves_matching _) fun page =>
      .bind (moves_disposePage hlinks page) fun counts => ?_
    exact .ite (.pure _) (.bind (ih _) fun _ => .pure _)

theorem moves_dispose (hlinks : terms.links) (tenant : Int32) :
    Keeps (Moves terms base) (dispose tenant) :=
  .bind .get fun r =>
    moves_disposeFrom hlinks tenant r.settings.batch (r.database.units.length + 1) 0

end MetadataStore.Repository
