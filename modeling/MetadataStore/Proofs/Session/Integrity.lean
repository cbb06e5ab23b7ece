import MetadataStore.Proofs.Database.Intact
import MetadataStore.Proofs.Repository.Standing
import MetadataStore.Proofs.Session.Moves

/-!
# `Proofs.Session.Integrity` — the tables through whole sessions

Whatever is done with definitions, units, their attributes, states, locks and links, and whatever of it
fails, the tables stay intact. Attributes may also be stored one by one; the cache then no longer says
what is stored, but the tables do not suffer. Only values written under numbers of the caller's choosing
are past all that.

## Contents
- `Handle.Kept.storeAttribute`: one attribute stored alone.
- `Operation.IsRegular`; `Session.Kept.performRegular`, `kept_afterAll_regular`.
- `Session.invariant_numbered`, `invariant_linked`, `intact_afterAll`: whole sessions on a new database.
-/

namespace MetadataStore

/-! ## Attributes stored alone -/

namespace Repository

variable {base db' : Database} {r : Repository}

/-- The values of units change, and copies in the cache may no longer be fresh. -/
theorem Kept.withValues (hs : r.Kept base False) (hsound : db'.Sound)
    (hunits : db'.units = r.database.units) (hattributes : db'.attributes = r.database.attributes) :
    Kept base False { r with database := db' } where
  sound :=
    { database := hsound
      readable := by
        intro row hmem
        rw [hunits] at hmem
        exact hs.sound.readable row hmem
      catalog := hs.sound.catalog.extend (hattributes ▸ List.prefix_rfl) }
  definitions := hattributes ▸ hs.definitions
  keyed := hs.keyed
  copies := hs.copies.mono fun _ _ hcopy => hcopy.extend (hattributes ▸ List.prefix_rfl)
  fresh := False.elim

end Repository

namespace Handle

variable {base : Database} {r : Repository} {h : Handle}

/-- A catalogued attribute is put under its name. -/
theorem Kept.put (hs : Kept base False (r, h)) {a : Attribute} (hcatalogued : a.Catalogued r.database)
    {key : String} (hkey : key = Text.lower a.name) :
    Kept base False (r, { h with attributes := some (AttributeMap.put h.loaded key a) }) where
  repository := hs.repository
  handle := ⟨hs.handle.known.put hkey hcatalogued, hs.handle.dated⟩

/-- **Storing one attribute alone** keeps all but the freshness of the cache. -/
theorem Kept.storeAttribute (hs : Kept base False (r, h)) (name : String) :
    Kept base False (Handle.storeAttribute name (r, h)).2 := by
  obtain ⟨hedited, hthere⟩ : Edited (fun _ => True) (r, h) (attributeOrCreate name (r, h)).2 ∧ _ :=
    edited_attributeOrCreate hs.repository.sound.database hs.repository.sound.catalog h name
  unfold Handle.storeAttribute
  rw [Action.bind_apply]
  cases hcreate : attributeOrCreate name (r, h) with
  | mk outcome t =>
    obtain ⟨r₁, h₁⟩ := t
    rw [hcreate] at hedited hthere
    have hkept := hs.edited hedited
    cases outcome with
    | error fault => exact hkept
    | ok a =>
      obtain ⟨attributes, hloaded, hfound⟩ := hthere a rfl
      have hknown := hkept.handle.known
      rw [loaded_of_attributes hloaded] at hknown
      have hmem := hknown.get?_eq_some_iff.1 hfound
      have hcatalogued := hknown.catalogued _ hmem
      have hkey : Text.lower name = Text.lower a.name := hknown.keyed _ hmem
      dsimp only
      rw [Action.bind_of_ok (held_apply (r₁, h₁)), Action.bind_apply, Action.onFirst_apply]
      cases hwrite : Repository.write (a.store ⟨h₁.tenant, h₁.id.getD 0⟩) r₁ with
      | mk outcome u =>
        cases outcome with
        | error fault =>
          obtain ⟨-, rfl⟩ := Repository.write_eq_error.1 hwrite
          exact hkept
        | ok written =>
          obtain ⟨database, hstore, rfl⟩ := Repository.write_eq_ok.1 hwrite
          have hsound := hkept.repository.sound.database
          rcases Attribute.store_cases hsound.issued hstore with
            ⟨rfl, rfl⟩ | ⟨hwritable, hunit, -, rfl, rfl⟩
          · exact hkept.put hcatalogued hkey
          · obtain ⟨info, hinfo⟩ := Option.isSome_iff_exists.1 hcatalogued.isSome
            have hput := hsound.putValue hunit hinfo (hcatalogued.wellWritten hinfo hwritable _)
            have hafter : Kept base False ({ r₁ with database := _ }, h₁) :=
              ⟨hkept.repository.withValues hput rfl rfl, hkept.handle.extend List.prefix_rfl⟩
            exact hafter.put ((hcatalogued.markStored _).extend List.prefix_rfl) hkey

end Handle

/-! ## Regular operations -/

/-- All operations but one, which writes a value under a number that the caller gives. -/
def Operation.IsRegular : Operation → Prop
  | .storeValue _ _ _ => False
  | _ => True

namespace Session

variable {s : Session}

def Event.IsRegular : Event → Prop
  | .perform operation => operation.IsRegular
  | .circumstances _ _ => True

/-- Every regular operation keeps the repository sound. -/
theorem Kept.performRegular (hs : Kept False s) {operation : Operation}
    (hregular : operation.IsRegular) : Kept False (s.perform operation).2 := by
  cases operation with
  | storeAttribute name attributeName =>
    exact hs.working (fun h _ hboth => hboth.storeAttribute attributeName) _
  | storeValue name attributeName valueId => exact hregular.elim
  | _ => exact hs.perform trivial False.elim

theorem Kept.afterRegular (hs : Kept False s) {event : Event} (hregular : event.IsRegular) :
    Kept False (s.after event) := by
  cases event with
  | perform operation => exact hs.performRegular hregular
  | circumstances contention now => exact hs.after trivial False.elim

theorem kept_afterAll_regular (hs : Kept False s) {events : List Event}
    (hregular : ∀ event ∈ events, event.IsRegular) : Kept False (s.afterAll events) := by
  induction events using List.reverseRecOn with
  | nil => exact hs
  | append_singleton events event ih =>
    rw [afterAll_append_single]
    have hbefore := ih fun other hmem => hregular other (List.mem_append_left _ hmem)
    exact hbefore.afterRegular (hregular event (List.mem_append_right _ List.mem_cons_self))

/-! ## Locks and links -/

/-- Numbers are given out once, whatever the operations are. -/
theorem invariant_numbered : Invariant .all fun r => r.database.Numbered where
  move := fun _ _ hr hmove => hmove.numbered hr
  circumstances := fun _ _ _ hr => hr

/-- And locks and links stand. -/
theorem invariant_linked :
    Invariant .all fun r => r.database.Numbered ∧ r.database.Linked where
  move := fun _ _ hr hmove => ⟨hmove.numbered hr.1, hmove.linked hr.1 hr.2⟩
  circumstances := fun _ _ _ hr => hr

/-! ## Whole sessions -/

/-- **The tables are intact throughout a session** on a new database, whatever fails in it, as long as no
value is written under a number of the caller's choosing. -/
theorem intact_afterAll (settings : Settings) (engine : Engine) (now : DateTime) (serial : Nat)
    {events : List Event} (hregular : ∀ event ∈ events, event.IsRegular) :
    ((ofRepository (.open settings (.blank engine) now serial)).afterAll events).repository.database.Intact := by
  have hstart : Kept False (ofRepository (.open settings (.blank engine) now serial)) :=
    kept_ofRepository False (.blank engine) fun _ hmem => by cases hmem
  have hkept := kept_afterAll_regular hstart hregular
  have hlinked := invariant_linked.always (s := ofRepository (.open settings (.blank engine) now serial))
    ⟨.blank engine, .blank engine⟩ events
  exact Database.intact_of_sound hkept.repository.sound.database hlinked.2

/-- Two units with values, one of them written alone; a size that comes to hold two elements and is
refused; a relation, an association and a lock that are asked for twice; and a store while others
write. -/
def manyTables : List Event :=
  [.perform (.define "note" .string false), .perform (.define "size" .integer true),
    .perform (.create "a" 1 (some "first")), .perform (.store "a"),
    .perform (.create "b" 1 none), .perform (.store "b"),
    .perform (.editAttribute "a" "note" (.push (.string "x"))),
    .perform (.editAttribute "a" "note" (.push (.string "y"))), .perform (.store "a"),
    .perform (.editAttribute "b" "size" (.push (.integer 1))), .perform (.storeAttribute "b" "size"),
    .perform (.editAttribute "b" "size" (.push (.integer 2))), .perform (.store "b"),
    .perform (.addRelation "a" .replacement "a"), .perform (.addRelation "a" .replacement "b"),
    .perform (.addAssociation "a" .case "one"), .perform (.addAssociation "a" .case "two"),
    .perform (.lock "b" .write "work"), .perform (.lock "b" .write "more work"),
    .circumstances .exclusive .epoch, .perform (.rename "a" none), .perform (.store "a")]

/-- What was replaced or refused has left no trace. -/
theorem manyTables_intact :
    (∀ event ∈ manyTables, event.IsRegular) ∧
      (let db := (fresh.afterAll manyTables).repository.database
       db.units.map (·.name) = [some "first", none] ∧
         db.elements.map (·.cell) = [.text "x", .text "y", .integer 1] ∧
         db.relations.map (·.right) = [⟨1, 2⟩] ∧ db.associations.map (·.reference) = ["two"] ∧
         db.locks.map (·.purpose) = ["work"]) ∧
      (fresh.afterAll manyTables).repository.database.Intact := by
  have hregular : ∀ event ∈ manyTables, event.IsRegular := by
    unfold manyTables
    simp only [List.forall_mem_cons, List.not_mem_nil, false_implies, implies_true, and_true]
    exact ⟨trivial, trivial, trivial, trivial, trivial, trivial, trivial, trivial, trivial, trivial,
      trivial, trivial, trivial, trivial, trivial, trivial, trivial, trivial, trivial, trivial, trivial,
      trivial⟩
  have hintact := intact_afterAll .inMemory .nearest .epoch 0 hregular
  unfold fresh Database.empty
  exact ⟨hregular, by decide +kernel, hintact⟩

end Session

end MetadataStore
