import MetadataStore.Proofs.Handle.Collisions
import MetadataStore.Proofs.Repository.Sound

/-!
# `Proofs.Handle.RoundTrip` — what is stored is loaded again

A unit is edited and stored through one handle, while others work on the rest of the repository. After
every store that succeeds, the attributes of the handle are exactly those of a cold load, unless an
attribute was left unwritten because its new elements have the digest of the stored ones, or has a zero
the sign of which storage loses.

## Contents
- `Handle.Call`, the calls; `Repository.LeavesUnit`, what others may do; `Handle.EditStep`.
- `Handle.Matches`: repository and handle fit together; `Matches.step`, `Matches.run`.
- `Handle.attributes_reloaded_after_store`.
-/

namespace MetadataStore

/-- Others leave what is stored of a unit, and define attributes at most; what they do to other units, to
locks and links, to the cache, and what they hold, is their own affair. -/
structure Repository.LeavesUnit (unit? : Option UnitRef) (r r' : Repository) : Prop where
  sound : r'.Sound
  definitions : r.database.attributes <+: r'.database.attributes
  stored : ∀ unit, unit? = some unit → r'.database.hasUnit unit = r.database.hasUnit unit ∧
    Attribute.sortById (r'.database.attributesOf unit) =
      Attribute.sortById (r.database.attributesOf unit)

namespace Handle

/-! ## Runs -/

/-- A call on a unit that is edited through a handle. -/
inductive Call where
  /-- Looks at the attributes. -/
  | attributes
  | attributeOrCreate (name : String)
  /-- Changes an attribute, attaching it first if need be. -/
  | change (name : String) (step : AttributeStep)
  /-- Attaches a copy of an attribute of any unit. -/
  | add (a : Attribute)
  | remove (name : String)
  | rename (name : Option String)
  | store

/-- What a call leaves, whether it succeeds or fails. -/
def Call.perform (call : Call) (s : Repository × Handle) : Repository × Handle :=
  match call with
  | .attributes => (attributeList s).2
  | .attributeOrCreate name => (Handle.attributeOrCreate name s).2
  | .change name step => (changeAttribute name (·.take step) s).2
  | .add a => (addAttribute a s).2
  | .remove name => (removeAttribute name s).2
  | .rename name => (s.1, s.2.rename name)
  | .store => (Handle.store s).2

/-- The calls considered: steps change elements, and added attributes are catalogued. -/
def Call.Fits (s : Repository × Handle) : Call → Prop
  | .change _ step => step.IsEdit
  | .add a => a.Catalogued s.1.database
  | _ => True

/-- A call on the handle, or something that others do. -/
inductive EditStep : Repository × Handle → Repository × Handle → Prop
  | call {s : Repository × Handle} (call : Call) (hfits : call.Fits s) : EditStep s (call.perform s)
  | others {r r' : Repository} {h : Handle} (hleaves : r.LeavesUnit h.ref? r') :
      EditStep (r, h) (r', h)

/-- Repository and handle fit together. -/
structure Matches (s : Repository × Handle) : Prop where
  sound : s.1.Sound
  tracks : s.2.Tracks s.1.database

variable {s t : Repository × Handle} {r r' : Repository} {h h' : Handle}

theorem Matches.edited (hs : Matches s) (hedited : Edited AttributeStep.IsEdit s t) : Matches t := by
  obtain ⟨hsound, htracks⟩ := hs
  have hdatabase := hedited.database_eq
  obtain ⟨⟨catalog, ht, hof⟩, hchanges⟩ := hedited
  refine ⟨?_, ?_⟩
  · rw [ht]
    exact hsound.withCatalog hof
  · rw [hdatabase]
    exact htracks.changes hsound.database hchanges

theorem Matches.store (hs : Matches (r, h))
    (hstore : Handle.store (r, h) = (.ok (), (r', h'))) : Matches (r', h') := by
  obtain ⟨-, hwritable, -, rfl, rfl⟩ := store_eq_ok_of_sound hs.sound.database hstore
  exact ⟨sound_of_writtenTo hs.sound hs.tracks.known hwritable _,
    hs.tracks.store hs.sound.database hwritable⟩

/-- What others do leaves the handle as far behind as it was. -/
theorem Matches.others (hs : Matches (r, h)) (hleaves : r.LeavesUnit h.ref? r') : Matches (r', h) := by
  obtain ⟨hsound, htracks⟩ := hs
  obtain ⟨hsound', hdefinitions, hkept⟩ := hleaves
  -- what others leave of the unit is stated of lists; what is tracked, of single attributes
  have hstored : ∀ unit, h.ref? = some unit →
      ∀ a : Attribute, a.StoredOn r'.database unit ↔ a.StoredOn r.database unit := by
    intro unit href a
    have hsame := (hkept unit href).2
    rw [← hsound'.database.mem_attributesOf, ← hsound.database.mem_attributesOf,
      ← Attribute.mem_sortById, hsame, Attribute.mem_sortById]
  refine ⟨hsound', htracks.known.extend hdefinitions, ?_, htracks.unloaded, ?_, ?_⟩
  · intro unit href
    show r'.database.hasUnit unit = true
    rw [(hkept unit href).1]
    exact htracks.stored unit href
  · intro entry hmem hentry
    obtain ⟨hin, unit, was, href, hwas, hof⟩ := htracks.entries entry hmem hentry
    exact ⟨hin, unit, was, href, (hstored unit href was).2 hwas, hof⟩
  · intro hloaded unit href m hm hunit
    obtain ⟨a, ha, hid⟩ := hsound'.database.exists_storedOn hm
    rw [hunit] at ha
    obtain ⟨v, -, hmapped, -⟩ := ((hstored unit href a).1 ha).value
    rw [← hid]
    exact htracks.complete hloaded unit href _ hmapped rfl

/-- **Each step keeps repository and handle together.** -/
theorem Matches.step (hs : Matches s) (hstep : EditStep s t) : Matches t := by
  cases hstep with
  | others hleaves => exact hs.others hleaves
  | call call hfits =>
    obtain ⟨r, h⟩ := s
    have hsound := hs.sound.database
    have hof := hs.sound.catalog
    cases call with
    | attributes => exact hs.edited (edited_looking hsound hof h AttributeMap.sorted)
    | attributeOrCreate name => exact hs.edited (edited_attributeOrCreate hsound hof h name).1
    | change name step => exact hs.edited (edited_changeAttribute hsound hof h name hfits)
    | add a => exact hs.edited (edited_addAttribute hsound hof h hfits)
    | remove name => exact hs.edited (edited_removeAttribute hsound hof h name)
    | rename name => exact hs.edited (Edited.of_change hof (.rename h name))
    | store =>
      cases hstore : Handle.store (r, h) with
      | mk outcome t =>
        show Matches (Handle.store (r, h)).2
        rw [hstore]
        cases outcome with
        | ok u => exact hs.store hstore
        | error fault =>
          rw [store_eq_error hstore]
          exact hs

theorem Matches.run (hs : Matches s) (hrun : Relation.ReflTransGen EditStep s t) : Matches t := by
  induction hrun with
  | refl => exact hs
  | tail _ hstep ih => exact ih.step hstep

/-! ## The round trip -/

/-- A unit that is new or was just loaded fits. -/
theorem Matches.start (hsound : s.1.Sound)
    (hstart : (∃ tenant name correlation, s.2 = Handle.create tenant name correlation) ∨
      ∃ unit, Repository.load unit s.1 = (.ok (some s.2), s.1)) : Matches s := by
  refine ⟨hsound, ?_⟩
  rcases hstart with ⟨tenant, name, correlation, hnew⟩ | ⟨unit, hload⟩
  · rw [hnew]
    exact Tracks.create _ tenant name correlation
  · obtain ⟨-, row, hrow, hmake, -⟩ := Repository.load_eq_ok_some.1 hload
    exact Tracks.ofRow (Database.unit?_eq_some hrow).1 hmake

/-- After a store none of the attributes waits to be written. -/
theorem Matches.needsWriting_fetched (hs : Matches (r, h))
    (hstore : Handle.store (r, h) = (.ok (), (r', h'))) :
    ∀ entry ∈ (h'.fetched r'.database).loaded, entry.2.needsWriting = false := by
  intro entry hmem
  have hdb := hs.sound.database
  obtain ⟨-, hwritable, -, hsettled, -⟩ := store_eq_ok_of_sound hdb hstore
  cases hattributes : h'.attributes with
  | none =>
    -- loaded from storage only now
    rw [loaded_fetched_of_unloaded hattributes (ref?_of_store hdb hstore)] at hmem
    exact ((hs.store hstore).sound.database.mem_ofAttributes.1 hmem).2.needsWriting
  | some attributes =>
    rw [fetched_of_loaded hattributes] at hmem
    have hnone : h'.pending = [] := by
      rw [hsettled]
      exact pending_settle
    simpa using List.filter_eq_nil_iff.1 hnone entry hmem

/-- After a store the attributes are those that storage has, but for collisions and signs of zeros. -/
theorem Matches.stored_eq_iff (hs : Matches (r, h))
    (hstore : Handle.store (r, h) = (.ok (), (r', h'))) :
    Attribute.sortById (r'.database.attributesOf (h.writtenUnit r.database)) =
        AttributeMap.sorted (h'.fetched r'.database).loaded ↔
      ¬ h.Collides r.database ∧ ∀ a ∈ AttributeMap.sorted (h'.fetched r'.database).loaded,
        ∀ d ∈ a.value.elements, ¬ d.IsNegativeZero := by
  have hs' := hs.store hstore
  have hdb := hs.sound.database
  have hdb' := hs'.sound.database
  obtain ⟨-, hwritable, -, hsettled, hkept⟩ := store_eq_ok_of_sound hdb hstore
  have hdatabase : r'.database = h.writtenTo (h.creationTime r) r.database := by rw [hkept]
  have href := ref?_of_store hdb hstore
  cases hattributes : h.attributes with
  -- Attributes never looked at are loaded from what is stored, where no zero has a sign.
  | none =>
    have hunloaded : h'.attributes = none := by
      rw [hsettled, settle, hattributes]
      rfl
    rw [loaded_fetched_of_unloaded hunloaded href, hdb'.sorted_ofAttributes]
    refine iff_of_true rfl ⟨?_, ?_⟩
    · rintro ⟨entry, hmem, -⟩
      rw [Handle.loaded, hattributes] at hmem
      cases hmem
    · intro a hmem d hd
      exact (hdb'.mem_attributesOf.1 (Attribute.mem_sortById.1 hmem)).not_isNegativeZero hd
  | some attributes =>
    have hattributes' : h'.attributes ≠ none := by
      rw [hsettled, settle, hattributes]
      exact Option.some_ne_none _
    obtain ⟨attributes', hloaded'⟩ := Option.ne_none_iff_exists'.1 hattributes'
    have hdetached : h'.detached = [] := by
      rw [hsettled]
      rfl
    have hheld : ∀ a, a ∈ AttributeMap.sorted h'.loaded ↔ ∃ entry ∈ h'.loaded, entry.2 = a :=
      fun a => Attribute.mem_sortById.trans List.mem_map
    rw [fetched_of_loaded hloaded', hs'.tracks.sorted_eq_iff hdb' hattributes' hdetached href, hdatabase]
    simp only [hheld, forall_exists_index, and_imp, forall_apply_eq_imp_iff₂]
    rw [hsettled]
    exact hs.tracks.storedOn_settle_iff hdb hwritable

/-- **Store, then load, is the identity** but for collisions and signs of zeros. After a run of edits and
stores through one handle, begun with a new unit or one just loaded, a store that succeeds leaves a
handle whose attributes are those of a cold load exactly when none was left unwritten for the digest of
other elements, and none has a zero with a sign; either way none of them is new or changed. -/
theorem attributes_reloaded_after_store {start : Repository × Handle} (hsound : start.1.Sound)
    (hstart : (∃ tenant name correlation, start.2 = Handle.create tenant name correlation) ∨
      ∃ unit, Repository.load unit start.1 = (.ok (some start.2), start.1))
    (hrun : Relation.ReflTransGen EditStep start s)
    (hstore : Handle.store s = (.ok (), (r', h'))) :
    ∃ unit made held stored, h'.ref? = some unit ∧
      (attributeList (r', h')).1 = .ok held ∧
      (Repository.reload unit r').1 = .ok (some (made, stored)) ∧
      (∀ a ∈ held ++ stored, a.isNew = false ∧ a.isModified = false) ∧
      (stored = held ↔ ¬ s.2.Collides s.1.database ∧
        ∀ a ∈ held, ∀ d ∈ a.value.elements, ¬ d.IsNegativeZero) := by
  obtain ⟨r, h⟩ := s
  have hs : Matches (r, h) := (Matches.start hsound hstart).run hrun
  have hs' := hs.store hstore
  have hdb' := hs'.sound.database
  have hread := allowsReading_of_store hs.sound.database hstore
  have href := ref?_of_store hs.sound.database hstore
  obtain ⟨made, hmade, -⟩ := hs'.sound.stored?_eq (hs'.tracks.stored _ href)
  have hreload := (Repository.reload_eq_stored? hdb' hs'.sound.readable hread
    (h.writtenUnit r.database)).1
  rw [hmade] at hreload
  refine ⟨h.writtenUnit r.database, made, _, _, href,
    congrArg Prod.fst (Repository.attributeList_of_reading hdb' hread h'), hreload, ?_,
    hs.stored_eq_iff hstore⟩
  intro a hmem
  suffices hdone : a.needsWriting = false from Attribute.needsWriting_eq_false_iff.1 hdone
  rcases List.mem_append.1 hmem with hheld | hstored
  · obtain ⟨entry, hentry, rfl⟩ := List.mem_map.1 (List.mem_mergeSort.1 hheld)
    exact hs.needsWriting_fetched hstore entry hentry
  · exact (hdb'.mem_attributesOf.1 (Attribute.mem_sortById.1 hstored)).needsWriting

/-! ## A sample -/

/-- An attribute of long integers. -/
def seriesDatabase : Database :=
  { Database.empty with
    attributes := [⟨1, "series", 4, false⟩]
    lastAttribute := 1 }

theorem sound_seriesDatabase : seriesDatabase.Sound :=
  (Database.Sound.blank .nearest).insertAttribute ⟨1, "series", 4, false⟩ rfl ⟨.long, rfl⟩ fun _ h => by cases h

/-- A new unit of a repository on it. -/
def seriesStart : Repository × Handle :=
  (.open .inMemory seriesDatabase .epoch 0, Handle.create 1 none "first")

theorem sound_seriesStart : seriesStart.1.Sound where
  database := sound_seriesDatabase
  readable := fun _ h => by cases h
  catalog := Catalog.Of.empty _

def setSeries (numbers : List Int64) : Call :=
  .change "series" (.edit none (.set (numbers.map .long)))

theorem editStep_setSeries (s : Repository × Handle) (numbers : List Int64) :
    EditStep s ((setSeries numbers).perform s) := by
  refine .call (setSeries numbers) ?_
  show AttributeStep.IsEdit (.edit none (.set (numbers.map .long)))
  exact True.intro

/-- A series is stored and loaded again. -/
theorem series_reloaded :
    seriesStart.1.Sound ∧ ∃ r' h',
      Handle.store ((setSeries [1, 2, 3]).perform seriesStart) = (.ok (), (r', h')) ∧
      ∃ unit made held stored, h'.ref? = some unit ∧ (attributeList (r', h')).1 = .ok held ∧
        (Repository.reload unit r').1 = .ok (some (made, stored)) ∧ stored = held := by
  have hok : (Handle.store ((setSeries [1, 2, 3]).perform seriesStart)).1.isOk = true := by
    decide +kernel
  have hpending : ∀ entry ∈ ((setSeries [1, 2, 3]).perform seriesStart).2.loaded,
      entry.2.needsWriting = true := by
    decide +kernel
  have hlong : ∀ a ∈ (attributeList (Handle.store ((setSeries [1, 2, 3]).perform seriesStart)).2).1.toOption.getD [],
      a.value.kind = .long := by
    decide +kernel
  cases hstore : Handle.store ((setSeries [1, 2, 3]).perform seriesStart) with
  | mk outcome t =>
    obtain ⟨r', h'⟩ := t
    rw [hstore] at hok
    cases outcome with
    | error fault => cases hok
    | ok u =>
      obtain ⟨unit, made, held, stored, href, hheld, hstored, -, hsame⟩ :=
        attributes_reloaded_after_store sound_seriesStart (Or.inl ⟨1, none, "first", rfl⟩)
          (.single (editStep_setSeries _ _)) hstore
      refine ⟨sound_seriesStart, r', h', rfl, unit, made, held, stored, href, hheld, hstored,
        hsame.2 ⟨?_, ?_⟩⟩
      · rintro ⟨entry, hmem, hdone, -⟩
        rw [hpending entry hmem] at hdone
        cases hdone
      · rw [hstore, hheld] at hlong
        rintro a hmem d hd ⟨x, rfl, -⟩
        cases (a.value.typed _ hd).trans (hlong a hmem)

/-- A series was stored, and then another one put in its place that has its digest. -/
def collidingSeries : Repository × Handle :=
  (setSeries [1, 0, 0, 0, 3569553265035814293]).perform
    (Call.store.perform ((setSeries [0, 0, 0, 0, 0]).perform seriesStart))

/-- What storage has of the first series. -/
def storedSeries : Attribute :=
  ⟨1, "series", false, some 1, .ofElements .long ([0, 0, 0, 0, 0].map Datum.long) false (by simp [Datum.kind])⟩

theorem run_collidingSeries : Relation.ReflTransGen EditStep seriesStart collidingSeries :=
  ((Relation.ReflTransGen.single (editStep_setSeries _ _)).tail (.call .store trivial)).tail
    (editStep_setSeries _ _)

/-- An attribute that storage has, and the handle in another form, tells the lists apart. -/
theorem Matches.reload_ne {r : Repository} {h : Handle} (hs : Matches (r, h)) {unit : UnitRef}
    {a : Attribute} (hread : r.contention.allowsReading = true)
    (hunit : r.database.hasUnit unit = true) (hloaded : h.attributes.isSome = true)
    (hstored : a.StoredOn r.database unit) (hother : ∀ entry ∈ h.loaded, entry.2 ≠ a) :
    ∃ made held stored, (attributeList (r, h)).1 = .ok held ∧
      (Repository.reload unit r).1 = .ok (some (made, stored)) ∧ stored ≠ held := by
  have hsound := hs.sound.database
  obtain ⟨made, hmade, -⟩ := hs.sound.stored?_eq hunit
  have hreload := (Repository.reload_eq_stored? hsound hs.sound.readable hread unit).1
  rw [hmade] at hreload
  obtain ⟨attributes, hattributes⟩ := Option.isSome_iff_exists.1 hloaded
  have hlist := congrArg Prod.fst (Repository.attributeList_of_reading hsound hread h)
  rw [fetched_of_loaded hattributes] at hlist
  refine ⟨made, _, _, hlist, hreload, fun heq => ?_⟩
  have hmem : a ∈ AttributeMap.sorted h.loaded := by
    rw [← heq]
    exact Attribute.mem_sortById.2 (hsound.mem_attributesOf.2 hstored)
  obtain ⟨entry, hentry, hsame⟩ := List.mem_map.1 (List.mem_mergeSort.1 hmem)
  exact hother entry hentry hsame

theorem storedOn_storedSeries {db : Database} {unit : UnitRef}
    (hinfo : db.attribute? 1 = some ⟨1, "series", 4, false⟩)
    (hmapped : (⟨unit, 1, 1⟩ : Mapping) ∈ db.mappings)
    (hrows : db.rowsUnder 1 = writtenFrom .long 1 0 storedSeries.value.elements) :
    storedSeries.StoredOn db unit where
  catalogued := ⟨_, hinfo, rfl, rfl, rfl⟩
  value := ⟨1, rfl, hmapped, hrows⟩
  isNew := rfl
  baseline := rfl
  storable := by decide
  readBack := by decide

/-- Storing the other series succeeds, but leaves the first one in storage. -/
theorem collidingSeries_not_reloaded :
    Relation.ReflTransGen EditStep seriesStart collidingSeries ∧
      ∃ r' h' made held stored, Handle.store collidingSeries = (.ok (), (r', h')) ∧
        (attributeList (r', h')).1 = .ok held ∧
        (Repository.reload ⟨1, 1⟩ r').1 = .ok (some (made, stored)) ∧ stored ≠ held := by
  have hok : (Handle.store collidingSeries).1.isOk = true := by decide +kernel
  have hunit : (Handle.store collidingSeries).2.1.database.hasUnit ⟨1, 1⟩ = true := by decide +kernel
  have hmapped : (⟨⟨1, 1⟩, 1, 1⟩ : Mapping) ∈
      (Handle.store collidingSeries).2.1.database.mappings := by decide +kernel
  have hrows : (Handle.store collidingSeries).2.1.database.rowsUnder 1 =
      writtenFrom .long 1 0 storedSeries.value.elements := by decide +kernel
  have hinfo : (Handle.store collidingSeries).2.1.database.attribute? 1 =
      some ⟨1, "series", 4, false⟩ := by decide +kernel
  have hread : (Handle.store collidingSeries).2.1.contention.allowsReading = true := by decide +kernel
  have hloaded : (Handle.store collidingSeries).2.2.attributes.isSome = true := by decide +kernel
  have hother : ∀ entry ∈ (Handle.store collidingSeries).2.2.loaded,
      entry.2.value.elements.head? = some (.long 1) := by decide +kernel
  have hmatches : Matches seriesStart := ⟨sound_seriesStart, Tracks.create _ 1 none "first"⟩
  have hs : Matches (Handle.store collidingSeries).2 :=
    (hmatches.run run_collidingSeries).step (.call .store trivial)
  cases hstore : Handle.store collidingSeries with
  | mk outcome t =>
    obtain ⟨r', h'⟩ := t
    rw [hstore] at hs hok hunit hmapped hrows hinfo hread hloaded hother
    cases outcome with
    | error fault => cases hok
    | ok u =>
      obtain ⟨made, held, stored, hheld, hreload, hne⟩ := hs.reload_ne hread hunit hloaded
        (storedOn_storedSeries hinfo hmapped hrows) fun entry hentry hsame => by
          have hone := hother entry hentry
          rw [hsame] at hone
          exact absurd hone (by decide)
      exact ⟨run_collidingSeries, r', h', made, held, stored, rfl, hheld, hreload, hne⟩

end Handle

end MetadataStore
