import Mathlib.Logic.Relation
import MetadataStore.Proofs.Handle.Loading
import MetadataStore.Proofs.Repository.Definitions

/-!
# `Proofs.Handle.Changes` — what editing does to a handle

However a unit is edited, its handle changes in five ways: its attributes are loaded, a catalogued
attribute that storage does not know is attached, an attribute takes a step, an attribute is taken off,
the unit gets another name. Each action on a handle is a sequence of these, also one that ends in a
fault, and changes nothing else but what the repository remembers of the catalogue. So a property of
handles is kept by all editing as soon as the five keep it.

## Contents
- `Handle.Change`, the five ways; `Handle.Edited`, what an action may do.
- `edited_fetch`, `edited_attributeOrCreate`, `edited_changeAttribute`, `edited_addAttribute`,
  `edited_removeAttribute`: the actions.
- `Change.known`: attributes stay catalogued.
-/

namespace MetadataStore.Handle

/-- One change of a handle while its unit is edited, the steps of attributes being of an allowed sort. -/
inductive Change (allowed : AttributeStep → Prop) (db : Database) : Handle → Handle → Prop
  /-- The attributes are loaded. -/
  | fetch (h : Handle) : Change allowed db h (h.fetched db)
  /-- A catalogued attribute is attached, of which storage knows nothing. -/
  | attach {h : Handle} {attributes : AttributeMap} (a : Attribute)
      (hloaded : h.attributes = some attributes)
      (hfree : AttributeMap.get? attributes (Text.lower a.name) = none) (hcatalogued : a.Catalogued db)
      (hnew : a.valueId = none) :
      Change allowed db h { h with attributes := some (AttributeMap.put attributes (Text.lower a.name) a) }
  /-- An attribute takes a step. -/
  | step {h : Handle} {attributes : AttributeMap} {key : String} {a b : Attribute}
      {step : AttributeStep} (hloaded : h.attributes = some attributes)
      (hfound : AttributeMap.get? attributes key = some a) (hallowed : allowed step)
      (htake : a.take step = .ok b) :
      Change allowed db h { h with attributes := some (AttributeMap.put attributes key b) }
  /-- An attribute is taken off; what is stored of it goes at the next store. -/
  | remove {h : Handle} {attributes : AttributeMap} {key : String} {a : Attribute}
      (hloaded : h.attributes = some attributes) (hfound : AttributeMap.get? attributes key = some a) :
      Change allowed db h { h with
        attributes := some (AttributeMap.erase attributes key)
        detached := if a.valueId.isSome then h.detached ++ [a.id] else h.detached }
  /-- The unit gets another name. -/
  | rename (h : Handle) (name : Option String) : Change allowed db h (h.rename name)

/-- What an action that edits may do: the handle changes, and the repository remembers other
definitions, all of them stored. -/
def Edited (allowed : AttributeStep → Prop) (before after : Repository × Handle) : Prop :=
  (∃ catalog, after.1 = before.1.withCatalog catalog ∧ catalog.Of before.1.database) ∧
    Relation.ReflTransGen (Change allowed before.1.database) before.2 after.2

variable {allowed : AttributeStep → Prop} {r : Repository} {h : Handle} {s t u : Repository × Handle}

theorem Edited.refl (hof : s.1.catalog.Of s.1.database) : Edited allowed s s :=
  ⟨⟨s.1.catalog, rfl, hof⟩, .refl⟩

theorem Edited.database_eq (hst : Edited allowed s t) : t.1.database = s.1.database := by
  obtain ⟨⟨catalog, heq, -⟩, -⟩ := hst
  rw [heq]
  rfl

theorem Edited.of (hst : Edited allowed s t) : t.1.catalog.Of t.1.database := by
  rw [hst.database_eq]
  obtain ⟨⟨catalog, heq, hof⟩, -⟩ := hst
  rw [heq]
  exact hof

theorem Edited.trans (hst : Edited allowed s t) (htu : Edited allowed t u) : Edited allowed s u := by
  have hdatabase := hst.database_eq
  obtain ⟨⟨catalog, ht, -⟩, hchanges⟩ := hst
  obtain ⟨⟨catalog', hu, hof⟩, hchanges'⟩ := htu
  rw [hdatabase] at hof hchanges'
  refine ⟨⟨catalog', ?_, hof⟩, hchanges.trans hchanges'⟩
  rw [hu, ht]
  rfl

/-- One change of the handle alone. -/
theorem Edited.of_change {h' : Handle} (hof : r.catalog.Of r.database)
    (hchange : Change allowed r.database h h') : Edited allowed (r, h) (r, h') :=
  ⟨⟨r.catalog, rfl, hof⟩, .single hchange⟩

/-! ## The actions -/

/-- The attributes are loaded, or nothing happens. -/
theorem edited_fetch (hsound : r.database.Sound) (hof : r.catalog.Of r.database) (h : Handle) :
    Edited allowed (r, h) (fetch (r, h)).2 := by
  rcases fetch_of_sound h hsound with hfetch | ⟨-, fault, hfetch⟩
  · rw [hfetch]
    exact Edited.of_change hof (.fetch h)
  · rw [hfetch]
    exact Edited.refl hof

/-- The attributes of a unit are answered as they are loaded, or nothing happens. -/
theorem loadedAttributes_of_sound (hsound : r.database.Sound) (h : Handle) :
    loadedAttributes (r, h) =
        (.ok (h.fetched r.database).loaded, (r, h.fetched r.database)) ∨
      ∃ fault, loadedAttributes (r, h) = (.error fault, (r, h)) := by
  unfold loadedAttributes
  rcases fetch_of_sound h hsound with hfetch | ⟨-, fault, hfetch⟩
  · refine Or.inl ?_
    rw [Action.bind_of_ok hfetch]
    rfl
  · refine Or.inr ⟨fault, ?_⟩
    rw [Action.bind_of_error hfetch]

/-- So is the attribute of a name. -/
theorem attribute?_of_sound (hsound : r.database.Sound) (h : Handle) (name : String) :
    attribute? name (r, h) =
        (.ok (AttributeMap.get? (h.fetched r.database).loaded (Text.lower name)),
          (r, h.fetched r.database)) ∨
      ∃ fault, attribute? name (r, h) = (.error fault, (r, h)) := by
  unfold attribute?
  rcases loadedAttributes_of_sound hsound h with hloaded | ⟨fault, hloaded⟩
  · refine Or.inl ?_
    rw [Action.bind_of_ok hloaded]
    rfl
  · refine Or.inr ⟨fault, ?_⟩
    rw [Action.bind_of_error hloaded]

/-- An action that only looks at the loaded attributes. -/
theorem edited_looking {α : Type} (hsound : r.database.Sound) (hof : r.catalog.Of r.database)
    (h : Handle) (f : AttributeMap → α) :
    Edited allowed (r, h) ((do let attributes ← loadedAttributes; pure (f attributes) : Work α) (r, h)).2 := by
  rcases loadedAttributes_of_sound hsound h with hloaded | ⟨fault, hloaded⟩
  · rw [Action.bind_of_ok hloaded]
    exact Edited.of_change hof (.fetch h)
  · rw [Action.bind_of_error hloaded]
    exact Edited.refl hof

/-- An action that looks an attribute up goes on from the loaded attributes, or nothing happens. -/
theorem edited_bind_attribute? {α : Type} (hsound : r.database.Sound) (hof : r.catalog.Of r.database)
    (h : Handle) (name : String) {next : Option Attribute → Work α}
    (hnext : Edited allowed (r, h.fetched r.database)
      (next (AttributeMap.get? (h.fetched r.database).loaded (Text.lower name))
        (r, h.fetched r.database)).2) :
    Edited allowed (r, h) ((attribute? name >>= next) (r, h)).2 := by
  rcases attribute?_of_sound hsound h name with hfound | ⟨fault, hfound⟩
  · rw [Action.bind_of_ok hfound]
    exact (Edited.of_change hof (.fetch h)).trans hnext
  · rw [Action.bind_of_error hfound]
    exact Edited.refl hof

/-- The attribute of a name is found or attached; if there is no fault, it is there afterwards. -/
theorem edited_attributeOrCreate (hsound : r.database.Sound) (hof : r.catalog.Of r.database)
    (h : Handle) (name : String) :
    Edited allowed (r, h) (attributeOrCreate name (r, h)).2 ∧
      ∀ a, (attributeOrCreate name (r, h)).1 = .ok a →
        ∃ attributes, (attributeOrCreate name (r, h)).2.2.attributes = some attributes ∧
          AttributeMap.get? attributes (Text.lower name) = some a := by
  unfold attributeOrCreate
  rcases attribute?_of_sound hsound h name with hfound | ⟨fault, hfound⟩
  · have hfetch : Edited allowed (r, h) (r, h.fetched r.database) := Edited.of_change hof (.fetch h)
    have hloaded := attributes_fetched h r.database
    rw [Action.bind_of_ok hfound]
    cases hget : AttributeMap.get? (h.fetched r.database).loaded (Text.lower name) with
    | some a =>
      refine ⟨hfetch, fun b hb => ⟨_, hloaded, ?_⟩⟩
      cases hb
      exact hget
    | none =>
      -- the handle has no such attribute: the catalogue is asked, and remembered either way
      obtain ⟨catalog, hof', hcases⟩ := Repository.infoByName_cases hsound.defined hof name
      have hlooked : Edited allowed (r, h) (r.withCatalog catalog, h.fetched r.database) :=
        hfetch.trans ⟨⟨catalog, rfl, hof'⟩, .refl⟩
      rcases hcases with ⟨fault, hlook⟩ | ⟨hlook, -⟩ | ⟨info, hlook, hstored, hname⟩
      · have hfail := (Action.onFirst_eq_error (t := h.fetched r.database)).2 ⟨_, hlook, rfl⟩
        simp only [Action.bind_of_error hfail]
        exact ⟨hlooked, fun b hb => by cases hb⟩
      · have hok := (Action.onFirst_eq_ok (t := h.fetched r.database)).2 ⟨_, hlook, rfl⟩
        simp only [Action.bind_of_ok hok]
        exact ⟨hlooked, fun b hb => by cases hb⟩
      · have hok := (Action.onFirst_eq_ok (t := h.fetched r.database)).2 ⟨_, hlook, rfl⟩
        simp only [Action.bind_of_ok hok]
        have hput : Text.lower (Attribute.ofInfo info).name = Text.lower name := hname
        have hattach : Change allowed r.database (h.fetched r.database) { h.fetched r.database with
            attributes := some (AttributeMap.put (h.fetched r.database).loaded (Text.lower name)
              (Attribute.ofInfo info)) } := by
          rw [← hput]
          exact .attach (Attribute.ofInfo info) hloaded (hput ▸ hget) hstored rfl
        refine ⟨hlooked.trans (Edited.of_change hof' hattach), ?_⟩
        intro b hb
        cases hb
        refine ⟨_, rfl, ?_⟩
        rw [AttributeMap.get?_put, if_pos rfl]
  · rw [Action.bind_of_error hfound]
    exact ⟨Edited.refl hof, fun b hb => by cases hb⟩

/-- An attribute is found or attached, and then takes a step unless the step is refused. -/
theorem edited_changeAttribute (hsound : r.database.Sound) (hof : r.catalog.Of r.database)
    (h : Handle) (name : String) {step : AttributeStep} (hallowed : allowed step) :
    Edited allowed (r, h) (changeAttribute name (·.take step) (r, h)).2 := by
  have hcreated : Edited allowed (r, h) (attributeOrCreate name (r, h)).2 ∧ _ :=
    edited_attributeOrCreate hsound hof h name
  obtain ⟨hedited, hthere⟩ := hcreated
  unfold changeAttribute
  rw [Action.bind_apply]
  cases hcreate : attributeOrCreate name (r, h) with
  | mk outcome t =>
    rw [hcreate] at hedited hthere
    cases outcome with
    -- what was attached stays, also when the step is refused
    | error fault => exact hedited
    | ok a =>
      obtain ⟨attributes, hloaded, hfound⟩ := hthere a rfl
      obtain ⟨r', h'⟩ := t
      dsimp only at hloaded hfound ⊢
      rw [Action.bind_apply]
      cases htake : a.take step with
      | error fault => exact hedited
      | ok b =>
        have hall : h'.loaded = attributes := loaded_of_attributes hloaded
        have hstep : Change allowed r'.database h' { h' with
            attributes := some (AttributeMap.put h'.loaded (Text.lower name) b) } := by
          rw [hall]
          exact .step hloaded hfound hallowed htake
        exact hedited.trans (Edited.of_change hedited.of hstep)

/-- A copy of an attribute is attached unless the unit has one of its name. -/
theorem edited_addAttribute (hsound : r.database.Sound) (hof : r.catalog.Of r.database) (h : Handle)
    {a : Attribute} (hcatalogued : a.Catalogued r.database) :
    Edited allowed (r, h) (addAttribute a (r, h)).2 := by
  refine edited_bind_attribute? hsound hof h a.name ?_
  cases hget : AttributeMap.get? (h.fetched r.database).loaded (Text.lower a.name) with
  | some b => exact Edited.refl hof
  | none =>
    have hattach : Change allowed r.database (h.fetched r.database) { h.fetched r.database with
        attributes := some (AttributeMap.put (h.fetched r.database).loaded (Text.lower a.name) a.copy) } :=
      .attach a.copy (attributes_fetched h r.database) hget hcatalogued.copy rfl
    exact Edited.of_change hof hattach

/-- An attribute is taken off if the unit has it. -/
theorem edited_removeAttribute (hsound : r.database.Sound) (hof : r.catalog.Of r.database) (h : Handle)
    (name : String) : Edited allowed (r, h) (removeAttribute name (r, h)).2 := by
  refine edited_bind_attribute? hsound hof h name ?_
  cases hget : AttributeMap.get? (h.fetched r.database).loaded (Text.lower name) with
  | none => exact Edited.refl hof
  | some a =>
    have hremove : Change allowed r.database (h.fetched r.database) { h.fetched r.database with
        attributes := some (AttributeMap.erase (h.fetched r.database).loaded (Text.lower name))
        detached := if a.valueId.isSome then (h.fetched r.database).detached ++ [a.id]
          else (h.fetched r.database).detached } :=
      .remove (attributes_fetched h r.database) hget
    exact Edited.of_change hof hremove

/-! ## What changes keep -/

variable {db : Database} {h' : Handle}

/-- Attributes stay under their names and catalogued. -/
theorem Change.known (hsound : db.Sound) (hchange : Change allowed db h h')
    (hknown : AttributeMap.Known db h.loaded) : AttributeMap.Known db h'.loaded := by
  cases hchange with
  | fetch =>
    cases hloaded : h.attributes with
    | some attributes =>
      rw [fetched_of_loaded hloaded]
      exact hknown
    | none =>
      cases href : h.ref? with
      | none =>
        rw [fetched_of_new hloaded href]
        exact .nil
      | some unit =>
        rw [loaded_fetched_of_unloaded hloaded href]
        exact hsound.known_attributesOf unit
  | attach a hloaded hfree hcatalogued hnew =>
    rw [loaded_of_attributes hloaded] at hknown
    exact hknown.put rfl hcatalogued
  | step hloaded hfound hallowed htake =>
    rw [loaded_of_attributes hloaded] at hknown
    have hmem := hknown.get?_eq_some_iff.1 hfound
    obtain ⟨-, hname, -⟩ := Attribute.same_of_take htake
    -- a step does not change the name, so the attribute stays under its key
    refine hknown.put ?_ ((hknown.catalogued _ hmem).take htake)
    rw [hname]
    exact hknown.keyed _ hmem
  | remove hloaded hfound =>
    rw [loaded_of_attributes hloaded] at hknown
    exact hknown.erase _
  | rename name => exact hknown

/-- A handle keeps its number and its creation time. -/
theorem Change.id_eq (hchange : Change allowed db h h') : h'.id = h.id ∧ h'.created = h.created := by
  cases hchange with
  | fetch =>
    unfold fetched
    split <;> exact ⟨rfl, rfl⟩
  | _ => exact ⟨rfl, rfl⟩

end MetadataStore.Handle
