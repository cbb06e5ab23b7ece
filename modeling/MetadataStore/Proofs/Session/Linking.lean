import MetadataStore.Proofs.Repository.Linking
import MetadataStore.Proofs.Session.Searches

/-!
# `Proofs.Session.Linking` — links through whole sessions

What the tables say of links is told by a run over sets of ends, for which only those operations count that
make or remove a link, or dispose of units, and were possible where they were asked for. Links are listed
from either end, and both listings are of these sets.

## Contents
- `Session.Reachable.linksStand`.
- `Operation.linkChange?`, the change of links that an operation makes; `Session.linkChanges`.
- `Session.Settles`, `settles_of_isLink`: work on one link, and what it answers.
- `Session.links_perform`, `links_afterAll`: one operation, and a run of events.
- `Session.AnswersUnits`, `AnswersTexts`: listings of links; `answersUnits_relations` and its siblings.
- `Session.links_follow_sets`, with a sample.
-/

namespace MetadataStore

/-! ## States that can be reached -/

namespace Session

variable {s : Session} {operation : Operation}

/-- **What others do lets links stand.** -/
theorem linksStand_intervene (hs : s.repository.database.LinksStand) (intervention : Intervention) :
    (s.intervene intervention).2.repository.database.LinksStand := by
  refine intervene_keeps Database.LinksStand hs (fun f hf => ?_) (fun hinsert => ?_)
    (fun _ => hs.stand rfl rfl fun _ h => h) (fun _ => hs.stand rfl rfl fun _ h => h) .blank intervention
  · refine hs.stand rfl rfl fun other hother => ?_
    obtain ⟨row, hmem, rfl⟩ := Database.hasUnit_iff.1 hother
    exact Database.hasUnit_iff.2 ⟨_, List.mem_map_of_mem hmem, hf row⟩
  · obtain ⟨hrows, hlinks⟩ := Database.insertAttribute_leaves hinsert
    exact hs.stand hlinks.relations hlinks.associations fun unit h => (hrows.hasUnit unit).trans h

theorem invariant_linksStand :
    Invariant .all fun r => r.database.Numbered ∧ r.database.LinksStand where
  move := fun _ _ hr hmove => ⟨hmove.numbered hr.1, hmove.linksStand hr.1 hr.2⟩
  circumstances := fun _ _ _ hr => hr

/-- Links stand wherever a session comes to. -/
theorem Reachable.linksStand (hs : s.Reachable) : s.repository.database.LinksStand := by
  induction hs with
  | connect settings engine now serial => exact .blank engine
  | reconnect settings now serial _ ih => exact ih
  | after event hbefore ih =>
    exact (invariant_linksStand.after ⟨hbefore.numbered, ih⟩ (event.answersFor_all _)).2
  | intervene intervention _ ih => exact linksStand_intervene ih intervention

end Session

/-! ## Changes of links -/

namespace Handle

variable {h : Handle} {unit : UnitRef}

/-- Links of a unit that is stored are listed by its identity. -/
theorem relations_of_ref? (href : h.ref? = some unit) (kind : LinkKind) :
    h.relations kind = Repository.relations unit kind >>= Repository.resolve := by
  unfold relations
  rw [href]

theorem relatedFrom_of_ref? (href : h.ref? = some unit) (kind : LinkKind) :
    h.relatedFrom kind = Repository.relatedTo unit kind >>= Repository.resolve := by
  unfold relatedFrom
  rw [href]

theorem associations_of_ref? (href : h.ref? = some unit) (kind : LinkKind) :
    h.associations kind = Repository.associations unit kind := by
  unfold associations
  rw [href]

end Handle

/-- Work on one link. -/
def Operation.IsLink : Operation → Prop
  | .addRelation _ _ _ | .removeRelation _ _ _ => True
  | .addAssociation _ _ _ | .removeAssociation _ _ _ => True
  | _ => False

/-- The change of links that is asked for, by the units that are held and those that wait for disposal. -/
def Operation.asksLinks? (s : Session) : Operation → Option LinkChange
  | .addRelation name kind other =>
    (s.identity? (.held name)).bind fun left =>
      (s.identity? (.held other)).map fun right => .add left kind (.unit right)
  | .removeRelation name kind other =>
    (s.identity? (.held name)).bind fun left =>
      (s.identity? (.held other)).map fun right => .remove left kind (.unit right)
  | .addAssociation name kind reference =>
    (s.identity? (.held name)).map fun left => .add left kind (.reference (Text.trim reference))
  | .removeAssociation name kind reference =>
    (s.identity? (.held name)).map fun left => .remove left kind (.reference (Text.trim reference))
  | .dispose tenant =>
    some (.dispose ((s.repository.database.waiting tenant.toInt).filter s.repository.takes))
  | _ => none

/-- The change of links that an operation makes: the one that it asks for, if that is possible. -/
def Operation.linkChange? (s : Session) (operation : Operation) : Option LinkChange :=
  (operation.asksLinks? s).filter (·.isPossible s.repository)

namespace Session

open MetadataStore.Repository (Looks Makes Terms)

variable {s : Session} {operation : Operation} {name other : String} {kind : LinkKind}

def Event.linkChange? (s : Session) : Event → Option LinkChange
  | .perform operation => operation.linkChange? s
  | .circumstances _ _ => none

/-- The changes of links that events make in turn. -/
def linkChanges (s : Session) : List Event → List LinkChange
  | [] => []
  | event :: rest => (event.linkChange? s).toList ++ (s.after event).linkChanges rest

/-! ## Work on one link -/

/-- What work on one link comes to: a change is made, and that is answered; or there is none to make,
everything is left as it was, and something else is answered. -/
def Settles (s : Session) (change? : Option LinkChange) (outcome : Answer × Session) : Prop :=
  match change? with
  | some change => outcome = (.done, { s with repository :=
      { s.repository with database := s.repository.database.changed change } })
  | none => outcome.1 ≠ .done ∧ outcome.2 = s

theorem settles_fault (s : Session) (fault : Fault) : s.Settles none (.fault fault, s) :=
  ⟨by rintro ⟨⟩, rfl⟩

theorem settles_notHeld (s : Session) (name : String) : s.Settles none (.notHeld name, s) :=
  ⟨by rintro ⟨⟩, rfl⟩

/-- An action that makes a change settles it if it is possible. -/
theorem settles_of_makes {action : Action Repository Unit} {change : LinkChange}
    (hmakes : Makes action change s.repository) :
    s.Settles ((some change).filter (·.isPossible s.repository)) (s.consulting action fun _ => .done) := by
  unfold consulting consult
  cases hpossible : change.isPossible s.repository with
  | true =>
    rw [hmakes.done hpossible, Option.filter_some, if_pos hpossible]
    rfl
  | false =>
    obtain ⟨fault, hrefused⟩ := hmakes.refused hpossible
    rw [hrefused, Option.filter_some, hpossible, if_neg Bool.false_ne_true]
    exact settles_fault s fault

/-- An action that fails at once settles nothing. -/
theorem settles_of_error {action : Action Repository Unit} {fault : Fault}
    (hfails : action s.repository = (.error fault, s.repository)) :
    s.Settles none (s.consulting action fun _ => .done) := by
  unfold consulting consult
  rw [hfails]
  exact settles_fault s fault

/-- Work on a link of one unit, which has to be held and stored. -/
theorem settles_asking {work : UnitRef → Action Repository Unit} {change : UnitRef → LinkChange}
    (hmakes : ∀ left, Makes (work left) (change left) s.repository) (name action : String) :
    s.Settles (((s.identity? (.held name)).map change).filter (·.isPossible s.repository))
      (s.asking name (fun h => do work (← Action.ofResult (h.stored action))) fun _ => .done) := by
  simp only [asking, withHandle, identity?, Handle.stored]
  cases s.handle? name with
  | none => exact settles_notHeld s name
  | some h =>
    rw [Option.bind_some]
    dsimp only
    cases h.ref? with
    | none => exact settles_of_error rfl
    | some left => exact settles_of_makes (hmakes left)

/-- Work on a link between two units, which both have to be held and stored. -/
theorem settles_asking_both {work : UnitRef → UnitRef → Action Repository Unit}
    {change : UnitRef → UnitRef → LinkChange}
    (hmakes : ∀ left right, Makes (work left right) (change left right) s.repository)
    (name other action action' : String) :
    s.Settles (((s.identity? (.held name)).bind fun left =>
        (s.identity? (.held other)).map (change left)).filter (·.isPossible s.repository))
      (s.withHandle other fun h' => s.asking name (fun h => do
        let left ← Action.ofResult (h.stored action)
        let right ← Action.ofResult (h'.stored action')
        work left right) fun _ => .done) := by
  simp only [asking, withHandle, identity?, Handle.stored]
  cases s.handle? other with
  | none => cases (s.handle? name).bind Handle.ref? <;> exact settles_notHeld s other
  | some h' =>
    cases s.handle? name with
    | none => exact settles_notHeld s name
    | some h =>
      rw [Option.bind_some, Option.bind_some]
      dsimp only
      cases h.ref? with
      | none => exact settles_of_error rfl
      | some left =>
        cases h'.ref? with
        | none => exact settles_of_error rfl
        | some right => exact settles_of_makes (hmakes left right)

/-- **Work on one link makes the change that it is asked for, or leaves everything.** -/
theorem settles_of_isLink (hlinks : s.repository.database.LinksStand) (hlink : operation.IsLink) :
    s.Settles (operation.linkChange? s) (s.perform operation) := by
  cases operation with
  | addRelation name kind other =>
    exact settles_asking_both (fun left right => Repository.makes_addRelation hlinks left kind right)
      name other "relate" "relate to"
  | removeRelation name kind other =>
    exact settles_asking_both (fun left right => Repository.makes_removeRelation left kind right _)
      name other "unrelate" "unrelate from"
  | addAssociation name kind reference =>
    exact settles_asking (fun left => Repository.makes_addAssociation hlinks left kind reference)
      name "associate"
  | removeAssociation name kind reference =>
    exact settles_asking (fun left => Repository.makes_removeAssociation left kind reference _)
      name "disassociate"
  | _ => cases hlink

/-! ## Runs -/

/-- Everything but links may be done. -/
def withoutLinks : Terms :=
  { Terms.all with links := False }

/-- Links stay as they are in all operations that are not about them. -/
theorem invariant_links (links : LinkSets) :
    Invariant withoutLinks fun r => r.database.Numbered ∧ r.database.links = links where
  move := fun _ _ hr hmove => ⟨hmove.numbered hr.1, (hmove.links_eq hr.1 id).trans hr.2⟩
  circumstances := fun _ _ _ hr => hr

/-- **Links after an operation** are what the change makes of them that it asks for, if that is possible. -/
theorem links_perform (hs : s.Reachable) (operation : Operation) :
    (s.perform operation).2.repository.database.links =
      (operation.linkChange? s).toList.foldl LinkSets.after s.repository.database.links := by
  by_cases hlink : operation.IsLink
  · have hsettles := settles_of_isLink hs.linksStand hlink
    cases hchange : operation.linkChange? s with
    | none =>
      rw [hchange] at hsettles
      rw [hsettles.2]
      rfl
    | some change =>
      rw [hchange] at hsettles
      have hdone : s.perform operation = _ := hsettles
      rw [hdone]
      exact Repository.links_changed hs.linksStand (Option.filter_eq_some_iff.1 hchange).2
  · by_cases hlinking : operation.IsLinking
    · cases operation with
      | dispose tenant =>
        have hafter : (s.perform (.dispose tenant)).2.repository.database =
            s.repository.database.without
              ((s.repository.database.waiting tenant.toInt).filter s.repository.takes) := by
          rw [Session.perform, repository_consulting]
          exact Repository.database_dispose hs.numbered.unitsDistinct tenant
        rw [hafter]
        exact Database.links_without _ _
      | addRelation | removeRelation | addAssociation | removeAssociation => exact absurd trivial hlink
      | _ => exact hlinking.elim
    · have hanswers : operation.AnswersFor withoutLinks s :=
        Operation.answersFor_of_parts (fun _ _ => trivial) (fun _ _ _ _ => trivial)
          (fun _ _ _ _ => trivial) (fun _ _ _ _ _ _ => trivial) (Or.inr trivial) (Or.inl hlinking)
      have hsame := ((invariant_links s.repository.database.links).perform ⟨hs.numbered, rfl⟩ hanswers).2
      have hnone : operation.linkChange? s = none := by
        cases operation with
        | dispose | addRelation | removeRelation | addAssociation | removeAssociation =>
          exact absurd trivial hlinking
        | _ => rfl
      rw [hsame, hnone]
      rfl

theorem links_after (hs : s.Reachable) (event : Event) :
    (s.after event).repository.database.links =
      (event.linkChange? s).toList.foldl LinkSets.after s.repository.database.links := by
  cases event with
  | perform operation => exact links_perform hs operation
  | circumstances contention now => rfl

/-- **Links after a run** are what its changes make of them in turn. -/
theorem links_afterAll (hs : s.Reachable) (events : List Event) :
    (s.afterAll events).repository.database.links =
      (s.linkChanges events).foldl LinkSets.after s.repository.database.links := by
  induction events generalizing s with
  | nil => rfl
  | cons event rest ih =>
    rw [linkChanges, List.foldl_append, ← links_after hs event]
    exact ih (hs.after event)

/-! ## Listings -/

/-- An answer to the question which units there are of a sort: it lists them in order, none of them twice, if
it lists any; it does list them if the question is one that is meant to be asked, and the database can be
read with the rows of these units; and it is a fault if the question is not. -/
structure AnswersUnits (s : Session) (meant : Prop) (sort : UnitRef → Prop) (answer : Answer) : Prop where
  lists : ∀ hs, answer = .units hs → ∃ units : List UnitRef,
    hs.map Handle.ref? = units.map some ∧ units.Pairwise UnitRef.Before ∧ ∀ unit, unit ∈ units ↔ sort unit
  given : meant → s.repository.contention.allowsReading = true →
    (∀ row ∈ s.repository.database.units, sort row.unit → ∃ made, Handle.ofRow row = .ok made) →
      ∃ hs, answer = .units hs
  refused : ¬meant → ∃ fault, answer = .fault fault

/-- The same for references. -/
structure AnswersTexts (s : Session) (meant : Prop) (sort : String → Prop) (answer : Answer) : Prop where
  lists : ∀ texts, answer = .texts texts → texts.Pairwise (· < ·) ∧ ∀ text, text ∈ texts ↔ sort text
  given : meant → s.repository.contention.allowsReading = true → ∃ texts, answer = .texts texts
  refused : ¬meant → ∃ fault, answer = .fault fault

/-- The answer of an action that succeeds, and of one that fails. -/
theorem consulting_of_ok {α : Type} {action : Action Repository α} {a : α} {r : Repository}
    (h : action s.repository = (.ok a, r)) (make : α → Answer) :
    s.consulting action make = (make a, { s with repository := r }) := by
  unfold consulting consult
  rw [h]
  rfl

theorem consulting_of_error {α : Type} {action : Action Repository α} {fault : Fault} {r : Repository}
    (h : action s.repository = (.error fault, r)) (make : α → Answer) :
    s.consulting action make = (.fault fault, { s with repository := r }) := by
  unfold consulting consult
  rw [h]
  rfl

/-- Units that are looked up one by one after a look at their identities. -/
theorem answersUnits_of_looks (hs : s.Reachable) {action : Action Repository (List UnitRef)}
    {meant : Prop} {f : Database → List UnitRef} {sort : UnitRef → Prop}
    (hlooks : Looks action meant f s.repository)
    (hmem : ∀ unit, unit ∈ f s.repository.database ↔ sort unit)
    (horder : (f s.repository.database).Pairwise UnitRef.Before)
    (hstored : ∀ unit, sort unit → s.repository.database.hasUnit unit = true) :
    s.AnswersUnits meant sort (s.consulting (action >>= Repository.resolve) .units).1 where
  lists := by
    intro found hanswer
    cases hrun : (action >>= Repository.resolve) s.repository with
    | mk outcome r =>
      cases outcome with
      | error fault =>
        rw [consulting_of_error hrun] at hanswer
        cases hanswer
      | ok listed =>
        rw [consulting_of_ok hrun] at hanswer
        cases hanswer
        obtain ⟨units, t, hlook, hresolve⟩ := Action.bind_eq_ok.1 hrun
        by_cases hmeant : meant
        · rw [hlooks.reads hmeant] at hlook
          obtain ⟨-, rfl, rfl⟩ := Repository.read_eq_ok.1 hlook
          have hfound := Repository.resolve_eq_ok hs.keyed
            (fun unit hunit => hstored unit ((hmem unit).1 hunit)) hresolve
          exact ⟨_, hfound, horder, hmem⟩
        · obtain ⟨fault, hrefused⟩ := hlooks.refused hmeant
          rw [hrefused] at hlook
          cases hlook
  given := by
    intro hmeant hread hrows
    have hlook := (hlooks.reads hmeant).trans (Repository.read_of_allows f hread)
    have hready : ∀ unit ∈ f s.repository.database, ∃ row made,
        s.repository.database.unit? unit = some row ∧ Handle.ofRow row = .ok made := by
      intro unit hunit
      have hsort := (hmem unit).1 hunit
      have hthere := hstored unit hsort
      rw [Database.hasUnit_eq_isSome_unit?] at hthere
      obtain ⟨row, hrow⟩ := Option.isSome_iff_exists.1 hthere
      obtain ⟨hin, rfl⟩ := Database.unit?_eq_some hrow
      obtain ⟨made, hmade⟩ := hrows row hin hsort
      exact ⟨row, made, hrow, hmade⟩
    obtain ⟨found, r, hresolve⟩ := Repository.exists_resolve_eq_ok hread hready
    have hrun := Action.bind_eq_ok.2 ⟨_, _, hlook, hresolve⟩
    exact ⟨found, by rw [consulting_of_ok hrun]⟩
  refused := by
    intro hno
    obtain ⟨fault, hrefused⟩ := hlooks.refused hno
    exact ⟨fault, by rw [consulting_of_error (Action.bind_of_error hrefused _)]⟩

theorem answersTexts_of_looks {action : Action Repository (List String)} {meant : Prop}
    {f : Database → List String} {sort : String → Prop} (hlooks : Looks action meant f s.repository)
    (hmem : ∀ text, text ∈ f s.repository.database ↔ sort text)
    (horder : (f s.repository.database).Pairwise (· < ·)) :
    s.AnswersTexts meant sort (s.consulting action .texts).1 where
  lists := by
    intro texts hanswer
    by_cases hmeant : meant
    · cases hread : s.repository.contention.allowsReading with
      | true =>
        have hrun := (hlooks.reads hmeant).trans (Repository.read_of_allows f hread)
        rw [consulting_of_ok hrun] at hanswer
        cases hanswer
        exact ⟨horder, hmem⟩
      | false =>
        have hrun := (hlooks.reads hmeant).trans (Repository.read_eq_error.2 ⟨hread, rfl, rfl⟩)
        rw [consulting_of_error hrun] at hanswer
        cases hanswer
    · obtain ⟨fault, hrefused⟩ := hlooks.refused hmeant
      rw [consulting_of_error hrefused] at hanswer
      cases hanswer
  given := fun hmeant hread =>
    ⟨_, by rw [consulting_of_ok ((hlooks.reads hmeant).trans (Repository.read_of_allows f hread))]⟩
  refused := by
    intro hno
    obtain ⟨fault, hrefused⟩ := hlooks.refused hno
    exact ⟨fault, by rw [consulting_of_error hrefused]⟩

theorem asking_of_handle? {α : Type} {h : Handle} (hfind : s.handle? name = some h)
    (action : Handle → Action Repository α) (make : α → Answer) :
    s.asking name action make = s.consulting (action h) make := by
  unfold asking withHandle
  rw [hfind]

section Listings

variable {name : String} {h : Handle} {unit : UnitRef} (hs : s.Reachable)
include hs

theorem answersUnits_relations (hfind : s.handle? name = some h) (href : h.ref? = some unit)
    (kind : LinkKind) :
    s.AnswersUnits (kind.isRelational = true)
      (fun right => .unit right ∈ s.repository.database.links unit kind)
      (s.perform (.relations name kind)).1 := by
  have hperform : s.perform (.relations name kind) = s.consulting
      (Repository.relations unit kind >>= Repository.resolve) .units :=
    (asking_of_handle? hfind (fun h => h.relations kind) .units).trans
      (by rw [Handle.relations_of_ref? href])
  rw [hperform]
  exact answersUnits_of_looks hs (Repository.looks_relations unit kind _)
    (fun _ => Database.mem_relationsOf) (hs.linksStand.pairwise_relationsOf _ _)
    fun _ hright => (hs.linksStand.linked.relationsStand _ hright).2

/-- The same links from their other end. -/
theorem answersUnits_relatedFrom (hfind : s.handle? name = some h) (href : h.ref? = some unit)
    (kind : LinkKind) :
    s.AnswersUnits (kind.isRelational = true)
      (fun left => .unit unit ∈ s.repository.database.links left kind)
      (s.perform (.relatedFrom name kind)).1 := by
  have hperform : s.perform (.relatedFrom name kind) = s.consulting
      (Repository.relatedTo unit kind >>= Repository.resolve) .units :=
    (asking_of_handle? hfind (fun h => h.relatedFrom kind) .units).trans
      (by rw [Handle.relatedFrom_of_ref? href])
  rw [hperform]
  exact answersUnits_of_looks hs (Repository.looks_relatedTo unit kind _)
    (fun _ => Database.mem_relatedTo) (hs.linksStand.pairwise_relatedTo _ _)
    fun _ hleft => (hs.linksStand.linked.relationsStand _ hleft).1

theorem answersTexts_associations (hfind : s.handle? name = some h) (href : h.ref? = some unit)
    (kind : LinkKind) :
    s.AnswersTexts (kind.isExternal = true)
      (fun text => .reference text ∈ s.repository.database.links unit kind)
      (s.perform (.associations name kind)).1 := by
  have hperform : s.perform (.associations name kind) = s.consulting
      (Repository.associations unit kind) .texts :=
    (asking_of_handle? hfind (fun h => h.associations kind) .texts).trans
      (by rw [Handle.associations_of_ref? href])
  rw [hperform]
  exact answersTexts_of_looks (Repository.looks_associations unit kind _)
    (fun _ => Database.mem_associationsOf) (hs.linksStand.pairwise_associationsOf _ _)

theorem answersUnits_associatedUnits (kind : LinkKind) (reference : String) :
    s.AnswersUnits (kind.isExternal = true ∧ (Text.trim reference).isEmpty = false)
      (fun left => .reference (Text.trim reference) ∈ s.repository.database.links left kind)
      (s.perform (.associatedUnits kind reference)).1 :=
  answersUnits_of_looks hs (Repository.looks_associatedWith kind reference _)
    (fun _ => Database.mem_associatedWith) (hs.linksStand.pairwise_associatedWith _ _)
    fun _ hunit => hs.linksStand.linked.associationsStand _ hunit

end Listings

/-! ## Whole runs -/

/-- **Links behave as sets.** After any run of events the links of units are what the run makes of them as
sets of ends. Work on one link makes the change that it asks for if that is possible, and else leaves
everything as it was: an end is put in, or in place of all others where only one is allowed, or is taken
out. Listings from either end are of these sets, in order. -/
theorem links_follow_sets (hs : s.Reachable) (events : List Event) :
    let t := s.afterAll events
    let links := (s.linkChanges events).foldl LinkSets.after s.repository.database.links
    t.repository.database.links = links ∧
      (∀ operation : Operation, operation.IsLink →
        t.Settles (operation.linkChange? t) (t.perform operation)) ∧
      (∀ name h unit kind, t.handle? name = some h → h.ref? = some unit →
        t.AnswersUnits (kind.isRelational = true) (fun right => .unit right ∈ links unit kind)
            (t.perform (.relations name kind)).1 ∧
          t.AnswersUnits (kind.isRelational = true) (fun left => .unit unit ∈ links left kind)
            (t.perform (.relatedFrom name kind)).1 ∧
          t.AnswersTexts (kind.isExternal = true) (fun text => .reference text ∈ links unit kind)
            (t.perform (.associations name kind)).1) ∧
      ∀ kind reference,
        t.AnswersUnits (kind.isExternal = true ∧ (Text.trim reference).isEmpty = false)
          (fun left => .reference (Text.trim reference) ∈ links left kind)
          (t.perform (.associatedUnits kind reference)).1 := by
  intro t links
  have ht : t.Reachable := hs.afterAll events
  have hlinks : t.repository.database.links = links := links_afterAll hs events
  rw [← hlinks]
  exact ⟨rfl, fun operation hlink => settles_of_isLink ht.linksStand hlink,
    fun name h unit kind hfind href => ⟨answersUnits_relations ht hfind href kind,
      answersUnits_relatedFrom ht hfind href kind, answersTexts_associations ht hfind href kind⟩,
    fun kind reference => answersUnits_associatedUnits ht kind reference⟩

/-- A unit is related to two others and associated with references, one of the others is disposed of, and
after that only the other one can be related to. -/
def relatedUnits : List Event :=
  (["a", "b", "c"].flatMap fun name =>
      [.perform (.create name 1 none), .perform (.store name)]) ++
    [.perform (.addRelation "a" .parentChild "b"), .perform (.addRelation "a" .parentChild "c"),
      .perform (.addRelation "a" .parentChild "b"), .perform (.addRelation "a" .replacement "c"),
      .perform (.addAssociation "a" .case "one"), .perform (.addAssociation "a" .case " two "),
      .perform (.addAssociation "a" .case " "), .perform (.delete "c"), .perform (.dispose 1),
      .perform (.addRelation "a" .replacement "b"), .perform (.addRelation "a" .replacement "c")]

/-- The changes of links that were possible. -/
def relatedChanges : List LinkChange :=
  [.add ⟨1, 1⟩ .parentChild (.unit ⟨1, 2⟩), .add ⟨1, 1⟩ .parentChild (.unit ⟨1, 3⟩),
    .add ⟨1, 1⟩ .parentChild (.unit ⟨1, 2⟩), .add ⟨1, 1⟩ .replacement (.unit ⟨1, 3⟩),
    .add ⟨1, 1⟩ .case (.reference "one"), .add ⟨1, 1⟩ .case (.reference "two"), .dispose [⟨1, 3⟩],
    .add ⟨1, 1⟩ .replacement (.unit ⟨1, 2⟩)]

/-- What was disposed of is gone from both kinds, and what was refused has changed nothing. -/
theorem links_relatedUnits :
    fresh.Reachable ∧ fresh.linkChanges relatedUnits = relatedChanges ∧
      (let links := (fresh.afterAll relatedUnits).repository.database.links
       links ⟨1, 1⟩ .parentChild = {.unit ⟨1, 2⟩} ∧ links ⟨1, 1⟩ .replacement = {.unit ⟨1, 2⟩} ∧
         links ⟨1, 1⟩ .case = {.reference "two"}) := by
  have hreachable : fresh.Reachable := .connect .inMemory .nearest .epoch 0
  have hchanges : fresh.linkChanges relatedUnits = relatedChanges := by decide +kernel
  refine ⟨hreachable, hchanges, ?_⟩
  have hstart : fresh.repository.database.links = fun _ _ => ∅ := Database.links_blank .nearest
  have hlinks := (links_follow_sets hreachable relatedUnits).1
  rw [hchanges, hstart] at hlinks
  dsimp only
  rw [hlinks]
  refine ⟨?_, ?_, ?_⟩
  · ext found
    simp +contextual [relatedChanges, LinkSets.after, LinkKind.allowsMultiple, or_and_right]
  · ext found
    simp [relatedChanges, LinkSets.after, LinkKind.allowsMultiple]
  · ext found
    simp +contextual [relatedChanges, LinkSets.after, LinkKind.allowsMultiple]

end Session

end MetadataStore
