import MetadataStore.Proofs.Database.LinkSets
import MetadataStore.Proofs.Repository.Disposed
import MetadataStore.Proofs.Repository.Standing

/-!
# `Proofs.Repository.Linking` — links made, removed and listed

Whatever moves a repository makes, its links stand. Making a link and removing one either does what it is
meant to do with the sets of ends, or fails and leaves everything as it was: the room for a new link is
made in the transaction that makes the link.

## Contents
- `Move.links_cases`, what a move can do to links; `Move.linksStand`, `Move.links_eq`.
- `Database.changed`, `LinkChange.isPossible`; `links_changed`.
- `Repository.Makes`; `makes_addRelation` and others: what work on one link comes to.
- `Repository.Looks`; `looks_relations` and others: what a listing of links looks at.
- `database_dispose`: what a disposal leaves.
-/

namespace MetadataStore

namespace LinkKind

variable {kind : LinkKind}

/-- Whether links of this kind point outside. -/
def isExternal (kind : LinkKind) : Bool :=
  kind != .invalid && !kind.isRelational

theorem expectRelation_eq_ok : kind.expectRelation = .ok () ↔ kind.isRelational = true := by
  cases kind <;> decide

theorem expectAssociation_eq_ok : kind.expectAssociation = .ok () ↔ kind.isExternal = true := by
  cases kind <;> decide

theorem expectRelation_eq_error {fault : Fault} (h : kind.expectRelation = .error fault) :
    kind.isRelational = false := by
  cases kind <;> simp_all [expectRelation, isRelational]

theorem expectAssociation_eq_error {fault : Fault} (h : kind.expectAssociation = .error fault) :
    kind.isExternal = false := by
  cases kind <;> simp_all [expectAssociation, isExternal, isRelational]

theorem isRelational_of_isExternal (h : kind.isExternal = true) : kind.isRelational = false := by
  cases kind <;> simp_all [isExternal, isRelational]

end LinkKind

namespace Repository

variable {terms : Terms} {r r' : Repository} {left right : UnitRef} {kind : LinkKind} {reference : String}

/-! ## Moves -/

/-- Work on links leaves units alone. -/
theorem hasUnit_of_onlyLinks {α : Type} {work : Transaction α} (h : work.OnlyLinks)
    {contention : Contention} {db db' : Database} {a : α} (hrun : work contention db = .ok (a, db'))
    (unit : UnitRef) : db'.hasUnit unit = db.hasUnit unit :=
  (h _ _ _ _ hrun).sameRows.hasUnit unit

/-- **What a move can do to links**: nothing, or what the caller answers for, which is to make or remove one
link, or to let a unit go. -/
theorem Move.links_cases (hmove : Move terms r r') (hnumbered : r.database.Numbered) :
    (r'.database.relations = r.database.relations ∧
        r'.database.associations = r.database.associations ∧
        ∀ unit, r.database.hasUnit unit = true → r'.database.hasUnit unit = true) ∨
      terms.links ∧
        ((∃ left kind right, kind.isRelational = true ∧
            putRelation left kind right r.contention r.database = .ok ((), r'.database)) ∨
          (∃ row, r'.database = r.database.unrelate row) ∨
          (∃ left kind reference, kind.isRelational = false ∧
            putAssociation left kind reference r.contention r.database = .ok ((), r'.database)) ∨
          (∃ row, r'.database = r.database.dissociate row) ∨
          ∃ unit, r'.database = r.database.withoutUnit unit) := by
  cases hmove with
  | forget _ => exact Or.inl ⟨rfl, rfl, fun _ => id⟩
  | learn _ => exact Or.inl ⟨rfl, rfl, fun _ => id⟩
  | count _ => exact Or.inl ⟨rfl, rfl, fun _ => id⟩
  | load _ _ => exact Or.inl ⟨rfl, rfl, fun _ => id⟩
  | bring _ => exact Or.inl ⟨rfl, rfl, fun _ => id⟩
  | define hinsert =>
    obtain ⟨hrows, hlinks⟩ := Database.insertAttribute_leaves hinsert
    exact Or.inl ⟨hlinks.relations, hlinks.associations, fun unit h => (hrows.hasUnit unit).trans h⟩
  | store _ _ hwrite _ =>
    obtain ⟨-, -, -, -, rfl⟩ := (Handle.write_eq_ok hnumbered.elementsIssued).1 hwrite
    exact Or.inl ⟨Handle.sameLinks_writtenTo.relations, Handle.sameLinks_writtenTo.associations,
      fun _ => Handle.hasUnit_writtenTo_of_hasUnit⟩
  | storeAttribute hstore =>
    rcases Attribute.store_cases hnumbered.elementsIssued hstore with ⟨-, rfl⟩ | ⟨-, -, -, -, rfl⟩
    · exact Or.inl ⟨rfl, rfl, fun _ => id⟩
    · exact Or.inl ⟨rfl, rfl, fun _ => id⟩
  | storeValue hstore =>
    obtain ⟨rows, rfl, -⟩ := Value.store_appends hstore
    exact Or.inl ⟨rfl, rfl, fun _ => id⟩
  | transit _ _ _ =>
    exact Or.inl ⟨rfl, rfl, fun unit h => (Database.hasUnit_withStatus unit _).trans h⟩
  | lock hlock =>
    refine Or.inl ⟨?_, ?_, fun unit h =>
      (hasUnit_of_onlyLinks (onlyLinks_takeLock _ _ _ _) hlock unit).trans h⟩
    · obtain ⟨-, ⟨-, -, rfl⟩ | ⟨-, -, -, -, rfl⟩⟩ := Database.takeLock_eq_ok.1 hlock <;> rfl
    · obtain ⟨-, ⟨-, -, rfl⟩ | ⟨-, -, -, -, rfl⟩⟩ := Database.takeLock_eq_ok.1 hlock <;> rfl
  | unlock hunlock =>
    cases hunlock
    exact Or.inl ⟨rfl, rfl, fun _ => id⟩
  | relate hkind hput hlinks =>
    exact Or.inr ⟨hlinks, Or.inl ⟨_, _, _, LinkKind.expectRelation_eq_ok.1 hkind, hput⟩⟩
  | unrelate hdelete hlinks =>
    exact Or.inr ⟨hlinks, Or.inr (Or.inl ⟨_, Database.deleteRelation_eq_ok.1 hdelete⟩)⟩
  | associate hkind hput hlinks =>
    have hexternal := LinkKind.isRelational_of_isExternal (LinkKind.expectAssociation_eq_ok.1 hkind)
    exact Or.inr ⟨hlinks, Or.inr (Or.inr (Or.inl ⟨_, _, _, hexternal, hput⟩))⟩
  | dissociate hdelete hlinks =>
    have hgone := Database.deleteAssociation_eq_ok.1 hdelete
    exact Or.inr ⟨hlinks, Or.inr (Or.inr (Or.inr (Or.inl ⟨_, hgone⟩)))⟩
  | dispose _ hlinks => exact Or.inr ⟨hlinks, Or.inr (Or.inr (Or.inr (Or.inr ⟨_, rfl⟩)))⟩

/-- **Links go on standing.** -/
theorem Move.linksStand (hmove : Move terms r r') (hnumbered : r.database.Numbered)
    (h : r.database.LinksStand) : r'.database.LinksStand := by
  rcases hmove.links_cases hnumbered with ⟨hrelations, hassociations, hunits⟩ |
    ⟨-, ⟨left, kind, right, hkind, hput⟩ | ⟨row, hdelete⟩ | ⟨left, kind, reference, hkind, hput⟩ |
      ⟨row, hdelete⟩ | ⟨unit, hgone⟩⟩
  · exact h.stand hrelations hassociations hunits
  · obtain ⟨-, hleft, hright, hdb⟩ := (Database.putRelation_eq_ok h).1 hput
    exact hdb ▸ h.relate hkind hleft hright
  · exact hdelete ▸ h.unrelate row
  · obtain ⟨-, hleft, hdb⟩ := (Database.putAssociation_eq_ok h).1 hput
    exact hdb ▸ h.associate hkind hleft
  · exact hdelete ▸ h.dissociate row
  · exact hgone ▸ h.withoutUnit unit

/-- Links are as they were where nobody answers for another thing. -/
theorem Move.links_eq (hmove : Move terms r r') (hnumbered : r.database.Numbered) (hlinks : ¬terms.links) :
    r'.database.links = r.database.links := by
  rcases hmove.links_cases hnumbered with ⟨hrelations, hassociations, -⟩ | ⟨hyes, -⟩
  · exact Database.links_congr hrelations hassociations
  · exact absurd hyes hlinks

/-! ## Changes of links -/

end Repository

/-- The database after a change of links. -/
def Database.changed (db : Database) : LinkChange → Database
  | .add left kind (.unit right) => db.relate left kind right
  | .add left kind (.reference text) => db.associate left kind text
  | .remove left kind (.unit right) => db.unrelate ⟨left, kind.code, right⟩
  | .remove left kind (.reference text) => db.dissociate ⟨left, kind.code, text⟩
  | .dispose gone => db.without gone

/-- A change is possible when the database can be written, the kind is meant for the end, the end is not
blank, and the units that a new link is to be of are stored. -/
def LinkChange.isPossible (r : Repository) : LinkChange → Bool
  | .add left kind (.unit right) => r.contention.allowsWriting && kind.isRelational &&
      r.database.hasUnit left && r.database.hasUnit right
  | .add left kind (.reference text) => r.contention.allowsWriting && kind.isExternal && !text.isEmpty &&
      r.database.hasUnit left
  | .remove _ kind (.unit _) => r.contention.allowsWriting && kind.isRelational
  | .remove _ kind (.reference text) => r.contention.allowsWriting && kind.isExternal && !text.isEmpty
  | .dispose _ => true

namespace Repository

/-- **The tables say after a change what the sets do.** -/
theorem links_changed (h : r.database.LinksStand) {change : LinkChange}
    (hpossible : change.isPossible r = true) :
    (r.database.changed change).links = r.database.links.after change := by
  match change with
  | .add left kind (.unit right) =>
    simp only [LinkChange.isPossible, Bool.and_eq_true] at hpossible
    exact Database.links_relate h hpossible.1.1.2
  | .add left kind (.reference text) =>
    simp only [LinkChange.isPossible, Bool.and_eq_true] at hpossible
    exact Database.links_associate h (LinkKind.isRelational_of_isExternal hpossible.1.1.2)
  | .remove left kind (.unit right) => exact Database.links_unrelate
  | .remove left kind (.reference text) => exact Database.links_dissociate
  | .dispose gone => exact Database.links_without r.database gone

/-- An action makes a change of links if it is possible, and nothing else; otherwise it fails and leaves
everything as it was. -/
structure Makes (action : Action Repository Unit) (change : LinkChange) (r : Repository) : Prop where
  done : change.isPossible r = true →
    action r = (.ok (), { r with database := r.database.changed change })
  refused : change.isPossible r = false → ∃ fault, action r = (.error fault, r)

/-- A write makes the change that its transaction makes when it goes through. -/
theorem makes_write {work : Transaction Unit} {change : LinkChange}
    (hwork : ∀ db', work r.contention r.database = .ok ((), db') ↔
      change.isPossible r = true ∧ db' = r.database.changed change) : Makes (write work) change r where
  done := fun hpossible => write_eq_ok.2 ⟨_, (hwork _).2 ⟨hpossible, rfl⟩, rfl⟩
  refused := by
    intro hno
    cases hrun : work r.contention r.database with
    | error fault => exact ⟨fault, write_eq_error.2 ⟨hrun, rfl⟩⟩
    | ok result =>
      rw [((hwork result.2).1 hrun).1] at hno
      cases hno

/-- What fails a check cannot be possible. -/
theorem makes_of_check {α : Type} {check : Except Fault α} {next : α → Action Repository Unit}
    {change : LinkChange} (hfails : ∀ fault, check = .error fault → change.isPossible r = false)
    (hnext : ∀ a, check = .ok a → Makes (next a) change r) :
    Makes (Action.ofResult check >>= next) change r := by
  cases hcheck : check with
  | ok a => exact hnext a hcheck
  | error fault =>
    refine ⟨fun hpossible => ?_, fun _ => ⟨fault, rfl⟩⟩
    rw [hfails fault hcheck] at hpossible
    cases hpossible

theorem checkReference_eq_ok {text : String} :
    checkReference reference = .ok text ↔
      (Text.trim reference).isEmpty = false ∧ text = Text.trim reference := by
  unfold checkReference
  cases (Text.trim reference).isEmpty with
  | true => simp
  | false => simp [eq_comm]

theorem checkReference_eq_error {fault : Fault} (h : checkReference reference = .error fault) :
    (Text.trim reference).isEmpty = true := by
  unfold checkReference at h
  split at h
  · assumption
  · cases h

theorem makes_addRelation (h : r.database.LinksStand) (left : UnitRef) (kind : LinkKind)
    (right : UnitRef) : Makes (addRelation left kind right) (.add left kind (.unit right)) r := by
  refine makes_of_check (fun fault hfails => ?_) fun _ hkind => makes_write fun db' => ?_
  · simp [LinkChange.isPossible, LinkKind.expectRelation_eq_error hfails]
  · have hmeant := LinkKind.expectRelation_eq_ok.1 hkind
    simp [Database.putRelation_eq_ok h, LinkChange.isPossible, Database.changed, hmeant, and_assoc]

theorem makes_removeRelation (left : UnitRef) (kind : LinkKind) (right : UnitRef) (r : Repository) :
    Makes (removeRelation left kind right) (.remove left kind (.unit right)) r := by
  refine makes_of_check (fun fault hfails => ?_) fun _ hkind => makes_write fun db' => ?_
  · simp [LinkChange.isPossible, LinkKind.expectRelation_eq_error hfails]
  · have hmeant := LinkKind.expectRelation_eq_ok.1 hkind
    simp [Transaction.perform_eq_ok, Database.deleteRelation_eq_ok, LinkChange.isPossible,
      Database.changed, hmeant]

theorem makes_addAssociation (h : r.database.LinksStand) (left : UnitRef) (kind : LinkKind)
    (reference : String) :
    Makes (addAssociation left kind reference) (.add left kind (.reference (Text.trim reference))) r := by
  refine makes_of_check (fun fault hfails => ?_) fun _ hkind =>
    makes_of_check (fun fault hfails => ?_) fun text hreference => makes_write fun db' => ?_
  · simp [LinkChange.isPossible, LinkKind.expectAssociation_eq_error hfails]
  · simp only [LinkChange.isPossible, checkReference_eq_error hfails, Bool.not_true, Bool.and_false,
      Bool.false_and]
  · have hmeant := LinkKind.expectAssociation_eq_ok.1 hkind
    obtain ⟨hblank, rfl⟩ := checkReference_eq_ok.1 hreference
    simp [Database.putAssociation_eq_ok h, LinkChange.isPossible, Database.changed, hmeant, hblank,
      and_assoc]

theorem makes_removeAssociation (left : UnitRef) (kind : LinkKind) (reference : String)
    (r : Repository) :
    Makes (removeAssociation left kind reference)
      (.remove left kind (.reference (Text.trim reference))) r := by
  refine makes_of_check (fun fault hfails => ?_) fun _ hkind =>
    makes_of_check (fun fault hfails => ?_) fun text hreference => makes_write fun db' => ?_
  · simp [LinkChange.isPossible, LinkKind.expectAssociation_eq_error hfails]
  · simp only [LinkChange.isPossible, checkReference_eq_error hfails, Bool.not_true, Bool.and_false]
  · have hmeant := LinkKind.expectAssociation_eq_ok.1 hkind
    obtain ⟨hblank, rfl⟩ := checkReference_eq_ok.1 hreference
    simp [Transaction.perform_eq_ok, Database.deleteAssociation_eq_ok, LinkChange.isPossible,
      Database.changed, hmeant, hblank]

/-! ## Listings -/

/-- An action looks at the database if it is meant to, and otherwise fails and leaves everything as it was. -/
structure Looks {α : Type} (action : Action Repository α) (meant : Prop) (f : Database → α)
    (r : Repository) : Prop where
  reads : meant → action r = read f r
  refused : ¬meant → ∃ fault, action r = (.error fault, r)

theorem looks_of_check {α : Type} {check : Except Fault Unit} {meant : Prop} {f : Database → α}
    (hmeant : check = .ok () ↔ meant) (r : Repository) :
    Looks (Action.ofResult check >>= fun _ => read f) meant f r where
  reads := fun h => Action.check_bind_of_ok (hmeant.2 h) _ r
  refused := by
    intro h
    cases hcheck : check with
    | ok u => exact absurd (hmeant.1 hcheck) h
    | error fault => exact ⟨fault, rfl⟩

theorem looks_relations (left : UnitRef) (kind : LinkKind) (r : Repository) :
    Looks (relations left kind) (kind.isRelational = true) (·.relationsOf left kind.code) r :=
  looks_of_check LinkKind.expectRelation_eq_ok r

theorem looks_relatedTo (right : UnitRef) (kind : LinkKind) (r : Repository) :
    Looks (relatedTo right kind) (kind.isRelational = true) (·.relatedTo right kind.code) r :=
  looks_of_check LinkKind.expectRelation_eq_ok r

theorem looks_associations (left : UnitRef) (kind : LinkKind) (r : Repository) :
    Looks (associations left kind) (kind.isExternal = true) (·.associationsOf left kind.code) r :=
  looks_of_check LinkKind.expectAssociation_eq_ok r

theorem looks_associatedWith (kind : LinkKind) (reference : String) (r : Repository) :
    Looks (associatedWith kind reference)
      (kind.isExternal = true ∧ (Text.trim reference).isEmpty = false)
      (·.associatedWith kind.code (Text.trim reference)) r where
  reads := by
    rintro ⟨hkind, hblank⟩
    have hcheck := checkReference_eq_ok.2 ⟨hblank, rfl⟩
    exact (Action.check_bind_of_ok (LinkKind.expectAssociation_eq_ok.2 hkind) _ r).trans
      (Action.check_bind_of_ok hcheck _ r)
  refused := by
    intro h
    unfold associatedWith
    cases hkind : kind.expectAssociation with
    | error fault => exact ⟨fault, rfl⟩
    | ok u =>
      cases hreference : checkReference reference with
      | error fault => exact ⟨fault, rfl⟩
      | ok text =>
        exact absurd ⟨LinkKind.expectAssociation_eq_ok.1 hkind,
          (checkReference_eq_ok.1 hreference).1⟩ h

/-! ## Disposal -/

/-- **A disposal leaves the database without the units that waited and could be taken.** -/
theorem database_dispose (hdistinct : r.database.UnitsDistinct) (tenant : Int32) :
    (dispose tenant r).2.database =
      r.database.without ((r.database.waiting tenant.toInt).filter r.takes) := by
  cases hread : r.contention.allowsReading with
  | true =>
    rw [(dispose_apply hread hdistinct tenant).1]
    rfl
  | false =>
    have hnone : (r.database.waiting tenant.toInt).filter r.takes = [] := by
      rw [List.filter_eq_nil_iff]
      intro unit _ htakes
      simp only [takes, Bool.and_eq_true] at htakes
      rw [Contention.allowsReading_of_allowsWriting htakes.1] at hread
      cases hread
    rw [(dispose_of_unreadable hread tenant).1, hnone, Database.without_nil]

end Repository

end MetadataStore
