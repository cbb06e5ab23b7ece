import Mathlib.Data.Set.Insert
import MetadataStore.Proofs.Database.Disposed
import MetadataStore.Proofs.Database.Linked
import MetadataStore.Proofs.UnitRef

/-!
# `Proofs.Database.LinkSets` — links as sets

Two tables hold the links of units. What they say together is, for each unit and each kind, a set of ends:
making a link puts its end in, or in place of all others where only one is allowed; removing it takes the
end out; and a unit that goes takes its own links and those that point at it. The work on the tables does
just that as long as each link stands once, on stored units, in the table that is meant for its kind.

## Contents
- `LinkEnd`, `LinkSets`, `LinkChange` and `LinkSets.after`: links as sets, and what changes them.
- `Database.links`: what the tables say.
- `Database.LinksStand`, kept by all work on links.
- `relate`, `putRelation_eq_ok` and others: what work on links leaves, and when it succeeds; `links_relate`
  and others: what it means for the sets.
- `mem_relationsOf`, `pairwise_relationsOf` and others: what listings of links have in them, and their order.
-/

namespace MetadataStore

/-! ## Sets of ends -/

/-- What a link of a unit points at. -/
inductive LinkEnd where
  | unit (unit : UnitRef)
  | reference (text : String)
  deriving DecidableEq

/-- For each unit and each kind the ends of its links. -/
abbrev LinkSets := UnitRef → LinkKind → Set LinkEnd

/-- A change of links. -/
inductive LinkChange where
  /-- One more end, or one in place of all others where only one is allowed. -/
  | add (left : UnitRef) (kind : LinkKind) (target : LinkEnd)
  /-- One end less. -/
  | remove (left : UnitRef) (kind : LinkKind) (target : LinkEnd)
  /-- Units that go. -/
  | dispose (gone : List UnitRef)
  deriving DecidableEq

/-- The links after a change. -/
def LinkSets.after (links : LinkSets) : LinkChange → LinkSets
  | .add left kind target => fun unit other =>
    if unit = left ∧ other = kind then
      if kind.allowsMultiple then insert target (links unit other) else {target}
    else links unit other
  | .remove left kind target => fun unit other =>
    if unit = left ∧ other = kind then links unit other \ {target} else links unit other
  | .dispose gone => fun unit other =>
    {target | unit ∉ gone ∧ target ∈ links unit other ∧ ∀ doomed ∈ gone, target ≠ .unit doomed}

namespace LinkSets

variable {links : LinkSets} {left unit : UnitRef} {kind other : LinkKind} {target found : LinkEnd}
  {gone : List UnitRef}

/-- Where only one end is allowed, the others of that unit and kind make way. -/
theorem mem_after_add : found ∈ links.after (.add left kind target) unit other ↔
    (unit = left ∧ other = kind ∧ found = target) ∨
      found ∈ links unit other ∧ (kind.allowsMultiple = true ∨ ¬(unit = left ∧ other = kind)) := by
  simp only [after]
  by_cases hsame : unit = left ∧ other = kind
  · rw [if_pos hsame]
    obtain ⟨rfl, rfl⟩ := hsame
    cases hmultiple : other.allowsMultiple with
    | true => simp
    | false => simp
  · rw [if_neg hsame]
    constructor
    · exact fun hfound => Or.inr ⟨hfound, Or.inr hsame⟩
    · rintro (⟨hunit, hother, -⟩ | ⟨hfound, -⟩)
      · exact absurd ⟨hunit, hother⟩ hsame
      · exact hfound

/-- Only the end that is named goes. -/
theorem mem_after_remove : found ∈ links.after (.remove left kind target) unit other ↔
    found ∈ links unit other ∧ ¬(unit = left ∧ other = kind ∧ found = target) := by
  simp only [after]
  by_cases hsame : unit = left ∧ other = kind
  · rw [if_pos hsame]
    obtain ⟨rfl, rfl⟩ := hsame
    simp
  · rw [if_neg hsame]
    constructor
    · exact fun hfound => ⟨hfound, fun hall => hsame ⟨hall.1, hall.2.1⟩⟩
    · exact fun hfound => hfound.1

theorem mem_after_dispose : found ∈ links.after (.dispose gone) unit other ↔
    unit ∉ gone ∧ found ∈ links unit other ∧ ∀ doomed ∈ gone, found ≠ .unit doomed :=
  Iff.rfl

end LinkSets

theorem LinkKind.code_eq_iff {kind other : LinkKind} : other.code = kind.code ↔ other = kind :=
  ⟨code_injective, congrArg code⟩

namespace Database

/-! ## Rows of links -/

section

variable {β : Type} [DecidableEq β] {key : β → UnitRef × Int} {left : UnitRef} {kind : LinkKind}
  {row other : β} {rows : List β}

/-- The rows with one more link, for which there is room then. -/
def withLink (key : β → UnitRef × Int) (left : UnitRef) (kind : LinkKind) (row : β) (rows : List β) :
    List β :=
  if row ∈ roomFor key left kind rows then roomFor key left kind rows
  else roomFor key left kind rows ++ [row]

omit [DecidableEq β] in
theorem mem_roomFor : row ∈ roomFor key left kind rows ↔
    row ∈ rows ∧ (kind.allowsMultiple = true ∨ key row ≠ (left, kind.code)) := by
  unfold roomFor
  cases hmultiple : kind.allowsMultiple with
  | true => simp
  | false =>
    rw [if_neg Bool.false_ne_true, List.mem_filter]
    refine and_congr_right fun _ => ?_
    simp [Prod.ext_iff, imp_iff_not_or]

theorem mem_withLink : other ∈ withLink key left kind row rows ↔
    other = row ∨ other ∈ rows ∧ (kind.allowsMultiple = true ∨ key other ≠ (left, kind.code)) := by
  rw [← mem_roomFor]
  unfold withLink
  split
  · rename_i hmem
    constructor
    · exact Or.inr
    · rintro (rfl | h)
      · exact hmem
      · exact h
  · rw [List.mem_append, List.mem_singleton, or_comm]

theorem nodup_withLink (h : rows.Nodup) : (withLink key left kind row rows).Nodup := by
  have hkept := (roomFor_sublist key left kind rows).nodup h
  unfold withLink
  split
  · exact hkept
  · rename_i hnew
    rw [List.nodup_append]
    refine ⟨hkept, List.nodup_singleton row, ?_⟩
    rintro a ha b hb rfl
    exact hnew (List.mem_singleton.1 hb ▸ ha)

end

variable {db db' : Database} {left right : UnitRef} {kind : LinkKind} {reference : String}

/-! ## Links of a database -/

/-- What the tables say of links. -/
def links (db : Database) : LinkSets := fun left kind =>
  {target | match target with
    | .unit right => ⟨left, kind.code, right⟩ ∈ db.relations
    | .reference text => ⟨left, kind.code, text⟩ ∈ db.associations}

@[simp] theorem unit_mem_links :
    .unit right ∈ db.links left kind ↔ ⟨left, kind.code, right⟩ ∈ db.relations := Iff.rfl

@[simp] theorem reference_mem_links :
    .reference reference ∈ db.links left kind ↔ ⟨left, kind.code, reference⟩ ∈ db.associations := Iff.rfl

/-- The tables say what two sets of ends say, one for each table. -/
theorem links_eq_iff {links : LinkSets} : db.links = links ↔
    (∀ left kind right, ⟨left, LinkKind.code kind, right⟩ ∈ db.relations ↔ .unit right ∈ links left kind) ∧
    ∀ left kind text, ⟨left, LinkKind.code kind, text⟩ ∈ db.associations ↔
      .reference text ∈ links left kind := by
  constructor
  · rintro rfl
    exact ⟨fun _ _ _ => Iff.rfl, fun _ _ _ => Iff.rfl⟩
  · rintro ⟨hrelations, hassociations⟩
    funext left kind
    ext target
    cases target with
    | unit right => exact hrelations left kind right
    | reference text => exact hassociations left kind text

theorem links_congr (hrelations : db'.relations = db.relations)
    (hassociations : db'.associations = db.associations) : db'.links = db.links := by
  unfold links
  rw [hrelations, hassociations]

/-- Each link stands once, on stored units, in the table that is meant for its kind; locks are no matter. -/
structure LinksStand (db : Database) : Prop where
  linked : ({ db with locks := [] } : Database).Linked
  relationsDistinct : db.relations.Nodup
  associationsDistinct : db.associations.Nodup

theorem LinksStand.blank (engine : Engine) : (Database.blank engine).LinksStand :=
  ⟨.blank engine, .nil, .nil⟩

theorem links_blank (engine : Engine) : (Database.blank engine).links = fun _ _ => ∅ :=
  links_eq_iff.2 ⟨fun _ _ _ => by simp [Database.blank], fun _ _ _ => by simp [Database.blank]⟩

/-- Links go on standing while stored units stay. -/
theorem LinksStand.stand (h : db.LinksStand) (hrelations : db'.relations = db.relations)
    (hassociations : db'.associations = db.associations)
    (hunits : ∀ unit, db.hasUnit unit = true → db'.hasUnit unit = true) : db'.LinksStand where
  linked := h.linked.stand ⟨hrelations, hassociations, rfl⟩ hunits
  relationsDistinct := hrelations ▸ h.relationsDistinct
  associationsDistinct := hassociations ▸ h.associationsDistinct

/-- A unit takes its links with it. -/
theorem LinksStand.withoutUnit (h : db.LinksStand) (unit : UnitRef) :
    (db.withoutUnit unit).LinksStand where
  linked := h.linked.withoutUnit unit
  relationsDistinct := h.relationsDistinct.filter _
  associationsDistinct := h.associationsDistinct.filter _

/-- A kind that points at units has no references. -/
theorem LinksStand.associationKind_ne (h : db.LinksStand) (hkind : kind.isRelational = true)
    {row : AssociationRow} (hmem : row ∈ db.associations) : row.kindCode ≠ kind.code := by
  obtain ⟨other, hother, hcode⟩ := h.linked.associationsMeant row hmem
  intro heq
  rw [LinkKind.code_injective (hcode.trans heq), hkind] at hother
  cases hother

/-- And a kind that does not points at no units. -/
theorem LinksStand.relationKind_ne (h : db.LinksStand) (hkind : kind.isRelational = false)
    {row : RelationRow} (hmem : row ∈ db.relations) : row.kindCode ≠ kind.code := by
  obtain ⟨other, hother, hcode⟩ := h.linked.relationsMeant row hmem
  intro heq
  rw [LinkKind.code_injective (hcode.trans heq), hkind] at hother
  cases hother

/-! ## Making links -/

/-- The database with a relation. -/
def relate (db : Database) (left : UnitRef) (kind : LinkKind) (right : UnitRef) : Database :=
  { db with relations := withLink relationKey left kind ⟨left, kind.code, right⟩ db.relations }

/-- The database with an association. -/
def associate (db : Database) (left : UnitRef) (kind : LinkKind) (reference : String) : Database :=
  { db with associations := withLink associationKey left kind ⟨left, kind.code, reference⟩ db.associations }

/-- A relation that stands already stands on stored units, so these are needed in any case. -/
theorem insertRelation_eq_ok {row : RelationRow}
    (hstand : ∀ row ∈ db.relations, db.hasUnit row.left = true ∧ db.hasUnit row.right = true) :
    insertRelation row db = .ok ((), db') ↔ db.hasUnit row.left = true ∧ db.hasUnit row.right = true ∧
      db' = { db with
        relations := if row ∈ db.relations then db.relations else db.relations ++ [row] } := by
  unfold insertRelation
  by_cases hmem : row ∈ db.relations
  · obtain ⟨hleft, hright⟩ := hstand row hmem
    rw [if_pos (List.contains_iff_mem.2 hmem), if_pos hmem]
    simp only [Except.ok.injEq, Prod.mk.injEq, true_and, hleft, hright]
    exact eq_comm
  · rw [if_neg (fun h => hmem (List.contains_iff_mem.1 h)), if_neg hmem]
    cases hleft : db.hasUnit row.left <;> cases hright : db.hasUnit row.right <;> simp [eq_comm]

theorem insertAssociation_eq_ok {row : AssociationRow}
    (hstand : ∀ row ∈ db.associations, db.hasUnit row.left = true) :
    insertAssociation row db = .ok ((), db') ↔ db.hasUnit row.left = true ∧
      db' = { db with
        associations := if row ∈ db.associations then db.associations else db.associations ++ [row] } := by
  unfold insertAssociation
  by_cases hmem : row ∈ db.associations
  · have hleft := hstand row hmem
    rw [if_pos (List.contains_iff_mem.2 hmem), if_pos hmem]
    simp only [Except.ok.injEq, Prod.mk.injEq, true_and, hleft]
    exact eq_comm
  · rw [if_neg (fun h => hmem (List.contains_iff_mem.1 h)), if_neg hmem]
    cases hleft : db.hasUnit row.left <;> simp [eq_comm]

/-- A change that cannot fail, if it is wanted, and another one after it. -/
theorem perform_after_total_eq_ok {α : Type} {wanted : Bool} {f : Database → Database}
    {second : Change α} {contention : Contention} {a : α} :
    (do if wanted then Transaction.perform (fun db => .ok ((), f db))
        Transaction.perform second : Transaction α) contention db = .ok (a, db') ↔
      contention.allowsWriting = true ∧ second (if wanted then f db else db) = .ok (a, db') := by
  cases wanted with
  | true =>
    constructor
    · intro h
      obtain ⟨u, mid, hfirst, hsecond⟩ := Transaction.bind_eq_ok.1 h
      cases (Transaction.perform_eq_ok.1 hfirst).2
      exact Transaction.perform_eq_ok.1 hsecond
    · rintro ⟨hwrite, hsecond⟩
      exact Transaction.bind_eq_ok.2 ⟨(), f db, Transaction.perform_eq_ok.2 ⟨hwrite, rfl⟩,
        Transaction.perform_eq_ok.2 ⟨hwrite, hsecond⟩⟩
  | false => exact Transaction.perform_eq_ok

/-- **A relation is made** exactly if both units are stored; room is made for it then, and only then. -/
theorem putRelation_eq_ok (h : db.LinksStand) {contention : Contention} :
    Repository.putRelation left kind right contention db = .ok ((), db') ↔
      contention.allowsWriting = true ∧ db.hasUnit left = true ∧ db.hasUnit right = true ∧
        db' = db.relate left kind right := by
  have hroom : (if !kind.allowsMultiple then { db with
      relations := db.relations.filter fun row => !(row.left == left && row.kindCode == kind.code) }
      else db) = { db with relations := roomFor relationKey left kind db.relations } := by
    unfold roomFor
    cases kind.allowsMultiple <;> rfl
  have hstand : ∀ row ∈ roomFor relationKey left kind db.relations,
      db.hasUnit row.left = true ∧ db.hasUnit row.right = true := fun row hmem =>
    h.linked.relationsStand row ((roomFor_sublist relationKey left kind db.relations).mem hmem)
  exact perform_after_total_eq_ok.trans
    (and_congr_right fun _ => hroom ▸ insertRelation_eq_ok hstand)

/-- **An association is made** exactly if its unit is stored; room is made for it then, and only then. -/
theorem putAssociation_eq_ok (h : db.LinksStand) {contention : Contention} :
    Repository.putAssociation left kind reference contention db = .ok ((), db') ↔
      contention.allowsWriting = true ∧ db.hasUnit left = true ∧
        db' = db.associate left kind reference := by
  have hroom : (if !kind.allowsMultiple then { db with
      associations := db.associations.filter fun row =>
        !(row.left == left && row.kindCode == kind.code) }
      else db) = { db with associations := roomFor associationKey left kind db.associations } := by
    unfold roomFor
    cases kind.allowsMultiple <;> rfl
  have hstand : ∀ row ∈ roomFor associationKey left kind db.associations,
      db.hasUnit row.left = true := fun row hmem =>
    h.linked.associationsStand row
      ((roomFor_sublist associationKey left kind db.associations).mem hmem)
  exact perform_after_total_eq_ok.trans
    (and_congr_right fun _ => hroom ▸ insertAssociation_eq_ok hstand)

theorem LinksStand.relate (h : db.LinksStand) (hkind : kind.isRelational = true)
    (hleft : db.hasUnit left = true) (hright : db.hasUnit right = true) :
    (db.relate left kind right).LinksStand where
  linked := by
    -- the locks were not looked at
    have hbare : ({ db with locks := [] } : Database).LinksStand :=
      ⟨h.linked, h.relationsDistinct, h.associationsDistinct⟩
    have hput : Repository.putRelation left kind right .none { db with locks := [] } =
        .ok ((), ({ db with locks := [] } : Database).relate left kind right) :=
      (putRelation_eq_ok hbare).2 ⟨rfl, hleft, hright, rfl⟩
    exact h.linked.putRelation hkind hput
  relationsDistinct := nodup_withLink h.relationsDistinct
  associationsDistinct := h.associationsDistinct

theorem LinksStand.associate (h : db.LinksStand) (hkind : kind.isRelational = false)
    (hleft : db.hasUnit left = true) : (db.associate left kind reference).LinksStand where
  linked := by
    have hbare : ({ db with locks := [] } : Database).LinksStand :=
      ⟨h.linked, h.relationsDistinct, h.associationsDistinct⟩
    have hput : Repository.putAssociation left kind reference .none { db with locks := [] } =
        .ok ((), ({ db with locks := [] } : Database).associate left kind reference) :=
      (putAssociation_eq_ok hbare).2 ⟨rfl, hleft, rfl⟩
    exact h.linked.putAssociation hkind hput
  relationsDistinct := h.relationsDistinct
  associationsDistinct := nodup_withLink h.associationsDistinct

/-- **A relation that is made is one more end**, or the only one. -/
theorem links_relate (h : db.LinksStand) (hkind : kind.isRelational = true) :
    (db.relate left kind right).links = db.links.after (.add left kind (.unit right)) := by
  rw [links_eq_iff]
  constructor
  · intro unit other found
    rw [LinkSets.mem_after_add, unit_mem_links]
    refine mem_withLink.trans (or_congr ?_ (and_congr_right fun _ => or_congr_right (not_congr ?_)))
    · simp [LinkKind.code_eq_iff]
    · simp [LinkKind.code_eq_iff]
  · intro unit other text
    rw [LinkSets.mem_after_add, reference_mem_links]
    constructor
    · refine fun hmem => Or.inr ⟨hmem, Or.inr ?_⟩
      rintro ⟨rfl, rfl⟩
      exact h.associationKind_ne hkind hmem rfl
    · rintro (⟨-, -, hno⟩ | ⟨hmem, -⟩)
      · cases hno
      · exact hmem

theorem links_associate (h : db.LinksStand) (hkind : kind.isRelational = false) :
    (db.associate left kind reference).links = db.links.after (.add left kind (.reference reference)) := by
  rw [links_eq_iff]
  constructor
  · intro unit other found
    rw [LinkSets.mem_after_add, unit_mem_links]
    constructor
    · refine fun hmem => Or.inr ⟨hmem, Or.inr ?_⟩
      rintro ⟨rfl, rfl⟩
      exact h.relationKind_ne hkind hmem rfl
    · rintro (⟨-, -, hno⟩ | ⟨hmem, -⟩)
      · cases hno
      · exact hmem
  · intro unit other text
    rw [LinkSets.mem_after_add, reference_mem_links]
    refine mem_withLink.trans (or_congr ?_ (and_congr_right fun _ => or_congr_right (not_congr ?_)))
    · simp [LinkKind.code_eq_iff]
    · simp [LinkKind.code_eq_iff]

/-! ## Removing links -/

/-- The database without a relation. -/
def unrelate (db : Database) (row : RelationRow) : Database :=
  { db with relations := db.relations.filter (· != row) }

/-- The database without an association. -/
def dissociate (db : Database) (row : AssociationRow) : Database :=
  { db with associations := db.associations.filter (· != row) }

theorem deleteRelation_eq_ok {row : RelationRow} :
    deleteRelation row db = .ok ((), db') ↔ db' = db.unrelate row :=
  ⟨fun h => by cases h; rfl, fun h => h ▸ rfl⟩

theorem deleteAssociation_eq_ok {row : AssociationRow} :
    deleteAssociation row db = .ok ((), db') ↔ db' = db.dissociate row :=
  ⟨fun h => by cases h; rfl, fun h => h ▸ rfl⟩

/-- Fewer links stand as well. -/
theorem LinksStand.unrelate (h : db.LinksStand) (row : RelationRow) : (db.unrelate row).LinksStand :=
  ⟨h.linked.withRelations List.filter_sublist, h.relationsDistinct.filter _, h.associationsDistinct⟩

theorem LinksStand.dissociate (h : db.LinksStand) (row : AssociationRow) :
    (db.dissociate row).LinksStand :=
  ⟨h.linked.withAssociations List.filter_sublist, h.relationsDistinct, h.associationsDistinct.filter _⟩

/-- **A relation that is removed is one end less**, also when there was none. -/
theorem links_unrelate :
    (db.unrelate ⟨left, kind.code, right⟩).links = db.links.after (.remove left kind (.unit right)) := by
  rw [links_eq_iff]
  constructor
  · intro unit other found
    rw [LinkSets.mem_after_remove, unit_mem_links, unrelate, List.mem_filter, bne_iff_ne]
    refine and_congr_right fun _ => not_congr ?_
    simp [LinkKind.code_eq_iff]
  · intro unit other text
    simp [LinkSets.mem_after_remove, unrelate]

theorem links_dissociate :
    (db.dissociate ⟨left, kind.code, reference⟩).links =
      db.links.after (.remove left kind (.reference reference)) := by
  rw [links_eq_iff]
  constructor
  · intro unit other found
    simp [LinkSets.mem_after_remove, dissociate]
  · intro unit other text
    rw [LinkSets.mem_after_remove, reference_mem_links, dissociate, List.mem_filter, bne_iff_ne]
    refine and_congr_right fun _ => not_congr ?_
    simp [LinkKind.code_eq_iff]

/-- **Units that go take the links on both of their sides.** -/
theorem links_without (db : Database) (gone : List UnitRef) :
    (db.without gone).links = db.links.after (.dispose gone) := by
  rw [links_eq_iff]
  constructor
  · intro unit other found
    rw [LinkSets.mem_after_dispose, mem_relations_without, unit_mem_links]
    constructor
    · rintro ⟨hmem, hleft, hright⟩
      refine ⟨hleft, hmem, ?_⟩
      rintro doomed hdoomed ⟨⟩
      exact hright hdoomed
    · rintro ⟨hleft, hmem, hright⟩
      exact ⟨hmem, hleft, fun hdoomed => hright found hdoomed rfl⟩
  · intro unit other text
    rw [LinkSets.mem_after_dispose, reference_mem_links]
    simp [without, and_comm]

/-! ## Listings -/

/-- What is listed of distinct rows, which it tells apart, is in order and without repetition. -/
theorem pairwise_listing {β γ : Type} {rows : List β} (hdistinct : rows.Nodup) {p : β → Bool} {f : β → γ}
    (hf : ∀ a b, p a = true → p b = true → f a = f b → a = b) {le : γ → γ → Bool}
    (htrans : ∀ a b c, le a b = true → le b c = true → le a c = true)
    (htotal : ∀ a b, (le a b || le b a) = true) :
    (((rows.filter p).map f).mergeSort le).Pairwise fun a b => le a b = true ∧ a ≠ b := by
  have hsorted := List.pairwise_mergeSort htrans htotal ((rows.filter p).map f)
  have hnodup : ((rows.filter p).map f).Nodup :=
    (hdistinct.filter p).map_on fun a ha b hb => hf a b (List.mem_filter.1 ha).2 (List.mem_filter.1 hb).2
  exact hsorted.and ((List.mergeSort_perm _ _).nodup_iff.2 hnodup)

/-- The same for listings of units. -/
theorem pairwise_units {β : Type} {rows : List β} (hdistinct : rows.Nodup) {p : β → Bool}
    {f : β → UnitRef} (hf : ∀ a b, p a = true → p b = true → f a = f b → a = b) :
    (((rows.filter p).map f).mergeSort UnitRef.le).Pairwise UnitRef.Before :=
  (pairwise_listing hdistinct hf UnitRef.le_trans UnitRef.le_total).imp fun hboth =>
    UnitRef.before_of_le_of_ne hboth.1 hboth.2

theorem mem_relationsOf :
    right ∈ db.relationsOf left kind.code ↔ .unit right ∈ db.links left kind := by
  simp only [relationsOf, List.mem_mergeSort, List.mem_map, List.mem_filter, Bool.and_eq_true, beq_iff_eq,
    unit_mem_links]
  constructor
  · rintro ⟨row, ⟨hmem, rfl, hcode⟩, rfl⟩
    rwa [← hcode]
  · exact fun hmem => ⟨_, ⟨hmem, rfl, rfl⟩, rfl⟩

theorem mem_relatedTo :
    left ∈ db.relatedTo right kind.code ↔ .unit right ∈ db.links left kind := by
  simp only [relatedTo, List.mem_mergeSort, List.mem_map, List.mem_filter, Bool.and_eq_true, beq_iff_eq,
    unit_mem_links]
  constructor
  · rintro ⟨row, ⟨hmem, rfl, hcode⟩, rfl⟩
    rwa [← hcode]
  · exact fun hmem => ⟨_, ⟨hmem, rfl, rfl⟩, rfl⟩

theorem mem_associationsOf :
    reference ∈ db.associationsOf left kind.code ↔ .reference reference ∈ db.links left kind := by
  simp only [associationsOf, List.mem_mergeSort, List.mem_map, List.mem_filter, Bool.and_eq_true,
    beq_iff_eq, reference_mem_links]
  constructor
  · rintro ⟨row, ⟨hmem, rfl, hcode⟩, rfl⟩
    rwa [← hcode]
  · exact fun hmem => ⟨_, ⟨hmem, rfl, rfl⟩, rfl⟩

theorem mem_associatedWith :
    left ∈ db.associatedWith kind.code reference ↔ .reference reference ∈ db.links left kind := by
  simp only [associatedWith, List.mem_mergeSort, List.mem_map, List.mem_filter, Bool.and_eq_true,
    beq_iff_eq, reference_mem_links]
  constructor
  · rintro ⟨row, ⟨hmem, hcode, rfl⟩, rfl⟩
    rwa [← hcode]
  · exact fun hmem => ⟨_, ⟨hmem, rfl, rfl⟩, rfl⟩

theorem LinksStand.pairwise_relationsOf (h : db.LinksStand) (left : UnitRef) (kindCode : Int) :
    (db.relationsOf left kindCode).Pairwise UnitRef.Before := by
  refine pairwise_units h.relationsDistinct fun a b ha hb hsame => ?_
  cases a
  cases b
  simp_all

theorem LinksStand.pairwise_relatedTo (h : db.LinksStand) (right : UnitRef) (kindCode : Int) :
    (db.relatedTo right kindCode).Pairwise UnitRef.Before := by
  refine pairwise_units h.relationsDistinct fun a b ha hb hsame => ?_
  cases a
  cases b
  simp_all

theorem LinksStand.pairwise_associatedWith (h : db.LinksStand) (kindCode : Int) (reference : String) :
    (db.associatedWith kindCode reference).Pairwise UnitRef.Before := by
  refine pairwise_units h.associationsDistinct fun a b ha hb hsame => ?_
  cases a
  cases b
  simp_all

theorem LinksStand.pairwise_associationsOf (h : db.LinksStand) (left : UnitRef) (kindCode : Int) :
    (db.associationsOf left kindCode).Pairwise (· < ·) := by
  have hlisting : (db.associationsOf left kindCode).Pairwise
      fun a b => decide (a ≤ b) = true ∧ a ≠ b := by
    refine pairwise_listing h.associationsDistinct (fun a b ha hb hsame => ?_) (fun a b c => ?_) fun a b => ?_
    · cases a
      cases b
      simp_all
    · simp only [decide_eq_true_eq]
      exact String.le_trans
    · simp only [Bool.or_eq_true, decide_eq_true_eq]
      exact String.le_total a b
  refine hlisting.imp ?_
  rintro a b ⟨hle, hne⟩
  exact String.not_le.1 fun hge => hne (String.le_antisymm (of_decide_eq_true hle) hge)

end Database

end MetadataStore
