import MetadataStore.Proofs.Database.Numbered

/-!
# `Proofs.Database.Linked` — locks and links that stand on stored units

A unit has one lock at most, and one link at most of a kind that does not allow several. Locks and
associations are of stored units, relations between two of them, each of a kind that is meant for it. Work
on locks and links keeps that, and so does everything else that leaves stored units stored; a unit that
goes takes its locks and links with it.

## Contents
- `AtMostOne`, rows of which a key has one at most.
- `Database.Linked`; `Linked.stand`, `Linked.withoutUnit`: changes to other tables.
- `roomFor`, the links that are left once there is room for another one.
- `withLock`, `takeLock_eq_ok`, `putRelation_cases`, `putAssociation_cases`: what work on locks and links
  leaves, and the lemmas that it keeps `Linked`.
-/

namespace MetadataStore

/-! ## Rows of one key -/

/-- Of the rows, each key of a sort has one at most. -/
def AtMostOne {β κ : Type} [DecidableEq κ] (key : β → κ) (lone : κ → Prop) (rows : List β) : Prop :=
  ∀ k, lone k → (rows.filter fun row => decide (key row = k)).length ≤ 1

section

variable {β κ : Type} [DecidableEq κ] {key : β → κ} {lone : κ → Prop} {rows kept : List β}

theorem AtMostOne.nil : AtMostOne key lone [] :=
  fun _ _ => Nat.zero_le 1

theorem AtMostOne.sublist (h : AtMostOne key lone rows) (hsub : List.Sublist kept rows) :
    AtMostOne key lone kept :=
  fun k hk => Nat.le_trans (hsub.filter _).length_le (h k hk)

/-- A row may come in when its key is free, or may have several. -/
theorem AtMostOne.append (h : AtMostOne key lone rows) {row : β}
    (hfree : lone (key row) → ∀ other ∈ rows, key other ≠ key row) :
    AtMostOne key lone (rows ++ [row]) := by
  intro k hk
  rw [List.filter_append, List.length_append]
  by_cases hrow : key row = k
  · subst hrow
    have hnone : rows.filter (fun other => decide (key other = key row)) = [] := by
      rw [List.filter_eq_nil_iff]
      intro other hmem
      simpa using hfree hk other hmem
    have hlast : ([row].filter fun other => decide (key other = key row)).length ≤ 1 :=
      List.length_filter_le _ _
    rw [hnone, List.length_nil]
    omega
  · have hlast : [row].filter (fun other => decide (key other = k)) = [] := by
      rw [List.filter_eq_nil_iff]
      intro other hmem
      rw [List.mem_singleton.1 hmem]
      simpa using hrow
    have hold := h k hk
    rw [hlast, List.length_nil]
    omega

end

/-! ## Two changes in one transaction -/

/-- A change, and another one before it when that is wanted. -/
theorem Transaction.perform_after_eq_ok {α : Type} {wanted : Bool} {first : Change Unit}
    {second : Change α} {contention : Contention} {db db' : Database} {a : α}
    (h : (do if wanted then perform first
             perform second : Transaction α) contention db = .ok (a, db')) :
    ∃ mid, ((wanted = true → first db = .ok ((), mid)) ∧ (wanted = false → mid = db)) ∧
      second mid = .ok (a, db') := by
  cases wanted with
  | true =>
    obtain ⟨u, mid, hfirst, hsecond⟩ := Transaction.bind_eq_ok.1 h
    exact ⟨mid, ⟨fun _ => (perform_eq_ok.1 hfirst).2, fun hno => absurd hno (by decide)⟩,
      (perform_eq_ok.1 hsecond).2⟩
  | false =>
    exact ⟨db, ⟨fun hyes => absurd hyes (by decide), fun _ => rfl⟩, (perform_eq_ok.1 h).2⟩

namespace Database

/-! ## Locks and links -/

/-- The unit that a relation is of, and the code of its kind. -/
abbrev relationKey (row : RelationRow) : UnitRef × Int :=
  (row.left, row.kindCode)

/-- The same of an association. -/
abbrev associationKey (row : AssociationRow) : UnitRef × Int :=
  (row.left, row.kindCode)

/-- A unit and the code of a kind of which it may have one link only. -/
def LoneKind (k : UnitRef × Int) : Prop :=
  ∃ kind : LinkKind, kind.code = k.2 ∧ kind.allowsMultiple = false

/-- Locks and links stand on stored units, links are of kinds meant for them, and there is one at most
where only one is allowed. -/
structure Linked (db : Database) : Prop where
  relationsStand : ∀ row ∈ db.relations, db.hasUnit row.left = true ∧ db.hasUnit row.right = true
  relationsMeant : ∀ row ∈ db.relations, ∃ kind : LinkKind,
    kind.isRelational = true ∧ kind.code = row.kindCode
  relationsLone : AtMostOne relationKey LoneKind db.relations
  associationsStand : ∀ row ∈ db.associations, db.hasUnit row.left = true
  associationsMeant : ∀ row ∈ db.associations, ∃ kind : LinkKind,
    kind.isRelational = false ∧ kind.code = row.kindCode
  associationsLone : AtMostOne associationKey LoneKind db.associations
  locksStand : ∀ row ∈ db.locks, db.hasUnit row.unit = true
  locksLone : AtMostOne LockRow.unit (fun _ => True) db.locks

/-- Locks and links are the same in both. -/
structure SameLinks (db db' : Database) : Prop where
  relations : db'.relations = db.relations
  associations : db'.associations = db.associations
  locks : db'.locks = db.locks

variable {db mid db' : Database} {unit : UnitRef}

theorem SameLinks.refl (db : Database) : db.SameLinks db :=
  ⟨rfl, rfl, rfl⟩

theorem SameLinks.trans (h : db.SameLinks mid) (h' : mid.SameLinks db') : db.SameLinks db' :=
  ⟨h'.relations.trans h.relations, h'.associations.trans h.associations, h'.locks.trans h.locks⟩

theorem Linked.blank (engine : Engine) : (Database.blank engine).Linked where
  relationsStand := fun _ h => by cases h
  relationsMeant := fun _ h => by cases h
  relationsLone := .nil
  associationsStand := fun _ h => by cases h
  associationsMeant := fun _ h => by cases h
  associationsLone := .nil
  locksStand := fun _ h => by cases h
  locksLone := .nil

/-- Locks and links go on standing while stored units stay. -/
theorem Linked.stand (h : db.Linked) (hsame : db.SameLinks db')
    (hunits : ∀ unit, db.hasUnit unit = true → db'.hasUnit unit = true) : db'.Linked := by
  obtain ⟨hrelations, hassociations, hlocks⟩ := hsame
  constructor
  · rw [hrelations]
    exact fun row hmem => (h.relationsStand row hmem).imp (hunits _) (hunits _)
  · rw [hrelations]
    exact h.relationsMeant
  · rw [hrelations]
    exact h.relationsLone
  · rw [hassociations]
    exact fun row hmem => hunits _ (h.associationsStand row hmem)
  · rw [hassociations]
    exact h.associationsMeant
  · rw [hassociations]
    exact h.associationsLone
  · rw [hlocks]
    exact fun row hmem => hunits _ (h.locksStand row hmem)
  · rw [hlocks]
    exact h.locksLone

/-- All other units are still there when one goes. -/
theorem hasUnit_withoutUnit {other : UnitRef} :
    (db.withoutUnit unit).hasUnit other = true ↔ db.hasUnit other = true ∧ other ≠ unit := by
  simp only [hasUnit_iff, mem_units_withoutUnit]
  constructor
  · rintro ⟨row, ⟨hmem, hne⟩, rfl⟩
    exact ⟨⟨row, hmem, rfl⟩, hne⟩
  · rintro ⟨⟨row, hmem, rfl⟩, hne⟩
    exact ⟨row, ⟨hmem, hne⟩, rfl⟩

/-- What stands on a unit goes with it. -/
theorem Linked.withoutUnit (h : db.Linked) (unit : UnitRef) : (db.withoutUnit unit).Linked where
  relationsStand := by
    intro row hmem
    obtain ⟨hold, hne⟩ := List.mem_filter.1 hmem
    simp only [Bool.and_eq_true, bne_iff_ne] at hne
    obtain ⟨hleft, hright⟩ := h.relationsStand row hold
    exact ⟨hasUnit_withoutUnit.2 ⟨hleft, hne.1⟩, hasUnit_withoutUnit.2 ⟨hright, hne.2⟩⟩
  relationsMeant := fun row hmem => h.relationsMeant row (List.mem_filter.1 hmem).1
  relationsLone := h.relationsLone.sublist List.filter_sublist
  associationsStand := by
    intro row hmem
    obtain ⟨hold, hne⟩ := List.mem_filter.1 hmem
    exact hasUnit_withoutUnit.2 ⟨h.associationsStand row hold, bne_iff_ne.1 hne⟩
  associationsMeant := fun row hmem => h.associationsMeant row (List.mem_filter.1 hmem).1
  associationsLone := h.associationsLone.sublist List.filter_sublist
  locksStand := by
    intro row hmem
    obtain ⟨hold, hne⟩ := List.mem_filter.1 hmem
    exact hasUnit_withoutUnit.2 ⟨h.locksStand row hold, bne_iff_ne.1 hne⟩
  locksLone := h.locksLone.sublist List.filter_sublist

/-! ## Locks -/

/-- The database with one more lock. -/
def withLock (db : Database) (row : LockRow) : Database :=
  { db with locks := db.locks ++ [row] }

/-- A lock is put on stored units only. -/
theorem insertLock_eq_ok {row : LockRow} :
    insertLock row db = .ok ((), db') ↔ db.hasUnit row.unit = true ∧ db' = db.withLock row := by
  unfold insertLock
  cases db.hasUnit row.unit with
  | true =>
    rw [Bool.not_true, if_neg Bool.false_ne_true]
    constructor
    · intro hinsert
      cases hinsert
      exact ⟨rfl, rfl⟩
    · rintro ⟨-, rfl⟩
      rfl
  | false => simp

/-- **A lock is taken** exactly if the unit is stored and has none; if it has one, everything is left as
it is. -/
theorem takeLock_eq_ok {kind : LockKind} {purpose : String} {now : DateTime} {contention : Contention}
    {taken : Bool} :
    Repository.takeLock unit kind purpose now contention db = .ok (taken, db') ↔
      contention.allowsReading = true ∧
        ((db.isLocked unit = true ∧ taken = false ∧ db' = db) ∨
          (db.isLocked unit = false ∧ contention.allowsWriting = true ∧ db.hasUnit unit = true ∧
            taken = true ∧ db' = db.withLock ⟨unit, purpose, kind.code, now.text, none⟩)) := by
  constructor
  · intro htake
    obtain ⟨locked, mid, hquery, hrest⟩ := Transaction.bind_eq_ok.1 htake
    obtain ⟨hread, hlocked, rfl⟩ := Transaction.query_eq_ok.1 hquery
    refine ⟨hread, ?_⟩
    cases locked with
    | true =>
      cases hrest
      exact Or.inl ⟨hlocked.symm, rfl, rfl⟩
    | false =>
      obtain ⟨u, after, hperform, hdone⟩ := Transaction.bind_eq_ok.1 hrest
      cases hdone
      obtain ⟨hwrite, hinsert⟩ := Transaction.perform_eq_ok.1 hperform
      obtain ⟨hunit, hdb⟩ := insertLock_eq_ok.1 hinsert
      exact Or.inr ⟨hlocked.symm, hwrite, hunit, rfl, hdb⟩
  · rintro ⟨hread, ⟨hlocked, rfl, hsame⟩ | ⟨hfree, hwrite, hunit, rfl, hdb⟩⟩
    · exact Transaction.bind_eq_ok.2
        ⟨true, db, Transaction.query_eq_ok.2 ⟨hread, hlocked.symm, rfl⟩, hsame ▸ rfl⟩
    · have hinsert := Transaction.perform_eq_ok.2 ⟨hwrite, insertLock_eq_ok.2 ⟨hunit, hdb⟩⟩
      exact Transaction.bind_eq_ok.2 ⟨false, db, Transaction.query_eq_ok.2 ⟨hread, hfree.symm, rfl⟩,
        Transaction.bind_eq_ok.2 ⟨(), db', hinsert, rfl⟩⟩

theorem Linked.takeLock (h : db.Linked) {kind : LockKind} {purpose : String} {now : DateTime}
    {contention : Contention} {taken : Bool}
    (htake : Repository.takeLock unit kind purpose now contention db = .ok (taken, db')) :
    db'.Linked := by
  obtain ⟨-, ⟨-, -, rfl⟩ | ⟨hfree, -, hunit, -, rfl⟩⟩ := takeLock_eq_ok.1 htake
  · exact h
  · refine { h with locksStand := fun row hmem => ?_, locksLone := h.locksLone.append ?_ }
    · rcases List.mem_append.1 hmem with hold | hnew
      · exact h.locksStand row hold
      · rw [List.mem_singleton.1 hnew]
        exact hunit
    · -- the unit was looked at in the same transaction
      intro _ other hmem heq
      have hlocked : db.isLocked unit = true := List.any_eq_true.2 ⟨other, hmem, by simpa using heq⟩
      rw [hfree] at hlocked
      cases hlocked

theorem Linked.withLocks (h : db.Linked) {kept : List LockRow} (hsub : List.Sublist kept db.locks) :
    ({ db with locks := kept } : Database).Linked :=
  { h with
    locksStand := fun row hmem => h.locksStand row (hsub.mem hmem)
    locksLone := h.locksLone.sublist hsub }

/-! ## Links -/

section

variable {β : Type} {key : β → UnitRef × Int} {left : UnitRef} {kind : LinkKind} {rows : List β}

/-- The links that are left once there is room for another one. -/
def roomFor (key : β → UnitRef × Int) (left : UnitRef) (kind : LinkKind) (rows : List β) : List β :=
  if kind.allowsMultiple then rows
  else rows.filter fun row => !((key row).1 == left && (key row).2 == kind.code)

theorem roomFor_sublist (key : β → UnitRef × Int) (left : UnitRef) (kind : LinkKind) (rows : List β) :
    List.Sublist (roomFor key left kind rows) rows := by
  unfold roomFor
  split
  · exact List.Sublist.refl _
  · exact List.filter_sublist

/-- Where only one link is allowed, room is made for it. -/
theorem atMostOne_roomFor (h : AtMostOne key LoneKind rows) {row : β}
    (hrow : key row = (left, kind.code)) :
    AtMostOne key LoneKind (roomFor key left kind rows ++ [row]) := by
  refine (h.sublist (roomFor_sublist key left kind rows)).append ?_
  rw [hrow]
  rintro ⟨lone, hcode, hlone⟩ other hmem heq
  rw [LinkKind.code_injective hcode] at hlone
  simp only [roomFor, hlone, Bool.false_eq_true, if_false, List.mem_filter] at hmem
  simp [heq] at hmem

end

/-- Making a relation leaves what there is room for, and adds the relation unless it is there. -/
theorem putRelation_cases {left right : UnitRef} {kind : LinkKind} {contention : Contention}
    (hput : Repository.putRelation left kind right contention db = .ok ((), db')) :
    db' = { db with relations := roomFor relationKey left kind db.relations } ∨
      db.hasUnit left = true ∧ db.hasUnit right = true ∧
        db' = { db with
          relations := roomFor relationKey left kind db.relations ++ [⟨left, kind.code, right⟩] } := by
  obtain ⟨mid, hroom, hinsert⟩ := Transaction.perform_after_eq_ok hput
  have hmid : mid = { db with relations := roomFor relationKey left kind db.relations } := by
    unfold roomFor
    cases hmultiple : kind.allowsMultiple with
    | true => exact hroom.2 (by rw [hmultiple]; rfl)
    | false =>
      cases hroom.1 (by rw [hmultiple]; rfl)
      rfl
  subst hmid
  unfold insertRelation at hinsert
  split at hinsert
  · cases hinsert
    exact Or.inl rfl
  · split at hinsert
    · cases hinsert
    · rename_i hunits
      cases hinsert
      simp only [Bool.not_eq_true', Bool.not_eq_false, Bool.and_eq_true] at hunits
      exact Or.inr ⟨hunits.1, hunits.2, rfl⟩

/-- Fewer relations are as good. -/
theorem Linked.withRelations (h : db.Linked) {kept : List RelationRow}
    (hsub : List.Sublist kept db.relations) : ({ db with relations := kept } : Database).Linked :=
  { h with
    relationsStand := fun row hmem => h.relationsStand row (hsub.mem hmem)
    relationsMeant := fun row hmem => h.relationsMeant row (hsub.mem hmem)
    relationsLone := h.relationsLone.sublist hsub }

theorem Linked.putRelation (h : db.Linked) {left right : UnitRef} {kind : LinkKind}
    {contention : Contention} (hkind : kind.isRelational = true)
    (hput : Repository.putRelation left kind right contention db = .ok ((), db')) : db'.Linked := by
  have hkept := h.withRelations (roomFor_sublist relationKey left kind db.relations)
  rcases putRelation_cases hput with rfl | ⟨hleft, hright, rfl⟩
  · exact hkept
  · exact { hkept with
      relationsStand := List.forall_mem_append.2
        ⟨hkept.relationsStand, List.forall_mem_singleton.2 ⟨hleft, hright⟩⟩
      relationsMeant := List.forall_mem_append.2
        ⟨hkept.relationsMeant, List.forall_mem_singleton.2 ⟨kind, hkind, rfl⟩⟩
      relationsLone := atMostOne_roomFor h.relationsLone rfl }

theorem putAssociation_cases {left : UnitRef} {kind : LinkKind} {reference : String}
    {contention : Contention}
    (hput : Repository.putAssociation left kind reference contention db = .ok ((), db')) :
    db' = { db with associations := roomFor associationKey left kind db.associations } ∨
      db.hasUnit left = true ∧
        db' = { db with
          associations := roomFor associationKey left kind db.associations ++ [⟨left, kind.code, reference⟩] } := by
  obtain ⟨mid, hroom, hinsert⟩ := Transaction.perform_after_eq_ok hput
  have hmid : mid = { db with associations := roomFor associationKey left kind db.associations } := by
    unfold roomFor
    cases hmultiple : kind.allowsMultiple with
    | true => exact hroom.2 (by rw [hmultiple]; rfl)
    | false =>
      cases hroom.1 (by rw [hmultiple]; rfl)
      rfl
  subst hmid
  unfold insertAssociation at hinsert
  split at hinsert
  · cases hinsert
    exact Or.inl rfl
  · split at hinsert
    · cases hinsert
    · rename_i hunit
      cases hinsert
      simp only [Bool.not_eq_true', Bool.not_eq_false] at hunit
      exact Or.inr ⟨hunit, rfl⟩

theorem Linked.withAssociations (h : db.Linked) {kept : List AssociationRow}
    (hsub : List.Sublist kept db.associations) :
    ({ db with associations := kept } : Database).Linked :=
  { h with
    associationsStand := fun row hmem => h.associationsStand row (hsub.mem hmem)
    associationsMeant := fun row hmem => h.associationsMeant row (hsub.mem hmem)
    associationsLone := h.associationsLone.sublist hsub }

theorem Linked.putAssociation (h : db.Linked) {left : UnitRef} {kind : LinkKind} {reference : String}
    {contention : Contention} (hkind : kind.isRelational = false)
    (hput : Repository.putAssociation left kind reference contention db = .ok ((), db')) :
    db'.Linked := by
  have hkept := h.withAssociations (roomFor_sublist associationKey left kind db.associations)
  rcases putAssociation_cases hput with rfl | ⟨hleft, rfl⟩
  · exact hkept
  · exact { hkept with
      associationsStand := List.forall_mem_append.2
        ⟨hkept.associationsStand, List.forall_mem_singleton.2 hleft⟩
      associationsMeant := List.forall_mem_append.2
        ⟨hkept.associationsMeant, List.forall_mem_singleton.2 ⟨kind, hkind, rfl⟩⟩
      associationsLone := atMostOne_roomFor h.associationsLone rfl }

/-! ## What stands on one unit -/

/-- **A unit has one link at most** of a kind that does not allow several. -/
theorem Linked.length_links_le_one (h : db.Linked) {kind : LinkKind} (hlone : kind.allowsMultiple = false)
    (left : UnitRef) :
    (db.relationsOf left kind.code).length + (db.associationsOf left kind.code).length ≤ 1 := by
  have hrelations := h.relationsLone (left, kind.code) ⟨kind, rfl, hlone⟩
  have hassociations := h.associationsLone (left, kind.code) ⟨kind, rfl, hlone⟩
  simp only [relationsOf, associationsOf, List.length_mergeSort, List.length_map]
  simp only [Prod.mk.injEq, Bool.decide_and] at hrelations hassociations
  -- the rows of a kind are all in one of the two tables
  cases hkind : kind.isRelational with
  | true =>
    have hnone : db.associations.filter
        (fun row => row.left == left && row.kindCode == kind.code) = [] := by
      rw [List.filter_eq_nil_iff]
      intro row hmem hrow
      simp only [Bool.and_eq_true, beq_iff_eq] at hrow
      obtain ⟨other, hother, hcode⟩ := h.associationsMeant row hmem
      rw [LinkKind.code_injective (hcode.trans hrow.2), hkind] at hother
      cases hother
    rw [hnone, List.length_nil]
    exact hrelations
  | false =>
    have hnone : db.relations.filter
        (fun row => row.left == left && row.kindCode == kind.code) = [] := by
      rw [List.filter_eq_nil_iff]
      intro row hmem hrow
      simp only [Bool.and_eq_true, beq_iff_eq] at hrow
      obtain ⟨other, hother, hcode⟩ := h.relationsMeant row hmem
      rw [LinkKind.code_injective (hcode.trans hrow.2), hkind] at hother
      cases hother
    rw [hnone, List.length_nil, Nat.zero_add]
    exact hassociations

theorem Linked.length_locksOf_le_one (h : db.Linked) (unit : UnitRef) :
    (db.locksOf unit).length ≤ 1 := by
  rw [locksOf, List.length_mergeSort]
  exact h.locksLone unit trivial

/-! ## Writing units and values -/

theorem SameButValues.sameLinks (h : db.SameButValues db') : db.SameLinks db' where
  relations := h.relations
  associations := h.associations
  locks := h.locks

end Database

namespace Handle

variable {h : Handle} {created : DateTime} {db : Database} {unit : UnitRef}

theorem sameLinks_withRow : db.SameLinks (h.withRow created db) := by
  unfold withRow
  split
  · split
    · exact ⟨rfl, rfl, rfl⟩
    · exact .refl db
  · exact ⟨rfl, rfl, rfl⟩

/-- A store has no part in locks and links. -/
theorem sameLinks_writtenTo : db.SameLinks (h.writtenTo created db) :=
  (sameLinks_withRow.trans (Database.sameButValues_dropValues _ _ _).sameLinks).trans
    (Database.sameButValues_putValues _ _ _).sameLinks

end Handle

end MetadataStore
