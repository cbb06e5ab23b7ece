import MetadataStore.Proofs.Handle.Loading
import MetadataStore.Repository.Linking
import MetadataStore.Repository.Locking

/-!
# `Proofs.Database.Links` — work on locks and links alone

Locks, relations and associations stand beside the units and their values. Work that touches nothing else
leaves a sound database sound, and every unit as it is stored.

## Contents
- `Database.SameButLinks`, and what it leaves.
- `Transaction.OnlyLinks`, with one lemma for each way to build a transaction.
- `Repository.onlyLinks_takeLock`, `onlyLinks_putRelation`, `onlyLinks_putAssociation`.
-/

namespace MetadataStore

namespace Database

variable {db mid db' : Database}

/-- One database is the other with other locks and links at most. -/
def SameButLinks (db db' : Database) : Prop :=
  db' = { db with
    relations := db'.relations, associations := db'.associations, locks := db'.locks }

theorem SameButLinks.refl (db : Database) : db.SameButLinks db := rfl

theorem SameButLinks.trans (h : db.SameButLinks mid) (h' : mid.SameButLinks db') :
    db.SameButLinks db' := by
  unfold SameButLinks at *
  rw [h', h]

theorem SameButLinks.sound (h : db.SameButLinks db') (hsound : db.Sound) : db'.Sound := by
  rw [h]
  exact { hsound with }

theorem SameButLinks.readable (h : db.SameButLinks db') (hreadable : db.Readable) : db'.Readable := by
  rw [h]
  exact hreadable

theorem SameButLinks.attributes_eq (h : db.SameButLinks db') : db'.attributes = db.attributes := by
  rw [h]

theorem SameButLinks.attributes_prefix (h : db.SameButLinks db') :
    db.attributes <+: db'.attributes :=
  h.attributes_eq ▸ List.prefix_rfl

theorem SameButLinks.stored?_eq (h : db.SameButLinks db') (unit : UnitRef) :
    db'.stored? unit = db.stored? unit := by
  rw [h]
  rfl

end Database

namespace Transaction

variable {α β : Type}

/-- Work that touches locks and links alone, if it succeeds. -/
def OnlyLinks (work : Transaction α) : Prop :=
  ∀ contention db a db', work contention db = .ok (a, db') → db.SameButLinks db'

namespace OnlyLinks

theorem pure (a : α) : OnlyLinks (Pure.pure a : Transaction α) := by
  intro contention db b db' h
  cases h
  exact .refl db

theorem bind {work : Transaction α} {next : α → Transaction β} (h : work.OnlyLinks)
    (hnext : ∀ a, (next a).OnlyLinks) : (work >>= next).OnlyLinks := by
  intro contention db b db' hrun
  obtain ⟨a, mid, hwork, hrest⟩ := bind_eq_ok.1 hrun
  exact (h _ _ _ _ hwork).trans (hnext a _ _ _ _ hrest)

theorem query (f : Database → α) : OnlyLinks (Transaction.query f) := by
  intro contention db a db' h
  obtain ⟨-, -, rfl⟩ := query_eq_ok.1 h
  exact .refl _

theorem perform {change : Change α} (h : ∀ db a db', change db = .ok (a, db') → db.SameButLinks db') :
    OnlyLinks (Transaction.perform change) :=
  fun _ db a db' hperform => h db a db' (perform_eq_ok.1 hperform).2

theorem ite {p : Prop} [Decidable p] {work other : Transaction α} (h : work.OnlyLinks)
    (hother : other.OnlyLinks) : (if p then work else other).OnlyLinks := by
  split
  · exact h
  · exact hother

end OnlyLinks

/-- A change that cannot fail. -/
theorem onlyLinks_total {f : Database → Database} (hf : ∀ db : Database, db.SameButLinks (f db)) :
    OnlyLinks (Transaction.perform fun db => .ok ((), f db)) := by
  refine .perform fun db a db' h => ?_
  cases h
  exact hf db

/-! ## New rows -/

theorem onlyLinks_insertLock (row : LockRow) : OnlyLinks (perform (Database.insertLock row)) := by
  refine .perform fun db a db' h => ?_
  unfold Database.insertLock at h
  split at h
  · cases h
  · cases h
    rfl

theorem onlyLinks_insertRelation (row : RelationRow) :
    OnlyLinks (perform (Database.insertRelation row)) := by
  refine .perform fun db a db' h => ?_
  unfold Database.insertRelation at h
  split at h
  · cases h
    rfl
  · split at h
    · cases h
    · cases h
      rfl

theorem onlyLinks_insertAssociation (row : AssociationRow) :
    OnlyLinks (perform (Database.insertAssociation row)) := by
  refine .perform fun db a db' h => ?_
  unfold Database.insertAssociation at h
  split at h
  · cases h
    rfl
  · split at h
    · cases h
    · cases h
      rfl

end Transaction

namespace Repository

/-- Taking a lock touches locks alone, and making a link links. -/
theorem onlyLinks_takeLock (unit : UnitRef) (kind : LockKind) (purpose : String) (now : DateTime) :
    (takeLock unit kind purpose now).OnlyLinks :=
  .bind (.query _) fun _ => .ite (.pure false)
    (.bind (Transaction.onlyLinks_insertLock _) fun _ => .pure true)

theorem onlyLinks_putRelation (left : UnitRef) (kind : LinkKind) (right : UnitRef) :
    (putRelation left kind right).OnlyLinks :=
  .ite (.bind (Transaction.onlyLinks_total fun _ => rfl)
      fun _ => Transaction.onlyLinks_insertRelation _)
    (.bind (.pure ()) fun _ => Transaction.onlyLinks_insertRelation _)

theorem onlyLinks_putAssociation (left : UnitRef) (kind : LinkKind) (reference : String) :
    (putAssociation left kind reference).OnlyLinks :=
  .ite (.bind (Transaction.onlyLinks_total fun _ => rfl)
      fun _ => Transaction.onlyLinks_insertAssociation _)
    (.bind (.pure ()) fun _ => Transaction.onlyLinks_insertAssociation _)

end Repository

end MetadataStore
