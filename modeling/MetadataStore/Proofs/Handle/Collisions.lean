import MetadataStore.Proofs.Handle.Settled

/-!
# `Proofs.Handle.Collisions` — what a store leaves unwritten

An attribute counts as changed when the digest of its elements is no longer that of the elements that were
last written. Other elements of the same digest thus stay unwritten. And a zero with a sign is written,
but storage gives it back without the sign. Nothing else keeps a handle from having what storage has.

## Contents
- `Digest.Collide`, `Attribute.Collides`, `Handle.Collides`.
- `Attribute.Continues.storedOn_iff`: when an attribute that counts as written is the stored one.
- `Handle.Tracks.sorted_eq_iff`, `Tracks.storedOn_settle_iff`: the same of all attributes of a handle.
-/

namespace MetadataStore

/-- Different elements of one digest. -/
def Digest.Collide (xs ys : List Datum) : Prop :=
  xs ≠ ys ∧ Digest.ofElements xs = Digest.ofElements ys

/-- The elements of an attribute are others than the stored ones, and yet have the digest of those that
were written. -/
def Attribute.Collides (db : Database) (unit : UnitRef) (a : Attribute) : Prop :=
  ∃ was : Attribute, was.StoredOn db unit ∧ was.id = a.id ∧ a.value.elements ≠ was.value.elements ∧
    ∃ ds : List Datum, ds.map Datum.readBack = was.value.elements ∧
      Digest.Collide a.value.elements ds

namespace Attribute

variable {db : Database} {unit : UnitRef} {was a : Attribute}

theorem StoredOn.not_isNegativeZero (h : a.StoredOn db unit) {d : Datum}
    (hd : d ∈ a.value.elements) : ¬ d.IsNegativeZero := by
  rw [← Datum.readBack_eq_settled_iff, ← h.readBack d hd, Datum.readBack_readBack,
    Datum.settled_readBack]

theorem digest_of_needsWriting (hneeds : a.needsWriting = false) :
    Digest.ofElements a.value.elements = a.value.baseline := by
  have hmodified : a.value.isModified = false := (needsWriting_eq_false_iff.1 hneeds).2
  unfold Value.isModified at hmodified
  simpa using hmodified

/-- **An attribute that counts as written is the stored one** unless its elements collide with those that
were written, or have a zero that lost its sign. -/
theorem Continues.storedOn_iff (hsound : db.Sound) (hwas : was.StoredOn db unit)
    (hof : was.Continues a) (hneeds : a.needsWriting = false) :
    a.StoredOn db unit ↔ ¬ a.Collides db unit ∧ ∀ d ∈ a.value.elements, ¬ d.IsNegativeZero := by
  constructor
  · intro h
    refine ⟨?_, fun d hd => h.not_isNegativeZero hd⟩
    rintro ⟨other, hother, hid, hne, -⟩
    exact hne (congrArg (·.value.elements) (h.eq_of_id hsound hother hid.symm))
  · rintro ⟨hnone, hzero⟩
    obtain ⟨ds, hsettled, hread, hbaseline⟩ := hof.written
    have hdigest := digest_of_needsWriting hneeds
    have helements : a.value.elements = was.value.elements := by
      by_contra hne
      by_cases hsame : a.value.elements = ds
      · -- what was written lost nothing
        have hkept : ds.map Datum.readBack = ds.map Datum.settled :=
          List.map_congr_left fun d hd =>
            (Datum.readBack_eq_settled_iff d).2 (hzero d (hsame ▸ hd))
        exact hne (by rw [hsame, ← hread, hkept, hsettled])
      · exact hnone ⟨was, hwas, hof.id.symm, hne, ds, hread, hsame, hdigest.trans hbaseline⟩
    have heq : a = was := by
      refine Attribute.ext hof.id hof.name hof.scalar hof.valueId
        (Value.ext hof.kind helements ?_ hof.isNew)
      rw [hwas.baseline, ← hdigest, helements]
    rw [heq]
    exact hwas

end Attribute

namespace Handle

variable {db : Database} {h : Handle} {created : DateTime} {unit : UnitRef}

/-- An attribute counts as written, though its elements are others than the stored ones. -/
def Collides (db : Database) (h : Handle) : Prop :=
  ∃ entry ∈ h.loaded, entry.2.needsWriting = false ∧ ∃ unit, h.ref? = some unit ∧
    entry.2.Collides db unit

/-- A handle that has nothing to take off has the attributes of storage exactly when each of its own is
stored. -/
theorem Tracks.sorted_eq_iff (hsound : db.Sound) (ht : h.Tracks db) (hloaded : h.attributes ≠ none)
    (hdetached : h.detached = []) (href : h.ref? = some unit) :
    Attribute.sortById (db.attributesOf unit) = AttributeMap.sorted h.loaded ↔
      ∀ entry ∈ h.loaded, entry.2.StoredOn db unit := by
  rw [eq_comm, hsound.sorted_eq_iff ht.known.idsDistinct]
  constructor
  · exact fun hsame entry hmem => (hsame entry.2).1 ⟨entry, hmem, rfl⟩
  · intro hown a
    constructor
    · rintro ⟨entry, hmem, rfl⟩
      exact hown entry hmem
    · intro ha
      obtain ⟨v, -, hmapped, -⟩ := ha.value
      rcases ht.complete hloaded unit href _ hmapped rfl with hgone | ⟨entry, hmem, hid, -⟩
      · rw [hdetached] at hgone
        cases hgone
      · exact ⟨entry, hmem, (hown entry hmem).eq_of_id hsound ha hid⟩

/-- After a store each attribute is the stored one unless one collided before, or has a zero that lost
its sign. -/
theorem Tracks.storedOn_settle_iff (hsound : db.Sound) (ht : h.Tracks db) (hwritable : h.IsWritable db) :
    (∀ entry ∈ (h.settle (h.writtenId db) created (h.writtenValues db)).loaded,
        entry.2.StoredOn (h.writtenTo created db) (h.writtenUnit db)) ↔
      ¬ h.Collides db ∧ ∀ entry ∈ (h.settle (h.writtenId db) created (h.writtenValues db)).loaded,
        ∀ d ∈ entry.2.value.elements, ¬ d.IsNegativeZero := by
  have hknown := ht.known
  constructor
  · intro hown
    refine ⟨?_, fun entry hmem d hd => (hown entry hmem).not_isNegativeZero hd⟩
    rintro ⟨entry, hmem, hneeds, unit, href, hcollides⟩
    have hafter := hown entry
      ((mem_loaded_settle hsound hknown _).2 (Or.inl ⟨hmem, hneeds⟩))
    obtain ⟨-, unit', was, href', hwas, hof⟩ :=
      ht.entries entry hmem (Attribute.needsWriting_eq_false_iff.1 hneeds).1
    rw [href] at href'
    cases href'
    -- it was not written, so it is stored now only if it was before, and a collision rules that out
    rcases Attribute.storedOn_of_writtenTo hsound hafter with
      ⟨hbefore, -⟩ | ⟨-, hwritten⟩
    · rw [writtenUnit_of_ref? href] at hbefore
      exact ((hof.storedOn_iff hsound hwas hneeds).1 hbefore).1 hcollides
    · exact not_mem_ids_pending hknown hmem hneeds hwritten
  · rintro ⟨hnone, hzero⟩ entry hmem
    have hkept := hzero entry hmem
    rcases (mem_loaded_settle hsound hknown _).1 hmem with
      ⟨hold, hneeds⟩ | ⟨old, hpending, v, rfl, -, hvalue⟩
    · -- not written: it was the stored one before, and the store did not touch it
      obtain ⟨-, unit, was, href, hwas, hof⟩ :=
        ht.entries entry hold (Attribute.needsWriting_eq_false_iff.1 hneeds).1
      have hbefore : entry.2.StoredOn db unit := (hof.storedOn_iff hsound hwas hneeds).2
        ⟨fun hcollides => hnone ⟨entry, hold, hneeds, unit, href, hcollides⟩, hkept⟩
      rw [writtenUnit_of_ref? href]
      refine hbefore.writtenTo hsound ?_
      rintro ⟨-, htouched⟩
      exact ht.not_mem_touched hold hneeds htouched
    · -- written: it comes back unless a zero lost its sign
      refine (storedOn_of_pending hknown hwritable hpending hvalue).2 ?_
      rintro d hd ⟨x, rfl, hx⟩
      exact hkept (.double x) (List.mem_map.2 ⟨.double x, hd, rfl⟩) ⟨x, rfl, hx⟩

end Handle

end MetadataStore
