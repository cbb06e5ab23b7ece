import MetadataStore.Proofs.Database.Replaced
import MetadataStore.Proofs.Handle.Settled
import MetadataStore.Proofs.Repository.Locked

/-!
# `Proofs.Handle.Exact` — a store writes what is pending and nothing else

A store takes the value of every attribute that was taken off, and gives every attribute that is new or
changed a new one. Whether it leaves the other attributes of the unit alone depends on the handle: an
attribute that was taken off can have been attached again and written by itself, and is then neither new
nor changed, but its number is still among those that are taken off.

## Contents
- `Database.Replaces`, `Database.Keeps`: one attribute on a unit, before and after.
- `Handle.WritesPending`, all attributes of a handle; `Handle.Separate`, the handles of which this holds:
  `writesPending_iff_separate`.
- `Handle.LeavesRest`, `leavesRest_writtenTo`: all that has nothing to do with it.
- `Handle.reordered`, `exists_renumbered_writtenTo`: the attributes in another order.
- `writtenTo_of_nothing`: nothing to write.
-/

namespace MetadataStore

namespace Database

/-- An attribute has on a unit one value, of a number greater than any that was in use, with the rows of
its elements; and nothing is left of what it had. -/
structure Replaces (before after : Database) (unit : UnitRef) (a : Attribute) (v : Int) : Prop where
  greater : (∀ m ∈ before.mappings, m.valueId < v) ∧ ∀ row ∈ before.elements, row.valueId < v
  value : after.HasValue unit a.id v a.kind a.value.elements
  lone : ∀ m ∈ after.mappings, m.unit = unit → m.attributeId = a.id → m.valueId = v
  gone : ∀ m ∈ before.mappings, m.unit = unit → m.attributeId = a.id → after.rowsUnder m.valueId = []

/-- An attribute has on a unit what it had. -/
structure Keeps (before after : Database) (unit : UnitRef) (attributeId : Int) : Prop where
  mappings : ∀ m, m.unit = unit → m.attributeId = attributeId → (m ∈ after.mappings ↔ m ∈ before.mappings)
  rows : ∀ m ∈ before.mappings, m.unit = unit → m.attributeId = attributeId →
    after.rowsUnder m.valueId = before.rowsUnder m.valueId

end Database

namespace Handle

variable {h : Handle} {created : DateTime} {db : Database} {order : AttributeMap}

/-! ## The attributes of the unit -/

/-- Each attribute that was new or changed is stored anew, and the handle has its number; each other one
is as it was, in storage and on the handle. -/
structure WritesPending (h : Handle) (before after : Database) (settled : Handle) : Prop where
  pending : ∀ entry ∈ h.pending, ∃ v, before.Replaces after (h.writtenUnit before) entry.2 v ∧
    AttributeMap.get? settled.loaded entry.1 = some (entry.2.markStored v)
  others : ∀ entry ∈ h.loaded, entry.2.needsWriting = false →
    before.Keeps after (h.writtenUnit before) entry.2.id ∧
      AttributeMap.get? settled.loaded entry.1 = some entry.2

/-- What is written is held once, and no stored attribute that needs no writing is among those that were
taken off. -/
structure Separate (h : Handle) (db : Database) : Prop where
  lone : ∀ entry ∈ h.pending, ∀ other ∈ h.loaded, other.2.id = entry.2.id → other = entry
  attached : ∀ entry ∈ h.loaded, entry.2.needsWriting = false → ∀ m ∈ db.mappings,
    m.unit = h.writtenUnit db → m.attributeId = entry.2.id → m.attributeId ∉ h.detached

theorem mem_pending {entry : String × Attribute} :
    entry ∈ h.pending ↔ entry ∈ h.loaded ∧ entry.2.needsWriting = true :=
  List.mem_filter

/-- Of attributes that are held once each, only those taken off and attached again matter. -/
theorem separate_iff_attached (hids : (h.loaded.map (·.2.id)).Nodup) :
    h.Separate db ↔ ∀ entry ∈ h.loaded, entry.2.needsWriting = false → ∀ m ∈ db.mappings,
      m.unit = h.writtenUnit db → m.attributeId = entry.2.id → m.attributeId ∉ h.detached :=
  ⟨Separate.attached, fun hattached => ⟨fun _ hentry _ hother heq =>
    eq_of_nodup (fun e : String × Attribute => e.2.id) hids hother (mem_pending.1 hentry).1 heq, hattached⟩⟩

theorem Separate.idsDistinct (hs : h.Separate db) (hkeys : (h.loaded.map (·.1)).Nodup) :
    (h.pending.map (·.2.id)).Nodup := by
  have hpending : h.pending.Nodup := (List.Nodup.of_map _ hkeys).filter _
  exact hpending.map_on fun entry hentry other hother heq =>
    hs.lone other hother entry (mem_pending.1 hentry).1 heq

/-- No stored attribute that needs no writing is touched. -/
theorem Separate.not_mem_touched (hs : h.Separate db) {entry : String × Attribute}
    (hentry : entry ∈ h.loaded) (hneeds : entry.2.needsWriting = false) {m : Mapping}
    (hm : m ∈ db.mappings) (hunit : m.unit = h.writtenUnit db) (hid : m.attributeId = entry.2.id) :
    m.attributeId ∉ h.touched := by
  intro htouched
  rcases List.mem_append.1 htouched with hgone | hwritten
  · exact hs.attached entry hentry hneeds m hm hunit hid hgone
  · obtain ⟨other, hother, heq⟩ := List.mem_map.1 hwritten
    rw [hs.lone other hother entry hentry (hid.symm.trans heq.symm), (mem_pending.1 hother).2] at hneeds
    cases hneeds

/-- A store at one stroke, if no two of the pending attributes are one. -/
theorem writtenTo_eq (created : DateTime) (hnumbered : db.ValuesNumbered)
    (hids : (h.pending.map (·.2.id)).Nodup) :
    h.writtenTo created db =
      ((h.withRow created db).dropValues (h.writtenUnit db) h.touched).withValues (h.writtenUnit db)
        h.pending := by
  rw [touched, Database.dropValues_append]
  exact (valuesNumbered_beforePut h created hnumbered).putValues_eq hids

/-- **A pending attribute is stored anew**, in place of all that was there of it. -/
theorem replaces_of_pending (created : DateTime) (hnumbered : db.ValuesNumbered)
    (hkeys : (h.pending.map (·.1)).Nodup) (hids : (h.pending.map (·.2.id)).Nodup)
    {entry : String × Attribute} (hmem : entry ∈ h.pending) :
    ∃ v, (h.writtenValues db).lookup entry.1 = some v ∧
      db.Replaces (h.writtenTo created db) (h.writtenUnit db) entry.2 v := by
  obtain ⟨v, hlookup, hlt, hvalue⟩ := hasValue_of_distinct created hnumbered hkeys hids hmem
  have htouched : entry.2.id ∈ h.touched :=
    List.mem_append_right _ (List.mem_map_of_mem (f := (·.2.id)) hmem)
  refine ⟨v, hlookup, ⟨fun m hm => ?_, fun row hrow => ?_⟩, hvalue, ?lone, ?gone⟩
  · have := hnumbered.issued m hm
    omega
  · have := hnumbered.elements row hrow
    omega
  case lone =>
    -- what was there of it is gone, so both mappings are among the new ones
    have hnew : ∀ m ∈ (h.writtenTo created db).mappings, m.unit = h.writtenUnit db →
        m.attributeId = entry.2.id → m ∈ (Database.withNumbers db.lastValue h.pending).map
          (Database.mappingAt (h.writtenUnit db)) := by
      intro m hm hunit hid
      rw [writtenTo_eq created hnumbered hids] at hm
      rcases List.mem_append.1 hm with hold | hnew
      · exact absurd ⟨hunit, hid ▸ htouched⟩ (Database.mem_mappings_dropValues.1 hold).2
      · rwa [Database.lastValue_dropValues, lastValue_withRow] at hnew
    intro m hm hunit hid
    exact congrArg Mapping.valueId
      (Database.eq_of_mem_mappingAt hids (hnew m hm hunit hid) (hnew _ hvalue.1 rfl rfl) hid)
  case gone =>
    intro m hm hunit hid
    have hrow : m ∈ (h.withRow created db).mappings := by rwa [mappings_withRow]
    have hle : m.valueId ≤ ((h.withRow created db).dropValues (h.writtenUnit db) h.touched).lastValue := by
      rw [Database.lastValue_dropValues, lastValue_withRow]
      exact hnumbered.issued m hm
    rw [writtenTo_eq created hnumbered hids, Database.rowsUnder_withValues hle]
    exact Database.rowsUnder_dropValues_of_gone hrow ⟨hunit, hid ▸ htouched⟩

/-- **An attribute that needs no writing is kept**, unless it is among those taken off. -/
theorem Separate.keeps (hs : h.Separate db) (created : DateTime) (hnumbered : db.ValuesNumbered)
    {entry : String × Attribute} (hentry : entry ∈ h.loaded) (hneeds : entry.2.needsWriting = false) :
    db.Keeps (h.writtenTo created db) (h.writtenUnit db) entry.2.id where
  mappings := by
    intro m hunit hid
    constructor
    · intro hm
      rcases mem_mappings_writtenTo hm with ⟨hold, -⟩ | ⟨-, hwritten⟩
      · exact hold
      · obtain ⟨other, hother, heq⟩ := List.mem_map.1 hwritten
        rw [hs.lone other hother entry hentry (hid.symm.trans heq.symm), (mem_pending.1 hother).2]
          at hneeds
        cases hneeds
    · intro hm
      exact (keeps_untouched created hnumbered hm fun hboth =>
        hs.not_mem_touched hentry hneeds hm hunit hid hboth.2).1
  rows := by
    intro m hm hunit hid
    exact (keeps_untouched created hnumbered hm fun hboth =>
      hs.not_mem_touched hentry hneeds hm hunit hid hboth.2).2

/-- What a store of separate attributes does to them. -/
theorem Separate.writesPending (hs : h.Separate db) (created : DateTime) (hnumbered : db.ValuesNumbered)
    (hkeys : (h.loaded.map (·.1)).Nodup) (id : Int) :
    h.WritesPending db (h.writtenTo created db) (h.settle id created (h.writtenValues db)) where
  pending := by
    intro entry hentry
    obtain ⟨v, hlookup, hreplaces⟩ := replaces_of_pending created hnumbered
      (hkeys.sublist (List.filter_sublist.map _)) (hs.idsDistinct hkeys) hentry
    refine ⟨v, hreplaces, ?_⟩
    rw [get?_settle hkeys (mem_pending.1 hentry).1, hlookup]
    rfl
  others := by
    intro entry hentry hneeds
    refine ⟨hs.keeps created hnumbered hentry hneeds, ?_⟩
    rw [get?_settle hkeys hentry, lookup_writtenValues_eq_none hkeys hentry hneeds]
    rfl

/-- A pending attribute has the number that the handle has of it afterwards. -/
theorem lookup_eq_of_get?_settle (hkeys : (h.loaded.map (·.1)).Nodup) {id v : Int}
    {entry : String × Attribute} (hentry : entry ∈ h.pending)
    (hget : AttributeMap.get? (h.settle id created (h.writtenValues db)).loaded entry.1 =
      some (entry.2.markStored v)) : (h.writtenValues db).lookup entry.1 = some v := by
  obtain ⟨w, hlookup⟩ := exists_lookup_of_pending db hentry
  rw [get?_settle hkeys (mem_pending.1 hentry).1, hlookup] at hget
  have hsame : entry.2.markStored w = entry.2.markStored v := Option.some.inj hget
  have hnumber : some w = some v := congrArg Attribute.valueId hsame
  rw [hlookup, hnumber]

/-- **A store does to the attributes what it should** exactly when they are separate. -/
theorem writesPending_iff_separate (created : DateTime) (hnumbered : db.ValuesNumbered)
    (hkeys : (h.loaded.map (·.1)).Nodup) (id : Int) :
    h.WritesPending db (h.writtenTo created db) (h.settle id created (h.writtenValues db)) ↔
      h.Separate db := by
  refine ⟨fun hwrites => ?_, fun hs => hs.writesPending created hnumbered hkeys id⟩
  -- an attribute that is held as written has no new value, so no pending one is the same
  have hother : ∀ entry ∈ h.pending, ∀ other ∈ h.loaded, other.2.needsWriting = false →
      other.2.id ≠ entry.2.id := by
    intro entry hentry other hother hneeds heq
    obtain ⟨v, hreplaces, -⟩ := hwrites.pending entry hentry
    have hold := ((hwrites.others other hother hneeds).1.mappings _ rfl heq.symm).1 hreplaces.value.1
    exact Int.lt_irrefl _ (hreplaces.greater.1 _ hold)
  constructor
  case lone =>
    intro entry hentry other hloaded heq
    cases hneeds : other.2.needsWriting with
    | false => exact absurd heq (hother entry hentry other hloaded hneeds)
    | true =>
      -- two that are written are stored under one number, and each number was given once
      have hpending : other ∈ h.pending := mem_pending.2 ⟨hloaded, hneeds⟩
      obtain ⟨v, hreplaces, hget⟩ := hwrites.pending entry hentry
      obtain ⟨w, hreplaces', hget'⟩ := hwrites.pending other hpending
      have hnumber : w = v := hreplaces.lone _ hreplaces'.value.1 rfl heq
      have hlookup := Keyed.mem_of_lookup (lookup_eq_of_get?_settle hkeys hentry hget)
      have hlookup' := Keyed.mem_of_lookup (lookup_eq_of_get?_settle hkeys hpending hget')
      have hkey := eq_of_nodup Prod.snd (Database.nodup_numberedFrom _ _) hlookup' hlookup hnumber
      exact eq_of_nodup Prod.fst hkeys hloaded (mem_pending.1 hentry).1 (Prod.mk.inj hkey).1
  case attached =>
    intro entry hentry hneeds m hm hunit hid hgone
    have hkept := ((hwrites.others entry hentry hneeds).1.mappings m hunit hid).2 hm
    rcases mem_mappings_writtenTo hkept with ⟨-, huntouched⟩ | ⟨-, hwritten⟩
    · exact huntouched ⟨hunit, List.mem_append_left _ hgone⟩
    · obtain ⟨other, hpending, heq⟩ := List.mem_map.1 hwritten
      exact hother other hpending entry hentry hneeds (hid.symm.trans heq.symm)

/-! ## All the rest -/

/-- Nothing else changes: of the row of a stored unit the name alone, and that if the unit was renamed; of
other units nothing; no lock, no link and no definition. What was taken off and is not written again has no
value any more. -/
structure LeavesRest (h : Handle) (before after : Database) : Prop where
  row : h.id ≠ none → after.unit? (h.writtenUnit before) =
    (before.unit? (h.writtenUnit before)).map fun row =>
      { row with name := if h.renamed then h.name else row.name }
  newRow : h.id = none → before.unit? (h.writtenUnit before) = none ∧
    ∃ created, after.unit? (h.writtenUnit before) = some (h.newRow (before.lastUnit + 1) created)
  detached : ∀ id ∈ h.detached, id ∉ h.pending.map (·.2.id) →
    ∀ m ∈ after.mappings, ¬(m.unit = h.writtenUnit before ∧ m.attributeId = id)
  units : ∀ unit, unit ≠ h.writtenUnit before → before.SameUnit after unit
  links : before.SameLinks after
  definitions : after.attributes = before.attributes

theorem leavesRest_writtenTo (h : Handle) (created : DateTime) (hnumbered : db.Numbered) :
    h.LeavesRest db (h.writtenTo created db) where
  row := by
    intro hid
    obtain ⟨id, hid⟩ := Option.ne_none_iff_exists'.1 hid
    exact unit?_writtenTo_of_id hid
  newRow := fun hnew => ⟨unit?_writtenUnit_of_new hnumbered.unitsIssued hnew, created,
    unit?_writtenTo_of_new hnumbered.unitsIssued hnew⟩
  detached := fun id hid hnot m hm => not_mapped_of_detached hid hnot hm
  units := by
    intro unit hne
    have hvalues : db.SameValues (h.writtenTo created db) unit := sameValues_writtenTo hnumbered hne
    have hlinks : db.SameLinks (h.writtenTo created db) := sameLinks_writtenTo
    refine ⟨unit?_writtenTo_of_ne hne, hvalues.mappings, hvalues.elements, ?_, fun kindCode => ?_⟩
    · rw [Database.locksOf, Database.locksOf, hlinks.locks]
    · rw [Database.associationsOf, Database.associationsOf, hlinks.associations]
  links := sameLinks_writtenTo
  definitions := attributes_writtenTo

/-- A handle with nothing to write leaves everything as it is. -/
theorem writtenTo_of_nothing {id : Int} (hid : h.id = some id) (hrenamed : h.renamed = false)
    (hdetached : h.detached = []) (hpending : h.pending = []) : h.writtenTo created db = db := by
  rw [writtenTo, hdetached, hpending, withRow, hid]
  simp only [hrenamed, Bool.false_eq_true, if_false, Database.dropValues_nil, Database.putValues_nil]

/-! ## Another order -/

/-- The handle with its attributes in another order. -/
def reordered (h : Handle) (order : AttributeMap) : Handle :=
  { h with attributes := some order }

theorem pending_reordered (hperm : order.Perm h.loaded) : (h.reordered order).pending.Perm h.pending :=
  hperm.filter _

theorem Separate.reordered (hs : h.Separate db) (hperm : order.Perm h.loaded) :
    (h.reordered order).Separate db where
  lone := fun entry hentry other hother =>
    hs.lone entry ((pending_reordered hperm).mem_iff.1 hentry) other (hperm.mem_iff.1 hother)
  attached := fun entry hentry => hs.attached entry (hperm.mem_iff.1 hentry)

theorem IsWritable.reordered (hwritable : h.IsWritable db) (hperm : order.Perm h.loaded) :
    (h.reordered order).IsWritable db where
  correlation := hwritable.correlation
  stored := by
    intro hpending
    refine hwritable.stored fun hnone => hpending ?_
    exact (hnone ▸ pending_reordered hperm).eq_nil
  attributes := fun entry hentry =>
    hwritable.attributes entry ((pending_reordered hperm).mem_iff.1 hentry)

/-- **In whatever order the attributes come**, a store leaves the same tables but for the new numbers. -/
theorem exists_renumbered_writtenTo (created : DateTime) (hnumbered : db.ValuesNumbered)
    (hids : (h.pending.map (·.2.id)).Nodup) (hperm : order.Perm h.loaded) :
    ∃ σ : Equiv.Perm Int, (∀ v, v ≤ db.lastValue → σ v = v) ∧
      (h.writtenTo created db).Renumbered σ ((h.reordered order).writtenTo created db) := by
  have hpending := pending_reordered hperm
  have hids' : ((h.reordered order).pending.map (·.2.id)).Nodup :=
    (hpending.map _).nodup_iff.2 hids
  -- the same values go
  have hdropped : (h.withRow created db).dropValues (h.writtenUnit db) (h.reordered order).touched =
      (h.withRow created db).dropValues (h.writtenUnit db) h.touched :=
    Database.dropValues_congr fun id => ((hpending.map _).append_left h.detached).mem_iff
  have hbefore : ((h.withRow created db).dropValues (h.writtenUnit db) h.touched).ValuesNumbered :=
    (valuesNumbered_withRow hnumbered).dropValues _ _
  obtain ⟨σ, hσ, hrenumbered⟩ := hbefore.exists_renumbered hpending (h.writtenUnit db)
  refine ⟨σ, fun v hv => hσ v ?_, ?_⟩
  · rwa [Database.lastValue_dropValues, lastValue_withRow]
  · rw [writtenTo_eq created hnumbered hids, writtenTo_eq created hnumbered hids', ← hdropped]
    rw [← hdropped] at hrenumbered
    exact hrenumbered

end Handle

end MetadataStore
