import MetadataStore.Proofs.Handle.Agreement

/-!
# `Proofs.Handle.Current` — when a call leaves a fresh copy

A store and a change of status write some of what a handle has, and then keep a copy of all of it.
Whether that copy is fresh depends on what the handle had before, apart from what the call wrote.

## Contents
- `Handle.stored?_writtenTo_of_ne`: other units after a store.
- `Handle.IsCurrent`, `Handle.AttributesCurrent`, `Handle.fresh_settle_iff`: when a store leaves a fresh copy.
- `Handle.FreshButStatus`, `Handle.fresh_withStatus_iff`: when a change of status does.
-/

namespace MetadataStore

namespace Handle

variable {db : Database} {h made : Handle} {created : DateTime} {unit : UnitRef}

theorem unit?_writtenTo (h : Handle) (created : DateTime) (db : Database) (unit : UnitRef) :
    (h.writtenTo created db).unit? unit = (h.withRow created db).unit? unit := by
  unfold Database.unit?
  rw [units_writtenTo]

/-- The number that a new unit gets is nobody's yet. -/
theorem unit?_writtenUnit_of_new (hnumbers : ∀ row ∈ db.units, row.unit.id ≤ db.lastUnit)
    (hnew : h.id = none) : db.unit? (h.writtenUnit db) = none := by
  unfold Database.unit?
  rw [List.find?_eq_none]
  intro row hmem hrow
  have hissued := hnumbers row hmem
  rw [beq_iff_eq, writtenUnit_of_new hnew] at hrow
  rw [hrow] at hissued
  simp only at hissued
  omega

/-- A new unit has the row that was written. -/
theorem unit?_writtenTo_of_new (hnumbers : ∀ row ∈ db.units, row.unit.id ≤ db.lastUnit)
    (hnew : h.id = none) :
    (h.writtenTo created db).unit? (h.writtenUnit db) = some (h.newRow (db.lastUnit + 1) created) := by
  have hfree := unit?_writtenUnit_of_new hnumbers hnew
  rw [unit?_writtenTo]
  unfold Database.unit? at hfree
  unfold withRow Database.unit?
  rw [hnew]
  simp only [List.find?_append, hfree, Option.none_or]
  rw [writtenUnit_of_new hnew]
  simp [newRow]

/-- A unit that is stored has its row under its new name. -/
theorem unit?_writtenTo_of_id {id : Int} (hid : h.id = some id) :
    (h.writtenTo created db).unit? (h.writtenUnit db) =
      (db.unit? (h.writtenUnit db)).map fun row =>
        { row with name := if h.renamed then h.name else row.name } := by
  rw [unit?_writtenTo]
  unfold withRow
  rw [hid]
  cases h.renamed with
  | false =>
    simp only [Bool.false_eq_true, if_false]
    exact Option.map_id'.symm
  | true =>
    simp only [if_true]
    rw [Database.unit?_map db (by intro row; split <;> rfl)]
    refine Option.map_congr fun row hrow => ?_
    rw [(Database.unit?_eq_some hrow).2, writtenUnit_of_id hid]
    simp

theorem unit?_writtenTo_of_ne (hne : unit ≠ h.writtenUnit db) :
    (h.writtenTo created db).unit? unit = db.unit? unit := by
  rw [unit?_writtenTo]
  unfold withRow
  cases hid : h.id with
  | none =>
    rw [writtenUnit_of_new hid] at hne
    have hother : (h.newRow (db.lastUnit + 1) created).unit ≠ unit := fun heq => hne heq.symm
    unfold Database.unit?
    simp [List.find?_append, hother]
  | some id =>
    rw [writtenUnit_of_id hid] at hne
    cases h.renamed with
    | false => rfl
    | true =>
      simp only [if_true]
      rw [Database.unit?_map db (by intro row; split <;> rfl)]
      cases hrow : db.unit? unit with
      | none => rfl
      | some row =>
        have hother : row.unit ≠ ⟨h.tenant, id⟩ := (Database.unit?_eq_some hrow).2 ▸ hne
        simp [hother]

/-- A store leaves other units as they were stored. -/
theorem stored?_writtenTo_of_ne (hsound : db.Sound) (hknown : AttributeMap.Known db h.loaded)
    (hwritable : h.IsWritable db) (hne : unit ≠ h.writtenUnit db) :
    (h.writtenTo created db).stored? unit = db.stored? unit := by
  refine Database.stored?_congr hsound (sound_writtenTo hsound hknown hwritable)
    (unit?_writtenTo_of_ne hne) fun a => ⟨fun ha => ?_, fun ha => ?_⟩
  · rcases Attribute.storedOn_of_writtenTo hsound ha with ⟨hold, -⟩ | ⟨hunit, -⟩
    · exact hold
    · exact absurd hunit hne
  · exact ha.writtenTo hsound fun hboth => hne hboth.1

/-! ## Stores -/

/-- A handle is current when storing it takes nothing back: but for what the store writes, the row of its
unit says what the handle says, every attribute that is not written is the stored one, and none that is
stored is missing. Nothing written may have a zero with a sign. -/
structure IsCurrent (db : Database) (h : Handle) : Prop where
  row : ∀ unit, h.ref? = some unit → ∃ made attributes, db.stored? unit = some (made, attributes) ∧
    h.correlation = made.correlation ∧ h.status = made.status ∧ h.created = made.created ∧
    (h.renamed = true ∨ h.name = made.name)
  kept : ∀ entry ∈ h.loaded, entry.2.needsWriting = false →
    entry.2 ∈ db.attributesOf (h.writtenUnit db) ∧ entry.2.id ∉ h.detached
  written : ∀ entry ∈ h.pending, ∀ d ∈ entry.2.value.elements, ¬ d.IsNegativeZero
  complete : h.attributes ≠ none → ∀ m ∈ db.mappings, m.unit = h.writtenUnit db →
    m.attributeId ∈ h.detached ∨ ∃ entry ∈ h.loaded, entry.2.id = m.attributeId

/-- A unit just made is current. -/
theorem isCurrent_create (hsound : db.Sound) (tenant : Int) (name : Option String)
    (correlation : String) : (Handle.create tenant name correlation).IsCurrent db where
  row := fun _ href => by cases href
  kept := fun _ hmem => by cases hmem
  written := fun _ hmem => by cases hmem
  complete := fun _ _ hm hunit => absurd hunit (unit_ne_of_new hsound rfl hm)

/-- Of a new unit the row says what the handle says; of a stored one it does if it did before. -/
theorem row_settle_iff (hsound : db.Sound) (hdated : h.created = none ↔ h.id = none) (now : DateTime) :
    (∃ row made, (h.writtenTo (h.created.getD now.truncate) db).unit? (h.writtenUnit db) = some row ∧
        ofRow row = .ok made ∧ h.correlation = made.correlation ∧ h.name = made.name ∧
        h.status = made.status ∧ some (h.created.getD now.truncate) = made.created) ↔
      ∀ unit, h.ref? = some unit → ∃ row made, db.unit? unit = some row ∧ ofRow row = .ok made ∧
        h.correlation = made.correlation ∧ h.status = made.status ∧ h.created = made.created ∧
        (h.renamed = true ∨ h.name = made.name) := by
  cases hid : h.id with
  | none =>
    -- a new unit: both sides hold, the row being made from the handle
    rw [unit?_writtenTo_of_new hsound.unitsIssued hid, hdated.2 hid]
    refine iff_of_true ⟨_, _, rfl, ofRow_of_text h.status now.truncate rfl rfl, rfl, rfl, rfl, ?_⟩ ?_
    · rw [DateTime.truncate_truncate]
      rfl
    · intro unit href
      rw [ref?, hid] at href
      cases href
  | some id =>
    -- a stored unit: its row keeps all but the name, which a store only writes after a rename
    obtain ⟨created, hcreated⟩ := Option.ne_none_iff_exists'.1 (fun hnone =>
      Option.some_ne_none id (hid.symm.trans (hdated.1 hnone)))
    have href : h.ref? = some (h.writtenUnit db) := ref?_of_id hid
    rw [unit?_writtenTo_of_id hid, hcreated]
    simp only [href, Option.some.injEq, forall_eq', Option.getD_some,
      Option.map_eq_some_iff]
    constructor
    · rintro ⟨_, made, ⟨row, hrow, rfl⟩, hmake, hcorrelation, hname, hstatus, htime⟩
      refine ⟨row, { made with name := row.name }, hrow, ofRow_name hmake row.name, hcorrelation,
        hstatus, htime, ?_⟩
      cases hrenamed : h.renamed with
      | true => exact Or.inl rfl
      | false =>
        rw [name_of_ofRow hmake, hrenamed] at hname
        exact Or.inr hname
    · rintro ⟨row, made, hrow, hmake, hcorrelation, hstatus, htime, hname⟩
      refine ⟨_, _, ⟨row, hrow, rfl⟩, ofRow_name hmake _, hcorrelation, ?_, hstatus, htime⟩
      show h.name = if h.renamed then h.name else row.name
      rcases hname with hrenamed | hsame
      · rw [hrenamed]
        rfl
      · split
        · rfl
        · rw [hsame, name_of_ofRow hmake]

/-- The attributes of a handle are current: those that a store does not write are the stored ones, those
that it writes have no zero with a sign, and none that is stored is missing. -/
structure AttributesCurrent (db : Database) (h : Handle) : Prop where
  kept : ∀ entry ∈ h.loaded, entry.2.needsWriting = false →
    entry.2.StoredOn db (h.writtenUnit db) ∧ entry.2.id ∉ h.detached
  written : ∀ entry ∈ h.pending, ∀ d ∈ entry.2.value.elements, ¬ d.IsNegativeZero
  complete : ∀ m ∈ db.mappings, m.unit = h.writtenUnit db →
    m.attributeId ∈ h.detached ∨ ∃ entry ∈ h.loaded, entry.2.id = m.attributeId

section

variable (hsound : db.Sound) (hknown : AttributeMap.Known db h.loaded) (hwritable : h.IsWritable db)
include hsound hknown hwritable

/-- The attributes after a store are the stored ones if they were current. -/
theorem AttributesCurrent.storedOn_iff (hcurrent : h.AttributesCurrent db) {a : Attribute} :
    (∃ entry ∈ (h.settle (h.writtenId db) created (h.writtenValues db)).loaded, entry.2 = a) ↔
      a.StoredOn (h.writtenTo created db) (h.writtenUnit db) := by
  have hsound' : (h.writtenTo created db).Sound := sound_writtenTo hsound hknown hwritable
  constructor
  · rintro ⟨entry, hmem, rfl⟩
    rcases (mem_loaded_settle hsound hknown _).1 hmem with
      ⟨hold, hneeds⟩ | ⟨old, hpending, v, rfl, -, hvalue⟩
    · obtain ⟨hbefore, hnotGone⟩ := hcurrent.kept entry hold hneeds
      refine hbefore.writtenTo hsound ?_
      rintro ⟨-, htouched⟩
      rcases List.mem_append.1 htouched with hgone | hwritten
      · exact hnotGone hgone
      · exact not_mem_ids_pending hknown hold hneeds hwritten
    · exact (storedOn_of_pending hknown hwritable hpending hvalue).2 (hcurrent.written old hpending)
  · intro ha
    rcases Attribute.storedOn_of_writtenTo hsound ha with
      ⟨hbefore, huntouched⟩ | ⟨-, hwritten⟩
    · -- it was stored before and the store left it alone, so the handle has it and did not write it
      obtain ⟨v, -, hmapped, -⟩ := hbefore.value
      rcases hcurrent.complete _ hmapped rfl with hgone | ⟨entry, hmem, hid⟩
      · exact absurd ⟨rfl, List.mem_append_left _ hgone⟩ huntouched
      · cases hneeds : entry.2.needsWriting with
        | false =>
          have heq : entry.2 = a := (hcurrent.kept entry hmem hneeds).1.eq_of_id hsound hbefore hid
          exact ⟨entry, (mem_loaded_settle hsound hknown _).2 (Or.inl ⟨hmem, hneeds⟩), heq⟩
        | true =>
          have hpending : a.id ∈ h.pending.map (·.2.id) :=
            List.mem_map.2 ⟨entry, List.mem_filter.2 ⟨hmem, hneeds⟩, hid⟩
          exact absurd ⟨rfl, List.mem_append_right _ hpending⟩ huntouched
    · -- it is one of those written
      obtain ⟨entry, hpending, hid⟩ := List.mem_map.1 hwritten
      obtain ⟨v, hlookup, -, hvalue⟩ := hasValue_of_pending created hsound hknown hpending
      have hown := (storedOn_of_pending hknown hwritable hpending hvalue).2
        (hcurrent.written entry hpending)
      exact ⟨(entry.1, entry.2.markStored v), (mem_loaded_settle hsound hknown _).2
        (Or.inr ⟨entry, hpending, v, rfl, hlookup, hvalue⟩), hown.eq_of_id hsound' ha hid⟩

/-- And only then. -/
theorem attributesCurrent_of_storedOn_settle
    (hsame : ∀ a : Attribute,
      (∃ entry ∈ (h.settle (h.writtenId db) created (h.writtenValues db)).loaded, entry.2 = a) ↔
        a.StoredOn (h.writtenTo created db) (h.writtenUnit db)) :
    h.AttributesCurrent db := by
  refine ⟨?_, ?_, ?_⟩
  · intro entry hmem hneeds
    have hafter := (hsame entry.2).1
      ⟨entry, (mem_loaded_settle hsound hknown _).2 (Or.inl ⟨hmem, hneeds⟩), rfl⟩
    rcases Attribute.storedOn_of_writtenTo hsound hafter with
      ⟨hbefore, huntouched⟩ | ⟨-, hwritten⟩
    · exact ⟨hbefore, fun hgone => huntouched ⟨rfl, List.mem_append_left _ hgone⟩⟩
    · exact absurd hwritten (not_mem_ids_pending hknown hmem hneeds)
  · intro entry hpending
    obtain ⟨v, hlookup, -, hvalue⟩ := hasValue_of_pending created hsound hknown hpending
    have hafter := (hsame (entry.2.markStored v)).1
      ⟨(entry.1, entry.2.markStored v), (mem_loaded_settle hsound hknown _).2
        (Or.inr ⟨entry, hpending, v, rfl, hlookup, hvalue⟩), rfl⟩
    exact (storedOn_of_pending hknown hwritable hpending hvalue).1 hafter
  · intro m hm hunit
    by_cases htouched : m.attributeId ∈ h.touched
    · rcases List.mem_append.1 htouched with hgone | hwritten
      · exact Or.inl hgone
      · obtain ⟨entry, hpending, hid⟩ := List.mem_map.1 hwritten
        exact Or.inr ⟨entry, (List.mem_filter.1 hpending).1, hid⟩
    · -- the store does not touch it, so the handle must have it
      obtain ⟨a, ha, hid⟩ := hsound.exists_storedOn hm
      rw [hunit] at ha
      have hafter : a.StoredOn (h.writtenTo created db) (h.writtenUnit db) :=
        ha.writtenTo hsound fun hboth => htouched (hid ▸ hboth.2)
      obtain ⟨entry, hmem, heq⟩ := (hsame a).2 hafter
      rcases (mem_loaded_settle hsound hknown _).1 hmem with
        ⟨hold, -⟩ | ⟨old, hpending, v, rfl, -, -⟩
      · exact Or.inr ⟨entry, hold, (congrArg Attribute.id heq).trans hid⟩
      · exact Or.inr ⟨old, (List.mem_filter.1 hpending).1, (congrArg Attribute.id heq).trans hid⟩

/-- The attributes after a store, as lists. -/
theorem sorted_settle_iff :
    AttributeMap.sorted (h.settle (h.writtenId db) created (h.writtenValues db)).loaded =
        Attribute.sortById ((h.writtenTo created db).attributesOf (h.writtenUnit db)) ↔
      h.AttributesCurrent db := by
  have hsound' : (h.writtenTo created db).Sound := sound_writtenTo hsound hknown hwritable
  have hids : ((h.settle (h.writtenId db) created (h.writtenValues db)).loaded.map (·.2.id)).Nodup := by
    rw [loaded_settle]
    exact (hknown.markWritten _).idsDistinct
  rw [hsound'.sorted_eq_iff hids]
  constructor
  · exact attributesCurrent_of_storedOn_settle hsound hknown hwritable
  · intro hcurrent a
    exact hcurrent.storedOn_iff hsound hknown hwritable

end

/-- **A store leaves a fresh copy** exactly when the handle was current. -/
theorem fresh_settle_iff (hsound : db.Sound) (hknown : AttributeMap.Known db h.loaded)
    (hwritable : h.IsWritable db) (hdated : h.created = none ↔ h.id = none) (now : DateTime) :
    (h.settle (h.writtenId db) (h.created.getD now.truncate) (h.writtenValues db)).Fresh
        (h.writtenTo (h.created.getD now.truncate) db) ↔ h.IsCurrent db := by
  have href : (h.settle (h.writtenId db) (h.created.getD now.truncate) (h.writtenValues db)).ref? =
      some (h.writtenUnit db) := ref?_settle h _ _ _
  have hattributes : (h.settle (h.writtenId db) (h.created.getD now.truncate)
      (h.writtenValues db)).attributes ≠ none ↔ h.attributes ≠ none := by
    unfold settle
    exact not_congr Option.map_eq_none_iff
  rw [fresh_iff href, hattributes]
  constructor
  · rintro ⟨hrow, -, -, hsame⟩
    have hrow := (row_settle_iff hsound hdated now).1 hrow
    have hparts := fun hne => (sorted_settle_iff hsound hknown hwritable).1 (hsame hne)
    -- an attribute that is there was loaded, which is all that the comparison of lists asks for
    have hloaded : ∀ entry ∈ h.loaded, h.attributes ≠ none := by
      intro entry hmem hnone
      rw [loaded, hnone] at hmem
      cases hmem
    refine ⟨?_, ?_, ?_, fun hne => (hparts hne).complete⟩
    · intro unit href
      obtain ⟨row, made, hrow, hmake, hrest⟩ := hrow unit href
      exact ⟨made, _, Database.stored?_eq_some.2 ⟨row, hrow, hmake, rfl⟩, hrest⟩
    · intro entry hmem hneeds
      rw [hsound.mem_attributesOf]
      exact (hparts (hloaded entry hmem)).kept entry hmem hneeds
    · intro entry hmem
      exact (hparts (hloaded entry (List.mem_filter.1 hmem).1)).written entry hmem
  · intro hcurrent
    refine ⟨(row_settle_iff hsound hdated now).2 ?_, rfl, rfl, ?_⟩
    · intro unit href
      obtain ⟨made, attributes, hstored, hrest⟩ := hcurrent.row unit href
      obtain ⟨row, hrow, hmake, -⟩ := Database.stored?_eq_some.1 hstored
      exact ⟨row, made, hrow, hmake, hrest⟩
    · intro hne
      refine (sorted_settle_iff hsound hknown hwritable).2
        ⟨?_, hcurrent.written, hcurrent.complete hne⟩
      intro entry hmem hneeds
      rw [← hsound.mem_attributesOf]
      exact hcurrent.kept entry hmem hneeds

/-! ## Changes of status -/

/-- A handle is fresh but for its status. -/
def FreshButStatus (db : Database) (h : Handle) : Prop :=
  ∃ status, ({ h with status } : Handle).Fresh db

/-- **A change of status leaves a fresh copy** exactly when all but the status was fresh before. -/
theorem fresh_withStatus_iff (hsound : db.Sound) (hreadable : db.Readable) (href : h.ref? = some unit)
    (status : Status) :
    ({ h with status } : Handle).Fresh (db.withStatus unit status) ↔ h.FreshButStatus db := by
  have hattributes : Attribute.sortById ((db.withStatus unit status).attributesOf unit) =
      Attribute.sortById (db.attributesOf unit) :=
    Database.sortById_attributesOf_congr hsound (hsound.withStatus unit status) fun _ =>
      Attribute.storedOn_extend hsound List.prefix_rfl rfl rfl
  have hunit := Database.unit?_withStatus db unit unit status
  simp only [if_true] at hunit
  have href : ∀ current, ({ h with status := current } : Handle).ref? = some unit := fun _ => href
  constructor
  · intro hfresh
    obtain ⟨⟨row, made, hrow, hmake, hcorrelation, hname, -, hcreated⟩, hrenamed, hdetached, hsame⟩ :=
      (fresh_iff (href status)).1 hfresh
    rw [hunit] at hrow
    obtain ⟨old, hold, rfl⟩ := Option.map_eq_some_iff.1 hrow
    -- the row was readable with its old status too, which is the status to put back
    obtain ⟨before, hbefore⟩ := hreadable old (Database.unit?_eq_some hold).1
    cases hmake.symm.trans (ofRow_status hbefore status)
    refine ⟨before.status, (fresh_iff (href before.status)).2 ⟨⟨old, before, hold, hbefore, hcorrelation,
      hname, rfl, hcreated⟩, hrenamed, hdetached, ?_⟩⟩
    rw [← hattributes]
    exact hsame
  · rintro ⟨current, hfresh⟩
    obtain ⟨⟨row, made, hrow, hmake, hcorrelation, hname, -, hcreated⟩, hrenamed, hdetached, hsame⟩ :=
      (fresh_iff (href current)).1 hfresh
    refine (fresh_iff (href status)).2 ⟨⟨_, _, ?_, ofRow_status hmake status, hcorrelation, hname,
      rfl, hcreated⟩, hrenamed, hdetached, ?_⟩
    · rw [hunit, hrow]
      rfl
    · rw [hattributes]
      exact hsame

end Handle

end MetadataStore
