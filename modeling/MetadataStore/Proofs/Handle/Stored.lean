import MetadataStore.Proofs.Handle.Known
import MetadataStore.Proofs.Handle.Writing

/-!
# `Proofs.Handle.Stored` — the values of a unit after a store

Of values that are told apart by their numbers: those that go take nothing else with them, and those that
are put take the place of what their attributes had. The value of every other attribute, on the unit and on
all others, is what it was.

## Contents
- `Database.HasValue`: an attribute has on a unit a value with certain elements.
- `Sound.dropValues`, `Sound.putValues`, and the mappings and rows after them.
- `Database.ValuesNumbered`, all that is needed to tell values apart.
- `ValuesNumbered.putValues_of_ne`, `hasValue_putValues`: values of others, and the values that were put.
- `Handle.sound_writtenTo`, `hasValue_of_pending`, `keeps_untouched`, `mem_mappings_writtenTo`,
  `not_mapped_of_detached`: a whole store.
-/

namespace MetadataStore

namespace Database

/-- An attribute has on a unit the value of a number, with the rows of certain elements. -/
def HasValue (db : Database) (unit : UnitRef) (attributeId valueId : Int) (kind : Kind)
    (ds : List Datum) : Prop :=
  ⟨unit, attributeId, valueId⟩ ∈ db.mappings ∧ db.rowsUnder valueId = writtenFrom kind valueId 0 ds

variable {db : Database} {unit : UnitRef}

/-! ## Numbers of values -/

/-- No two values have one number, and all numbers were given out. -/
structure ValuesNumbered (db : Database) : Prop where
  distinct : (db.mappings.map (·.valueId)).Nodup
  issued : ∀ m ∈ db.mappings, m.valueId ≤ db.lastValue
  elements : db.ValuesIssued

theorem Sound.valuesNumbered (h : db.Sound) : db.ValuesNumbered :=
  ⟨h.valuesDistinct, h.valuesIssued, h.issued⟩

theorem ValuesNumbered.dropValue (h : db.ValuesNumbered) (unit : UnitRef) (attributeId : Int) :
    (db.dropValue unit attributeId).ValuesNumbered where
  distinct := h.distinct.sublist (List.filter_sublist.map _)
  issued := fun m hm => h.issued m (mem_mappings_dropValue.1 hm).1
  elements := h.elements.dropValue

theorem ValuesNumbered.putValue (h : db.ValuesNumbered) (unit : UnitRef) (attributeId : Int)
    (kind : Kind) (ds : List Datum) : (db.putValue unit attributeId kind ds).ValuesNumbered where
  distinct := by
    have hkept := h.dropValue unit attributeId
    refine nodup_map_append_single _ hkept.distinct fun m hm heq => ?_
    have hissued : m.valueId ≤ db.lastValue := hkept.issued m hm
    rw [show m.valueId = db.lastValue + 1 from heq] at hissued
    omega
  issued := by
    intro m hm
    show m.valueId ≤ db.lastValue + 1
    rcases mem_mappings_putValue.1 hm with ⟨hold, -⟩ | rfl
    · have := h.issued m hold
      omega
    · exact Int.le_refl _
  elements := h.elements.putValue

/-! ## Values that go -/

theorem mem_mappings_dropValues {ids : List Int} {m : Mapping} :
    m ∈ (db.dropValues unit ids).mappings ↔
      m ∈ db.mappings ∧ ¬(m.unit = unit ∧ m.attributeId ∈ ids) := by
  induction ids generalizing db with
  | nil => simp
  | cons id ids ih =>
    rw [dropValues_cons, ih, mem_mappings_dropValue, List.mem_cons]
    constructor
    · rintro ⟨⟨hmem, hne⟩, hrest⟩
      refine ⟨hmem, ?_⟩
      rintro ⟨hunit, hid | hid⟩
      · exact hne ⟨hunit, hid⟩
      · exact hrest ⟨hunit, hid⟩
    · rintro ⟨hmem, hne⟩
      exact ⟨⟨hmem, fun hc => hne ⟨hc.1, Or.inl hc.2⟩⟩, fun hc => hne ⟨hc.1, Or.inr hc.2⟩⟩

theorem Sound.dropValues (h : db.Sound) (unit : UnitRef) (ids : List Int) :
    (db.dropValues unit ids).Sound := by
  induction ids generalizing db with
  | nil => exact h
  | cons id ids ih => exact ih (h.dropValue unit id)

theorem ValuesNumbered.dropValues (h : db.ValuesNumbered) (unit : UnitRef) (ids : List Int) :
    (db.dropValues unit ids).ValuesNumbered := by
  induction ids generalizing db with
  | nil => exact h
  | cons id ids ih => exact ih (h.dropValue unit id)

/-- The rows of a value that stays do not change when another goes. -/
theorem ValuesNumbered.rowsUnder_dropValue (h : db.ValuesNumbered) {attributeId : Int} {m : Mapping}
    (hm : m ∈ db.mappings) (hne : ¬(m.unit = unit ∧ m.attributeId = attributeId)) :
    (db.dropValue unit attributeId).rowsUnder m.valueId = db.rowsUnder m.valueId := by
  refine Database.rowsUnder_dropValue ?_
  intro n hn hunit hid heq
  rw [eq_of_nodup Mapping.valueId h.distinct hn hm heq] at hunit hid
  exact hne ⟨hunit, hid⟩

theorem ValuesNumbered.rowsUnder_dropValues (h : db.ValuesNumbered) {ids : List Int} {m : Mapping}
    (hm : m ∈ db.mappings) (hne : ¬(m.unit = unit ∧ m.attributeId ∈ ids)) :
    (db.dropValues unit ids).rowsUnder m.valueId = db.rowsUnder m.valueId := by
  induction ids generalizing db with
  | nil => rfl
  | cons id ids ih =>
    have hfirst : ¬(m.unit = unit ∧ m.attributeId = id) := fun hc =>
      hne ⟨hc.1, hc.2 ▸ List.mem_cons_self⟩
    have hrest : ¬(m.unit = unit ∧ m.attributeId ∈ ids) := fun hc =>
      hne ⟨hc.1, List.mem_cons_of_mem id hc.2⟩
    rw [dropValues_cons, ih (h.dropValue unit id) (mem_mappings_dropValue.2 ⟨hm, hfirst⟩) hrest]
    exact h.rowsUnder_dropValue hm hfirst

/-! ## Values that are put -/

/-- Attributes that can be put on a unit: it is stored, and they are catalogued and can be written. -/
structure CanPut (db : Database) (unit : UnitRef) (entries : AttributeMap) : Prop where
  stored : entries ≠ [] → db.hasUnit unit = true
  writable : ∀ entry ∈ entries, entry.2.IsWritable
  catalogued : ∀ entry ∈ entries, entry.2.Catalogued db

variable {entries : AttributeMap} {entry : String × Attribute}

theorem CanPut.head (h : db.CanPut unit (entry :: entries)) (hsound : db.Sound) :
    (db.putValue unit entry.2.id entry.2.kind entry.2.value.elements).Sound := by
  have hcatalogued := h.catalogued entry List.mem_cons_self
  obtain ⟨info, hinfo, -⟩ := id hcatalogued
  exact hsound.putValue (h.stored (List.cons_ne_nil _ _)) hinfo
    (hcatalogued.wellWritten hinfo (h.writable entry List.mem_cons_self) _)

theorem CanPut.tail (h : db.CanPut unit (entry :: entries)) :
    (db.putValue unit entry.2.id entry.2.kind entry.2.value.elements).CanPut unit entries where
  stored := fun _ => h.stored (List.cons_ne_nil _ _)
  writable := fun other hmem => h.writable other (List.mem_cons_of_mem entry hmem)
  catalogued := fun other hmem =>
    (h.catalogued other (List.mem_cons_of_mem entry hmem)).extend (List.prefix_rfl)

theorem Sound.putValues (h : db.Sound) (hput : db.CanPut unit entries) :
    (db.putValues unit entries).Sound := by
  induction entries generalizing db with
  | nil => exact h
  | cons entry rest ih => exact ih (hput.head h) hput.tail

theorem ValuesNumbered.putValues (h : db.ValuesNumbered) (unit : UnitRef) (entries : AttributeMap) :
    (db.putValues unit entries).ValuesNumbered := by
  induction entries generalizing db with
  | nil => exact h
  | cons entry rest ih => exact ih (h.putValue unit entry.2.id entry.2.kind entry.2.value.elements)

/-- The values of other attributes and other units are not touched. -/
theorem ValuesNumbered.putValues_of_ne (h : db.ValuesNumbered) {m : Mapping} (hm : m ∈ db.mappings)
    (hne : ¬(m.unit = unit ∧ m.attributeId ∈ entries.map (·.2.id))) :
    m ∈ (db.putValues unit entries).mappings ∧
      (db.putValues unit entries).rowsUnder m.valueId = db.rowsUnder m.valueId := by
  induction entries generalizing db with
  | nil => exact ⟨hm, rfl⟩
  | cons entry rest ih =>
    have hfirst : ¬(m.unit = unit ∧ m.attributeId = entry.2.id) := fun hc =>
      hne ⟨hc.1, hc.2 ▸ List.mem_cons_self⟩
    have hrest : ¬(m.unit = unit ∧ m.attributeId ∈ rest.map (·.2.id)) := fun hc =>
      hne ⟨hc.1, List.mem_cons_of_mem _ hc.2⟩
    obtain ⟨hmem, hrows⟩ := ih (h.putValue unit entry.2.id entry.2.kind entry.2.value.elements)
      (mem_mappings_putValue.2 (Or.inl ⟨hm, hfirst⟩)) hrest
    refine ⟨hmem, hrows.trans ?_⟩
    have := h.issued m hm
    rw [Database.rowsUnder_putValue (by omega), h.rowsUnder_dropValue hm hfirst]

/-- A mapping after values were put is an old one of another attribute or unit, or one of theirs. -/
theorem mem_mappings_putValues {m : Mapping} (hm : m ∈ (db.putValues unit entries).mappings) :
    (m ∈ db.mappings ∧ ¬(m.unit = unit ∧ m.attributeId ∈ entries.map (·.2.id))) ∨
      (m.unit = unit ∧ m.attributeId ∈ entries.map (·.2.id)) := by
  by_cases htheirs : m.unit = unit ∧ m.attributeId ∈ entries.map (·.2.id)
  · exact Or.inr htheirs
  · refine Or.inl ⟨?_, htheirs⟩
    induction entries generalizing db with
    | nil => exact hm
    | cons entry rest ih =>
      have hrest : ¬(m.unit = unit ∧ m.attributeId ∈ rest.map (·.2.id)) := fun hc =>
        htheirs ⟨hc.1, List.mem_cons_of_mem _ hc.2⟩
      rcases mem_mappings_putValue.1 (ih hm hrest) with ⟨hold, -⟩ | rfl
      · exact hold
      · exact absurd ⟨rfl, List.mem_cons_self⟩ htheirs

/-- **Values that were put are there**: under the number that their key got, which is a new one, with
the rows of their elements. -/
theorem ValuesNumbered.hasValue_putValues (h : db.ValuesNumbered) (hkeys : (entries.map (·.1)).Nodup)
    (hids : (entries.map (·.2.id)).Nodup) (hmem : entry ∈ entries) :
    ∃ v, (Handle.numberedFrom db.lastValue entries).lookup entry.1 = some v ∧ db.lastValue < v ∧
      (db.putValues unit entries).HasValue unit entry.2.id v entry.2.kind
        entry.2.value.elements := by
  induction entries generalizing db with
  | nil => cases hmem
  | cons first rest ih =>
    have hnext := h.putValue unit first.2.id first.2.kind first.2.value.elements
    rw [List.map_cons, List.nodup_cons] at hkeys hids
    rcases List.mem_cons.1 hmem with rfl | hrest
    · refine ⟨db.lastValue + 1, ?_, Int.lt_succ _, ?_⟩
      · rw [Handle.numberedFrom, Keyed.lookup_cons_eq, if_pos rfl]
      · -- the values put after it are those of other attributes
        have hown : (⟨unit, entry.2.id, db.lastValue + 1⟩ : Mapping) ∈
            (db.putValue unit entry.2.id entry.2.kind entry.2.value.elements).mappings :=
          mem_mappings_putValue.2 (Or.inr rfl)
        obtain ⟨hkept, hrows⟩ := hnext.putValues_of_ne hown fun hc => hids.1 hc.2
        exact ⟨hkept, hrows.trans h.elements.rowsUnder_putValue⟩
    · obtain ⟨v, hlookup, hlt, hvalue⟩ := ih hnext hkeys.2 hids.2 hrest
      refine ⟨v, ?_, ?_, hvalue⟩
      · have hne : entry.1 ≠ first.1 := fun heq => hkeys.1 (heq ▸ List.mem_map_of_mem hrest)
        rw [Handle.numberedFrom, Keyed.lookup_cons_eq, if_neg hne]
        exact hlookup
      · have hlast : (db.putValue unit first.2.id first.2.kind first.2.value.elements).lastValue =
            db.lastValue + 1 := rfl
        omega

end Database

/-! ## A whole store -/

namespace Handle

variable {h : Handle} {created : DateTime} {db : Database}

theorem sound_withRow (hsound : db.Sound) : (h.withRow created db).Sound := by
  unfold withRow
  split
  · split
    · refine hsound.updateUnits fun row _ => ?_
      split <;> rfl
    · exact hsound
  · exact hsound.insertUnit _ rfl

theorem valuesNumbered_withRow (hnumbered : db.ValuesNumbered) :
    (h.withRow created db).ValuesNumbered where
  distinct := mappings_withRow h created db ▸ hnumbered.distinct
  issued := by
    rw [mappings_withRow, lastValue_withRow]
    exact hnumbered.issued
  elements := ValuesIssued_withRow h created hnumbered.elements

theorem valuesNumbered_beforePut (h : Handle) (created : DateTime) (hnumbered : db.ValuesNumbered) :
    (h.beforePut created db).ValuesNumbered :=
  (valuesNumbered_withRow hnumbered).dropValues _ _

theorem known_pending (hknown : AttributeMap.Known db h.loaded) : AttributeMap.Known db h.pending :=
  hknown.sublist List.filter_sublist

theorem sound_beforePut (h : Handle) (created : DateTime) (hsound : db.Sound) :
    (h.beforePut created db).Sound :=
  (sound_withRow hsound).dropValues _ _

theorem canPut_pending (hknown : AttributeMap.Known db h.loaded) (hwritable : h.IsWritable db) :
    (h.beforePut created db).CanPut (h.writtenUnit db) h.pending where
  stored := by
    intro hpending
    rw [hasUnit_beforePut]
    cases hid : h.id with
    | none => rfl
    | some n => simpa [writtenUnit, writtenId, hid] using hwritable.stored hpending n hid
  writable := fun entry hmem => (hwritable.attributes entry hmem).1
  catalogued := fun entry hmem =>
    ((known_pending hknown).catalogued entry hmem).extend
      (attributes_beforePut ▸ List.prefix_rfl)

/-- A store keeps the state sound. -/
theorem sound_writtenTo (hsound : db.Sound) (hknown : AttributeMap.Known db h.loaded)
    (hwritable : h.IsWritable db) : (h.writtenTo created db).Sound :=
  (sound_beforePut h created hsound).putValues (canPut_pending hknown hwritable)

theorem units_writtenTo : (h.writtenTo created db).units = (h.withRow created db).units :=
  (Database.units_putValues _ _ _).trans (Database.units_dropValues _ _ _)

theorem attributes_writtenTo : (h.writtenTo created db).attributes = db.attributes :=
  (Database.attributes_putValues _ _ _).trans attributes_beforePut

theorem attributes_prefix_writtenTo : db.attributes <+: (h.writtenTo created db).attributes :=
  attributes_writtenTo ▸ List.prefix_rfl

/-- **Every pending attribute is written**, if no two are one: it has a value under a new number, with its
elements. -/
theorem hasValue_of_distinct (created : DateTime) (hnumbered : db.ValuesNumbered)
    (hkeys : (h.pending.map (·.1)).Nodup) (hids : (h.pending.map (·.2.id)).Nodup)
    {entry : String × Attribute} (hmem : entry ∈ h.pending) :
    ∃ v, (h.writtenValues db).lookup entry.1 = some v ∧ db.lastValue < v ∧
      (h.writtenTo created db).HasValue (h.writtenUnit db) entry.2.id v entry.2.kind
        entry.2.value.elements := by
  rw [writtenValues, ← lastValue_beforePut]
  exact (valuesNumbered_beforePut h created hnumbered).hasValue_putValues hkeys hids hmem

theorem hasValue_of_pending (created : DateTime) (hsound : db.Sound)
    (hknown : AttributeMap.Known db h.loaded) {entry : String × Attribute} (hmem : entry ∈ h.pending) :
    ∃ v, (h.writtenValues db).lookup entry.1 = some v ∧ db.lastValue < v ∧
      (h.writtenTo created db).HasValue (h.writtenUnit db) entry.2.id v entry.2.kind
        entry.2.value.elements :=
  hasValue_of_distinct created hsound.valuesNumbered (known_pending hknown).keysDistinct
    (known_pending hknown).idsDistinct hmem

theorem loaded_settle (h : Handle) (id : Int) (created : DateTime) (written : List (String × Int)) :
    (h.settle id created written).loaded = markWritten h.loaded written := by
  unfold loaded settle
  cases h.attributes <;> rfl

/-- The numbers of the attributes whose values a store takes off or replaces. -/
def touched (h : Handle) : List Int :=
  h.detached ++ h.pending.map (·.2.id)

/-- Values that a store neither takes off nor replaces are what they were. -/
theorem keeps_untouched (created : DateTime) (hnumbered : db.ValuesNumbered) {m : Mapping}
    (hm : m ∈ db.mappings) (hne : ¬(m.unit = h.writtenUnit db ∧ m.attributeId ∈ h.touched)) :
    m ∈ (h.writtenTo created db).mappings ∧
      (h.writtenTo created db).rowsUnder m.valueId = db.rowsUnder m.valueId := by
  have hdetached : ¬(m.unit = h.writtenUnit db ∧ m.attributeId ∈ h.detached) := fun hc =>
    hne ⟨hc.1, List.mem_append_left _ hc.2⟩
  have hpending : ¬(m.unit = h.writtenUnit db ∧ m.attributeId ∈ h.pending.map (·.2.id)) := fun hc =>
    hne ⟨hc.1, List.mem_append_right _ hc.2⟩
  have hrow : m ∈ (h.withRow created db).mappings := by rwa [mappings_withRow]
  obtain ⟨hkept, hrows⟩ := (valuesNumbered_beforePut h created hnumbered).putValues_of_ne
    (Database.mem_mappings_dropValues.2 ⟨hrow, hdetached⟩) hpending
  refine ⟨hkept, hrows.trans ?_⟩
  rw [beforePut, (valuesNumbered_withRow hnumbered).rowsUnder_dropValues hrow hdetached,
    Database.rowsUnder, elements_withRow]
  rfl

/-- A mapping after a store is an old one that the store did not touch, or that of a pending
attribute. -/
theorem mem_mappings_writtenTo {m : Mapping} (hm : m ∈ (h.writtenTo created db).mappings) :
    (m ∈ db.mappings ∧ ¬(m.unit = h.writtenUnit db ∧ m.attributeId ∈ h.touched)) ∨
      (m.unit = h.writtenUnit db ∧ m.attributeId ∈ h.pending.map (·.2.id)) := by
  rcases Database.mem_mappings_putValues hm with ⟨hbefore, hpending⟩ | htheirs
  · obtain ⟨hrow, hdetached⟩ := Database.mem_mappings_dropValues.1 hbefore
    rw [mappings_withRow] at hrow
    refine Or.inl ⟨hrow, ?_⟩
    rintro ⟨hunit, htouched⟩
    rcases List.mem_append.1 htouched with hid | hid
    · exact hdetached ⟨hunit, hid⟩
    · exact hpending ⟨hunit, hid⟩
  · exact Or.inr htheirs

/-- What was taken off, and is not written again, has no mapping after a store. -/
theorem not_mapped_of_detached {id : Int} (hid : id ∈ h.detached)
    (hnot : id ∉ h.pending.map (·.2.id)) {m : Mapping} (hm : m ∈ (h.writtenTo created db).mappings) :
    ¬(m.unit = h.writtenUnit db ∧ m.attributeId = id) := by
  rintro ⟨hunit, rfl⟩
  rcases mem_mappings_writtenTo hm with ⟨-, huntouched⟩ | ⟨-, hwritten⟩
  · exact huntouched ⟨hunit, List.mem_append_left _ hid⟩
  · exact hnot hwritten

end Handle

end MetadataStore
