import MetadataStore.Proofs.Handle.Changes

/-!
# `Proofs.Handle.Tracking` — a handle that keeps up with its unit

While a unit is edited and stored through one handle, the handle knows what storage has: each loaded
attribute that is not new is the stored one with other elements at most, and each stored attribute is
loaded or was taken off. Edits keep this as long as they change nothing but elements, and a store
renews it, the values written being those that a fetch would give.

## Contents
- `Attribute.EditOf`, an attribute with other elements at most; `AttributeStep.IsEdit`.
- `Attribute.Continues`, what is left of a stored attribute after edits.
- `Attribute.storedOn_markStored`: what was written is as storage has it, negative zeros apart.
- `Handle.Tracks`; `Tracks.change`: edits keep it.
-/

namespace MetadataStore

namespace Attribute

/-- One attribute is the other with other elements at most: it has the same header, and its elements
count as changed with respect to the same ones. -/
structure EditOf (was a : Attribute) : Prop where
  id : a.id = was.id
  name : a.name = was.name
  scalar : a.scalar = was.scalar
  valueId : a.valueId = was.valueId
  kind : a.kind = was.kind
  baseline : a.value.baseline = was.value.baseline
  isNew : a.value.isNew = was.value.isNew

variable {was a b : Attribute} {db : Database} {unit : UnitRef}

theorem EditOf.isNew_eq (h : was.EditOf a) : a.isNew = was.isNew := by
  unfold Attribute.isNew
  rw [h.valueId, h.isNew]

end Attribute

/-- A step that changes elements and nothing else. -/
def AttributeStep.IsEdit : AttributeStep → Prop
  | .push _ => True
  | .copy => False
  | .stored _ => False
  | .edit _ _ => True

namespace Attribute

variable {was a b : Attribute} {db : Database} {unit : UnitRef}

/-- An attribute has the header of a stored one, and its elements count as changed with respect to those
that were written, which are the stored ones but for what storage loses. -/
structure Continues (was a : Attribute) : Prop where
  id : a.id = was.id
  name : a.name = was.name
  scalar : a.scalar = was.scalar
  valueId : a.valueId = was.valueId
  kind : a.kind = was.kind
  isNew : a.value.isNew = was.value.isNew
  written : ∃ ds : List Datum, ds.map Datum.settled = ds ∧
    ds.map Datum.readBack = was.value.elements ∧ a.value.baseline = Digest.ofElements ds

theorem map_settled_of_readBack {ds : List Datum} (h : ∀ d ∈ ds, d.readBack = d) :
    ds.map Datum.settled = ds := by
  conv_rhs => rw [← List.map_id ds]
  refine List.map_congr_left fun d hd => ?_
  rw [← h d hd, Datum.settled_readBack, id_eq]

theorem StoredOn.continues (h : a.StoredOn db unit) : a.Continues a :=
  ⟨rfl, rfl, rfl, rfl, rfl, rfl, a.value.elements, map_settled_of_readBack h.readBack,
    map_readBack_eq h.readBack, h.baseline⟩

theorem Continues.edit (h : was.Continues a) (hedit : a.EditOf b) : was.Continues b where
  id := hedit.id.trans h.id
  name := hedit.name.trans h.name
  scalar := hedit.scalar.trans h.scalar
  valueId := hedit.valueId.trans h.valueId
  kind := hedit.kind.trans h.kind
  isNew := hedit.isNew.trans h.isNew
  written := by
    obtain ⟨ds, hsettled, hread, hbaseline⟩ := h.written
    exact ⟨ds, hsettled, hread, hedit.baseline.trans hbaseline⟩

theorem editOf_take {step : AttributeStep} (hstep : step.IsEdit) (h : a.take step = .ok b) :
    a.EditOf b := by
  rcases take_cases h with ⟨rfl, -⟩ | ⟨valueId, rfl, -⟩ | ⟨requested, edit, value, hedit, rfl⟩
  · cases hstep
  · cases hstep
  · obtain ⟨-, hkind, hbaseline, hnew, -⟩ := Value.edit?_eq_some hedit
    exact ⟨rfl, rfl, rfl, rfl, hkind, hbaseline, hnew⟩

/-! ## What was written -/

/-- **An attribute that was written is as storage has it** exactly when no element is a zero with a
sign, the sign of which storage loses. -/
theorem storedOn_markStored (hcatalogued : a.Catalogued db) (hwritable : a.IsWritable) {v : Int}
    (hvalue : db.HasValue unit a.id v a.kind a.value.elements) :
    (a.markStored v).StoredOn db unit ↔ ∀ d ∈ a.value.elements, ¬ d.IsNegativeZero := by
  have helements : (a.markStored v).value.elements = a.value.elements.map Datum.settled := rfl
  constructor
  · intro h d hd
    have hread := h.readBack d.settled (by
      rw [helements]
      exact List.mem_map_of_mem hd)
    rw [Datum.readBack_settled] at hread
    exact (Datum.readBack_eq_settled_iff d).1 hread
  · intro hzero
    refine ⟨hcatalogued.markStored v, ⟨v, rfl, hvalue.1, ?_⟩, rfl, rfl, ?_, ?_⟩
    · rw [hvalue.2, helements, writtenFrom_map Datum.toCell_settled]
      rfl
    · intro d hd
      rw [helements] at hd
      obtain ⟨old, hold, rfl⟩ := List.mem_map.1 hd
      unfold Datum.IsStorable
      rw [Datum.toCell_settled]
      exact hwritable.storable old hold
    · intro d hd
      rw [helements] at hd
      obtain ⟨old, hold, rfl⟩ := List.mem_map.1 hd
      rw [Datum.readBack_settled]
      exact (Datum.readBack_eq_settled_iff old).2 (hzero old hold)

/-- With or without such zeros, storage has an attribute that it continues. -/
theorem exists_continues_markStored (hcatalogued : a.Catalogued db) (hwritable : a.IsWritable)
    {v : Int} (hvalue : db.HasValue unit a.id v a.kind a.value.elements) :
    ∃ was : Attribute, was.StoredOn db unit ∧ was.Continues (a.markStored v) := by
  have htyped : ∀ d ∈ a.value.elements.map Datum.readBack, d.kind = a.kind := by
    intro d hd
    obtain ⟨old, hold, rfl⟩ := List.mem_map.1 hd
    rw [Datum.kind_readBack]
    exact a.value.typed old hold
  refine ⟨{ a with
    valueId := some v
    value := .ofElements a.kind (a.value.elements.map Datum.readBack) false htyped },
    storedOn_of_readBack (hcatalogued.markStored v) rfl hvalue hwritable.storable htyped
      rfl, ?_⟩
  refine ⟨rfl, rfl, rfl, rfl, rfl, rfl, a.value.elements.map Datum.settled, ?_, ?_, rfl⟩
  · rw [List.map_map]
    exact List.map_congr_left fun d _ => Datum.settled_settled d
  · show _ = (a.value.elements.map Datum.readBack).map Datum.settled
    rw [List.map_map, List.map_map]
    refine List.map_congr_left fun d _ => ?_
    simp only [Function.comp, Datum.readBack_settled, Datum.settled_readBack]

end Attribute

namespace AttributeMap

variable {attributes : AttributeMap} {key : String} {a : Attribute}

theorem mem_put_self (attributes : AttributeMap) (key : String) (a : Attribute) :
    (key, a) ∈ put attributes key a :=
  Keyed.mem_of_lookup (by
    show get? (put attributes key a) key = some a
    rw [get?_put, if_pos rfl])

theorem mem_put_of_ne {entry : String × Attribute} (hmem : entry ∈ attributes)
    (hne : entry.1 ≠ key) : entry ∈ put attributes key a := by
  unfold put
  split
  · refine List.mem_map.2 ⟨entry, hmem, ?_⟩
    rw [if_neg]
    simpa using hne
  · exact List.mem_append_left _ hmem

theorem mem_erase {entry : String × Attribute} :
    entry ∈ erase attributes key ↔ entry ∈ attributes ∧ entry.1 ≠ key := by
  simp only [erase, List.mem_filter, bne_iff_ne]

end AttributeMap

/-! ## Keeping up -/

namespace Handle

/-- The handle knows what storage has of its unit: a loaded attribute that is not new continues the stored
one, and is not to be taken off; and each stored attribute is loaded, or to be taken off. -/
structure Tracks (db : Database) (h : Handle) : Prop where
  known : AttributeMap.Known db h.loaded
  stored : ∀ unit, h.ref? = some unit → db.hasUnit unit = true
  unloaded : h.attributes = none → h.detached = []
  entries : ∀ entry ∈ h.loaded, entry.2.isNew = false → entry.2.id ∉ h.detached ∧
    ∃ (unit : UnitRef) (was : Attribute),
      h.ref? = some unit ∧ was.StoredOn db unit ∧ was.Continues entry.2
  complete : h.attributes ≠ none → ∀ unit, h.ref? = some unit →
    ∀ m ∈ db.mappings, m.unit = unit → m.attributeId ∈ h.detached ∨
      ∃ entry ∈ h.loaded, entry.2.id = m.attributeId ∧ entry.2.isNew = false

variable {db : Database} {h h' : Handle} {created : DateTime}

/-- A new unit has nothing in storage. -/
theorem Tracks.create (db : Database) (tenant : Int) (name : Option String) (correlation : String) :
    (Handle.create tenant name correlation).Tracks db where
  known := .nil
  stored := fun _ href => by cases href
  unloaded := fun _ => rfl
  entries := fun _ hmem => by cases hmem
  complete := fun _ _ href => by cases href

/-- Of a unit just loaded nothing is changed. -/
theorem Tracks.ofRow {row : UnitRow} (hmem : row ∈ db.units) (hmake : ofRow row = .ok h) :
    h.Tracks db := by
  obtain ⟨created, status, -, -, rfl⟩ := ofRow_eq_ok.1 hmake
  refine ⟨.nil, ?_, fun _ => rfl, ?_, fun hne => absurd rfl hne⟩
  · intro unit href
    cases href
    exact Database.hasUnit_of_mem hmem
  · exact fun _ hmem => (List.not_mem_nil hmem).elim

theorem Tracks.fetched (hsound : db.Sound) (ht : h.Tracks db) : (h.fetched db).Tracks db := by
  cases hattributes : h.attributes with
  | some attributes =>
    rw [fetched_of_loaded hattributes]
    exact ht
  | none =>
    -- nothing could be taken off what was never loaded
    have hdetached := ht.unloaded hattributes
    cases href : h.ref? with
    | none =>
      rw [fetched_of_new hattributes href]
      refine ⟨.nil, ht.stored, nofun, ?_, ?_⟩
      · exact fun _ hmem => (List.not_mem_nil hmem).elim
      · intro _ unit hunit
        have hunit : h.ref? = some unit := hunit
        rw [href] at hunit
        cases hunit
    | some unit =>
      rw [fetched_of_unloaded hattributes href]
      refine ⟨hsound.known_attributesOf unit, ht.stored, nofun, ?_, ?_⟩
      · intro entry hmem _
        have hown := (hsound.mem_ofAttributes.1 hmem).2
        refine ⟨?_, unit, entry.2, href, hown, hown.continues⟩
        show entry.2.id ∉ h.detached
        rw [hdetached]
        exact List.not_mem_nil
      · intro _ unit' hunit m hm hmunit
        have hunit : h.ref? = some unit' := hunit
        rw [href] at hunit
        cases hunit
        obtain ⟨a, ha, hid⟩ := hsound.exists_storedOn hm
        rw [hmunit] at ha
        exact Or.inr ⟨(Text.lower a.name, a), hsound.mem_ofAttributes.2 ⟨rfl, ha⟩, hid,
          (Attribute.needsWriting_eq_false_iff.1 ha.needsWriting).1⟩

section

variable {attributes : AttributeMap} {key : String} {a b : Attribute}

/-- An attribute that storage does not know is no concern. -/
theorem Tracks.attach (ht : h.Tracks db) (hloaded : h.attributes = some attributes)
    (hfree : AttributeMap.get? attributes (Text.lower a.name) = none) (hcatalogued : a.Catalogued db)
    (hnew : a.valueId = none) :
    ({ h with attributes := some (AttributeMap.put attributes (Text.lower a.name) a) } :
      Handle).Tracks db := by
  obtain ⟨hknown, hstored, -, hentries, hcomplete⟩ := ht
  rw [loaded_of_attributes hloaded] at hknown hentries hcomplete
  have hisNew : a.isNew = true := by
    unfold Attribute.isNew
    rw [hnew]
    rfl
  refine ⟨hknown.put rfl hcatalogued, hstored, nofun, ?_, ?_⟩
  · intro entry hmem hentry
    rcases AttributeMap.mem_put hmem with rfl | ⟨hold, -⟩
    · rw [hisNew] at hentry
      cases hentry
    · exact hentries entry hold hentry
  · intro _ unit hunit m hm hmunit
    rcases hcomplete (by simp [hloaded]) unit hunit m hm hmunit with hgone | ⟨entry, hmem, hid, hentry⟩
    · exact Or.inl hgone
    · -- the key was free, so no stored attribute is pushed out
      have hne : entry.1 ≠ Text.lower a.name := Keyed.lookup_eq_none.1 hfree entry hmem
      exact Or.inr ⟨entry, AttributeMap.mem_put_of_ne hmem hne, hid, hentry⟩

/-- An attribute whose elements change stays the stored one with other elements. -/
theorem Tracks.step {step : AttributeStep} (ht : h.Tracks db) (hloaded : h.attributes = some attributes)
    (hfound : AttributeMap.get? attributes key = some a) (hedit : step.IsEdit)
    (htake : a.take step = .ok b) :
    ({ h with attributes := some (AttributeMap.put attributes key b) } : Handle).Tracks db := by
  obtain ⟨hknown, hstored, -, hentries, hcomplete⟩ := ht
  rw [loaded_of_attributes hloaded] at hknown hentries hcomplete
  have hmemA : (key, a) ∈ attributes := hknown.get?_eq_some_iff.1 hfound
  have hof := Attribute.editOf_take hedit htake
  refine ⟨hknown.put ?_ ((hknown.catalogued _ hmemA).take htake), hstored,
    nofun, ?_, ?_⟩
  · rw [hof.name]
    exact hknown.keyed _ hmemA
  · intro entry hmem hentry
    rcases AttributeMap.mem_put hmem with rfl | ⟨hold, -⟩
    · obtain ⟨hkept, unit, was, href, hwas, hbefore⟩ :=
        hentries _ hmemA (hof.isNew_eq.symm.trans hentry)
      refine ⟨?_, unit, was, href, hwas, hbefore.edit hof⟩
      show b.id ∉ h.detached
      rw [hof.id]
      exact hkept
    · exact hentries entry hold hentry
  · intro _ unit hunit m hm hmunit
    rcases hcomplete (by simp [hloaded]) unit hunit m hm hmunit with hgone | ⟨entry, hmem, hid, hentry⟩
    · exact Or.inl hgone
    · -- the attribute that took the step stands for the stored one still
      by_cases hkey : entry.1 = key
      · have hsame : entry = (key, a) := eq_of_nodup Prod.fst hknown.keysDistinct hmem hmemA hkey
        subst hsame
        exact Or.inr ⟨(key, b), AttributeMap.mem_put_self attributes key b, hof.id.trans hid,
          hof.isNew_eq.trans hentry⟩
      · exact Or.inr ⟨entry, AttributeMap.mem_put_of_ne hmem hkey, hid, hentry⟩

/-- A stored attribute that is taken off is to be taken off in storage. -/
theorem Tracks.remove (ht : h.Tracks db) (hloaded : h.attributes = some attributes)
    (hfound : AttributeMap.get? attributes key = some a) :
    ({ h with
        attributes := some (AttributeMap.erase attributes key)
        detached := if a.valueId.isSome then h.detached ++ [a.id] else h.detached } :
      Handle).Tracks db := by
  obtain ⟨hknown, hstored, -, hentries, hcomplete⟩ := ht
  rw [loaded_of_attributes hloaded] at hknown hentries hcomplete
  have hmemA : (key, a) ∈ attributes := hknown.get?_eq_some_iff.1 hfound
  refine ⟨hknown.erase key, hstored, nofun, ?_, ?_⟩
  · intro entry hmem hentry
    obtain ⟨hold, hne⟩ := AttributeMap.mem_erase.1 hmem
    -- another entry has another number, so its attribute is not the one taken off
    have hid : entry.2.id ≠ a.id := fun heq =>
      hne (congrArg Prod.fst (hknown.eq_of_id hold hmemA heq))
    obtain ⟨hkept, hrest⟩ := hentries entry hold hentry
    refine ⟨?_, hrest⟩
    dsimp only
    split
    · intro hgone
      rcases List.mem_append.1 hgone with hgone | hgone
      · exact hkept hgone
      · exact hid (List.mem_singleton.1 hgone)
    · exact hkept
  · intro _ unit hunit m hm hmunit
    rcases hcomplete (by simp [hloaded]) unit hunit m hm hmunit with hgone | ⟨entry, hmem, hid, hentry⟩
    · refine Or.inl ?_
      dsimp only
      split
      · exact List.mem_append_left _ hgone
      · exact hgone
    · by_cases hkey : entry.1 = key
      · have hsame : entry = (key, a) := eq_of_nodup Prod.fst hknown.keysDistinct hmem hmemA hkey
        subst hsame
        -- storage knows the attribute, so it has a value number
        have hnumbered : a.valueId.isSome = true := by
          have hentry : (a.valueId.isNone || a.value.isNew) = false := hentry
          cases hv : a.valueId with
          | none =>
            rw [hv] at hentry
            cases hentry
          | some v => rfl
        refine Or.inl ?_
        dsimp only
        rw [if_pos hnumbered, ← hid]
        exact List.mem_append_right _ List.mem_cons_self
      · exact Or.inr ⟨entry, AttributeMap.mem_erase.2 ⟨hmem, hkey⟩, hid, hentry⟩

end

/-- **Edits keep up**: they load what is stored, attach what is new, and change elements. -/
theorem Tracks.change (hsound : db.Sound) (ht : h.Tracks db)
    (hchange : Change AttributeStep.IsEdit db h h') : h'.Tracks db := by
  cases hchange with
  | fetch => exact ht.fetched hsound
  | attach a hloaded hfree hcatalogued hnew => exact ht.attach hloaded hfree hcatalogued hnew
  | step hloaded hfound hedit htake => exact ht.step hloaded hfound hedit htake
  | remove hloaded hfound => exact ht.remove hloaded hfound
  | rename name => exact ⟨ht.known, ht.stored, ht.unloaded, ht.entries, ht.complete⟩

theorem Tracks.changes (hsound : db.Sound) (ht : h.Tracks db)
    (hchanges : Relation.ReflTransGen (Change AttributeStep.IsEdit db) h h') : h'.Tracks db := by
  induction hchanges with
  | refl => exact ht
  | tail _ hchange ih => exact ih.change hsound hchange

end Handle

end MetadataStore
