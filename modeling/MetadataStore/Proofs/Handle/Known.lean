import MetadataStore.Proofs.Database.Sound

/-!
# `Proofs.Handle.Known` — attributes as the catalogue has them

An attribute on a unit carries with it what the catalogue said of it when it was attached. Definitions
never change, so it goes on saying the same. On one unit each attribute stands once, under its name in
lower case.

## Contents
- `Attribute.Catalogued`, and `Catalogued.wellWritten`: what can be written for it fits its definition.
- `Attribute.take_cases`: what a step makes of an attribute.
- `AttributeMap.Known`: attributes under their own keys, all of them catalogued.
- `Known.idsDistinct`; `Known.put`, `Known.erase`, `Known.markWritten`; `ofAttributes_eq_map`.
-/

namespace MetadataStore

/-! ## Attributes -/

namespace Attribute

/-- The catalogue says of the attribute what the attribute says of itself. -/
def Catalogued (db : Database) (a : Attribute) : Prop :=
  ∃ info, db.attribute? a.id = some info ∧ info.name = a.name ∧ info.kindCode = a.kind.code ∧
    info.scalar = a.scalar

variable {db db' : Database} {a b : Attribute}

theorem Catalogued.isSome (h : a.Catalogued db) : (db.attribute? a.id).isSome = true := by
  obtain ⟨info, hinfo, -⟩ := h
  rw [hinfo]
  rfl

/-- Definitions that were added do not matter. -/
theorem Catalogued.extend (h : a.Catalogued db)
    (hattributes : db.attributes <+: db'.attributes) : a.Catalogued db' := by
  obtain ⟨info, hinfo, hrest⟩ := h
  exact ⟨info, Database.attribute?_of_prefix hattributes hinfo, hrest⟩

theorem Catalogued.of_same (h : a.Catalogued db) (hid : b.id = a.id) (hname : b.name = a.name)
    (hkind : b.kind = a.kind) (hscalar : b.scalar = a.scalar) : b.Catalogued db := by
  unfold Catalogued
  rw [hid, hname, hkind, hscalar]
  exact h

theorem Catalogued.copy (h : a.Catalogued db) : a.copy.Catalogued db :=
  h.of_same rfl rfl rfl rfl

theorem Catalogued.markStored (h : a.Catalogued db) (valueId : Int) :
    (a.markStored valueId).Catalogued db :=
  h.of_same rfl rfl rfl rfl

/-- **What a step makes of an attribute**: a copy, the attribute as it is once stored, or the attribute
with other elements. -/
theorem take_cases {step : AttributeStep} (h : a.take step = .ok b) :
    (step = .copy ∧ b = a.copy) ∨ (∃ valueId, step = .stored valueId ∧ b = a.markStored valueId) ∨
      ∃ requested edit value, a.value.edit? requested edit = some value ∧ b = { a with value } := by
  cases step with
  | push datum =>
    simp only [Attribute.take, Attribute.push] at h
    split at h
    · rename_i value hpush
      cases h
      unfold Value.push at hpush
      split at hpush
      · rename_i changed hedit
        cases hpush
        exact Or.inr (Or.inr ⟨_, _, _, hedit, rfl⟩)
      · cases hpush
    · cases h
  | copy =>
    cases h
    exact Or.inl ⟨rfl, rfl⟩
  | stored valueId =>
    cases h
    exact Or.inr (Or.inl ⟨valueId, rfl, rfl⟩)
  | edit requested edit =>
    simp only [Attribute.take, Attribute.edit] at h
    split at h
    · rename_i value hedit
      cases h
      exact Or.inr (Or.inr ⟨_, _, _, hedit, rfl⟩)
    · cases h

/-- An attribute stays what it is through every step. -/
theorem same_of_take {step : AttributeStep} (h : a.take step = .ok b) :
    b.id = a.id ∧ b.name = a.name ∧ b.kind = a.kind ∧ b.scalar = a.scalar := by
  rcases take_cases h with ⟨-, rfl⟩ | ⟨valueId, -, rfl⟩ | ⟨requested, edit, value, hedit, rfl⟩
  · exact ⟨rfl, rfl, rfl, rfl⟩
  · exact ⟨rfl, rfl, rfl, rfl⟩
  · exact ⟨rfl, rfl, (Value.edit?_eq_some hedit).2.1, rfl⟩

theorem Catalogued.take (h : a.Catalogued db) {step : AttributeStep} (hstep : a.take step = .ok b) :
    b.Catalogued db := by
  obtain ⟨hid, hname, hkind, hscalar⟩ := same_of_take hstep
  exact h.of_same hid hname hkind hscalar

/-- What can be written for a catalogued attribute fits its definition. -/
theorem Catalogued.wellWritten {info : AttributeRow} (h : a.Catalogued db)
    (hinfo : db.attribute? a.id = some info) (hwritable : a.IsWritable) (valueId : Int) :
    Database.WellWritten info valueId (writtenFrom a.kind valueId 0 a.value.elements) := by
  obtain ⟨other, hother, hname, hkind, hscalar⟩ := h
  cases hinfo.symm.trans hother
  refine ⟨a.kind, a.value.elements, hkind.symm, ?_, ?_, ?_, rfl⟩
  · exact fun d hd => ⟨a.value.typed d hd, hwritable.storable d hd⟩
  · intro hforced
    have hfits := hwritable.scalar
    unfold scalarFits at hfits
    split at hfits
    · cases hfits
    · rename_i hnot
      rw [hscalar] at hforced
      simp only [hforced, Bool.true_and, decide_eq_true_eq] at hnot
      omega
  · rw [hname]
    exact hwritable.fits

end Attribute

/-! ## Maps of attributes -/

namespace AttributeMap

/-- Attributes that are catalogued, each once, under their names in lower case. -/
structure Known (db : Database) (attributes : AttributeMap) : Prop where
  keysDistinct : (attributes.map (·.1)).Nodup
  keyed : ∀ entry ∈ attributes, entry.1 = Text.lower entry.2.name
  catalogued : ∀ entry ∈ attributes, entry.2.Catalogued db

variable {db db' : Database} {attributes : AttributeMap}

theorem Known.nil : Known db [] where
  keysDistinct := List.nodup_nil
  keyed := fun _ h => by cases h
  catalogued := fun _ h => by cases h

theorem Known.extend (h : Known db attributes) (hattributes : db.attributes <+: db'.attributes) :
    Known db' attributes :=
  { h with catalogued := fun entry hmem => (h.catalogued entry hmem).extend hattributes }

theorem Known.sublist (h : Known db attributes) {fewer : AttributeMap}
    (hsub : List.Sublist fewer attributes) : Known db fewer where
  keysDistinct := h.keysDistinct.sublist (hsub.map _)
  keyed := fun entry hmem => h.keyed entry (hsub.mem hmem)
  catalogued := fun entry hmem => h.catalogued entry (hsub.mem hmem)

theorem Known.erase (h : Known db attributes) (key : String) : Known db (erase attributes key) :=
  h.sublist List.filter_sublist

/-- Entries with one number are one entry: the number tells the name, and the name the key. -/
theorem Known.eq_of_id (h : Known db attributes) {x y : String × Attribute} (hx : x ∈ attributes)
    (hy : y ∈ attributes) (hid : x.2.id = y.2.id) : x = y := by
  obtain ⟨infoX, hinfoX, hnameX, -⟩ := h.catalogued x hx
  obtain ⟨infoY, hinfoY, hnameY, -⟩ := h.catalogued y hy
  rw [hid, hinfoY] at hinfoX
  cases hinfoX
  refine eq_of_nodup Prod.fst h.keysDistinct hx hy ?_
  rw [h.keyed x hx, h.keyed y hy, ← hnameX, ← hnameY]

theorem Known.idsDistinct (h : Known db attributes) : (attributes.map (·.2.id)).Nodup := by
  have hnodup : attributes.Nodup := List.Nodup.of_map _ h.keysDistinct
  exact hnodup.map_on fun x hx y hy heq => h.eq_of_id hx hy heq

/-- The attribute found under a key is the one entry that stands there. -/
theorem get?_eq_some_iff_mem (hkeys : (attributes.map (·.1)).Nodup) {key : String} {a : Attribute} :
    get? attributes key = some a ↔ (key, a) ∈ attributes := by
  constructor
  · exact Keyed.mem_of_lookup
  · intro hmem
    cases hfound : get? attributes key with
    | none => exact absurd rfl (Keyed.lookup_eq_none.1 hfound (key, a) hmem)
    | some b =>
      have := eq_of_nodup Prod.fst hkeys (Keyed.mem_of_lookup hfound) hmem rfl
      cases this
      rfl

theorem Known.get?_eq_some_iff (h : Known db attributes) {key : String} {a : Attribute} :
    get? attributes key = some a ↔ (key, a) ∈ attributes :=
  get?_eq_some_iff_mem h.keysDistinct

theorem mem_put {key : String} {a : Attribute} {entry : String × Attribute}
    (hmem : entry ∈ put attributes key a) : entry = (key, a) ∨ (entry ∈ attributes ∧ entry.1 ≠ key) := by
  unfold put at hmem
  split at hmem
  · obtain ⟨old, hold, rfl⟩ := List.mem_map.1 hmem
    split
    · exact Or.inl rfl
    · rename_i hne
      exact Or.inr ⟨hold, by simpa using hne⟩
  · rename_i hany
    rcases List.mem_append.1 hmem with hold | hnew
    · refine Or.inr ⟨hold, fun hkey => hany ?_⟩
      exact List.any_eq_true.2 ⟨entry, hold, by simpa using hkey⟩
    · exact Or.inl (List.mem_singleton.1 hnew)

theorem keysDistinct_put (h : (attributes.map (·.1)).Nodup) (key : String) (a : Attribute) :
    ((put attributes key a).map (·.1)).Nodup := by
  unfold put
  split
  · have hkeys : (attributes.map fun entry => if entry.1 == key then (key, a) else entry).map (·.1) =
        attributes.map (·.1) := by
      rw [List.map_map]
      refine List.map_congr_left fun entry _ => ?_
      simp only [Function.comp]
      split
      · rename_i hkey
        exact (by simpa using hkey : entry.1 = key).symm
      · rfl
    rwa [hkeys]
  · rename_i hany
    refine nodup_map_append_single _ h fun entry hmem heq => ?_
    exact hany (List.any_eq_true.2 ⟨entry, hmem, by simpa using heq⟩)

theorem Known.put (h : Known db attributes) {key : String} {a : Attribute}
    (hkey : key = Text.lower a.name) (ha : a.Catalogued db) : Known db (put attributes key a) where
  keysDistinct := keysDistinct_put h.keysDistinct key a
  keyed := by
    intro entry hmem
    rcases mem_put hmem with rfl | ⟨hold, -⟩
    · exact hkey
    · exact h.keyed entry hold
  catalogued := by
    intro entry hmem
    rcases mem_put hmem with rfl | ⟨hold, -⟩
    · exact ha
    · exact h.catalogued entry hold

theorem mem_markWritten {written : List (String × Int)} {entry : String × Attribute} :
    entry ∈ Handle.markWritten attributes written ↔
      ∃ old ∈ attributes, entry =
        (old.1, match written.lookup old.1 with
          | some valueId => old.2.markStored valueId
          | none => old.2) := by
  unfold Handle.markWritten
  rw [List.mem_map]
  constructor
  · rintro ⟨old, hold, rfl⟩
    refine ⟨old, hold, ?_⟩
    cases written.lookup old.1 <;> rfl
  · rintro ⟨old, hold, rfl⟩
    refine ⟨old, hold, ?_⟩
    cases written.lookup old.1 <;> rfl

theorem keys_markWritten (attributes : AttributeMap) (written : List (String × Int)) :
    (Handle.markWritten attributes written).map (·.1) = attributes.map (·.1) := by
  unfold Handle.markWritten
  rw [List.map_map]
  refine List.map_congr_left fun entry _ => ?_
  simp only [Function.comp]
  cases written.lookup entry.1 <;> rfl

theorem Known.markWritten (h : Known db attributes) (written : List (String × Int)) :
    Known db (Handle.markWritten attributes written) where
  keysDistinct := by
    rw [keys_markWritten]
    exact h.keysDistinct
  keyed := by
    intro entry hmem
    obtain ⟨old, hold, rfl⟩ := mem_markWritten.1 hmem
    rw [h.keyed old hold]
    split <;> rfl
  catalogued := by
    intro entry hmem
    obtain ⟨old, hold, rfl⟩ := mem_markWritten.1 hmem
    dsimp only
    split
    · exact (h.catalogued old hold).markStored _
    · exact h.catalogued old hold

/-- Attributes whose names differ beyond case stand under them in their order. -/
theorem ofAttributes_eq_map {as : List Attribute} (h : (as.map fun a => Text.lower a.name).Nodup) :
    ofAttributes as = as.map fun a => (Text.lower a.name, a) := by
  -- the map built so far is generalized; its keys and the names to come have to differ
  have hfold : ∀ (rest : List Attribute) (before : AttributeMap),
      ((before.map (·.1)) ++ rest.map fun a => Text.lower a.name).Nodup →
        rest.foldl (fun m a => AttributeMap.put m (Text.lower a.name) a) before =
          before ++ rest.map fun a => (Text.lower a.name, a) := by
    intro rest
    induction rest with
    | nil => simp
    | cons a rest ih =>
      intro before hnodup
      have hput : AttributeMap.put before (Text.lower a.name) a = before ++ [(Text.lower a.name, a)] := by
        unfold AttributeMap.put
        rw [if_neg]
        rw [List.any_eq_true]
        rintro ⟨entry, hmem, hkey⟩
        have hkey : entry.1 = Text.lower a.name := by simpa using hkey
        refine (List.nodup_append.1 hnodup).2.2 entry.1 (List.mem_map_of_mem hmem) _ ?_ hkey
        exact List.mem_cons_self
      rw [List.foldl_cons, hput, ih, List.append_assoc, List.map_cons, List.singleton_append]
      rw [List.map_append, List.append_assoc]
      exact hnodup
  exact hfold as [] h

end AttributeMap

end MetadataStore
