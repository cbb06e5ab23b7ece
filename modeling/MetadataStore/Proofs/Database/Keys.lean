import Mathlib.Data.List.Nodup
import MetadataStore.Database.Tables

/-!
# `Proofs.Database.Keys` — rows under keys that differ

No two rows of a table have the same key, so looking for the key of a row finds the row itself.

## Contents
- `find?_of_nodup`, `eq_of_nodup`, `nodup_map_append_single`, `mergeSort_eq_iff`: rows and their keys.
- `Database.UnitsDistinct`, the key of the table of units, and `unit?_of_mem`.
- `Database.IdsDistinct`: the number alone is a key, too.
- `Database.UnitsNumbered`: keys that were given out, with a new unit and after a change of rows.
- `Database.attribute?_of_prefix`: definitions are only ever added.
-/

namespace MetadataStore

/-- Among rows of different keys the first with the key of a row is that row. -/
theorem find?_of_nodup {β κ : Type} [DecidableEq κ] (key : β → κ) {rows : List β}
    (h : (rows.map key).Nodup) {row : β} (hmem : row ∈ rows) :
    rows.find? (fun other => key other == key row) = some row := by
  induction rows with
  | nil => cases hmem
  | cons first rest ih =>
    rw [List.map_cons, List.nodup_cons] at h
    rw [List.find?_cons]
    rcases List.mem_cons.1 hmem with rfl | hrest
    · simp
    · have hne : key first ≠ key row := fun heq => h.1 (heq ▸ List.mem_map_of_mem hrest)
      rw [show (key first == key row) = false by simpa using hne]
      exact ih h.2 hrest

/-- Among rows of different keys there is only one of each. -/
theorem eq_of_nodup {β κ : Type} [DecidableEq κ] (key : β → κ) {rows : List β}
    (h : (rows.map key).Nodup) {a b : β} (ha : a ∈ rows) (hb : b ∈ rows) (hkey : key a = key b) :
    a = b := by
  have hfirst := find?_of_nodup key h ha
  rw [hkey, find?_of_nodup key h hb] at hfirst
  exact (Option.some.inj hfirst).symm

/-- A row with a key of its own may be added at the end. -/
theorem nodup_map_append_single {β κ : Type} (key : β → κ) {rows : List β} {row : β}
    (h : (rows.map key).Nodup) (hnew : ∀ other ∈ rows, key other ≠ key row) :
    ((rows ++ [row]).map key).Nodup := by
  rw [List.map_append, List.nodup_append]
  refine ⟨h, List.nodup_singleton _, ?_⟩
  intro k hk k' hk' heq
  obtain ⟨other, hother, rfl⟩ := List.mem_map.1 hk
  exact hnew other hother (heq.trans (List.mem_singleton.1 hk'))

/-- Rows of different keys in the order of the keys are equal when the rows are. -/
theorem mergeSort_eq_iff {β : Type} (key : β → Int) {xs ys : List β} (hxs : (xs.map key).Nodup)
    (hys : (ys.map key).Nodup) :
    (xs.mergeSort fun a b => decide (key a ≤ key b)) =
        (ys.mergeSort fun a b => decide (key a ≤ key b)) ↔
      ∀ a, a ∈ xs ↔ a ∈ ys := by
  constructor
  · intro h a
    rw [← List.mem_mergeSort, h, List.mem_mergeSort]
  · intro h
    have hperm : xs.Perm ys :=
      (List.perm_ext_iff_of_nodup (List.Nodup.of_map _ hxs) (List.Nodup.of_map _ hys)).2 h
    have hsorted : ∀ rows : List β,
        (rows.mergeSort fun a b => decide (key a ≤ key b)).Pairwise fun a b => key a ≤ key b := by
      intro rows
      have hpairs : (rows.mergeSort fun a b => decide (key a ≤ key b)).Pairwise
          fun a b => decide (key a ≤ key b) = true := by
        apply List.pairwise_mergeSort
        · intro a b c hab hbc
          simp only [decide_eq_true_eq] at hab hbc ⊢
          exact Int.le_trans hab hbc
        · intro a b
          simp only [Bool.or_eq_true, decide_eq_true_eq]
          exact Int.le_total (key a) (key b)
      exact hpairs.imp fun hle => by simpa using hle
    refine List.Perm.eq_of_pairwise ?_ (hsorted xs) (hsorted ys)
      ((List.mergeSort_perm xs _).trans (hperm.trans (List.mergeSort_perm ys _).symm))
    -- two rows with one key are one
    intro a b ha hb hab hba
    have hb : b ∈ xs := (h b).2 (List.mem_mergeSort.1 hb)
    exact eq_of_nodup key hxs (List.mem_mergeSort.1 ha) hb (Int.le_antisymm hab hba)

namespace Database

variable {db : Database}

/-- Tenant and number are the key of the table of units. -/
def UnitsDistinct (db : Database) : Prop :=
  (db.units.map (·.unit)).Nodup

/-- The number of a unit is the primary key of the table of units, whatever the tenant. -/
def IdsDistinct (db : Database) : Prop :=
  (db.units.map (·.unit.id)).Nodup

theorem IdsDistinct.unitsDistinct (h : db.IdsDistinct) : db.UnitsDistinct := by
  refine List.Nodup.of_map UnitRef.id ?_
  rw [List.map_map]
  exact h

theorem UnitsDistinct.unit?_of_mem (h : db.UnitsDistinct) {row : UnitRow} (hmem : row ∈ db.units) :
    db.unit? row.unit = some row :=
  find?_of_nodup UnitRow.unit h hmem

theorem unit?_eq_some {unit : UnitRef} {row : UnitRow} (h : db.unit? unit = some row) :
    row ∈ db.units ∧ row.unit = unit :=
  ⟨List.mem_of_find?_eq_some h, by simpa using List.find?_some h⟩

/-- Definitions that are added do not hide those there are. -/
theorem attribute?_of_prefix {db' : Database} {id : Int} {info : AttributeRow}
    (hattributes : db.attributes <+: db'.attributes) (h : db.attribute? id = some info) :
    db'.attribute? id = some info := by
  obtain ⟨more, hmore⟩ := hattributes
  unfold attribute? at h ⊢
  rw [← hmore, List.find?_append, h]
  rfl

/-- Units are told apart by numbers that were given out. -/
structure UnitsNumbered (db : Database) : Prop where
  distinct : db.UnitsDistinct
  issued : ∀ row ∈ db.units, row.unit.id ≤ db.lastUnit

/-- A unit with the next number is new. -/
theorem UnitsNumbered.insertUnit (h : db.UnitsNumbered) (row : UnitRow)
    (hid : row.unit.id = db.lastUnit + 1) :
    ({ db with units := db.units ++ [row], lastUnit := db.lastUnit + 1 } : Database).UnitsNumbered where
  distinct := by
    refine nodup_map_append_single _ h.distinct fun old hold heq => ?_
    have hissued := h.issued old hold
    rw [heq] at hissued
    omega
  issued := by
    intro other hmem
    show other.unit.id ≤ db.lastUnit + 1
    rcases List.mem_append.1 hmem with hold | hnew
    · have := h.issued other hold
      omega
    · exact Int.le_of_eq (List.mem_singleton.1 hnew ▸ hid)

/-- Rows of units may change in all but their identity. -/
theorem UnitsNumbered.updateUnits (h : db.UnitsNumbered) {f : UnitRow → UnitRow}
    (hf : ∀ row ∈ db.units, (f row).unit = row.unit) :
    ({ db with units := db.units.map f } : Database).UnitsNumbered where
  distinct := by
    have hunits : (db.units.map f).map (·.unit) = db.units.map (·.unit) := by
      rw [List.map_map]
      exact List.map_congr_left hf
    unfold UnitsDistinct
    rw [hunits]
    exact h.distinct
  issued := by
    intro row hmem
    obtain ⟨old, hold, rfl⟩ := List.mem_map.1 hmem
    rw [hf old hold]
    exact h.issued old hold

theorem hasUnit_of_mem {row : UnitRow} (h : row ∈ db.units) : db.hasUnit row.unit = true :=
  List.any_eq_true.2 ⟨row, h, by simp⟩

end Database

end MetadataStore
