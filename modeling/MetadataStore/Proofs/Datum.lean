import MetadataStore.Database.Change
import MetadataStore.Proofs.Time.Reading

/-!
# `Proofs.Datum` — what storage gives back of an element

An element becomes a cell, the table keeps the cell in its own form, and reading makes an element of it
again. Two things are lost on the way: times below a millisecond, which the element loses anyway when
it counts as stored, and the sign of a zero, which it does not. Doubles that are no numbers are not
kept at all.

## Contents
- `Datum.ofCell_toCell`: the cell of an element gives the element.
- `Datum.IsStorable`, `Datum.readBack`, and `Datum.ofCell_settled` that ties them to the cells.
- `Datum.readBack_eq_settled_iff`: the elements that come back as they count as stored.
-/

namespace MetadataStore

namespace Datum

/-- Storage keeps every element but doubles that are no numbers. -/
def IsStorable (datum : Datum) : Prop :=
  datum.toCell.settled ≠ .null

instance (datum : Datum) : Decidable datum.IsStorable := by
  unfold IsStorable
  infer_instance

/-- The element that reading gives for one that was written. -/
def readBack : Datum → Datum
  | .time moment => .time moment.truncate
  | .double x => .double (if x.isZero then .zero else x)
  | datum => datum

/-- Zero with a sign. -/
def IsNegativeZero (datum : Datum) : Prop :=
  ∃ x : Number.Binary64, datum = .double x ∧ x.isZero = true ∧ x ≠ .zero

@[simp] theorem kind_readBack (datum : Datum) : datum.readBack.kind = datum.kind := by
  cases datum <;> rfl

/-- What comes back counts as stored. -/
@[simp] theorem settled_readBack (datum : Datum) : datum.readBack.settled = datum.readBack := by
  cases datum <;> simp [readBack, settled]

theorem readBack_settled (datum : Datum) : datum.settled.readBack = datum.readBack := by
  cases datum <;> simp [readBack, settled]

/-- **The cell of an element is read as that element**, in the form that storage keeps. -/
theorem ofCell_toCell (datum : Datum) :
    ofCell datum.kind datum.toCell = .ok datum.settled := by
  cases datum with
  | string text => rfl
  | time moment =>
    simp only [kind, toCell, ofCell, DateTime.ofText_text]
    rfl
  | integer number =>
    simp only [kind, toCell, ofCell]
    rw [if_pos ⟨number.minValue_le_toInt, number.toInt_le⟩, Int32.ofInt_toInt]
    rfl
  | long number =>
    simp only [kind, toCell, ofCell]
    rw [Int64.ofInt_toInt]
    rfl
  | double x => rfl
  | boolean truth => cases truth <;> rfl
  | data bytes => rfl

/-- **What was written is read back**, in the kind it was written in. -/
theorem ofCell_settled {datum : Datum} (h : datum.IsStorable) :
    ofCell datum.kind datum.toCell.settled = .ok datum.readBack := by
  cases datum with
  | double x =>
    -- NaN makes an empty cell, which storage does not keep
    unfold IsStorable toCell Cell.settled at h
    simp only [kind, toCell, Cell.settled, readBack]
    split
    · rename_i hnan
      exact absurd (if_pos hnan) h
    · split <;> rfl
  -- only cells of doubles are changed by the table
  | _ => exact ofCell_toCell _

@[simp] theorem readBack_readBack (datum : Datum) : datum.readBack.readBack = datum.readBack := by
  cases datum with
  | double x =>
    simp only [readBack, Datum.double.injEq]
    split
    · split <;> rfl
    · rfl
  | _ => simp [readBack]

/-- What is read back would be written as the same cell again. -/
theorem toCell_readBack (datum : Datum) : datum.readBack.toCell.settled = datum.toCell.settled := by
  cases datum with
  | time moment => simp only [readBack, toCell, DateTime.text_truncate]
  | double x =>
    simp only [readBack, toCell]
    split
    · -- the sign of a zero is lost at the first writing already
      rename_i hzero
      have hnan : x.isNaN = false := by
        simp only [Number.Binary64.isZero, beq_iff_eq] at hzero
        simp [Number.Binary64.isNaN, hzero]
      simp only [Cell.settled, hnan, hzero, Bool.false_eq_true, if_false, if_true]
      rfl
    · rfl
  | _ => rfl

/-- So would what the element counts as. -/
theorem toCell_settled (datum : Datum) : datum.settled.toCell.settled = datum.toCell.settled := by
  cases datum with
  | time moment => simp only [settled, toCell, DateTime.text_truncate]
  | _ => rfl

/-- Elements that make the same cell are read back alike. -/
theorem readBack_eq_of_toCell {a b : Datum} (hkind : a.kind = b.kind) (ha : a.IsStorable)
    (hcell : a.toCell.settled = b.toCell.settled) : a.readBack = b.readBack := by
  have hb : b.IsStorable := by
    unfold IsStorable
    rw [← hcell]
    exact ha
  have hread := ofCell_settled ha
  rw [hkind, hcell, ofCell_settled hb] at hread
  exact (Except.ok.inj hread).symm

/-- Only a zero with a sign comes back as something else than it counts as. -/
theorem readBack_eq_settled_iff (datum : Datum) :
    datum.readBack = datum.settled ↔ ¬ datum.IsNegativeZero := by
  cases datum with
  | double x =>
    have hzero : (Datum.double x).IsNegativeZero ↔ x.isZero = true ∧ x ≠ .zero := by
      constructor
      · rintro ⟨y, heq, hy⟩
        cases heq
        exact hy
      · exact fun hx => ⟨x, rfl, hx⟩
    simp only [readBack, settled, hzero, Datum.double.injEq, not_and, ne_eq, not_not]
    constructor
    · intro h hx
      rw [if_pos hx] at h
      exact h.symm
    · intro h
      split
      · rename_i hx
        exact (h hx).symm
      · rfl
  | _ =>
    simp only [readBack, settled, true_iff]
    rintro ⟨x, heq, -⟩
    cases heq

end Datum

end MetadataStore
