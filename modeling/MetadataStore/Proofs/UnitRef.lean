import Mathlib.Data.List.Basic
import MetadataStore.Proofs.Text.Digits
import MetadataStore.UnitRef

/-!
# `Proofs.UnitRef` — identities, their texts and their order

The text of an identity is a cache key. The point in it stands in neither of the two integers, so the
text splits in one way only, and identities are told apart by their texts.

## Contents
- `UnitRef.text_injective`.
- `UnitRef.Before`, the strict order; `le_trans`, `le_total`, `before_of_le_of_ne`.
-/

namespace MetadataStore.UnitRef

/-- No two identities have the same text. -/
theorem text_injective {a b : UnitRef} (h : a.text = b.text) : a = b := by
  have hchars : (Text.integer a.tenant).toList ++ '.' :: (Text.integer a.id).toList =
      (Text.integer b.tenant).toList ++ '.' :: (Text.integer b.id).toList := by
    simpa [text, String.toList_append] using congrArg String.toList h
  have hpoint : ∀ i, '.' ∉ (Text.integer i).toList := fun i =>
    Text.not_mem_integer (by decide) (by decide)
  obtain ⟨htenant, -, hid⟩ :=
    (List.append_cons_inj_of_notMem (hpoint a.tenant) (hpoint a.id)).1 hchars
  have htenant := Text.integer_injective (String.toList_injective htenant)
  have hid := Text.integer_injective (String.toList_injective hid)
  cases a
  cases b
  simp only at htenant hid
  rw [htenant, hid]

/-! ## Order -/

variable {a b : UnitRef}

/-- By tenant, then by number, and never equal. -/
def Before (a b : UnitRef) : Prop :=
  a.tenant < b.tenant ∨ a.tenant = b.tenant ∧ a.id < b.id

theorem le_iff : a.le b = true ↔ a.tenant < b.tenant ∨ a.tenant = b.tenant ∧ a.id ≤ b.id := by
  simp only [le, Bool.or_eq_true, Bool.and_eq_true, decide_eq_true_eq, beq_iff_eq]

theorem le_trans (a b c : UnitRef) (hab : a.le b = true) (hbc : b.le c = true) : a.le c = true := by
  rw [le_iff] at *
  omega

theorem le_total (a b : UnitRef) : (a.le b || b.le a) = true := by
  rw [Bool.or_eq_true, le_iff, le_iff]
  omega

theorem before_of_le_of_ne (hle : a.le b = true) (hne : a ≠ b) : a.Before b := by
  rw [le_iff] at hle
  refine hle.imp_right fun ⟨htenant, hid⟩ =>
    ⟨htenant, Int.lt_iff_le_and_ne.2 ⟨hid, fun hsame => hne ?_⟩⟩
  cases a
  cases b
  simp only at htenant hsame
  rw [htenant, hsame]

end MetadataStore.UnitRef
