/-!
# `Truth` — three-valued truth

A comparison with a missing value is neither true nor false. Rows count only when a condition is true.

## Contents
- `Truth`, its connectives, and their laws.
-/

namespace MetadataStore

/-- True, false, or unknown because a value is missing. -/
inductive Truth where
  | no | unknown | yes
  deriving DecidableEq, Repr

namespace Truth

def ofBool (b : Bool) : Truth :=
  if b then .yes else .no

def not : Truth → Truth
  | .no => .yes
  | .unknown => .unknown
  | .yes => .no

/-- False as soon as one side is. -/
def and : Truth → Truth → Truth
  | .no, _ => .no
  | _, .no => .no
  | .yes, .yes => .yes
  | _, _ => .unknown

/-- True as soon as one side is. -/
def or : Truth → Truth → Truth
  | .yes, _ => .yes
  | _, .yes => .yes
  | .no, .no => .no
  | _, _ => .unknown

/-- Whether a row with this truth counts. -/
def holds (t : Truth) : Bool :=
  t == .yes

@[simp] theorem not_not (t : Truth) : t.not.not = t := by
  cases t <;> rfl

theorem and_comm (s t : Truth) : s.and t = t.and s := by
  cases s <;> cases t <;> rfl

theorem and_assoc (s t u : Truth) : (s.and t).and u = s.and (t.and u) := by
  cases s <;> cases t <;> cases u <;> rfl

theorem not_and (s t : Truth) : (s.and t).not = s.not.or t.not := by
  cases s <;> cases t <;> rfl

theorem not_or (s t : Truth) : (s.or t).not = s.not.and t.not := by
  cases s <;> cases t <;> rfl

@[simp] theorem holds_ofBool (b : Bool) : (ofBool b).holds = b := by
  cases b <;> rfl

@[simp] theorem and_ofBool (a b : Bool) : (ofBool a).and (ofBool b) = ofBool (a && b) := by
  cases a <;> cases b <;> rfl

theorem holds_and (s t : Truth) : (s.and t).holds = (s.holds && t.holds) := by
  cases s <;> cases t <;> rfl

end Truth

end MetadataStore
