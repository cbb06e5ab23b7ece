import MetadataStore.Fault

/-!
# `LockKind` — the types of locks on units

## Contents
- `LockKind`, its codes and names.
- `Lock`, a lock as it is read back.
-/

namespace MetadataStore

/-- The type of a lock. -/
inductive LockKind where
  | read | existence | write
  deriving DecidableEq, Repr

namespace LockKind

/-- The kinds in the order of their codes. -/
def all : List LockKind :=
  [.read, .existence, .write]

/-- The number that stands for a kind in the database. -/
def code : LockKind → Int
  | .read => 1
  | .existence => 2
  | .write => 3

/-- The name of a kind. -/
def name : LockKind → String
  | .read => "Read"
  | .existence => "Existence"
  | .write => "Write"

/-- The kind with the given code; other codes are a fault. -/
def ofCode (code : Int) : Except Fault LockKind :=
  match all.find? fun kind => kind.code == code with
  | some kind => .ok kind
  | none => .error (.unknownCode .lockType code)

/-- The kind with the given name. -/
def ofName? (name : String) : Option LockKind :=
  all.find? fun kind => kind.name == name

@[simp] theorem ofCode_code (kind : LockKind) : ofCode kind.code = .ok kind := by
  cases kind <;> rfl

end LockKind

/-- A lock on a unit. -/
structure Lock where
  purpose : String
  kind : LockKind
  taken : DateTime
  expire : Option DateTime
  deriving DecidableEq

end MetadataStore
