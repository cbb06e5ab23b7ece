import MetadataStore.Fault

/-!
# `Status` — the lifecycle of units

A unit starts effective. It can be set aside for deletion and taken back, and it can be given up for
disposal, from where nothing leads back. Archived units stay as they are.

## Contents
- `Status`, its codes and names.
- `Status.permits`, the transition table.
-/

namespace MetadataStore

/-- The status of a unit. -/
inductive Status where
  | pendingDisposition | pendingDeletion | obliterated | effective | archived
  deriving DecidableEq, Repr

namespace Status

/-- The statuses in the order of their codes. -/
def all : List Status :=
  [.pendingDisposition, .pendingDeletion, .obliterated, .effective, .archived]

/-- The number that stands for a status in the database. -/
def code : Status → Int
  | .pendingDisposition => 1
  | .pendingDeletion => 10
  | .obliterated => 20
  | .effective => 30
  | .archived => 40

/-- The name of a status. -/
def name : Status → String
  | .pendingDisposition => "PendingDisposition"
  | .pendingDeletion => "PendingDeletion"
  | .obliterated => "Obliterated"
  | .effective => "Effective"
  | .archived => "Archived"

/-- The status with the given code. -/
def ofCode? (code : Int) : Option Status :=
  all.find? fun status => status.code == code

/-- The status with the given code; other codes are a fault. -/
def ofCode (code : Int) : Except Fault Status :=
  match ofCode? code with
  | some status => .ok status
  | none => .error (.unknownCode .status code)

/-- The status with the given name. -/
def ofName? (name : String) : Option Status :=
  all.find? fun status => status.name == name

/-- Whether a unit may go from one status to another. -/
def permits : Status → Status → Bool
  | .effective, .pendingDeletion => true
  | .effective, .pendingDisposition => true
  | .pendingDeletion, .effective => true
  | .pendingDeletion, .pendingDisposition => true
  | .obliterated, .effective => true
  | .obliterated, .pendingDisposition => true
  | _, _ => false

@[simp] theorem ofCode?_code (status : Status) : ofCode? status.code = some status := by
  cases status <;> decide

@[simp] theorem ofCode_code (status : Status) : ofCode status.code = .ok status := by
  simp [ofCode]

theorem code_of_ofCode {code : Int} {status : Status} (h : ofCode code = .ok status) :
    code = status.code := by
  unfold ofCode ofCode? at h
  cases hfind : all.find? fun status => status.code == code with
  | none =>
    rw [hfind] at h
    cases h
  | some found =>
    rw [hfind] at h
    cases h
    have hcode := List.find?_some hfind
    rw [beq_iff_eq] at hcode
    exact hcode.symm

theorem code_injective {status other : Status} (h : status.code = other.code) : status = other := by
  have hcodes := congrArg ofCode? h
  rw [ofCode?_code, ofCode?_code] at hcodes
  exact Option.some.inj hcodes

/-- Nothing leads out of pending disposition. -/
theorem not_permits_of_pendingDisposition (status : Status) :
    Status.pendingDisposition.permits status = false := by
  cases status <;> rfl

/-- Nothing leads out of the archive. -/
theorem not_permits_of_archived (status : Status) : Status.archived.permits status = false := by
  cases status <;> rfl

end Status

end MetadataStore
