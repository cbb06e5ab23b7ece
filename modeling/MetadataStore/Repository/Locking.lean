import MetadataStore.LockKind
import MetadataStore.Repository.Basic

/-!
# `Repository.Locking` — locks on units

A unit is locked while it has a lock. Locks do not keep anyone from reading; a locked unit is neither
stored nor inactivated nor disposed of.

## Contents
- `lock`, `unlock`, `isLocked`, `locks`.
-/

namespace MetadataStore

/-- A lock as its row has it. The kind is looked at before the times. -/
def Lock.ofRow (row : LockRow) : Except Fault Lock := do
  let kind ← LockKind.ofCode row.kindCode
  let taken ← readTime row.taken
  match row.expire with
  | none => pure ⟨row.purpose, kind, taken, none⟩
  | some text => do
    let expire ← readTime text
    pure ⟨row.purpose, kind, taken, some expire⟩
where
  /-- The time that a column of a lock denotes. -/
  readTime (text : String) : Except Fault DateTime :=
    match DateTime.ofText text with
    | .ok moment => .ok moment
    | .error cause => .error (.badLockTime text cause)

namespace Repository

/-- Takes a lock unless the unit has one; whether it was taken is the result. -/
def takeLock (unit : UnitRef) (kind : LockKind) (purpose : String) (now : DateTime) :
    Transaction Bool := do
  if ← Transaction.query (·.isLocked unit) then pure false
  else do
    Transaction.perform (Database.insertLock ⟨unit, purpose, kind.code, now.text, none⟩)
    pure true

/-- Takes a lock on a unit unless it has one. -/
def lock (unit : UnitRef) (kind : LockKind) (purpose : String) : Action Repository Bool := do
  let r ← Action.get
  write (takeLock unit kind purpose r.now)

/-- Removes every lock of a unit. -/
def unlock (unit : UnitRef) : Action Repository Unit :=
  write (Transaction.perform (Database.deleteLocks unit))

/-- Whether a unit has a lock. -/
def isLocked (unit : UnitRef) : Action Repository Bool :=
  read (·.isLocked unit)

/-- The locks of a unit. -/
def locks (unit : UnitRef) : Action Repository (List Lock) := do
  let rows ← read (·.locksOf unit)
  Action.ofResult (rows.mapM Lock.ofRow)

end Repository

end MetadataStore
