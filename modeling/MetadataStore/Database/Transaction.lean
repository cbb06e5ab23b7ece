import MetadataStore.Database.Change

/-!
# `Database.Transaction` — work that is done whole or not at all

A transaction reads and changes the stored state under whatever contention there is with other
connections. A fault at any point leaves the state as it was. Faults that contention causes are worth
another attempt, up to a budget.

## Contents
- `Contention`, and `Transaction` with its steps.
- `Transaction.bind_eq_ok`, `query_eq_ok`, `perform_eq_ok`: when work succeeds.
- `retry`, attempts until one is not transient or the budget is spent.
- `Database.write`, `Database.read`.
-/

namespace MetadataStore

/-- What another connection holds. -/
inductive Contention where
  /-- Nothing. -/
  | none
  /-- The right to write; others may still read. -/
  | writing
  /-- Everything. -/
  | exclusive
  deriving DecidableEq, Repr

/-- Whether reading is possible. -/
def Contention.allowsReading : Contention → Bool
  | .none | .writing => true
  | .exclusive => false

/-- Whether writing is possible. -/
def Contention.allowsWriting : Contention → Bool
  | .none => true
  | .writing | .exclusive => false

theorem Contention.allowsReading_of_allowsWriting {contention : Contention}
    (h : contention.allowsWriting = true) : contention.allowsReading = true := by
  cases contention with
  | none => rfl
  | writing => cases h
  | exclusive => cases h

/-- Work on the stored state: a result with the state after it, or a fault. -/
def Transaction (α : Type) : Type :=
  Contention → Database → Except Fault (α × Database)

namespace Transaction

protected def pure {α : Type} (a : α) : Transaction α :=
  fun _ db => .ok (a, db)

protected def bind {α β : Type} (work : Transaction α) (next : α → Transaction β) : Transaction β :=
  fun contention db =>
    match work contention db with
    | .ok (a, db) => next a contention db
    | .error fault => .error fault

instance : Monad Transaction where
  pure := Transaction.pure
  bind := Transaction.bind

/-- Gives up. -/
def fail {α : Type} (fault : Fault) : Transaction α :=
  fun _ _ => .error fault

/-- Goes on unless there is a fault. -/
def check {α : Type} (result : Except Fault α) : Transaction α :=
  fun _ db => result.map fun a => (a, db)

/-- Looks at the state. -/
def query {α : Type} (f : Database → α) : Transaction α :=
  fun contention db =>
    if contention.allowsReading then .ok (f db, db) else .error (.write .locked)

/-- Makes a change. -/
def perform {α : Type} (change : Change α) : Transaction α :=
  fun contention db =>
    if contention.allowsWriting then
      match change db with
      | .ok result => .ok result
      | .error cause => .error (.write cause)
    else .error (.write .locked)

/-- The work for each element in turn. -/
def forEach {α : Type} (work : α → Transaction Unit) : List α → Transaction Unit
  | [] => Transaction.pure ()
  | a :: rest => (work a).bind fun _ => forEach work rest

/-- The results of the work for each element in turn. -/
def collect {α β : Type} (work : α → Transaction β) : List α → Transaction (List β)
  | [] => Transaction.pure []
  | a :: rest => (work a).bind fun b => (collect work rest).bind fun bs => Transaction.pure (b :: bs)

/-! ## When work succeeds -/

@[simp] theorem pure_apply {α : Type} (a : α) (contention : Contention) (db : Database) :
    (pure a : Transaction α) contention db = .ok (a, db) := rfl

theorem bind_apply {α β : Type} (work : Transaction α) (next : α → Transaction β)
    (contention : Contention) (db : Database) :
    (work >>= next) contention db =
      match work contention db with
      | .ok (a, db) => next a contention db
      | .error fault => .error fault := rfl

/-- A sequence succeeds exactly when the first work does and the next one does on what it leaves. -/
theorem bind_eq_ok {α β : Type} {work : Transaction α} {next : α → Transaction β}
    {contention : Contention} {db db' : Database} {b : β} :
    (work >>= next) contention db = .ok (b, db') ↔
      ∃ a mid, work contention db = .ok (a, mid) ∧ next a contention mid = .ok (b, db') := by
  rw [bind_apply]
  constructor
  · intro h
    split at h
    · rename_i a mid hok
      exact ⟨a, mid, hok, h⟩
    · cases h
  · rintro ⟨a, mid, hok, hnext⟩
    rw [hok]
    exact hnext

@[simp] theorem check_eq_ok {α : Type} {result : Except Fault α} {contention : Contention}
    {db db' : Database} {a : α} :
    check result contention db = .ok (a, db') ↔ result = .ok a ∧ db' = db := by
  cases result <;> simp [check, Except.map, eq_comm]

/-- A look succeeds exactly when reading is possible. -/
theorem query_eq_ok {α : Type} {f : Database → α} {contention : Contention} {db db' : Database} {a : α} :
    query f contention db = .ok (a, db') ↔
      contention.allowsReading = true ∧ a = f db ∧ db' = db := by
  unfold query
  split
  · rename_i hread
    simp [hread, eq_comm]
  · rename_i hread
    simp [hread]

/-- A change is made exactly when writing is possible and nothing stands against it. -/
theorem perform_eq_ok {α : Type} {change : Change α} {contention : Contention} {db db' : Database}
    {a : α} :
    perform change contention db = .ok (a, db') ↔
      contention.allowsWriting = true ∧ change db = .ok (a, db') := by
  unfold perform
  split
  · rename_i hw
    split <;> simp_all
  · rename_i hw
    simp [hw]

end Transaction

/-! ## Attempts -/

/-- Attempts from number `i` on, until one is not a transient failure or `left` more were made after
it: the outcome, and how many were made. -/
def retryFrom {α : Type} (attempt : Nat → Except Fault α) (i : Nat) : Nat → Except Fault α × Nat
  | 0 => (attempt i, i + 1)
  | left + 1 =>
    -- each attempt starts from the same state, whatever the one before it did
    match attempt i with
    | .ok a => (.ok a, i + 1)
    | .error fault =>
      if fault.isTransient then retryFrom attempt (i + 1) left else (.error fault, i + 1)

/-- Attempts up to a budget, of which zero counts as one: the outcome, and how many were made. -/
def retry {α : Type} (budget : Nat) (attempt : Nat → Except Fault α) : Except Fault α × Nat :=
  retryFrom attempt 0 (budget - 1)

namespace Database

/-- Runs a transaction, again while it fails for contention; `contention` tells what each attempt
meets. The state changes only if the last attempt succeeds. -/
def write {α : Type} (budget : Nat) (contention : Nat → Contention) (work : Transaction α)
    (db : Database) : Except Fault α × Database :=
  match (retry budget fun i => work (contention i) db).1 with
  | .ok (a, db) => (.ok a, db)
  | .error fault => (.error fault, db)

/-- Looks at the state, again while contention forbids it. -/
def read {α : Type} (budget : Nat) (contention : Nat → Contention) (f : Database → α)
    (db : Database) : Except Fault α :=
  (retry budget fun i =>
    if (contention i).allowsReading then .ok (f db) else .error (.read .locked)).1

end Database

end MetadataStore
