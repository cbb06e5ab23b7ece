import MetadataStore.Handle.Actions
import MetadataStore.Repository.Disposal

/-!
# `Session.Basic` — a repository and the units held of it

A session is a repository together with units held under names. Any number of them may be held of one
stored unit, each as old as its last use.

## Contents
- `Session`, `Session.ofRepository`, `handle?`, `hold`.
- `Target`, a unit named by a handle or by its identity.
- `consult`, `ask`, `work`, the ways to act on repository and handles.
-/

namespace MetadataStore

/-- A repository, and the units that are held of it under names. -/
structure Session where
  repository : Repository
  held : List (String × Handle)

/-- A unit, by the name of a handle or by its identity. -/
inductive Target where
  | held (name : String)
  | identity (unit : UnitRef)
  deriving DecidableEq, Repr

namespace Session

/-- A session in which nothing is held yet. -/
def ofRepository (r : Repository) : Session :=
  ⟨r, []⟩

/-- The unit held under a name. -/
def handle? (s : Session) (name : String) : Option Handle :=
  s.held.lookup name

/-- The session with a unit held under a name, in place of the one held before. -/
def hold (s : Session) (name : String) (h : Handle) : Session :=
  { s with held := (name, h) :: s.held.filter fun entry => entry.1 != name }

/-- The identity of a target, which a unit held but not stored yet does not have. -/
def identity? (s : Session) : Target → Option UnitRef
  | .held name => (s.handle? name).bind Handle.ref?
  | .identity unit => some unit

/-! ## Acting -/

/-- An action on the repository. -/
def consult {α : Type} (s : Session) (action : Action Repository α) : Except Fault α × Session :=
  let (outcome, repository) := action s.repository
  (outcome, { s with repository })

/-- An action on the repository and a copy of a held unit, of which nothing is kept. -/
def ask {α : Type} (s : Session) (h : Handle) (action : Handle.Work α) : Except Fault α × Session :=
  let (outcome, repository, _) := action (s.repository, h)
  (outcome, { s with repository })

/-- An action on the repository and the unit `h` held under a name, which is kept as the action leaves
it. -/
def work {α : Type} (s : Session) (name : String) (h : Handle) (action : Handle.Work α) :
    Except Fault α × Session :=
  let (outcome, repository, h) := action (s.repository, h)
  (outcome, { s with repository }.hold name h)

@[simp] theorem handle?_hold (s : Session) (name : String) (h : Handle) :
    (s.hold name h).handle? name = some h := by
  simp [handle?, hold]

theorem handle?_hold_of_ne {s : Session} {name other : String} {h : Handle} (hne : other ≠ name) :
    (s.hold name h).handle? other = s.handle? other := by
  simp only [handle?, hold]
  rw [Keyed.lookup_cons_eq, if_neg hne, Keyed.lookup_filter_ne, if_neg hne]

@[simp] theorem repository_hold (s : Session) (name : String) (h : Handle) :
    (s.hold name h).repository = s.repository := rfl

end Session

end MetadataStore
