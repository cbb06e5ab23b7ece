import MetadataStore.Fault

/-!
# `Action` — steps that answer and move on

An action on a state gives a result or a fault, and in either case the state after it; what a fault
leaves behind is a matter of each action.

## Contents
- `Action` and its monad; `fail`, `get`, `set`, `ofResult`, `attempt`.
- `Action.collect`, `Action.onFirst`.
- What each step does to a state, and `bind_eq_ok`: a sequence succeeds when both of its parts do.
-/

namespace MetadataStore

/-- A step on a state that may fail. -/
def Action (σ α : Type) : Type :=
  σ → Except Fault α × σ

namespace Action

variable {σ τ α β : Type}

protected def pure (a : α) : Action σ α :=
  fun s => (.ok a, s)

protected def bind (action : Action σ α) (next : α → Action σ β) : Action σ β :=
  fun s =>
    match action s with
    | (.ok a, s) => next a s
    | (.error fault, s) => (.error fault, s)

instance : Monad (Action σ) where
  pure := Action.pure
  bind := Action.bind

/-- Gives up, leaving the state. -/
def fail (fault : Fault) : Action σ α :=
  fun s => (.error fault, s)

/-- The state. -/
def get : Action σ σ :=
  fun s => (.ok s, s)

/-- Another state. -/
def set (s : σ) : Action σ Unit :=
  fun _ => (.ok (), s)

/-- A change of the state. -/
def modify (f : σ → σ) : Action σ Unit :=
  fun s => (.ok (), f s)

/-- A result or a fault, leaving the state. -/
def ofResult (result : Except Fault α) : Action σ α :=
  fun s => (result, s)

/-- The outcome of an action as a result; the faults of the action are no faults any more. -/
def attempt (action : Action σ α) : Action σ (Except Fault α) :=
  fun s =>
    let (outcome, s) := action s
    (.ok outcome, s)

/-- The results of an action for each element in turn, up to the first fault. -/
def collect (action : α → Action σ β) : List α → Action σ (List β)
  | [] => Action.pure []
  | a :: rest => (action a).bind fun b => (collect action rest).bind fun bs => Action.pure (b :: bs)

/-- An action on the first of two states. -/
def onFirst (action : Action σ α) : Action (σ × τ) α :=
  fun (s, t) =>
    let (outcome, s) := action s
    (outcome, (s, t))

/-! ## What each step does -/

@[simp] theorem pure_apply (a : α) (s : σ) : (pure a : Action σ α) s = (.ok a, s) := rfl

@[simp] theorem fail_apply (fault : Fault) (s : σ) : (fail fault : Action σ α) s = (.error fault, s) := rfl

@[simp] theorem get_apply (s : σ) : (get : Action σ σ) s = (.ok s, s) := rfl

@[simp] theorem set_apply (s s' : σ) : (set s' : Action σ Unit) s = (.ok (), s') := rfl

@[simp] theorem modify_apply (f : σ → σ) (s : σ) : (modify f : Action σ Unit) s = (.ok (), f s) := rfl

@[simp] theorem ofResult_apply (result : Except Fault α) (s : σ) :
    (ofResult result : Action σ α) s = (result, s) := rfl

theorem bind_apply (action : Action σ α) (next : α → Action σ β) (s : σ) :
    (action >>= next) s =
      match action s with
      | (.ok a, s) => next a s
      | (.error fault, s) => (.error fault, s) := rfl

theorem bind_of_ok {action : Action σ α} {s s' : σ} {a : α} (h : action s = (.ok a, s'))
    (next : α → Action σ β) : (action >>= next) s = next a s' := by
  rw [bind_apply, h]

theorem bind_of_error {action : Action σ α} {s s' : σ} {fault : Fault}
    (h : action s = (.error fault, s')) (next : α → Action σ β) :
    (action >>= next) s = (.error fault, s') := by
  rw [bind_apply, h]

/-- A sequence succeeds exactly when the first action does and the next one does on what it leaves. -/
theorem bind_eq_ok {action : Action σ α} {next : α → Action σ β} {s s' : σ} {b : β} :
    (action >>= next) s = (.ok b, s') ↔ ∃ a t, action s = (.ok a, t) ∧ next a t = (.ok b, s') := by
  rw [bind_apply]
  constructor
  · intro h
    split at h
    · rename_i a t hok
      exact ⟨a, t, hok, h⟩
    · simp at h
  · rintro ⟨a, t, hok, hnext⟩
    rw [hok]
    exact hnext

end Action

end MetadataStore
