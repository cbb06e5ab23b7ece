import MetadataStore.Digest

/-!
# `Value` — typed vectors with change tracking

A value is the ordered elements that one attribute has on one unit, all of the declared kind; a scalar
is a value with at most one. It remembers the digest of its elements at the last point at which they
were known to agree with storage, so that any route back to those elements counts as unchanged.

## Contents
- `Value`, `Value.create`, `Value.ofElements`, `Value.duplicate`, `Value.markStored`.
- `Edit`, the changes to the elements of a value, and `Value.edit?`, which makes them.
- `Value.isModified`, `Value.needsWriting`.
-/

namespace MetadataStore

/-- The elements of one attribute on one unit. -/
@[ext]
structure Value where
  kind : Kind
  elements : List Datum
  /-- The digest of the elements when they last agreed with storage. -/
  baseline : UInt64
  isNew : Bool
  typed : ∀ datum ∈ elements, datum.kind = kind

/-- A change to the elements of a value. The raw changes bypass the form that storage keeps. -/
inductive Edit where
  /-- Replaces all elements. -/
  | set (elements : List Datum)
  /-- Appends an element. -/
  | add (element : Datum)
  /-- Removes all elements. -/
  | clear
  /-- Appends an element as it is. -/
  | rawPush (element : Datum)
  /-- Removes the last element. -/
  | rawPop
  /-- Puts an element as it is at an index that exists. -/
  | rawReplace (index : Nat) (element : Datum)
  /-- Removes the element at an index that exists. -/
  | rawRemove (index : Nat)
  /-- Turns the order around. -/
  | rawReverse
  deriving DecidableEq

namespace Edit

/-- The elements that a change brings in. -/
def operands : Edit → List Datum
  | .set elements => elements
  | .add element | .rawPush element | .rawReplace _ element => [element]
  | .clear | .rawPop | .rawRemove _ | .rawReverse => []

/-- The elements after a change. -/
def apply (edit : Edit) (elements : List Datum) : List Datum :=
  match edit with
  | .set new => new.map Datum.settled
  | .add element => elements ++ [element.settled]
  | .clear => []
  | .rawPush element => elements ++ [element]
  | .rawPop => elements.dropLast
  | .rawReplace index element => elements.set index element
  | .rawRemove index => elements.eraseIdx index
  | .rawReverse => elements.reverse

/-- What holds of the elements before a change and of those that it brings in, in the form that storage
keeps too, holds of the elements after it. -/
theorem forall_apply {p : Datum → Prop} (hsettled : ∀ datum, p datum → p datum.settled)
    {edit : Edit} {elements : List Datum} (hnew : ∀ datum ∈ edit.operands, p datum)
    (hold : ∀ datum ∈ elements, p datum) : ∀ datum ∈ edit.apply elements, p datum := by
  intro datum hmem
  cases edit with
  | set new =>
    obtain ⟨old, hin, rfl⟩ := List.mem_map.1 hmem
    exact hsettled old (hnew old hin)
  | add element =>
    rcases List.mem_append.1 hmem with h | h
    · exact hold _ h
    · rw [List.mem_singleton.1 h]
      exact hsettled element (hnew element (by simp [operands]))
  | clear => cases hmem
  | rawPush element =>
    rcases List.mem_append.1 hmem with h | h
    · exact hold _ h
    · exact List.mem_singleton.1 h ▸ hnew element (by simp [operands])
  | rawPop => exact hold _ ((List.dropLast_sublist elements).mem hmem)
  | rawReplace index element =>
    rcases List.mem_or_eq_of_mem_set hmem with h | h
    · exact hold _ h
    · exact h ▸ hnew element (by simp [operands])
  | rawRemove index => exact hold _ (List.mem_of_mem_eraseIdx hmem)
  | rawReverse => exact hold _ (List.mem_reverse.1 hmem)

/-- A change that brings in elements of the declared kind leaves all elements of that kind. -/
theorem typed_apply {kind : Kind} {edit : Edit} {elements : List Datum}
    (hnew : ∀ datum ∈ edit.operands, datum.kind = kind)
    (hold : ∀ datum ∈ elements, datum.kind = kind) :
    ∀ datum ∈ edit.apply elements, datum.kind = kind :=
  forall_apply (fun datum h => (Datum.kind_settled datum).trans h) hnew hold

end Edit

namespace Value

/-! ## Making values -/

/-- A value of elements in the form that storage keeps, unchanged from here on. -/
def ofElements (kind : Kind) (elements : List Datum) (isNew : Bool)
    (typed : ∀ datum ∈ elements, datum.kind = kind) : Value :=
  { kind
    elements := elements.map Datum.settled
    baseline := Digest.ofElements (elements.map Datum.settled)
    isNew
    typed := by
      intro datum h
      obtain ⟨old, hin, rfl⟩ := List.mem_map.1 h
      simpa using typed old hin }

/-- An empty, new value. -/
def create (kind : Kind) : Value :=
  ofElements kind [] true (by simp)

/-- The same elements, but new with respect to storage. -/
def duplicate (value : Value) : Value :=
  ofElements value.kind value.elements true value.typed

/-- The value after its elements were written to storage. -/
def markStored (value : Value) : Value :=
  ofElements value.kind value.elements false value.typed

/-! ## Looking at values -/

/-- Whether the elements differ from those that last agreed with storage. -/
def isModified (value : Value) : Bool :=
  Digest.ofElements value.elements != value.baseline

/-- Whether there is anything about the value that storage does not have. -/
def needsWriting (value : Value) : Bool :=
  value.isNew || value.isModified

/-- Whether an element could be one of the value's. -/
def accepts (value : Value) (datum : Datum) : Bool :=
  datum.kind == value.kind

/-! ## Changing values -/

/-- The value after a change, provided its kind is the requested one and so is the kind of what
comes in. -/
def edit? (value : Value) (requested : Kind) (edit : Edit) : Option Value :=
  if h : requested = value.kind ∧ ∀ datum ∈ edit.operands, datum.kind = value.kind then
    some { value with
      elements := edit.apply value.elements
      typed := Edit.typed_apply h.2 value.typed }
  else none

/-- The value after a change; asking for another kind than the declared one is a fault. -/
def edit (value : Value) (requested : Kind) (edit : Edit) : Except Fault Value :=
  match value.edit? requested edit with
  | some changed => .ok changed
  | none => .error (.valueKind value.kind requested)

/-- The elements as ones of the requested kind; another kind than the declared one is a fault. -/
def view (value : Value) (requested : Kind) : Except Fault (List Datum) :=
  if requested = value.kind then .ok value.elements
  else .error (.valueKind value.kind requested)

/-- The value with one more element; one of another kind is a fault. -/
def push (value : Value) (datum : Datum) : Except Fault Value :=
  match value.edit? value.kind (.add datum) with
  | some changed => .ok changed
  | none => .error (.elementKind datum.kind value.kind)

/-- No change touches the declared kind, the baseline or the mark of being new. -/
theorem edit?_eq_some {value changed : Value} {requested : Kind} {edit : Edit}
    (h : value.edit? requested edit = some changed) :
    requested = value.kind ∧ changed.kind = value.kind ∧ changed.baseline = value.baseline ∧
      changed.isNew = value.isNew ∧ changed.elements = edit.apply value.elements := by
  unfold edit? at h
  split at h
  · rename_i hk
    cases h
    exact ⟨hk.1, rfl, rfl, rfl, rfl⟩
  · cases h

end Value

end MetadataStore
