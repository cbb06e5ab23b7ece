import Mathlib.Data.List.DropRight
import MetadataStore.Proofs.Digest
import MetadataStore.Value

/-!
# `Proofs.Value` — a value knows whether its elements changed

Elements are changed through setters and behind them, and changed back in any order. What a value
remembers is one digest, taken at its last mark: when it was made, read from rows, duplicated or stored.
Between marks no step touches that digest, so along a whole run the digest is that of the elements at the
last mark; and since sequences are told apart by their bytes, only a collision in the mixing can hide
that the elements are other ones.

## Contents
- `ValueStep`, `Value.take`, `Value.run`: histories of a value, a fault leaving it as it was.
- `Value.Origin`, the values at which histories begin; `ValueStep.upToMark`, `sinceDuplicate`.
- `Value.run_kind`, `run_baseline`, `run_isNew`: what each step keeps, along a run.
- `Value.run_tracks_elements`: kind, faults, the mark of being new and the mark of being modified.
-/

namespace MetadataStore

/-! ## Histories -/

/-- A step on a value. -/
inductive ValueStep where
  /-- One more element, of whatever kind. -/
  | push (datum : Datum)
  /-- A change to the elements as ones of the requested kind. -/
  | edit (requested : Kind) (edit : Edit)
  /-- The elements count as stored. -/
  | stored
  /-- A duplicate in its place. -/
  | duplicate
  deriving DecidableEq

namespace ValueStep

/-- Whether the elements after a step are those that later ones are compared with. -/
def isMark : ValueStep → Bool
  | .push _ | .edit _ _ => false
  | .stored | .duplicate => true

/-- The elements that a step brings in. -/
def operands : ValueStep → List Datum
  | .push datum => [datum]
  | .edit _ change => change.operands
  | .stored | .duplicate => []

/-- Whether a step asks for nothing but elements of a kind. -/
def Suits (kind : Kind) : ValueStep → Prop
  | .push datum => datum.kind = kind
  | .edit requested change => requested = kind ∧ ∀ datum ∈ change.operands, datum.kind = kind
  | .stored | .duplicate => True

/-- The steps up to the last mark, which is their last. -/
def upToMark (steps : List ValueStep) : List ValueStep :=
  steps.rdropWhile fun step => !step.isMark

/-- The steps after the last duplication; all of them if there is none. -/
def sinceDuplicate (steps : List ValueStep) : List ValueStep :=
  steps.rtakeWhile fun step => step != .duplicate

end ValueStep

namespace Value

/-- The value after a step. -/
def take (value : Value) : ValueStep → Except Fault Value
  | .push datum => value.push datum
  | .edit requested edit => value.edit requested edit
  | .stored => .ok value.markStored
  | .duplicate => .ok value.duplicate

/-- The value after a step that may be refused. -/
def next (value : Value) (step : ValueStep) : Value :=
  match value.take step with
  | .ok changed => changed
  | .error _ => value

/-- The value after a history. -/
def run (value : Value) (steps : List ValueStep) : Value :=
  steps.foldl next value

/-- How a value comes about. -/
inductive Origin where
  /-- Made, without elements. -/
  | created (kind : Kind)
  /-- Read from rows. -/
  | inflated (kind : Kind) (elements : List Datum) (typed : ∀ datum ∈ elements, datum.kind = kind)

/-- The value that came about. -/
def Origin.value : Origin → Value
  | .created kind => .create kind
  | .inflated kind elements typed => .ofElements kind elements false typed

@[simp] theorem run_nil (value : Value) : value.run [] = value := rfl

@[simp] theorem run_concat (value : Value) (steps : List ValueStep) (step : ValueStep) :
    value.run (steps ++ [step]) = (value.run steps).next step := by
  simp [run]

/-! ## One step -/

variable {value changed : Value} {step : ValueStep}

/-- **All that a step can do**: it changes elements and nothing else, or it is a mark. -/
theorem take_eq_ok (h : value.take step = .ok changed) :
    (∃ edit : Edit, edit.operands = step.operands ∧ step.isMark = false ∧
      value.edit? value.kind edit = some changed) ∨
    (step = .stored ∧ changed = value.markStored) ∨
    (step = .duplicate ∧ changed = value.duplicate) := by
  cases step with
  | push datum =>
    refine Or.inl ⟨.add datum, rfl, rfl, ?_⟩
    simp only [take, push] at h
    split at h
    · cases h
      assumption
    · cases h
  | edit requested edit =>
    refine Or.inl ⟨edit, rfl, rfl, ?_⟩
    simp only [take, Value.edit] at h
    split at h
    · cases h
      rename_i hedit
      rwa [(edit?_eq_some hedit).1] at hedit
    · cases h
  | stored => exact Or.inr (Or.inl ⟨rfl, (Except.ok.inj h).symm⟩)
  | duplicate => exact Or.inr (Or.inr ⟨rfl, (Except.ok.inj h).symm⟩)

theorem edit?_isSome_iff (value : Value) (requested : Kind) (edit : Edit) :
    (value.edit? requested edit).isSome = true ↔
      requested = value.kind ∧ ∀ datum ∈ edit.operands, datum.kind = value.kind := by
  unfold edit?
  split <;> simp_all

/-- **A step is refused exactly when it asks for another kind.** -/
theorem take_isOk_iff (value : Value) (step : ValueStep) :
    (∃ changed, value.take step = .ok changed) ↔ step.Suits value.kind := by
  cases step with
  | push datum =>
    have hsome := value.edit?_isSome_iff value.kind (.add datum)
    simp only [Edit.operands, List.mem_singleton, forall_eq, true_and] at hsome
    simp only [take, push, ValueStep.Suits]
    rw [← hsome]
    cases value.edit? value.kind (.add datum) <;> simp
  | edit requested edit =>
    have hsome := value.edit?_isSome_iff requested edit
    simp only [take, Value.edit, ValueStep.Suits]
    rw [← hsome]
    cases value.edit? requested edit <;> simp
  | stored => exact ⟨fun _ => trivial, fun _ => ⟨_, rfl⟩⟩
  | duplicate => exact ⟨fun _ => trivial, fun _ => ⟨_, rfl⟩⟩

/-- A refused step leaves the value as it was. -/
theorem next_of_not_suits (h : ¬ step.Suits value.kind) :
    (∃ fault, value.take step = .error fault) ∧ value.next step = value := by
  unfold next
  cases htake : value.take step with
  | ok changed => exact absurd ((take_isOk_iff value step).1 ⟨changed, htake⟩) h
  | error fault => exact ⟨⟨fault, rfl⟩, rfl⟩

/-- A step either is refused, and nothing changes, or is taken. -/
theorem next_cases {motive : Value → Prop} (hrefused : motive value)
    (htaken : ∀ changed, value.take step = .ok changed → motive changed) :
    motive (value.next step) := by
  unfold next
  cases htake : value.take step with
  | ok changed => exact htaken changed htake
  | error fault => exact hrefused

@[simp] theorem kind_next (value : Value) (step : ValueStep) :
    (value.next step).kind = value.kind := by
  refine next_cases (motive := fun changed => changed.kind = value.kind) rfl fun changed h => ?_
  rcases take_eq_ok h with ⟨edit, -, -, hedit⟩ | ⟨-, rfl⟩ | ⟨-, rfl⟩
  · exact (edit?_eq_some hedit).2.1
  · rfl
  · rfl

/-- Between marks the digest and the mark of being new stay. -/
theorem next_of_not_isMark (h : step.isMark = false) :
    (value.next step).baseline = value.baseline ∧ (value.next step).isNew = value.isNew := by
  refine next_cases (motive := fun changed =>
    changed.baseline = value.baseline ∧ changed.isNew = value.isNew) ⟨rfl, rfl⟩ fun changed htake => ?_
  rcases take_eq_ok htake with ⟨edit, -, -, hedit⟩ | ⟨rfl, -⟩ | ⟨rfl, -⟩
  · obtain ⟨-, -, hbaseline, hnew, -⟩ := edit?_eq_some hedit
    exact ⟨hbaseline, hnew⟩
  · cases h
  · cases h

/-- A mark takes the digest of the elements it leaves. -/
theorem baseline_next_of_isMark (h : step.isMark = true) :
    (value.next step).baseline = Digest.ofElements (value.next step).elements := by
  cases step with
  | push | edit => cases h
  | stored | duplicate => rfl

/-! ## Whole histories -/

/-- The declared type never changes. -/
@[simp] theorem run_kind (value : Value) (steps : List ValueStep) :
    (value.run steps).kind = value.kind := by
  induction steps using List.reverseRecOn with
  | nil => rfl
  | append_singleton steps step ih => rw [run_concat, kind_next, ih]

/-- The digest that a value has is that of its elements at the last mark. -/
theorem run_baseline {start : Value} (hstart : start.baseline = Digest.ofElements start.elements)
    (steps : List ValueStep) :
    (start.run steps).baseline =
      Digest.ofElements (start.run (ValueStep.upToMark steps)).elements := by
  unfold ValueStep.upToMark
  induction steps using List.reverseRecOn with
  | nil => exact hstart
  | append_singleton steps step ih =>
    rw [List.rdropWhile_concat]
    cases hmark : step.isMark with
    | true => simpa using baseline_next_of_isMark hmark
    | false =>
      rw [run_concat, (next_of_not_isMark hmark).1]
      simpa using ih

/-- A value is new from when it is made or duplicated until it is stored. -/
theorem run_isNew (start : Value) (steps : List ValueStep) :
    (start.run steps).isNew = true ↔ .stored ∉ ValueStep.sinceDuplicate steps ∧
      (.duplicate ∈ steps ∨ start.isNew = true) := by
  unfold ValueStep.sinceDuplicate
  induction steps using List.reverseRecOn with
  | nil => simp
  | append_singleton steps step ih =>
    rw [List.rtakeWhile_concat, run_concat]
    cases step with
    | push datum =>
      rw [(next_of_not_isMark (show (ValueStep.push datum).isMark = false from rfl)).2, ih]
      simp
    | edit requested edit =>
      rw [(next_of_not_isMark (show (ValueStep.edit requested edit).isMark = false from rfl)).2, ih]
      simp
    | stored => simp [next, take, markStored, ofElements]
    | duplicate => simp [next, take, duplicate, ofElements]

/-- What holds of the first elements and of all that steps bring in, in the form that storage keeps too,
holds of the elements at any time. -/
theorem forall_elements_run {p : Datum → Prop} (hsettled : ∀ datum, p datum → p datum.settled)
    {start : Value} (hstart : ∀ datum ∈ start.elements, p datum) {steps : List ValueStep}
    (hsteps : ∀ step ∈ steps, ∀ datum ∈ step.operands, p datum) :
    ∀ datum ∈ (start.run steps).elements, p datum := by
  induction steps using List.reverseRecOn with
  | nil => exact hstart
  | append_singleton steps step ih =>
    have hbefore := ih fun other hother => hsteps other (List.mem_append_left _ hother)
    have hnew := hsteps step (List.mem_append_right _ (List.mem_singleton.2 rfl))
    rw [run_concat]
    refine next_cases (motive := fun changed => ∀ datum ∈ changed.elements, p datum) hbefore
      fun changed htake => ?_
    have hmark : ∀ datum ∈ (start.run steps).elements.map Datum.settled, p datum := by
      intro datum hmem
      obtain ⟨old, hin, rfl⟩ := List.mem_map.1 hmem
      exact hsettled old (hbefore old hin)
    rcases take_eq_ok htake with ⟨edit, hoperands, -, hedit⟩ | ⟨-, rfl⟩ | ⟨-, rfl⟩
    · rw [(edit?_eq_some hedit).2.2.2.2]
      rw [← hoperands] at hnew
      exact Edit.forall_apply hsettled hnew hbefore
    · exact hmark
    · exact hmark

theorem Origin.baseline_value (origin : Origin) :
    origin.value.baseline = Digest.ofElements origin.value.elements := by
  cases origin <;> rfl

/-- A value counts as modified when its digest is another than that of the elements at its last mark. -/
theorem isModified_run_iff (origin : Origin) (steps : List ValueStep) :
    (origin.value.run steps).isModified = true ↔
      Digest.ofElements (origin.value.run steps).elements ≠
        Digest.ofElements (origin.value.run (ValueStep.upToMark steps)).elements := by
  rw [isModified, run_baseline origin.baseline_value, bne_iff_ne]

/-- **A value knows whether its elements changed.** Whatever happens to it, its kind stays; what asks for
another kind fails and changes nothing; it is new from when it is made or duplicated until it is stored;
and unless the mixing brings together the bytes of the two sequences, it counts as modified exactly while
its elements are others than those at its last mark. The bytes that are mixed tell all sequences of a kind
apart. -/
theorem run_tracks_elements (origin : Origin) (steps : List ValueStep)
    (horigin : ∀ datum ∈ origin.value.elements, datum.IsAddressable)
    (hsteps : ∀ step ∈ steps, ∀ datum ∈ step.operands, datum.IsAddressable) :
    let now := origin.value.run steps
    let base := origin.value.run (ValueStep.upToMark steps)
    (now.kind = origin.value.kind) ∧
    (∀ step : ValueStep, ¬ step.Suits now.kind →
      (∃ fault, now.take step = .error fault) ∧ now.next step = now) ∧
    (∀ requested ≠ now.kind, now.view requested = .error (.valueKind now.kind requested)) ∧
    (now.isNew = true ↔ .stored ∉ ValueStep.sinceDuplicate steps ∧
      (.duplicate ∈ steps ∨ ∃ kind, origin = .created kind)) ∧
    ((Digest.mix (Digest.encode now.elements) = Digest.mix (Digest.encode base.elements) →
        Digest.encode now.elements = Digest.encode base.elements) →
      (now.isModified = true ↔ now.elements ≠ base.elements)) ∧
    (now.elements = base.elements → now.isModified = false) ∧
    (∀ (kind : Kind) (xs ys : List Datum), (∀ x ∈ xs, x.kind = kind ∧ x.IsAddressable) →
      (∀ y ∈ ys, y.kind = kind ∧ y.IsAddressable) → Digest.encode xs = Digest.encode ys → xs = ys) := by
  intro now base
  have hsettled : ∀ datum : Datum, datum.IsAddressable → datum.settled.IsAddressable :=
    fun datum => (Datum.isAddressable_settled datum).2
  have hnow : ∀ datum ∈ now.elements, datum.kind = origin.value.kind ∧ datum.IsAddressable :=
    fun datum hmem => ⟨(now.typed datum hmem).trans (run_kind _ _),
      forall_elements_run hsettled horigin hsteps datum hmem⟩
  have hbase : ∀ datum ∈ base.elements, datum.kind = origin.value.kind ∧ datum.IsAddressable :=
    fun datum hmem => ⟨(base.typed datum hmem).trans (run_kind _ _),
      forall_elements_run hsettled horigin
        (fun step hstep => hsteps step ((List.rdropWhile_prefix _ _).subset hstep)) datum hmem⟩
  refine ⟨run_kind _ _, fun step hstep => next_of_not_suits hstep, ?_, ?_, ?_, ?_,
    fun kind xs ys hxs hys h => Digest.encode_injective hxs hys h⟩
  · intro requested hne
    exact if_neg hne
  · have hcreated : origin.value.isNew = true ↔ ∃ kind, origin = .created kind := by
      cases origin <;> simp [Origin.value, create, ofElements]
    rw [← hcreated]
    exact run_isNew _ _
  · intro hmix
    rw [isModified_run_iff]
    constructor
    · intro hdigest heq
      exact hdigest (congrArg Digest.ofElements heq)
    · intro hne hdigest
      exact hne (Digest.encode_injective hnow hbase (hmix hdigest))
  · intro heq
    rw [← Bool.not_eq_true, isModified_run_iff]
    exact fun hne => hne (congrArg Digest.ofElements heq)

/-- An element that is added shows, and once it is taken back nothing does. -/
theorem run_tracks_undone :
    ((Origin.created .string).value.run
      [.push (.string "a"), .stored, .push (.string "b")]).isModified = true ∧
    ((Origin.created .string).value.run
      [.push (.string "a"), .stored, .push (.string "b"), .edit .string .rawPop]).isModified =
        false := by
  obtain ⟨-, -, -, -, hadded, -⟩ := run_tracks_elements (.created .string)
    [.push (.string "a"), .stored, .push (.string "b")] (by decide) (by decide)
  obtain ⟨-, -, -, -, -, hundone, -⟩ := run_tracks_elements (.created .string)
    [.push (.string "a"), .stored, .push (.string "b"), .edit .string .rawPop] (by decide) (by decide)
  refine ⟨(hadded fun hmix => absurd hmix (by decide +kernel)).2 (by decide), hundone (by decide)⟩

end Value

end MetadataStore
