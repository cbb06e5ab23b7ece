import Mathlib.Data.List.Forall2
import Mathlib.Data.List.Pairwise
import Mathlib.Data.List.SplitBy
import Mathlib.Data.List.TakeWhile
import MetadataStore.Proofs.Datum
import MetadataStore.Rows

/-!
# `Proofs.Rows` — rows taken apart into attributes

Two loops share the rows of a fetch: the outer one builds an attribute, the inner one reads the elements
of its value, up to the first row of another value. So every call of the outer loop takes one maximal run
of rows of the same value number, and what it builds is settled by that run alone. Read the other way
round, attributes written as rows under different value numbers come back as they were stored.

## Contents
- `Row.runs`, the maximal runs of a list of rows.
- `Row.readElements_eq_ok_iff`, the inner loop; `Attribute.BuiltFrom`, `Attribute.inflate_eq_ok_iff`, one
  call of the outer one.
- `Attribute.Calls`, calls until the rows are used up or one fails; `Attribute.calls_iff`.
- `Attribute.asRows`, an attribute as rows; `Attribute.inflate_asRows`.
- `Attribute.inflation_partitions_and_inverts`.
-/

namespace MetadataStore

/-! ## Runs -/

namespace Row

/-- Whether a row belongs to a value. -/
def isOf (valueId : Int) (row : Row) : Bool :=
  row.valueId == valueId

@[simp] theorem isOf_iff {valueId : Int} {row : Row} : row.isOf valueId = true ↔ row.valueId = valueId :=
  beq_iff_eq

/-- The maximal runs of neighbouring rows that belong to the same value. -/
def runs (rows : List Row) : List (List Row) :=
  rows.splitBy fun row next => row.valueId == next.valueId

theorem valueId_of_mem_takeWhile {valueId : Int} {rows : List Row} {row : Row}
    (h : row ∈ rows.takeWhile (isOf valueId)) : row.valueId = valueId :=
  isOf_iff.1 (List.mem_takeWhile_imp h)

/-- Rows of a value that are followed by rows of others are what stands before the first of those. -/
theorem takeWhile_append {valueId : Int} {run rest : List Row}
    (hrun : ∀ row ∈ run, row.valueId = valueId) (hrest : ∀ row ∈ rest, row.valueId ≠ valueId) :
    (run ++ rest).takeWhile (isOf valueId) = run ∧ (run ++ rest).dropWhile (isOf valueId) = rest := by
  have hown : ∀ row ∈ run, row.isOf valueId = true := fun row hrow => isOf_iff.2 (hrun row hrow)
  have hother : ∀ row ∈ rest, ¬ row.isOf valueId = true := fun row hrow hof =>
    hrest row hrow (isOf_iff.1 hof)
  rw [List.takeWhile_append_of_pos hown, List.dropWhile_append_of_pos hown]
  cases rest with
  | nil => exact ⟨List.append_nil run, rfl⟩
  | cons first rest =>
    have hfirst := hother first List.mem_cons_self
    rw [List.takeWhile_cons_of_neg hfirst, List.dropWhile_cons_of_neg hfirst, List.append_nil]
    exact ⟨rfl, rfl⟩

/-- The first run is what stands before the first row of another value. -/
theorem runs_cons (first : Row) (tail : List Row) :
    runs (first :: tail) =
      (first :: tail).takeWhile (isOf first.valueId) ::
        runs ((first :: tail).dropWhile (isOf first.valueId)) := by
  have hfirst : (first :: tail).takeWhile (isOf first.valueId) ≠ [] := by
    rw [List.takeWhile_cons_of_pos (isOf_iff.2 rfl)]
    exact List.cons_ne_nil _ _
  have hchain : ((first :: tail).takeWhile (isOf first.valueId)).IsChain
      fun row next => (row.valueId == next.valueId) = true := by
    refine (List.pairwise_of_forall_mem_list fun row hrow next hnext => ?_).isChain
    rw [valueId_of_mem_takeWhile hrow, valueId_of_mem_takeWhile hnext]
    exact beq_self_eq_true _
  conv_lhs => rw [← List.takeWhile_append_dropWhile (p := isOf first.valueId) (l := first :: tail)]
  unfold runs
  rw [List.splitBy_append, List.splitBy_of_isChain hfirst hchain]
  · rfl
  · intro last hlast next hnext
    -- the run ends in a row of the value, and the next row is of another one
    have hlast := valueId_of_mem_takeWhile (List.mem_of_mem_getLast? hlast)
    have hother := List.head?_dropWhile_not (isOf first.valueId) (first :: tail)
    rw [Option.mem_def.1 hnext] at hother
    simp only [isOf, beq_eq_false_iff_ne] at hother
    rw [hlast, beq_eq_false_iff_ne]
    exact fun heq => hother heq.symm

/-! ## The inner loop -/

/-- Elements that are those of the rows with an index, in order. -/
def ElementsOf (kind : Kind) (run : List Row) (elements : List Datum) : Prop :=
  List.Forall₂ (fun row datum => Datum.ofCell kind row.cell = .ok datum)
    (run.filter fun row => row.index.isSome) elements

theorem ElementsOf.unique {kind : Kind} {run : List Row} {xs ys : List Datum}
    (hxs : ElementsOf kind run xs) (hys : ElementsOf kind run ys) : xs = ys :=
  Relator.RightUnique.forall₂ (fun _ _ _ hx hy => Except.ok.inj (hx.symm.trans hy)) hxs hys

/-- **The inner loop reads one run**, and fails only where an element cannot be read. -/
theorem readElements_eq_ok_iff {kind : Kind} {valueId : Int} {rows rest : List Row}
    {elements : List Datum} :
    readElements kind valueId rows = (.ok elements, rest) ↔
      ElementsOf kind (rows.takeWhile (isOf valueId)) elements ∧
        rest = rows.dropWhile (isOf valueId) := by
  unfold ElementsOf
  induction rows generalizing elements with
  | nil =>
    simp only [readElements, List.takeWhile_nil, List.filter_nil, List.dropWhile_nil,
      List.forall₂_nil_left_iff, Prod.mk.injEq, Except.ok.injEq]
    exact ⟨fun h => ⟨h.1.symm, h.2.symm⟩, fun h => ⟨h.1.symm, h.2.symm⟩⟩
  | cons row rows ih =>
    by_cases hvalue : row.valueId = valueId
    · have hof := isOf_iff.2 hvalue
      rw [List.takeWhile_cons_of_pos hof, List.dropWhile_cons_of_pos hof, readElements,
        if_pos hvalue]
      cases hindex : row.index with
      | none =>
        -- a row without an index only declares the value
        rw [List.filter_cons_of_neg (by simp [hindex])]
        exact ih
      | some index =>
        rw [List.filter_cons_of_pos (by simp [hindex])]
        cases hcell : Datum.ofCell kind row.cell with
        | error cause =>
          constructor
          · intro h
            cases h
          · rintro ⟨h, -⟩
            obtain ⟨datum, _, hdatum, -⟩ := List.forall₂_cons_left_iff.1 h
            rw [hcell] at hdatum
            cases hdatum
        | ok datum =>
          cases hread : readElements kind valueId rows with
          | mk outcome left =>
            simp only
            constructor
            · intro h
              cases outcome with
              | error fault => cases h
              | ok read =>
                cases h
                obtain ⟨helements, hrest⟩ := ih.1 hread
                exact ⟨.cons hcell helements, hrest⟩
            · rintro ⟨h, rfl⟩
              obtain ⟨datum', more, hdatum, hmore, rfl⟩ := List.forall₂_cons_left_iff.1 h
              rw [hcell] at hdatum
              cases hdatum
              have hsame := hread.symm.trans (ih.2 ⟨hmore, rfl⟩)
              cases hsame
              rfl
    · have hof : ¬ row.isOf valueId = true := fun h => hvalue (isOf_iff.1 h)
      rw [List.takeWhile_cons_of_neg hof, List.dropWhile_cons_of_neg hof, readElements,
        if_neg hvalue, List.filter_nil, List.forall₂_nil_left_iff]
      simp only [Prod.mk.injEq, Except.ok.injEq]
      exact ⟨fun h => ⟨h.1.symm, h.2.symm⟩, fun h => ⟨h.1.symm, h.2.symm⟩⟩

end Row

namespace Attribute

/-! ## One call -/

/-- An attribute is the one that a run of rows stands for: it has the header of the first row, and its
elements are those of the rows with an index, in the form that storage keeps; nothing about it is new or
modified. -/
structure BuiltFrom (run : List Row) (a : Attribute) : Prop where
  header : ∃ first, run.head? = some first ∧ a.id = first.attributeId ∧ a.name = first.name ∧
    a.scalar = first.scalar ∧ a.valueId = some first.valueId ∧
    Kind.ofCode? first.kindCode = some a.kind
  elements : ∃ elements, Row.ElementsOf a.kind run elements ∧
    a.value.elements = elements.map Datum.settled
  baseline : a.value.baseline = Digest.ofElements a.value.elements
  isNew : a.value.isNew = false

variable {rows rest left : List Row} {a : Attribute}

/-- An attribute is built from the header of the first row and the elements of its value. -/
theorem inflate_of_read {first : Row} {tail : List Row} {kind : Kind} {elements : List Datum}
    (hkind : Kind.ofCode? first.kindCode = some kind)
    (hread : Row.readElements kind first.valueId (first :: tail) = (.ok elements, rest)) :
    ∃ typed, inflate (first :: tail) =
      (.ok ⟨first.attributeId, first.name, first.scalar, some first.valueId,
        .ofElements kind elements false typed⟩, rest) := by
  unfold inflate
  simp only [hkind]
  split
  · rename_i fault other heq
    rw [hread] at heq
    cases heq
  · rename_i elements' other heq
    have hsame := hread.symm.trans heq
    simp only [Prod.mk.injEq, Except.ok.injEq] at hsame
    obtain ⟨rfl, rfl⟩ := hsame
    exact ⟨Row.typed_readElements (by rw [hread]), rfl⟩

/-- What is built from the first row and the elements that were read stands for the run. -/
theorem builtFrom_of_read {first : Row} {tail : List Row} {kind : Kind} {elements : List Datum}
    (hkind : Kind.ofCode? first.kindCode = some kind)
    (hread : Row.readElements kind first.valueId (first :: tail) = (.ok elements, rest))
    (typed : ∀ datum ∈ elements, datum.kind = kind) :
    BuiltFrom ((first :: tail).takeWhile (Row.isOf first.valueId))
      ⟨first.attributeId, first.name, first.scalar, some first.valueId,
        .ofElements kind elements false typed⟩ where
  header := by
    rw [List.takeWhile_cons_of_pos (Row.isOf_iff.2 rfl)]
    exact ⟨first, rfl, rfl, rfl, rfl, rfl, hkind⟩
  elements := ⟨elements, (Row.readElements_eq_ok_iff.1 hread).1, rfl⟩
  baseline := rfl
  isNew := rfl

/-- A run stands for one attribute at most. -/
theorem BuiltFrom.unique {run : List Row} {b : Attribute} (ha : a.BuiltFrom run)
    (hb : b.BuiltFrom run) : a = b := by
  obtain ⟨first, hfirst, haid, haname, hascalar, havalue, hakind⟩ := ha.header
  obtain ⟨other, hother, hbid, hbname, hbscalar, hbvalue, hbkind⟩ := hb.header
  cases hfirst.symm.trans hother
  have hkind : a.kind = b.kind := Option.some.inj (hakind.symm.trans hbkind)
  obtain ⟨xs, hxs, haelements⟩ := ha.elements
  obtain ⟨ys, hys, hbelements⟩ := hb.elements
  rw [← hkind] at hys
  have hsame : xs = ys := Row.ElementsOf.unique hxs hys
  have helements : a.value.elements = b.value.elements := by
    rw [haelements, hbelements, hsame]
  have hvalue : a.value = b.value := by
    refine Value.ext hkind helements ?_ (ha.isNew.trans hb.isNew.symm)
    rw [ha.baseline, hb.baseline, helements]
  exact Attribute.ext (haid.trans hbid.symm) (haname.trans hbname.symm)
    (hascalar.trans hbscalar.symm) (havalue.trans hbvalue.symm) hvalue

/-- **One call takes one maximal run**, and builds what the run stands for. -/
theorem inflate_eq_ok_iff :
    inflate rows = (.ok a, rest) ↔ ∃ first tail, rows = first :: tail ∧
      a.BuiltFrom (rows.takeWhile (Row.isOf first.valueId)) ∧
      rest = rows.dropWhile (Row.isOf first.valueId) := by
  constructor
  · intro h
    cases rows with
    | nil => cases h
    | cons first tail =>
      refine ⟨first, tail, rfl, ?_⟩
      cases hkind : Kind.ofCode? first.kindCode with
      | none => simp [inflate, hkind] at h
      | some kind =>
        cases hread : Row.readElements kind first.valueId (first :: tail) with
        | mk outcome left =>
          cases outcome with
          | error fault =>
            unfold inflate at h
            simp only [hkind] at h
            split at h
            · cases h
            · rename_i heq
              cases hread.symm.trans heq
          | ok elements =>
            obtain ⟨typed, hbuilt⟩ := inflate_of_read hkind hread
            cases hbuilt.symm.trans h
            exact ⟨builtFrom_of_read hkind hread typed, (Row.readElements_eq_ok_iff.1 hread).2⟩
  · rintro ⟨first, tail, rfl, ha, rfl⟩
    obtain ⟨first', hfirst, -, -, -, -, hkind⟩ := ha.header
    obtain ⟨elements, helements, -⟩ := ha.elements
    rw [List.takeWhile_cons_of_pos (Row.isOf_iff.2 rfl)] at hfirst
    cases hfirst
    have hread := Row.readElements_eq_ok_iff.2 ⟨helements, rfl⟩
    obtain ⟨typed, hbuilt⟩ := inflate_of_read hkind hread
    rw [hbuilt, (builtFrom_of_read hkind hread typed).unique ha]

/-! ## All calls -/

/-- Calls one after the other, until the rows are used up or one fails: what they build, the fault if
there is one, and the rows left. -/
inductive Calls : List Row → List Attribute → Option Fault → List Row → Prop where
  | exhausted : Calls [] [] none []
  | failed {rows left : List Row} {fault : Fault} (hmore : rows ≠ [])
      (h : inflate rows = (.error fault, left)) : Calls rows [] (some fault) left
  | succeeded {rows rest left : List Row} {a : Attribute} {more : List Attribute}
      {fault : Option Fault} (hmore : rows ≠ []) (h : inflate rows = (.ok a, rest))
      (hcalls : Calls rest more fault left) : Calls rows (a :: more) fault left

theorem inflateAll_nil : inflateAll [] = ([], none, []) := by
  rw [inflateAll]
  rfl

theorem inflateAll_of_error {fault : Fault} (hmore : rows ≠ [])
    (h : inflate rows = (.error fault, left)) : inflateAll rows = ([], some fault, left) := by
  rw [inflateAll, if_neg (by simpa using hmore)]
  split
  · rename_i heq
    cases h.symm.trans heq
    rfl
  · rename_i heq
    cases h.symm.trans heq

theorem inflateAll_of_ok (hmore : rows ≠ []) (h : inflate rows = (.ok a, rest)) :
    inflateAll rows = (a :: (inflateAll rest).1, (inflateAll rest).2) := by
  rw [inflateAll, if_neg (by simpa using hmore)]
  split
  · rename_i heq
    cases h.symm.trans heq
  · rename_i heq
    cases h.symm.trans heq
    rfl

/-- **The calls come to an end**, and always to the same one. -/
theorem calls_iff {attributes : List Attribute} {fault : Option Fault} :
    Calls rows attributes fault left ↔ inflateAll rows = (attributes, fault, left) := by
  constructor
  · intro h
    induction h with
    | exhausted => exact inflateAll_nil
    | failed hmore h => exact inflateAll_of_error hmore h
    | succeeded hmore h _ ih => rw [inflateAll_of_ok hmore h, ih]
  · intro h
    -- each successful call leaves fewer rows
    induction hn : rows.length using Nat.strongRecOn generalizing rows attributes with
    | ind n ih =>
      cases rows with
      | nil =>
        cases inflateAll_nil.symm.trans h
        exact .exhausted
      | cons first tail =>
        have hmore : first :: tail ≠ [] := List.cons_ne_nil first tail
        cases hstep : inflate (first :: tail) with
        | mk outcome rest =>
          cases outcome with
          | error cause =>
            cases (inflateAll_of_error hmore hstep).symm.trans h
            exact .failed hmore hstep
          | ok a =>
            obtain ⟨rfl, htail⟩ := Prod.mk.inj ((inflateAll_of_ok hmore hstep).symm.trans h)
            refine .succeeded hmore hstep (ih _ (hn ▸ length_inflate_lt hstep) ?_ rfl)
            rw [← htail]

/-- **The calls partition the rows**: the attributes stand for the first runs, one for each, and for all of
them unless a call fails. -/
theorem Calls.builtFrom {attributes : List Attribute} {fault : Option Fault}
    (h : Calls rows attributes fault left) :
    List.Forall₂ BuiltFrom ((Row.runs rows).take attributes.length) attributes ∧
      (fault = none → attributes.length = (Row.runs rows).length ∧ left = []) := by
  induction h with
  | exhausted => exact ⟨.nil, fun _ => ⟨rfl, rfl⟩⟩
  | failed hmore h => exact ⟨.nil, nofun⟩
  | succeeded hmore h _ ih =>
    obtain ⟨first, tail, rfl, hbuilt, rfl⟩ := inflate_eq_ok_iff.1 h
    obtain ⟨hmoreBuilt, hall⟩ := ih
    rw [Row.runs_cons]
    refine ⟨.cons hbuilt hmoreBuilt, fun hnone => ?_⟩
    obtain ⟨hlength, hleft⟩ := hall hnone
    exact ⟨congrArg (· + 1) hlength, hleft⟩

/-! ## Attributes as rows -/

/-- The rows of an attribute whose value has the given number: one for each element, or one without an
index that declares an empty value. -/
def asRows (a : Attribute) (valueId : Int) : List Row :=
  let row (index : Option Int) (cell : Cell) : Row :=
    ⟨a.id, a.name, a.kind.code, a.scalar, valueId, index, cell⟩
  match a.value.elements with
  | [] => [row none .null]
  | elements => elements.mapIdx fun index datum => row (some index) datum.toCell

theorem valueId_of_mem_asRows {valueId : Int} {row : Row} (h : row ∈ a.asRows valueId) :
    row.valueId = valueId := by
  unfold asRows at h
  split at h
  · rw [List.mem_singleton.1 h]
  · obtain ⟨index, hlt, rfl⟩ := List.mem_mapIdx.1 h
    rfl

theorem elementsOf_mapIdx {kind : Kind} {elements : List Datum}
    (htyped : ∀ datum ∈ elements, datum.kind = kind) (row : Nat → Datum → Row)
    (hrow : ∀ index datum, (row index datum).index.isSome = true ∧
      (row index datum).cell = datum.toCell) :
    Row.ElementsOf kind (elements.mapIdx row) (elements.map Datum.settled) := by
  unfold Row.ElementsOf
  induction elements generalizing row with
  | nil => exact .nil
  | cons datum elements ih =>
    rw [List.mapIdx_cons, List.filter_cons_of_pos (by simp [hrow]), List.map_cons]
    refine .cons ?_ (ih (fun other hother => htyped other (List.mem_cons_of_mem datum hother)) _
      fun index other => hrow (index + 1) other)
    rw [(hrow 0 datum).2, ← htyped datum List.mem_cons_self]
    exact Datum.ofCell_toCell datum

/-- The rows of an attribute stand for it as it was stored. -/
theorem builtFrom_asRows (a : Attribute) (valueId : Int) :
    (a.markStored valueId).BuiltFrom (a.asRows valueId) where
  header := by
    unfold asRows
    split
    · exact ⟨_, rfl, rfl, rfl, rfl, rfl, Kind.ofCode?_code a.kind⟩
    · rename_i elements hne
      cases helements : a.value.elements with
      | nil => exact absurd helements hne
      | cons datum elements =>
        rw [List.mapIdx_cons]
        exact ⟨_, rfl, rfl, rfl, rfl, rfl, Kind.ofCode?_code a.kind⟩
  elements := by
    refine ⟨a.value.elements.map Datum.settled, ?_, ?_⟩
    · unfold asRows
      split
      · rename_i hnone
        rw [hnone]
        exact .nil
      · exact elementsOf_mapIdx a.value.typed _ fun _ _ => ⟨rfl, rfl⟩
    · rw [List.map_map]
      exact List.map_congr_left fun datum _ => (Datum.settled_settled datum).symm
  baseline := rfl
  isNew := rfl

/-- **The rows of an attribute are read as it was stored**, and rows of other values are left. -/
theorem inflate_asRows (a : Attribute) (valueId : Int)
    (hrest : ∀ row ∈ rest, row.valueId ≠ valueId) :
    inflate (a.asRows valueId ++ rest) = (.ok (a.markStored valueId), rest) := by
  obtain ⟨htake, hdrop⟩ := Row.takeWhile_append
    (fun row hrow => valueId_of_mem_asRows (a := a) hrow) hrest
  have hbuilt := builtFrom_asRows a valueId
  obtain ⟨first, hfirst, -, -, -, hvalue, -⟩ := hbuilt.header
  obtain ⟨tail, htail⟩ := List.head?_eq_some_iff.1 hfirst
  have hsame : first.valueId = valueId := (Option.some.inj hvalue).symm
  refine inflate_eq_ok_iff.2 ⟨first, tail ++ rest, by rw [htail, List.cons_append], ?_, ?_⟩
  · rw [hsame, htake]
    exact hbuilt
  · rw [hsame, hdrop]

/-- Attributes under different value numbers come back from their rows, in order. -/
theorem calls_asRows {entries : List (Int × Attribute)} (hdistinct : (entries.map Prod.fst).Nodup) :
    Calls (entries.flatMap fun entry => entry.2.asRows entry.1)
      (entries.map fun entry => entry.2.markStored entry.1) none [] := by
  induction entries with
  | nil => exact .exhausted
  | cons entry entries ih =>
    obtain ⟨hfresh, hdistinct⟩ := List.nodup_cons.1 hdistinct
    rw [List.flatMap_cons, List.map_cons]
    refine .succeeded ?_ (inflate_asRows entry.2 entry.1 ?_) (ih hdistinct)
    · intro hnone
      obtain ⟨first, hfirst, -⟩ := (builtFrom_asRows entry.2 entry.1).header
      rw [(List.append_eq_nil_iff.1 hnone).1] at hfirst
      cases hfirst
    · intro row hrow heq
      obtain ⟨other, hother, hmem⟩ := List.mem_flatMap.1 hrow
      rw [valueId_of_mem_asRows hmem] at heq
      exact hfresh (heq ▸ List.mem_map_of_mem hother)

/-- **Taking rows apart partitions them, and undoes writing them.** From any rows the calls come to exactly
one end. A call succeeds exactly when the maximal run at the front stands for an attribute, which it builds,
and it leaves what follows the run; so the attributes stand for the first runs, and for all of them with no
row left unless a call fails. And attributes written as rows under different value numbers come back in the
same order, as they were stored: with the elements in the form that storage keeps, not new, not modified,
and with every row used. -/
theorem inflation_partitions_and_inverts :
    (∀ rows : List Row, ∃! outcome : List Attribute × Option Fault × List Row,
      Calls rows outcome.1 outcome.2.1 outcome.2.2) ∧
    (∀ (rows rest : List Row) (a : Attribute), inflate rows = (.ok a, rest) ↔
      ∃ first tail, rows = first :: tail ∧ a.BuiltFrom (rows.takeWhile (Row.isOf first.valueId)) ∧
        rest = rows.dropWhile (Row.isOf first.valueId)) ∧
    (∀ (rows left : List Row) (attributes : List Attribute) (fault : Option Fault),
      Calls rows attributes fault left →
        List.Forall₂ BuiltFrom ((Row.runs rows).take attributes.length) attributes ∧
          (fault = none → attributes.length = (Row.runs rows).length ∧ left = [])) ∧
    (∀ entries : List (Int × Attribute), (entries.map Prod.fst).Nodup →
      Calls (entries.flatMap fun entry => entry.2.asRows entry.1)
        (entries.map fun entry => entry.2.markStored entry.1) none [] ∧
      ∀ entry ∈ entries,
        (entry.2.markStored entry.1).value.elements = entry.2.value.elements.map Datum.settled ∧
        (entry.2.markStored entry.1).isNew = false ∧
        (entry.2.markStored entry.1).isModified = false) := by
  refine ⟨fun rows => ?_, fun rows rest a => inflate_eq_ok_iff, fun rows left attributes fault h =>
    h.builtFrom, fun entries hdistinct => ⟨calls_asRows hdistinct, fun entry _ => ?_⟩⟩
  · refine ⟨inflateAll rows, calls_iff.2 rfl, fun outcome h => ?_⟩
    exact (calls_iff.1 h).symm
  · obtain ⟨hnew, hmodified⟩ :=
      needsWriting_eq_false_iff.1 (needsWriting_markStored entry.2 entry.1)
    exact ⟨rfl, hnew, hmodified⟩

/-- An attribute without elements and one that holds a leap second come back together. -/
theorem inflation_inverts_leap_second :
    let empty : Attribute := .ofInfo ⟨4, "comment", .string, true⟩
    let leap : Attribute := ⟨9, "switched", false, none, .ofElements .time
      [.time ⟨⟨2016, 12, 31, by decide⟩, ⟨23, 59, 59, 1500000000, by decide⟩⟩] true (by decide)⟩
    Calls (empty.asRows 21 ++ leap.asRows 20) [empty.markStored 21, leap.markStored 20] none [] := by
  intro empty leap
  have h := (inflation_partitions_and_inverts.2.2.2 [(21, empty), (20, leap)] (by decide)).1
  rwa [List.flatMap_cons, List.flatMap_cons, List.flatMap_nil, List.append_nil] at h

end Attribute

end MetadataStore
