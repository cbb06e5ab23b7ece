import MetadataStore.Attribute

/-!
# `Rows` — attributes from the rows of a fetch

A fetch gives one row for each element of each value of a unit, sorted by value number and then by
index, the header of the attribute repeated on each. An empty value has a single row without an
index. The rows of one value are contiguous, and building an attribute consumes exactly them.

## Contents
- `Row`.
- `Attribute.inflate`, one attribute from the front of the rows; a fault leaves the rows from the
  failing one.
- `Attribute.inflateAll`, all attributes up to the first fault.
-/

namespace MetadataStore

/-- One row of a fetch. -/
structure Row where
  attributeId : Int
  name : String
  kindCode : Int
  scalar : Bool
  valueId : Int
  index : Option Int
  cell : Cell
  deriving DecidableEq

/-- The elements of the rows at the front that belong to one value, and the rows left. -/
def Row.readElements (kind : Kind) (valueId : Int) :
    List Row → Except Fault (List Datum) × List Row
  | [] => (.ok [], [])
  | row :: rows =>
    if row.valueId = valueId then
      match row.index with
      -- a row without an index declares a value and holds no element
      | none => readElements kind valueId rows
      | some _ =>
        match Datum.ofCell kind row.cell with
        | .error cause => (.error (.badElement kind valueId cause), row :: rows)
        | .ok datum =>
          let (elements, rest) := readElements kind valueId rows
          (elements.map (datum :: ·), rest)
    else (.ok [], row :: rows)

theorem Row.length_readElements_le (kind : Kind) (valueId : Int) (rows : List Row) :
    (Row.readElements kind valueId rows).2.length ≤ rows.length := by
  induction rows with
  | nil => simp [readElements]
  | cons row rows ih =>
    unfold readElements
    split
    · split
      · simp only [List.length_cons]
        omega
      · split <;> simp only [List.length_cons]
        · omega
        · omega
    · simp

/-- Elements read from rows are of the kind asked for. -/
theorem Row.typed_readElements {kind : Kind} {valueId : Int} {rows : List Row}
    {elements : List Datum} (h : (Row.readElements kind valueId rows).1 = .ok elements) :
    ∀ datum ∈ elements, datum.kind = kind := by
  induction rows generalizing elements with
  | nil =>
    simp only [readElements, Except.ok.injEq] at h
    subst h
    simp
  | cons row rows ih =>
    unfold readElements at h
    split at h
    · split at h
      · exact ih h
      · split at h
        · cases h
        · rename_i datum hcell
          cases hrest : (readElements kind valueId rows).1 with
          | error fault => simp [hrest, Except.map] at h
          | ok tail =>
            simp only [hrest, Except.map, Except.ok.injEq] at h
            subst h
            intro d hd
            rcases List.mem_cons.1 hd with rfl | hd
            · exact Datum.kind_of_ofCell hcell
            · exact ih hrest d hd
    · simp only [Except.ok.injEq] at h
      subst h
      simp

namespace Attribute

/-- One attribute from the rows at the front that belong to one value, and the rows left. -/
def inflate (rows : List Row) : Except Fault Attribute × List Row :=
  match rows with
  | [] => (.error (.noRows "an attribute"), [])
  | row :: _ =>
    match Kind.ofCode? row.kindCode with
    | none => (.error (.unknownCode .attributeType row.kindCode), rows)
    | some kind =>
      match h : Row.readElements kind row.valueId rows with
      | (.error fault, rest) => (.error fault, rest)
      | (.ok elements, rest) =>
        (.ok
          { id := row.attributeId
            name := row.name
            scalar := row.scalar
            valueId := some row.valueId
            value := .ofElements kind elements false
              (Row.typed_readElements (by rw [h])) }, rest)

/-- A successful step consumes at least one row. -/
theorem length_inflate_lt {rows rest : List Row} {a : Attribute}
    (h : inflate rows = (.ok a, rest)) : rest.length < rows.length := by
  unfold inflate at h
  split at h
  · simp at h
  · rename_i row tail
    split at h
    · simp at h
    · rename_i kind _
      split at h
      · simp at h
      · rename_i elements rest' heq
        simp only [Prod.mk.injEq, Except.ok.injEq] at h
        obtain ⟨-, rfl⟩ := h
        have hle := Row.length_readElements_le kind row.valueId tail
        have hcut : (Row.readElements kind row.valueId (row :: tail)).2.length ≤ tail.length := by
          unfold Row.readElements at heq ⊢
          simp only [if_true] at heq ⊢
          split
          · exact hle
          · rename_i hidx
            split
            · rename_i hcell
              simp [hidx, hcell] at heq
            · exact hle
        rw [heq] at hcut
        exact Nat.lt_succ_of_le hcut

/-- All attributes of the rows up to the first fault: what was built, the fault if there is one, and
the rows left. -/
def inflateAll (rows : List Row) : List Attribute × Option Fault × List Row :=
  if rows.isEmpty then ([], none, [])
  else
    match _h : inflate rows with
    | (.error fault, rest) => ([], some fault, rest)
    | (.ok a, rest) =>
      let (more, fault, rest) := inflateAll rest
      (a :: more, fault, rest)
termination_by rows.length
decreasing_by exact length_inflate_lt _h

end Attribute

end MetadataStore
