import MetadataStore.Proofs.Handle.Exact
import MetadataStore.Proofs.Session.Coherence
import MetadataStore.Proofs.Session.Disposal
import MetadataStore.Proofs.Session.Finality

/-!
# `Proofs.Session.Exactness` — stores that write what is pending, and those that do not

Whatever is in the database and on the handle, a store that succeeds writes the pending attributes, the
name of a renamed unit, and nothing else, and leaves nothing for the next store to write. What stands in the
way of that is an attribute that is held twice, or one that was taken off, attached again and written by
itself: the store takes it off although nothing about it is pending.

## Contents
- `Handle.database_store_again`, `Handle.store_reordered`: a store after a store, and one with the
  attributes in another order.
- `Handle.store_writes_exactly_iff`, with a session in which it writes what is pending and one in which it
  loses a value.
-/

namespace MetadataStore

namespace Handle

variable {r r' : Repository} {h h' : Handle} {order : AttributeMap}

/-- **Storing again at once** changes nothing, whether it succeeds or not. -/
theorem database_store_again (hnumbered : r.database.Numbered)
    (hstore : store (r, h) = (.ok (), (r', h'))) :
    (store (r', h')).2.1.database = r'.database := by
  obtain ⟨-, -, -, hsettled, hkept⟩ := store_eq_ok_of_issued hnumbered.elementsIssued hstore
  have hnumbered' : r'.database.Numbered := by
    rw [hkept]
    exact numbered_writtenTo hnumbered
  cases hagain : store (r', h') with
  | mk outcome s =>
    obtain ⟨r₂, h₂⟩ := s
    cases outcome with
    | error fault =>
      cases store_eq_error hagain
      rfl
    | ok u =>
      rw [(store_leaves hnumbered' hagain).2, hsettled]
      exact writtenTo_of_nothing rfl rfl rfl pending_settle

/-- A store that succeeds does so with the attributes in any order. -/
theorem store_reordered (hnumbered : r.database.Numbered) (hstore : store (r, h) = (.ok (), (r', h')))
    (hperm : order.Perm h.loaded) :
    ∃ r₂, store (r, h.reordered order) =
        (.ok (), (r₂, (h.reordered order).settle (h.writtenId r.database) (h.creationTime r)
          ((h.reordered order).writtenValues r.database))) ∧
      r₂.database = (h.reordered order).writtenTo (h.creationTime r) r.database := by
  obtain ⟨hunlocked, id, written, database, hwrite, -, -⟩ := store_eq_ok.1 hstore
  obtain ⟨hwriting, hwritable, -, -, -⟩ := (write_eq_ok hnumbered.elementsIssued).1 hwrite
  have hsome : (h.reordered order).pending ≠ [] → h.pending ≠ [] := by
    intro hpending hnone
    exact hpending (hnone ▸ pending_reordered hperm).eq_nil
  have hwrite' : (h.reordered order).write (h.creationTime r) r.contention r.database =
      .ok ((h.writtenId r.database, (h.reordered order).writtenValues r.database),
        (h.reordered order).writtenTo (h.creationTime r) r.database) := by
    refine (write_eq_ok hnumbered.elementsIssued).2 ⟨?_, hwritable.reordered hperm, rfl, rfl, rfl⟩
    rintro (hnew | hrenamed | hdetached | hpending)
    · exact hwriting (Or.inl hnew)
    · exact hwriting (Or.inr (Or.inl hrenamed))
    · exact hwriting (Or.inr (Or.inr (Or.inl hdetached)))
    · exact hwriting (Or.inr (Or.inr (Or.inr (hsome hpending))))
  exact ⟨_, store_eq_ok.2 ⟨hunlocked, _, _, _, hwrite', rfl, rfl⟩, rfl⟩

/-- **A store writes exactly what is pending**, whatever handle and database are. It leaves all that the
handle has nothing to do with, and has nothing to write when it is done again. It stores every pending
attribute anew and keeps every other one exactly when what is pending is held once and no stored attribute
that is not pending is among those that were taken off. Then all of it holds with the attributes in any
order, and another order makes the same tables but for an exchange of the new numbers. -/
theorem store_writes_exactly_iff (hnumbered : r.database.Numbered)
    (hkeys : (h.loaded.map (·.1)).Nodup) (hstore : store (r, h) = (.ok (), (r', h'))) :
    h'.ref? = some (h.writtenUnit r.database) ∧ h.LeavesRest r.database r'.database ∧
      (store (r', h')).2.1.database = r'.database ∧
      (h.WritesPending r.database r'.database h' ↔ h.Separate r.database) ∧
      (h.Separate r.database → ∀ order : AttributeMap, order.Perm h.loaded →
        ∃ r₂ h₂, store (r, h.reordered order) = (.ok (), (r₂, h₂)) ∧
          (h.reordered order).WritesPending r.database r₂.database h₂ ∧
          ∃ σ : Equiv.Perm Int, (∀ v, v ≤ r.database.lastValue → σ v = v) ∧
            r'.database.Renumbered σ r₂.database) := by
  obtain ⟨-, -, -, hsettled, -⟩ := store_eq_ok_of_issued hnumbered.elementsIssued hstore
  obtain ⟨href, hdatabase⟩ := store_leaves hnumbered hstore
  have hvalues := hnumbered.valuesNumbered
  refine ⟨href, ?rest, database_store_again hnumbered hstore, ?attributes, ?order⟩
  case rest =>
    rw [hdatabase]
    exact leavesRest_writtenTo h _ hnumbered
  case attributes =>
    rw [hdatabase, hsettled]
    exact writesPending_iff_separate _ hvalues hkeys _
  case order =>
    intro hseparate order hperm
    obtain ⟨r₂, hok, hdatabase₂⟩ := store_reordered hnumbered hstore hperm
    have hkeys₂ : ((h.reordered order).loaded.map (·.1)).Nodup := (hperm.map _).nodup_iff.2 hkeys
    refine ⟨r₂, _, hok, ?_, ?_⟩
    · rw [hdatabase₂]
      exact (hseparate.reordered hperm).writesPending _ hvalues hkeys₂ _
    · rw [hdatabase, hdatabase₂]
      exact exists_renumbered_writtenTo _ hvalues (hseparate.idsDistinct hkeys) hperm

end Handle

namespace Session

/-- A unit is stored with three attributes; then it gets another name, one of the attributes changes, one
is taken off, and one stays as it is. -/
def changedUnit : List Event :=
  [.perform (.define "note" .string false), .perform (.define "size" .long false),
    .perform (.define "mark" .string false), .perform (.create "a" 1 (some "first")),
    .perform (.editAttribute "a" "note" (.push (.string "x"))),
    .perform (.editAttribute "a" "size" (.push (.long 5))),
    .perform (.editAttribute "a" "mark" (.push (.string "m"))), .perform (.store "a"),
    .perform (.rename "a" (some "second")), .perform (.editAttribute "a" "note" (.push (.string "y"))),
    .perform (.removeAttribute "a" "mark")]

/-- All of that is written. -/
theorem changedUnit_writesPending :
    (fresh.afterAll changedUnit).repository.database.Numbered ∧
      ∃ h r' h', (fresh.afterAll changedUnit).handle? "a" = some h ∧ (h.loaded.map (·.1)).Nodup ∧
        h.renamed = true ∧ h.detached = [3] ∧
        h.loaded.map (fun entry => (entry.1, entry.2.needsWriting)) = [("note", true), ("size", false)] ∧
        Handle.store ((fresh.afterAll changedUnit).repository, h) = (.ok (), (r', h')) ∧
        h.LeavesRest (fresh.afterAll changedUnit).repository.database r'.database ∧
        h.WritesPending (fresh.afterAll changedUnit).repository.database r'.database h' := by
  have hreachable : (fresh.afterAll changedUnit).Reachable :=
    .afterAll (.connect .inMemory .nearest .epoch 0) changedUnit
  have hnumbered := hreachable.numbered
  have hstored : ((fresh.afterAll changedUnit).handle? "a").map (fun h =>
      ((Handle.store ((fresh.afterAll changedUnit).repository, h)).1.isOk, h.renamed, h.detached)) =
        some (true, true, [3]) := by
    decide +kernel
  have hheld : ((fresh.afterAll changedUnit).handle? "a").map (fun h =>
      (h.loaded.map (fun entry => (entry.1, entry.2.needsWriting)), h.loaded.map (·.2.id))) =
        some ([("note", true), ("size", false)], [1, 2]) := by
    decide +kernel
  refine ⟨hnumbered, ?_⟩
  generalize fresh.afterAll changedUnit = s at *
  obtain ⟨h, hfind, hfacts⟩ := Option.map_eq_some_iff.1 hstored
  rw [hfind] at hheld
  simp only [Prod.mk.injEq, Option.map_some, Option.some.injEq] at hfacts hheld
  obtain ⟨hok, hrenamed, hdetached⟩ := hfacts
  obtain ⟨hloaded, hnumbers⟩ := hheld
  have hkeys : (h.loaded.map (·.1)).Nodup := by
    have hkeys := congrArg (List.map (·.1)) hloaded
    rw [List.map_map] at hkeys
    exact hkeys ▸ (by decide : ["note", "size"].Nodup)
  have hids : (h.loaded.map (·.2.id)).Nodup := hnumbers ▸ by decide
  have hseparate : h.Separate s.repository.database := by
    refine (Handle.separate_iff_attached hids).2 fun entry hentry _ m _ _ hid hgone => ?_
    have hnumber : entry.2.id ∈ ([1, 2] : List Int) :=
      hnumbers ▸ List.mem_map_of_mem (f := fun entry : String × Attribute => entry.2.id) hentry
    rw [hdetached, List.mem_singleton] at hgone
    rw [← hid, hgone] at hnumber
    exact absurd hnumber (by decide)
  obtain ⟨_, ⟨r', h'⟩, hstore⟩ := Action.exists_eq_ok_of_isOk hok
  obtain ⟨-, hrest, -, hwrites, -⟩ := Handle.store_writes_exactly_iff hnumbered hkeys hstore
  exact ⟨h, r', h', hfind, hkeys, hrenamed, hdetached, hloaded, hstore, hrest, hwrites.2 hseparate⟩

/-- A stored attribute is taken off, attached again and written by itself. -/
def reattachedUnit : List Event :=
  [.perform (.define "note" .string false), .perform (.create "a" 1 (some "first")),
    .perform (.editAttribute "a" "note" (.push (.string "x"))), .perform (.store "a"),
    .perform (.removeAttribute "a" "note"),
    .perform (.editAttribute "a" "note" (.push (.string "y"))), .perform (.storeAttribute "a" "note")]

/-- The next store takes it off, although nothing is pending of it. -/
theorem reattachedUnit_not_kept :
    ¬∀ (s : Session) (name : String) (h h' : Handle) (r' : Repository), s.Reachable →
      s.handle? name = some h → h.Backed s.repository.database →
      Handle.store (s.repository, h) = (.ok (), (r', h')) →
      h.WritesPending s.repository.database r'.database h' := by
  intro hwrites
  have hreachable : (fresh.afterAll reattachedUnit).Reachable :=
    .afterAll (.connect .inMemory .nearest .epoch 0) reattachedUnit
  have hheld : ((fresh.afterAll reattachedUnit).handle? "a").map (fun h =>
      (h.ref?, h.loaded.map fun entry => (entry.2.id, entry.2.needsWriting))) =
        some (some ⟨1, 1⟩, [(1, false)]) := by
    decide +kernel
  have hafter : ((fresh.afterAll reattachedUnit).handle? "a").map (fun h =>
      ((Handle.store ((fresh.afterAll reattachedUnit).repository, h)).1.isOk,
        (Handle.store ((fresh.afterAll reattachedUnit).repository, h)).2.1.database.mappings)) =
          some (true, []) := by
    decide +kernel
  have hunit : (fresh.afterAll reattachedUnit).repository.database.hasUnit ⟨1, 1⟩ = true := by
    decide +kernel
  have hbefore : (⟨⟨1, 1⟩, 1, 2⟩ : Mapping) ∈
      (fresh.afterAll reattachedUnit).repository.database.mappings := by decide +kernel
  generalize fresh.afterAll reattachedUnit = s at *
  obtain ⟨h, hfind, hfacts⟩ := Option.map_eq_some_iff.1 hheld
  rw [hfind] at hafter
  simp only [Prod.mk.injEq, Option.map_some, Option.some.injEq] at hfacts hafter
  obtain ⟨href, hloaded⟩ := hfacts
  obtain ⟨hok, hgone⟩ := hafter
  have hbacked : h.Backed s.repository.database := by
    intro unit hother
    cases href.symm.trans hother
    exact hunit
  obtain ⟨_, ⟨r', h'⟩, hstore⟩ := Action.exists_eq_ok_of_isOk hok
  rw [hstore] at hgone
  -- the attribute is held as written, and its value is gone
  obtain ⟨entry, hentry, hfacts⟩ := List.mem_map.1 (hloaded ▸ List.mem_singleton_self (1, false))
  obtain ⟨hid, hneeds⟩ := Prod.mk.inj hfacts
  have hkeeps := ((hwrites s "a" h h' r' hreachable hfind hbacked hstore).others entry hentry hneeds).1
  have hkept := (hkeeps.mappings _ (Handle.writtenUnit_of_ref? href).symm hid.symm).2 hbefore
  rw [hgone] at hkept
  cases hkept

end Session

end MetadataStore
