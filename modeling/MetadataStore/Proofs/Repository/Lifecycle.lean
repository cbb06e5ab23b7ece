import MetadataStore.Proofs.Repository.Standing

/-!
# `Proofs.Repository.Lifecycle` — statuses from move to move

The status of a unit is written by two moves: the one that stores a new unit, and the one that gives a
status that the table of transitions permits. So wherever a row says of its status, it goes back to the
row before, to the table, or to the handle that was stored.

## Contents
- `Status.Permitted`, a step of the table between stored codes; `Status.Leads`, any number of steps.
- `Move.status_cases`, where the status of a row comes from.
- `Move.keepsStatus`, `Move.arisenSince`, `Move.keyed`: what single moves keep.
-/

namespace MetadataStore

namespace Status

/-- The table of transitions permits a step from one stored code to another. -/
def Permitted (before after : Int) : Prop :=
  ∃ current requested : Status,
    before = current.code ∧ after = requested.code ∧ current.permits requested = true

/-- Some steps of the table lead from one status to another. -/
abbrev Leads : Status → Status → Prop :=
  Relation.ReflTransGen fun current requested => current.permits requested = true

end Status

namespace Repository

variable {terms : Terms} {r r' : Repository} {unit : UnitRef}

/-! ## One move -/

/-- **Where the status of a row comes from**: from the row before, of which it is a permitted step if it is
another, or from the new unit that was stored. -/
theorem Move.status_cases (hmove : Move terms r r') (hnumbered : r.database.Numbered) {new : UnitRow}
    (hnew : r'.database.unit? unit = some new) :
    (∃ old, r.database.unit? unit = some old ∧
      (new.status = old.status ∨
        ∃ requested, terms.transits unit requested ∧ new.status = requested.code ∧
          Status.Permitted old.status new.status)) ∨
      (r.database.unit? unit = none ∧
        ∃ h : Handle, terms.stores h ∧ h.id = none ∧ new.status = h.status.code) := by
  rcases hmove.units_cases hnumbered with
    hsame | ⟨h, created, -, hstores, hdb⟩ | ⟨other, requested, ⟨h, ht⟩, hterms, hdb⟩ | ⟨other, -, rfl⟩
  · unfold Database.unit? at hnew
    rw [hsame.units] at hnew
    exact Or.inl ⟨new, hnew, Or.inl rfl⟩
  · rw [hdb] at hnew
    by_cases hwritten : unit = h.writtenUnit r.database
    · subst hwritten
      cases hid : h.id with
      | none =>
        rw [Handle.unit?_writtenTo_of_new hnumbered.unitsIssued hid] at hnew
        cases hnew
        exact Or.inr ⟨Handle.unit?_writtenUnit_of_new hnumbered.unitsIssued hid, h, hstores, hid, rfl⟩
      | some id =>
        rw [Handle.unit?_writtenTo_of_id hid] at hnew
        obtain ⟨old, hold, rfl⟩ := Option.map_eq_some_iff.1 hnew
        exact Or.inl ⟨old, hold, Or.inl rfl⟩
    · rw [Handle.unit?_writtenTo_of_ne hwritten] at hnew
      exact Or.inl ⟨new, hnew, Or.inl rfl⟩
  · rw [hdb, Database.unit?_withStatus] at hnew
    obtain ⟨old, hold, rfl⟩ := Option.map_eq_some_iff.1 hnew
    refine Or.inl ⟨old, hold, ?_⟩
    by_cases hother : unit = other
    · subst hother
      obtain ⟨row, current, hrow, hcurrent, hpermits⟩ := ht.permitted
      cases hold.symm.trans hrow
      have hcode := Status.code_of_ofCode hcurrent
      refine Or.inr ⟨requested, hterms, ?_, current, requested, hcode, ?_, hpermits⟩
      · simp
      · simp
    · exact Or.inl (by simp [hother])
  · have hmem := Database.unit?_eq_some hnew
    have hold := hnumbered.unitsDistinct.unit?_of_mem (Database.mem_units_withoutUnit.1 hmem.1).1
    rw [hmem.2] at hold
    exact Or.inl ⟨new, hold, Or.inl rfl⟩

/-- **The status of a row stays among some codes** in every move that gives it none to which those lead from
among them. -/
theorem Move.keepsStatus {among : Int → Prop} (hmove : Move terms r r')
    (hnumbered : r.database.Numbered) (hissued : unit.id ≤ r.database.lastUnit)
    (hstays : ∀ code requested, among code → terms.transits unit requested →
      Status.Permitted code requested.code → among requested.code)
    (hamong : ∀ row, r.database.unit? unit = some row → among row.status) :
    ∀ row, r'.database.unit? unit = some row → among row.status := by
  intro new hnew
  rcases hmove.status_cases hnumbered hnew with
    ⟨old, hold, hsame | ⟨requested, hterms, hrequested, hpermitted⟩⟩ | ⟨hnone, -⟩
  · exact hsame ▸ hamong old hold
  · rw [hrequested] at hpermitted ⊢
    exact hstays old.status requested (hamong old hold) hterms hpermitted
  · -- a unit whose number was given out does not come back
    have hthere : r'.database.hasUnit unit = true := by
      rw [Database.hasUnit_eq_isSome_unit?, hnew, Option.isSome_some]
    have hbefore := (hmove.hasUnit_of_issued hnumbered).2 unit hissued hthere
    rw [Database.hasUnit_eq_isSome_unit?, hnone] at hbefore
    cases hbefore

/-- Rows that are new since some time have a status that leads from effective. -/
def ArisenSince (base db : Database) : Prop :=
  ∀ unit row, db.unit? unit = some row → base.unit? unit = none →
    ∃ status, Status.Leads .effective status ∧ row.status = status.code

theorem arisenSince_refl (db : Database) : ArisenSince db db := by
  intro unit row hrow hnone
  rw [hnone] at hrow
  cases hrow

/-- **New rows go on having statuses that lead from effective**, when new units are stored with such ones. -/
theorem Move.arisenSince (hmove : Move terms r r') (hnumbered : r.database.Numbered) {base : Database}
    (hstores : ∀ h, terms.stores h → h.id = none → Status.Leads .effective h.status)
    (harisen : ArisenSince base r.database) : ArisenSince base r'.database := by
  intro unit new hnew hnone
  rcases hmove.status_cases hnumbered hnew with
    ⟨old, hold, hsame | ⟨requested, -, hrequested, hpermitted⟩⟩ | ⟨-, h, hterms, hid, hstatus⟩
  · obtain ⟨status, hleads, hstatus⟩ := harisen unit old hold hnone
    exact ⟨status, hleads, hsame.trans hstatus⟩
  · obtain ⟨status, hleads, hstatus⟩ := harisen unit old hold hnone
    obtain ⟨current, next, hcurrent, hnext, hpermits⟩ := hpermitted
    have hsame : current = status := Status.code_injective (hcurrent.symm.trans hstatus)
    subst hsame
    exact ⟨next, hleads.tail hpermits, hnext⟩
  · exact ⟨h.status, hstores h hterms hid, hstatus⟩

/-- **Copies go on standing under their own keys**, whatever is done. -/
theorem Move.keyed (hmove : Move terms r r') (h : r.cache.Keyed) : r'.cache.Keyed := by
  cases hmove with
  | forget hall => exact hall _ h
  | load _ _ => exact h.store _
  | bring _ => exact h.store _
  | store _ _ _ _ => exact h.store _
  | transit _ _ _ => exact h.store _
  | dispose _ => exact Cache.All.remove h _
  | _ => exact h

end Repository

end MetadataStore
