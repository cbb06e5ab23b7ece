import MetadataStore.Repository.Locking

/-!
# `Repository.Disposal` — removing units for good

Disposal removes the units of a tenant that wait for it, with all that hangs on them, and leaves locked
ones alone. It goes through them page by page: removed units drop out of the result, and the offset
moves over those that were skipped, which stay in front.

## Contents
- `disposeUnit`, `disposePage`, `dispose`.
-/

namespace MetadataStore.Repository

/-- Removes a unit unless it is locked; whether it was removed is the result. -/
def disposeUnit (unit : UnitRef) : Action Repository Bool := do
  if ← isLocked unit then pure false
  else do
    write (Transaction.perform (Database.deleteUnit unit))
    Action.modify fun r => { r with cache := r.cache.remove unit }
    pure true

/-- Removes the units of a page one by one: how many were removed, and how many were skipped because
they are locked or could not be removed. -/
def disposePage : List UnitRef → Action Repository (Nat × Nat)
  | [] => pure (0, 0)
  | unit :: rest => do
    let outcome ← Action.attempt (disposeUnit unit)
    let (disposed, skipped) ← disposePage rest
    match outcome with
    | .ok true => pure (disposed + 1, skipped)
    | _ => pure (disposed, skipped + 1)

/-- The search for a page of the units of a tenant that wait for disposal. -/
def disposable (tenant : Int32) (offset size : Nat) : Search :=
  { expression := some (.and (.leaf (.tenant tenant)) (.leaf (.status .eq .pendingDisposition)))
    order := [(.id, true)]
    paging := ⟨offset, size, 0⟩ }

/-- Disposes page by page after `skipped` units, at most `fuel` pages; how many units were removed. -/
def disposeFrom (tenant : Int32) (batch : Nat) : Nat → Nat → Action Repository Nat
  | 0, _ => pure 0
  | fuel + 1, skipped => do
    let page ← matching (disposable tenant skipped batch)
    let (disposed, newlySkipped) ← disposePage page
    -- a page that is not full is the last
    if page.length < batch then pure disposed
    else do
      let more ← disposeFrom tenant batch fuel (skipped + newlySkipped)
      pure (disposed + more)

/-- Removes the units of a tenant that wait for disposal and are not locked; how many there were. Each
full page removes or skips at least one unit, so there are no more pages than units, and one. -/
def dispose (tenant : Int32) : Action Repository Nat := do
  let r ← Action.get
  disposeFrom tenant r.settings.batch (r.database.units.length + 1) 0

end MetadataStore.Repository
