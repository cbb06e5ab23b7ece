import MetadataStore.Text.Digit

/-!
# `UnitRef` — the identity of a stored unit

A stored unit is known by its tenant and its number. Written with a point between them the two make
the key under which the unit is cached.

## Contents
- `UnitRef`, its order and its text.
- `UnitRef.unstored`, the text for a unit without a number.
-/

namespace MetadataStore

/-- Tenant and number of a stored unit. -/
structure UnitRef where
  tenant : Int
  id : Int
  deriving DecidableEq, Repr

namespace UnitRef

/-- The reference as text, which is also the cache key. -/
def text (unit : UnitRef) : String :=
  Text.integer unit.tenant ++ "." ++ Text.integer unit.id

/-- What stands for the reference of a unit that is not stored yet. -/
def unstored (tenant : Int) : String :=
  Text.integer tenant ++ ".?"

/-- The order of references: by tenant, then by number. -/
def le (a b : UnitRef) : Bool :=
  a.tenant < b.tenant || (a.tenant == b.tenant && a.id ≤ b.id)

end UnitRef

end MetadataStore
