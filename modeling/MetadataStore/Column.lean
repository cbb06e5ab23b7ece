import MetadataStore.Kind

/-!
# `Column` — the properties of units that searches constrain and order

## Contents
- `Column`, its name in statements and the kind of its operands.
-/

namespace MetadataStore

/-- A column of the table of units. -/
inductive Column where
  | tenant | id | correlation | name | status | created
  deriving DecidableEq, Repr

namespace Column

/-- The column as statements name it. -/
def text : Column → String
  | .tenant => "ut.tenantid"
  | .id => "ut.unitid"
  | .correlation => "ut.corrid"
  | .name => "ut.name"
  | .status => "ut.status"
  | .created => "ut.created"

/-- The kind of operand that a column is compared with. -/
def kind : Column → Kind
  | .tenant | .status => .integer
  | .id => .long
  | .correlation | .name => .string
  | .created => .time

end Column

end MetadataStore
