import SchemaAssembly.Event
import SchemaAssembly.Failure
import SchemaAssembly.SchemaModel.Basic

/-!
# Selecting tested units

The units of a model that came from tested sources are found again by name: every revision of a
tested name is tested. A name without a unit is reported, or makes the selection fail if every name
has to match.
-/

namespace SchemaAssembly.SchemaModel

/-- The unit, flagged if it has one of the names. -/
def flag (names : List String) (u : SchemaUnit) : SchemaUnit :=
  if names.contains u.name then u.markTested else u

/-- **All units**, those with one of the names flagged as tested. -/
def tagged (m : SchemaModel) (names : List String) : List SchemaUnit :=
  m.units.map (flag names)

/-- **The tested units**, in model order and flagged. -/
def tested (m : SchemaModel) (names : List String) : List SchemaUnit :=
  (m.units.filter fun u => names.contains u.name).map (·.markTested)

/-- The names without a unit, ascending and each once. -/
def unmatched (m : SchemaModel) (names : List String) : List String :=
  (sortedSet names).filter fun name => !m.contains name

/-- **Selecting** the tested units. If `strict` is set, every name must have a unit. -/
def select (m : SchemaModel) (names : List String) (strict : Bool := false) :
    Except Failure (List SchemaUnit × List Event) :=
  let unmatched := m.unmatched names
  if strict && !unmatched.isEmpty then .error (.ofUnmatched unmatched)
  else .ok (m.tested names, unmatched.map .unmatched)

/-- A selection that need not match everything succeeds. -/
theorem select_eq_ok (m : SchemaModel) (names : List String) :
    m.select names = .ok (m.tested names, (m.unmatched names).map .unmatched) := by
  simp [select]

end SchemaAssembly.SchemaModel
