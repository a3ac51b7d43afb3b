import SchemaAssembly.SchemaUnit
import SchemaAssembly.Text.Order

/-!
# Models

A model is the list of its units, ordered by name and revision. Units that tie keep the order in
which they were given. All questions about a model are answered from that list.

- `SchemaModel.ofUnits` orders any list of units; `SchemaModel.ordered` is what it guarantees.
- `SchemaModel.get?` answers with the newest revision of a name.
-/

namespace SchemaAssembly

/-- A resolved schema model. -/
structure SchemaModel where
  /-- the units, by name and revision -/
  units : List SchemaUnit
  /-- each unit may stand before every later one -/
  ordered : units.Pairwise fun u v => u.before v = true
  deriving DecidableEq

namespace SchemaModel

/-- **The model of a list of units.** -/
def ofUnits (units : List SchemaUnit) : SchemaModel where
  units := units.mergeSort SchemaUnit.before
  ordered := @List.pairwise_mergeSort _ SchemaUnit.before
    (fun _ _ _ huv hvw => SchemaUnit.before_trans huv hvw) SchemaUnit.before_total units

/-- The names of the units, each once, in model order. -/
def names (m : SchemaModel) : List String :=
  distinct (m.units.map (·.name))

/-- Every revision of a name, oldest first. -/
def getAll (m : SchemaModel) (name : String) : List SchemaUnit :=
  m.units.filter (·.name = name)

/-- **The newest revision** of a name. -/
def get? (m : SchemaModel) (name : String) : Option SchemaUnit :=
  (m.getAll name).getLast?

/-- Whether a unit has the name. -/
def contains (m : SchemaModel) (name : String) : Bool :=
  m.units.any (·.name = name)

/-- The number of units. -/
def size (m : SchemaModel) : Nat :=
  m.units.length

/-- Ordering units loses none and adds none. -/
theorem mem_units_ofUnits {u : SchemaUnit} {units : List SchemaUnit} :
    u ∈ (ofUnits units).units ↔ u ∈ units := by
  simp [ofUnits]

/-- A model contains the names of its units. -/
theorem contains_iff {m : SchemaModel} {name : String} :
    m.contains name = true ↔ ∃ u ∈ m.units, u.name = name := by
  simp [contains]

/-- These are the names it lists. -/
theorem mem_names_iff {m : SchemaModel} {name : String} :
    name ∈ m.names ↔ ∃ u ∈ m.units, u.name = name := by
  simp [names]

/-- A unit found has the name asked for and is in the model. -/
theorem mem_of_get?_eq_some {m : SchemaModel} {name : String} {u : SchemaUnit}
    (h : m.get? name = some u) : u ∈ m.units ∧ u.name = name := by
  have h := List.mem_of_getLast? h
  simpa [getAll] using h

/-- It is the newest one of its name. -/
theorem revisionKey_le_of_get?_eq_some {m : SchemaModel} {name : String} {u v : SchemaUnit}
    (h : m.get? name = some u) (hv : v ∈ m.units) (hname : v.name = name) :
    v.revisionKey ≤ u.revisionKey := by
  obtain ⟨older, holder⟩ := List.getLast?_eq_some_iff.1 h
  have hordered : (older ++ [u]).Pairwise fun u v => u.before v = true :=
    holder ▸ m.ordered.filter _
  have hmem : v ∈ older ++ [u] := holder ▸ List.mem_filter.2 ⟨hv, decide_eq_true hname⟩
  rcases List.mem_append.1 hmem with hmem | hmem
  · have hbefore := (List.pairwise_append.1 hordered).2.2 v hmem u List.mem_cons_self
    exact SchemaUnit.revisionKey_le_of_before hbefore (hname.trans (mem_of_get?_eq_some h).2.symm)
  · exact List.mem_singleton.1 hmem ▸ String.le_refl _

/-- A name without a newest unit has none. -/
theorem get?_eq_none_iff {m : SchemaModel} {name : String} :
    m.get? name = none ↔ m.contains name = false := by
  simp [get?, getAll, contains]

end SchemaModel

end SchemaAssembly
