import SchemaAssembly.Path

/-!
# Units

A unit is one resolved module or submodule. Whether it is under test is decided after the model has
been built, so the units an engine makes are untested.
-/

namespace SchemaAssembly

/-- One resolved top-level module or submodule. -/
structure SchemaUnit where
  /-- the name it declares -/
  name : String
  /-- its newest revision, if it has one -/
  revision : Option String := none
  /-- the keyword it is declared with -/
  kind : String := "module"
  /-- the file it comes from, if known -/
  source : Option Path := none
  /-- the names it imports, in the order of its text -/
  imports : List String := []
  /-- the names it includes, in the order of its text -/
  includes : List String := []
  /-- what it defines, in the order of its text -/
  definitions : List String := []
  /-- whether it is under test -/
  tested : Bool := false
  deriving DecidableEq, Repr

namespace SchemaUnit

/-- The unit flagged as under test. -/
def markTested (u : SchemaUnit) : SchemaUnit :=
  { u with tested := true }

/-- The names a unit imports or includes. -/
def dependencies (u : SchemaUnit) : List String :=
  u.imports ++ u.includes

/-- The revision as it is ordered: no revision comes first. -/
def revisionKey (u : SchemaUnit) : String :=
  u.revision.getD ""

/-- Whether a unit may stand before another in a model: by name, then by revision. -/
def before (u v : SchemaUnit) : Bool :=
  u.name < v.name || (u.name = v.name && decide (u.revisionKey ≤ v.revisionKey))

/-- The order of units spelled out. -/
theorem before_iff {u v : SchemaUnit} : u.before v = true ↔
    u.name < v.name ∨ u.name = v.name ∧ u.revisionKey ≤ v.revisionKey := by
  simp only [before, Bool.or_eq_true, Bool.and_eq_true, decide_eq_true_eq]

/-- Units are ordered by name first. -/
theorem name_le_of_before {u v : SchemaUnit} (h : u.before v = true) : u.name ≤ v.name := by
  rcases before_iff.1 h with hlt | ⟨heq, -⟩
  · exact String.not_lt.1 (String.lt_asymm hlt)
  · exact heq ▸ String.le_refl _

/-- Units of one name are ordered by revision. -/
theorem revisionKey_le_of_before {u v : SchemaUnit} (h : u.before v = true)
    (hname : u.name = v.name) : u.revisionKey ≤ v.revisionKey := by
  rcases before_iff.1 h with hlt | ⟨-, hle⟩
  · exact absurd (hname ▸ hlt) (String.lt_irrefl _)
  · exact hle

/-- The order of units is transitive. -/
theorem before_trans {u v w : SchemaUnit} (huv : u.before v = true) (hvw : v.before w = true) :
    u.before w = true := by
  rw [before_iff] at huv hvw ⊢
  rcases huv with huv | ⟨hn, huv⟩ <;> rcases hvw with hvw | ⟨hn', hvw⟩
  · exact Or.inl (String.lt_trans huv hvw)
  · exact Or.inl (hn' ▸ huv)
  · exact Or.inl (hn ▸ hvw)
  · exact Or.inr ⟨hn.trans hn', String.le_trans huv hvw⟩

/-- Of two units one may stand before the other. -/
theorem before_total (u v : SchemaUnit) : (u.before v || v.before u) = true := by
  rw [Bool.or_eq_true, before_iff, before_iff]
  by_cases huv : u.name < v.name
  · exact Or.inl (Or.inl huv)
  by_cases hvu : v.name < u.name
  · exact Or.inr (Or.inl hvu)
  have hn : u.name = v.name := String.le_antisymm (String.not_lt.1 hvu) (String.not_lt.1 huv)
  rcases String.le_total u.revisionKey v.revisionKey with h | h
  · exact Or.inl (Or.inr ⟨hn, h⟩)
  · exact Or.inr (Or.inr ⟨hn.symm, h⟩)

end SchemaUnit

end SchemaAssembly
