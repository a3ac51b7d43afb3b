import SchemaAssembly.Distinct
import SchemaAssembly.Feature.Basic
import SchemaAssembly.Text.Quoted

/-!
# Feature sets

A set of supported features, kept as the ascending list of its elements, so that equal sets are
equal values. The empty set stands for no restriction: every feature counts as enabled.

- `FeatureSet.parse` reads a list of identifiers and stops at the first bad one.
- `FeatureSet.mem_ofList`: a set has the elements it was made from.
-/

namespace SchemaAssembly

/-- A set of features. -/
structure FeatureSet where
  /-- the features, ascending -/
  toList : List Feature
  /-- each feature comes before the next one -/
  ascending : toList.Pairwise (· < ·)
  deriving DecidableEq

namespace FeatureSet

/-- No restriction. -/
def empty : FeatureSet :=
  ⟨[], .nil⟩

/-- An ascending list with one more feature in its place. -/
def place (f : Feature) : List Feature → List Feature
  | [] => [f]
  | g :: rest => if f = g then g :: rest else if f < g then f :: g :: rest else g :: place f rest

/-- Placing a feature adds it and nothing else. -/
theorem mem_place {f g : Feature} {l : List Feature} : g ∈ place f l ↔ g = f ∨ g ∈ l := by
  induction l with
  | nil => simp [place]
  | cons h rest ih =>
    rw [place]
    split
    · rename_i hfh
      simp [hfh]
    · split
      · simp
      · simp only [List.mem_cons, ih]
        exact or_left_comm

/-- Placing a feature keeps a list ascending. -/
theorem pairwise_place {f : Feature} {l : List Feature} (h : l.Pairwise (· < ·)) :
    (place f l).Pairwise (· < ·) := by
  induction l with
  | nil => simp [place]
  | cons g rest ih =>
    rw [List.pairwise_cons] at h
    rw [place]
    split
    · exact List.pairwise_cons.2 h
    · rename_i hne
      split
      · rename_i hlt
        refine List.pairwise_cons.2 ⟨fun k hk => ?_, List.pairwise_cons.2 h⟩
        rcases List.mem_cons.1 hk with rfl | hk
        · exact hlt
        · exact Feature.lt_trans hlt (h.1 k hk)
      · rename_i hlt
        refine List.pairwise_cons.2 ⟨fun k hk => ?_, ih h.2⟩
        rcases mem_place.1 hk with rfl | hk
        · exact Feature.lt_of_ne_of_not_lt hne hlt
        · exact h.1 k hk

/-- The set with one more feature. -/
def insert (s : FeatureSet) (f : Feature) : FeatureSet :=
  ⟨place f s.toList, pairwise_place s.ascending⟩

/-- The set of the features in a list. -/
def ofList (features : List Feature) : FeatureSet :=
  features.foldr (fun f s => s.insert f) empty

/-- **Reading a set** of identifiers; the first bad one is the error. -/
def parse (identifiers : List String) : Except InvalidFeature FeatureSet := do
  return ofList (← identifiers.mapM Feature.parse)

/-- Whether the set restricts nothing. -/
def isEmpty (s : FeatureSet) : Bool :=
  s.toList.isEmpty

/-- The number of features. -/
def size (s : FeatureSet) : Nat :=
  s.toList.length

/-- Whether a feature is selected. -/
def contains (s : FeatureSet) (f : Feature) : Bool :=
  s.toList.contains f

/-- The modules with a selected feature, ascending. -/
def modules (s : FeatureSet) : List String :=
  distinct (s.toList.map (·.moduleName))

/-- The names of a module's selected features, ascending. -/
def forModule (s : FeatureSet) (moduleName : String) : List String :=
  (s.toList.filter (·.moduleName = moduleName)).map (·.name)

/-- The identifiers of the features, in order. -/
def texts (s : FeatureSet) : List String :=
  s.toList.map (·.text)

/-- The set as a message shows it. -/
def describe (s : FeatureSet) : String :=
  "FeatureSet([" ++ ", ".intercalate (s.texts.map Text.quoted) ++ "])"

/-- A set has the elements it was made from. -/
@[simp] theorem mem_ofList {f : Feature} {l : List Feature} : f ∈ (ofList l).toList ↔ f ∈ l := by
  induction l with
  | nil => simp [ofList, empty]
  | cons g rest ih =>
    rw [List.mem_cons, ← ih]
    exact mem_place

end FeatureSet

end SchemaAssembly
