import SchemaAssembly.SchemaModel.Basic

/-!
# Dependencies in a model

The names that the units of a model import or include span a graph. A name stands for its newest
revision when the graph is walked forwards, and for any of its revisions otherwise.

- `SchemaModel.edges` lists every unit with each name it depends on.
- `SchemaModel.dependencies` is everything a name depends on, directly or not. Names outside the
  model are listed and not followed.
-/

namespace SchemaAssembly.SchemaModel

/-- What the newest revision of a name imports or includes. -/
def directDependencies (m : SchemaModel) (name : String) : List String :=
  match m.get? name with
  | some u => u.dependencies
  | none => []

/-- Every unit's name with each name it depends on, in model order and then ascending. -/
def edges (m : SchemaModel) : List (String × String) :=
  m.units.flatMap fun u => (sortedSet u.dependencies).map fun dependency => (u.name, dependency)

/-- The edges lead from units to what they depend on. -/
theorem mem_edges_iff {m : SchemaModel} {name d : String} :
    (name, d) ∈ m.edges ↔ ∃ u ∈ m.units, u.name = name ∧ d ∈ u.dependencies := by
  simp only [edges, List.mem_flatMap, List.mem_map, mem_sortedSet, Prod.mk.injEq]
  constructor
  · rintro ⟨u, hu, d', hd, rfl, rfl⟩
    exact ⟨u, hu, rfl, hd⟩
  · rintro ⟨u, hu, rfl, hd⟩
    exact ⟨u, hu, d, hd, rfl, rfl⟩

/-- The names of the units, of any revision, that depend on a name directly. -/
def importers (m : SchemaModel) (name : String) : List String :=
  sortedSet ((m.units.filter (·.dependencies.contains name)).map (·.name))

/-- Every name that some unit depends on. -/
def dependencyNames (m : SchemaModel) : List String :=
  m.units.flatMap (·.dependencies)

/-- The dependency names that have not been seen. -/
def unseen (m : SchemaModel) (seen : List String) : List String :=
  m.dependencyNames.filter (· ∉ seen)

/-- A direct dependency is a dependency name. -/
theorem mem_dependencyNames {m : SchemaModel} {name d : String}
    (h : d ∈ m.directDependencies name) : d ∈ m.dependencyNames := by
  rw [directDependencies] at h
  split at h
  · rename_i u hu
    exact List.mem_flatMap.2 ⟨u, (mem_of_get?_eq_some hu).1, h⟩
  · simp at h

/-- Seeing a dependency name that was unseen leaves fewer unseen. -/
theorem length_unseen_lt {m : SchemaModel} {seen more : List String} {d : String}
    (hd : d ∈ m.dependencyNames) (hseen : d ∉ seen) (hmore : d ∈ more) :
    (m.unseen (more ++ seen)).length < (m.unseen seen).length := by
  have hsub : m.unseen (more ++ seen) = (m.unseen seen).filter (· ∉ more) := by
    simp only [unseen, List.filter_filter]
    refine List.filter_congr fun a _ => ?_
    simp [not_or]
  rw [hsub]
  exact List.length_filter_lt_length_iff_exists.2
    ⟨d, List.mem_filter.2 ⟨hd, by simpa using hseen⟩, by simpa using hmore⟩

/-- The direct dependencies of a name that are new to a search from `origin`. -/
def fresh (m : SchemaModel) (origin : String) (seen : List String) (name : String) : List String :=
  (distinct (m.directDependencies name)).filter fun d => d ≠ origin ∧ d ∉ seen

/-- A search: `pending` names are still to be expanded, `seen` ones have been reached. -/
def search (m : SchemaModel) (origin : String) (pending seen : List String) : List String :=
  match pending with
  | [] => seen
  | name :: rest =>
    match _hnew : m.fresh origin seen name with
    | [] => m.search origin rest seen
    | d :: more => m.search origin (d :: more ++ rest) (d :: more ++ seen)
termination_by ((m.unseen seen).length, pending.length)
decreasing_by
  · exact Prod.Lex.right _ (by simp)
  · have hmem : d ∈ m.fresh origin seen name := by
      rw [_hnew]
      exact List.mem_cons_self
    simp only [fresh, List.mem_filter, mem_distinct, decide_eq_true_eq] at hmem
    exact Prod.Lex.left _ _
      (length_unseen_lt (mem_dependencyNames hmem.1) hmem.2.2 List.mem_cons_self)

/-- **Everything a name depends on**, ascending; the name itself is not listed. -/
def dependencies (m : SchemaModel) (name : String) : List String :=
  sortedSet (m.search name [name] [])

/-- The model as a message shows it. -/
def describe (m : SchemaModel) : String :=
  "SchemaModel(units=" ++ toString m.size ++ ", imports=" ++ toString m.edges.length ++ ")"

end SchemaAssembly.SchemaModel
