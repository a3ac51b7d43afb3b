import Mathlib.Logic.Relation
import SchemaAssembly.Proofs.Dependencies

/-!
# The graph of dependencies

The edges of a model are those of all its units, and importers are edges taken backwards
(`mem_importers_iff`). What a name depends on is found along edges too, but only along those of newest
revisions (`DependsOn.edge`): when the newest revision of a name has dropped what an older one
depends on, the edge is there and is not followed. `dependency_queries` says that this is all that
keeps the three from being one graph.
-/

namespace SchemaAssembly.SchemaModel

variable {m : SchemaModel} {a b x y : String}

/-- **An edge**: a unit of the one name, of whatever revision, depends on the other. -/
def Edge (m : SchemaModel) (a b : String) : Prop :=
  (a, b) ∈ m.edges

/-- **Importers** are edges taken backwards. -/
theorem mem_importers_iff : a ∈ m.importers b ↔ m.Edge a b := by
  rw [Edge, mem_edges_iff, importers, mem_sortedSet]
  simp only [List.mem_map, List.mem_filter, List.contains_iff_mem]
  constructor
  · rintro ⟨u, ⟨hu, hb⟩, rfl⟩
    exact ⟨u, hu, rfl, hb⟩
  · rintro ⟨u, hu, rfl, hb⟩
    exact ⟨u, ⟨hu, hb⟩, rfl⟩

/-- Importers of importers, and so on, are ways along edges taken backwards. -/
theorem transGen_edge_iff_importers :
    Relation.TransGen m.Edge x y ↔ Relation.TransGen (fun b a => a ∈ m.importers b) y x := by
  have hswap : (fun b a => a ∈ m.importers b) = Function.swap m.Edge := by
    funext b a
    exact propext mem_importers_iff
  rw [hswap]
  exact Relation.transGen_swap.symm

/-- A step is along the edge of a newest revision. -/
theorem DependsOn.edge (h : m.DependsOn a b) : m.Edge a b := by
  obtain ⟨u, hu, hb⟩ := dependsOn_iff.1 h
  obtain ⟨hmem, hname⟩ := mem_of_get?_eq_some hu
  exact mem_edges_iff.2 ⟨u, hmem, hname, hb⟩

/-- **Only along edges** is a dependency found. -/
theorem transGen_edge_of_mem_dependencies (h : y ∈ m.dependencies x) :
    Relation.TransGen m.Edge x y := by
  obtain ⟨hne, hreaches⟩ := mem_dependencies_iff.1 h
  rcases Relation.reflTransGen_iff_eq_or_transGen.1 hreaches with heq | hsteps
  · exact absurd heq hne
  · exact Relation.TransGen.mono (fun _ _ => DependsOn.edge) x y hsteps

/-- **Along all edges** dependencies are found if along each edge what it leads to is. -/
theorem reaches_of_transGen_edge
    (h : ∀ u ∈ m.units, ∀ d ∈ u.dependencies, d ≠ u.name → d ∈ m.dependencies u.name)
    (hedges : Relation.TransGen m.Edge x y) : m.Reaches x y := by
  have hedge : ∀ a b, m.Edge a b → m.Reaches a b := by
    intro a b hab
    obtain ⟨u, hu, rfl, hb⟩ := mem_edges_iff.1 hab
    by_cases hself : b = u.name
    · rw [hself]
      exact .refl
    · exact (mem_dependencies_iff.1 (h u hu b hb hself)).2
  induction hedges with
  | single hxy => exact hedge _ _ hxy
  | tail _ hstep ih => exact ih.trans (hedge _ _ hstep)

/-- **The queries of dependencies.** Ways along edges are ways from importer to importer backwards, and
each name that another one depends on is at the end of such a way. The converse holds for all names of
a model exactly if whatever a unit depends on, other than its own name, is among the dependencies of
its name, although only its newest revision is asked for them. So it does if all units of one name
depend on the same names. -/
theorem dependency_queries (m : SchemaModel) :
    (∀ x y, Relation.TransGen m.Edge x y ↔
      Relation.TransGen (fun b a => a ∈ m.importers b) y x) ∧
    (∀ x y, y ∈ m.dependencies x → Relation.TransGen m.Edge x y) ∧
    ((∀ x y, x ≠ y → (y ∈ m.dependencies x ↔ Relation.TransGen m.Edge x y)) ↔
      ∀ u ∈ m.units, ∀ d ∈ u.dependencies, d ≠ u.name → d ∈ m.dependencies u.name) ∧
    ((∀ u ∈ m.units, ∀ v ∈ m.units, u.name = v.name → u.dependencies ⊆ v.dependencies) →
      ∀ x y, x ≠ y → (y ∈ m.dependencies x ↔ Relation.TransGen m.Edge x y)) := by
  have hiff : (∀ x y, x ≠ y → (y ∈ m.dependencies x ↔ Relation.TransGen m.Edge x y)) ↔
      ∀ u ∈ m.units, ∀ d ∈ u.dependencies, d ≠ u.name → d ∈ m.dependencies u.name := by
    constructor
    · intro h u hu d hd hne
      have hedge : m.Edge u.name d := mem_edges_iff.2 ⟨u, hu, rfl, hd⟩
      exact (h u.name d hne.symm).2 (.single hedge)
    · intro h x y hne
      refine ⟨transGen_edge_of_mem_dependencies, fun hedges => ?_⟩
      exact mem_dependencies_iff.2 ⟨hne.symm, reaches_of_transGen_edge h hedges⟩
  refine ⟨fun _ _ => transGen_edge_iff_importers, fun _ _ => transGen_edge_of_mem_dependencies,
    hiff, fun hsame => hiff.2 fun u hu d hd hne => ?_⟩
  -- the newest unit of the name depends on the same names
  obtain ⟨newest, hnewest⟩ := exists_get?_eq_some (mem_names_iff.2 ⟨u, hu, rfl⟩)
  obtain ⟨hmem, hname⟩ := mem_of_get?_eq_some hnewest
  have hstep : m.DependsOn u.name d :=
    dependsOn_iff.2 ⟨newest, hnewest, hsame u hu newest hmem hname.symm hd⟩
  exact mem_dependencies_iff.2 ⟨hne, .single hstep⟩

/-- The newest revision of `a` depends on nothing any more. -/
def outgrown : SchemaModel where
  units := [{ name := "a", imports := ["z"] }, { name := "a", revision := some "2024-01-01" }]
  ordered := by decide

/-- The edge of the older revision is there in both directions, and is not followed. -/
theorem not_transGen_edge_iff_outgrown :
    outgrown.edges = [("a", "z")] ∧ outgrown.importers "z" = ["a"] ∧
    outgrown.dependencies "a" = [] ∧
    ¬ ∀ x y, x ≠ y → (y ∈ outgrown.dependencies x ↔ Relation.TransGen outgrown.Edge x y) := by
  have hedges : outgrown.edges = [("a", "z")] := by decide +kernel
  have hdependencies : outgrown.dependencies "a" = [] := by
    have hdirect : outgrown.directDependencies "a" = [] := by decide +kernel
    refine List.eq_nil_iff_forall_not_mem.2 fun d hd => ?_
    obtain ⟨hne, hreaches⟩ := mem_dependencies_iff.1 hd
    rcases hreaches.cases_head with heq | ⟨next, hstep, -⟩
    · exact hne heq.symm
    · rw [DependsOn, hdirect] at hstep
      cases hstep
  refine ⟨hedges, by decide +kernel, hdependencies, fun h => ?_⟩
  have hedge : outgrown.Edge "a" "z" := by
    rw [Edge, hedges]
    exact List.mem_cons_self
  have hmem := (h "a" "z" (by decide)).2 (.single hedge)
  rw [hdependencies] at hmem
  cases hmem

end SchemaAssembly.SchemaModel
