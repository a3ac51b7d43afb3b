import Mathlib
import SchemaAssembly.Proofs.Dependencies
import SchemaAssembly.Report.Tree

/-!
# What a tree shows

The tree of a name shows the name and everything it depends on, and nothing else, although a branch is
cut where a name comes again (`mem_names_tree_iff`). Below a branch a name is unfolded as far as
steps lead that pass no name of the branch (`mem_names_unfold_iff`). The branch grows by the name at
every unfolding, and that loses nothing: a way that passes a name twice can be shortened to the part
after its last visit there (`Passing.after_last_visit`).

That the names stand on the lines of the text is `forall₂_lines`: there is a line for each node, in
the same order, with the label of the node behind what it is connected with.
-/

namespace SchemaAssembly

/-! ### Nodes and their lines -/

/-- A text that is made of the strings of a style. -/
def TreeStyle.Draws (style : TreeStyle) (text : String) : Prop :=
  ∃ parts : List String,
    (∀ p ∈ parts, p ∈ [style.branch, style.last, style.vertical, style.space]) ∧
      text = String.join parts

theorem TreeStyle.draws_nil (style : TreeStyle) : style.Draws "" :=
  ⟨[], fun _ hp => absurd hp List.not_mem_nil, rfl⟩

theorem TreeStyle.Draws.append {style : TreeStyle} {text p : String} (h : style.Draws text)
    (hp : p ∈ [style.branch, style.last, style.vertical, style.space]) :
    style.Draws (text ++ p) := by
  obtain ⟨parts, hparts, rfl⟩ := h
  refine ⟨parts ++ [p], fun q hq => ?_, by simp⟩
  rcases List.mem_append.1 hq with hq | hq
  · exact hparts q hq
  · obtain rfl := List.mem_singleton.1 hq
    exact hp

namespace DependencyTree

/-- The name that a node stands for. -/
def name : DependencyTree → String
  | missing name => name
  | repeated u | expanded u _ => u.name

mutual

/-- The nodes below a node, from top to bottom. -/
def nodesBelow : DependencyTree → List DependencyTree
  | missing _ => []
  | repeated _ => []
  | expanded _ children => nodesOfChildren children

/-- Children, each with the nodes below it. -/
def nodesOfChildren : List DependencyTree → List DependencyTree
  | [] => []
  | child :: rest => child :: nodesBelow child ++ nodesOfChildren rest

end

/-- **The nodes of a tree**, from top to bottom. -/
def nodes (tree : DependencyTree) : List DependencyTree :=
  tree :: tree.nodesBelow

/-- The names that occur in a tree. -/
def names (tree : DependencyTree) : List String :=
  tree.nodes.map name

/-- **A line for a node**: what connects it, the name of the node, and what is said about it. -/
def LineFor (style : TreeStyle) (tested : List String) (line : String) (node : DependencyTree) :
    Prop :=
  ∃ connection marks, style.Draws connection ∧ node.label tested = node.name ++ marks ∧
    line = connection ++ (node.name ++ marks)

section

variable {style : TreeStyle} {tested : List String}

/-- A label begins with the name of its node. -/
theorem exists_label_eq (tested : List String) (tree : DependencyTree) :
    ∃ marks, tree.label tested = tree.name ++ marks := by
  have hunit : ∀ u : SchemaUnit, ∃ marks, u.label tested = u.name ++ marks := by
    intro u
    rw [SchemaUnit.label, String.append_assoc, String.append_assoc]
    exact ⟨_, rfl⟩
  cases tree with
  | missing name => exact ⟨_, rfl⟩
  | repeated u =>
    obtain ⟨marks, hmarks⟩ := hunit u
    exact ⟨marks ++ " [*]", by rw [label, hmarks, String.append_assoc, name]⟩
  | expanded u children => exact hunit u

theorem lineFor_label {connection : String} (h : style.Draws connection) (tested : List String)
    (tree : DependencyTree) :
    LineFor style tested (connection ++ tree.label tested) tree := by
  obtain ⟨marks, hmarks⟩ := tree.exists_label_eq tested
  exact ⟨connection, marks, h, hmarks, by rw [hmarks]⟩

mutual

theorem forall₂_linesBelow {indentation : String} (h : style.Draws indentation) :
    (tree : DependencyTree) → List.Forall₂ (LineFor style tested)
      (linesBelow style tested indentation tree) tree.nodesBelow
  | missing _ => by
    rw [linesBelow, nodesBelow]
    exact .nil
  | repeated _ => by
    rw [linesBelow, nodesBelow]
    exact .nil
  | expanded _ children => by
    rw [linesBelow, nodesBelow]
    exact forall₂_linesOfChildren h children

theorem forall₂_linesOfChildren {indentation : String} (h : style.Draws indentation) :
    (children : List DependencyTree) → List.Forall₂ (LineFor style tested)
      (linesOfChildren style tested indentation children) (nodesOfChildren children)
  | [] => by
    rw [linesOfChildren, nodesOfChildren]
    exact .nil
  | child :: rest => by
    have hconnector : style.Draws
        (indentation ++ if rest.isEmpty then style.last else style.branch) := by
      refine h.append ?_
      split <;> simp
    have hdeeper : style.Draws
        (indentation ++ if rest.isEmpty then style.space else style.vertical) := by
      refine h.append ?_
      split <;> simp
    rw [linesOfChildren, nodesOfChildren]
    exact .cons (lineFor_label hconnector tested child)
      (List.rel_append (forall₂_linesBelow hdeeper child) (forall₂_linesOfChildren h rest))

end

/-- **There is a line for each node**, in the same order. -/
theorem forall₂_lines (style : TreeStyle) (tested : List String) (tree : DependencyTree) :
    List.Forall₂ (LineFor style tested) (tree.lines style tested) tree.nodes := by
  have hroot := lineFor_label style.draws_nil tested tree
  rw [String.empty_append] at hroot
  exact .cons hroot (forall₂_linesBelow style.draws_nil tree)

end

/-! ### Names -/

variable {x : String}

theorem mem_map_name_nodesOfChildren {children : List DependencyTree} :
    x ∈ (nodesOfChildren children).map name ↔ ∃ child ∈ children, x ∈ child.names := by
  induction children with
  | nil => simp [nodesOfChildren]
  | cons child rest ih =>
    rw [nodesOfChildren, List.map_append, List.mem_append, ih, List.exists_mem_cons_iff]
    rfl

/-- An expanded node shows its own name and what its children show. -/
theorem mem_names_expanded {u : SchemaUnit} {children : List DependencyTree} :
    x ∈ (expanded u children).names ↔ x = u.name ∨ ∃ child ∈ children, x ∈ child.names := by
  rw [names, nodes, List.map_cons, List.mem_cons, nodesBelow, mem_map_name_nodesOfChildren, name]

end DependencyTree

namespace SchemaModel

variable {m : SchemaModel} {branch : List String} {a n x : String}

/-! ### Ways that pass no name of a branch -/

/-- **A way** from a name to another that passes no name of a branch; it may end in one. -/
inductive Passing (m : SchemaModel) (branch : List String) : String → String → Prop
  /-- no step at all -/
  | refl (a : String) : Passing m branch a a
  /-- a step from a name that the branch does not hold -/
  | step {a b x : String} : a ∉ branch → m.DependsOn a b → Passing m branch b x →
    Passing m branch a x

namespace Passing

/-- What passes no name of a branch passes none of what the branch has grown from. -/
theorem of_cons (h : m.Passing (n :: branch) a x) : m.Passing branch a x := by
  induction h with
  | refl a => exact .refl a
  | step hnew hstep _ ih => exact .step (fun hmem => hnew (List.mem_cons_of_mem n hmem)) hstep ih

/-- **After the last visit**: a way either does not pass a name, or goes on from there without passing
it again. -/
theorem after_last_visit (n : String) (h : m.Passing branch a x) :
    m.Passing (n :: branch) a x ∨ ∃ b, m.DependsOn n b ∧ m.Passing (n :: branch) b x := by
  induction h with
  | refl a => exact Or.inl (.refl a)
  | @step a b x hnew hstep _ ih =>
    rcases ih with ih | ih
    · by_cases ha : a = n
      · subst ha
        exact Or.inr ⟨b, hstep, ih⟩
      · refine Or.inl (.step (fun hmem => ?_) hstep ih)
        rcases List.mem_cons.1 hmem with hmem | hmem
        · exact ha hmem
        · exact hnew hmem
    · exact Or.inr ih

/-- A name of the branch leads nowhere. -/
theorem eq_of_mem (h : m.Passing branch a x) (ha : a ∈ branch) : x = a := by
  cases h with
  | refl => rfl
  | step hnew => exact absurd ha hnew

/-- Neither does a name that depends on nothing. -/
theorem eq_of_get?_eq_none (h : m.Passing branch a x) (ha : m.get? a = none) : x = a := by
  cases h with
  | refl => rfl
  | step _ hstep =>
    obtain ⟨u, hu, -⟩ := dependsOn_iff.1 hstep
    rw [ha] at hu
    cases hu

end Passing

/-- Without a branch all ways are open. -/
theorem passing_nil_iff : m.Passing [] a x ↔ m.Reaches a x := by
  constructor
  · intro h
    induction h with
    | refl a => exact .refl
    | step _ hstep _ ih => exact ih.head hstep
  · intro h
    induction h using Relation.ReflTransGen.head_induction_on with
    | refl => exact .refl _
    | head hstep _ ih => exact .step List.not_mem_nil hstep ih

/-- Every dependency is a child. -/
theorem mem_names_unfolded {u : SchemaUnit} (hu : m.get? n = some u) :
    x ∈ (DependencyTree.expanded u
        ((sortedSet u.dependencies).map fun child => m.unfold (n :: branch) child)).names ↔
      x = n ∨ ∃ b, m.DependsOn n b ∧ x ∈ (m.unfold (n :: branch) b).names := by
  rw [DependencyTree.mem_names_expanded, (mem_of_get?_eq_some hu).2]
  simp only [List.mem_map, exists_exists_and_eq_and, mem_sortedSet, dependsOn_iff, hu,
    Option.some.injEq, exists_eq_left']

/-- **What a name shows below a branch** is where ways lead that pass no name of the branch. -/
theorem mem_names_unfold_iff : x ∈ (m.unfold branch n).names ↔ m.Passing branch n x := by
  fun_induction unfold m branch n with
  | case1 branch n hu =>
    rw [DependencyTree.names, DependencyTree.nodes, DependencyTree.nodesBelow, List.map_singleton,
      List.mem_singleton, DependencyTree.name]
    constructor
    · rintro rfl
      exact .refl x
    · exact fun h => h.eq_of_get?_eq_none hu
  | case2 branch n u hu hbranch =>
    rw [DependencyTree.names, DependencyTree.nodes, DependencyTree.nodesBelow, List.map_singleton,
      List.mem_singleton, DependencyTree.name, (mem_of_get?_eq_some hu).2]
    constructor
    · rintro rfl
      exact .refl x
    · exact fun h => h.eq_of_mem hbranch
  | case3 branch n u hu hbranch ih =>
    rw [mem_names_unfolded hu]
    simp only [ih]
    constructor
    · rintro (rfl | ⟨b, hstep, h⟩)
      · exact .refl x
      · exact .step hbranch hstep h.of_cons
    · intro h
      rcases h.after_last_visit n with h | h
      · exact Or.inl (h.eq_of_mem List.mem_cons_self)
      · exact Or.inr h

/-- The tree of the newest revision of a name is the name unfolded. -/
theorem tree_eq_unfold {u : SchemaUnit} (hu : m.get? n = some u) : m.tree u = m.unfold [] n := by
  obtain ⟨-, rfl⟩ := mem_of_get?_eq_some hu
  rw [unfold]
  split
  · rename_i hnone
    rw [hu] at hnone
    cases hnone
  · rename_i v hv
    obtain rfl := Option.some.inj (hu.symm.trans hv)
    rw [dif_neg List.not_mem_nil, tree]

/-- **What the tree of a name shows**: the name and all that it depends on, and no other name. -/
theorem mem_names_tree_iff {u : SchemaUnit} (hu : m.get? n = some u) :
    x ∈ (m.tree u).names ↔ x = n ∨ x ∈ m.dependencies n := by
  rw [tree_eq_unfold hu, mem_names_unfold_iff, passing_nil_iff, mem_dependencies_iff]
  constructor
  · intro h
    by_cases hx : x = n
    · exact Or.inl hx
    · exact Or.inr ⟨hx, h⟩
  · rintro (rfl | ⟨-, h⟩)
    · exact .refl
    · exact h

end SchemaModel

end SchemaAssembly
