import SchemaAssembly.SchemaModel.Dependencies
import SchemaAssembly.Text.Lines

/-!
# The tree report

A model as a forest of dependency trees. A tree unfolds what its unit depends on, and cuts a branch
where a name comes again. The forest is written as text: a line for each node, and an empty line
between two trees.

- `SchemaModel.forest` unfolds a model, `DependencyTree.lines` writes a tree.
- `SchemaModel.drawUnit` writes the same lines without a tree: all branches share one `Drawing`, whose
  visited names are those on the branch that is being drawn.
- `SchemaModel.treeReport` is the text of the whole forest, as it is drawn.
-/

namespace SchemaAssembly

/-- What a unit depends on, unfolded. -/
inductive DependencyTree where
  /-- a name that no unit has -/
  | missing (name : String)
  /-- a unit that the branch already holds -/
  | repeated (schemaUnit : SchemaUnit)
  /-- a unit with what it depends on -/
  | expanded (schemaUnit : SchemaUnit) (children : List DependencyTree)
  deriving Repr

namespace SchemaModel

/-- The names of units that a branch does not hold yet. -/
def namesOff (m : SchemaModel) (branch : List String) : List String :=
  m.names.filter (· ∉ branch)

/-- Of the names off a branch, those stay off it that do not join it. -/
theorem namesOff_cons (m : SchemaModel) (branch : List String) (name : String) :
    m.namesOff (name :: branch) = (m.namesOff branch).filter (· ≠ name) := by
  simp only [namesOff, List.filter_filter]
  refine List.filter_congr fun a _ => ?_
  simp [not_or]

/-- A name of the model that joins a branch leaves fewer names off it. -/
theorem length_namesOff_cons_lt_of_mem {m : SchemaModel} {branch : List String} {name : String}
    (hname : name ∈ m.names) (hnew : name ∉ branch) :
    (m.namesOff (name :: branch)).length < (m.namesOff branch).length := by
  have hmem : name ∈ m.namesOff branch := List.mem_filter.2 ⟨hname, by simpa using hnew⟩
  rw [namesOff_cons]
  exact List.length_filter_lt_length_iff_exists.2 ⟨name, hmem, by simp⟩

/-- A unit that joins a branch leaves fewer names off it. -/
theorem length_namesOff_cons_lt {m : SchemaModel} {branch : List String} {name : String}
    {u : SchemaUnit} (hu : m.get? name = some u) (hnew : name ∉ branch) :
    (m.namesOff (name :: branch)).length < (m.namesOff branch).length :=
  length_namesOff_cons_lt_of_mem (mem_names_iff.2 ⟨u, mem_of_get?_eq_some hu⟩) hnew

/-- A name unfolded below the names of its branch. It stands for its newest revision. -/
def unfold (m : SchemaModel) (branch : List String) (name : String) : DependencyTree :=
  match _hu : m.get? name with
  | none => .missing name
  | some u =>
    if _hbranch : name ∈ branch then .repeated u
    else .expanded u ((sortedSet u.dependencies).map fun child => m.unfold (name :: branch) child)
termination_by (m.namesOff branch).length
decreasing_by exact length_namesOff_cons_lt _hu _hbranch

/-- The tree of a unit of any revision. -/
def tree (m : SchemaModel) (u : SchemaUnit) : DependencyTree :=
  .expanded u ((sortedSet u.dependencies).map (m.unfold [u.name]))

/-- The units that trees start at: the tested ones, or all if asked for or if none is tested. -/
def treeRoots (m : SchemaModel) (tested : List String) (showAll : Bool) : List SchemaUnit :=
  if showAll || tested.isEmpty then m.units else m.units.filter fun u => tested.contains u.name

/-- **The forest** of a model. -/
def forest (m : SchemaModel) (tested : List String) (showAll : Bool) : List DependencyTree :=
  (m.treeRoots tested showAll).map m.tree

end SchemaModel

/-- The strings that a tree is drawn with. -/
structure TreeStyle where
  /-- before a child that others follow -/
  branch : String
  /-- before the last child -/
  last : String
  /-- below a child that others follow -/
  vertical : String
  /-- below the last child -/
  space : String
  deriving DecidableEq, Repr

namespace TreeStyle

/-- Drawn with lines. -/
def drawn : TreeStyle :=
  ⟨"├── ", "└── ", "│   ", "    "⟩

/-- Drawn with ASCII characters. -/
def plain : TreeStyle :=
  ⟨"|-- ", "\\-- ", "|   ", "    "⟩

/-- The style of a name: lines are drawn unless ASCII is asked for. -/
def ofName (name : String) : TreeStyle :=
  if name = "ascii" then plain else drawn

end TreeStyle

/-- A unit as a tree names it. -/
def SchemaUnit.label (u : SchemaUnit) (tested : List String) : String :=
  let revision := if u.revisionKey = "" then "" else "@" ++ u.revisionKey
  let kind := if u.kind = "submodule" then " (submodule)" else ""
  let mark := if tested.contains u.name then " [tested]" else ""
  u.name ++ revision ++ kind ++ mark

namespace DependencyTree

/-- What stands on the line of a node. -/
def label (tested : List String) : DependencyTree → String
  | missing name => name ++ " [MISSING]"
  | repeated u => u.label tested ++ " [*]"
  | expanded u _ => u.label tested

mutual

/-- The lines of what hangs below a node, each behind the indentation. -/
def linesBelow (style : TreeStyle) (tested : List String) (indentation : String) :
    DependencyTree → List String
  | missing _ => []
  | repeated _ => []
  | expanded _ children => linesOfChildren style tested indentation children

/-- The lines of children, the last one connected in its own way. -/
def linesOfChildren (style : TreeStyle) (tested : List String) (indentation : String) :
    List DependencyTree → List String
  | [] => []
  | child :: rest =>
    let connector := if rest.isEmpty then style.last else style.branch
    let deeper := indentation ++ if rest.isEmpty then style.space else style.vertical
    (indentation ++ connector ++ child.label tested) ::
      linesBelow style tested deeper child ++ linesOfChildren style tested indentation rest

end

/-- **The lines of a tree.** -/
def lines (style : TreeStyle) (tested : List String) (tree : DependencyTree) : List String :=
  tree.label tested :: linesBelow style tested "" tree

end DependencyTree

/-! ### Drawing -/

/-- A report as far as it has been drawn. -/
structure Drawing where
  /-- the names on the branch that is being drawn -/
  visited : List String
  /-- the lines so far -/
  lines : List String
  deriving DecidableEq, Repr

namespace Drawing

/-- What can become of a drawing in the end: there are more lines, and the branch is the same again. -/
abbrev Return (d : Drawing) : Type :=
  { next : Drawing // next.visited = d.visited }

variable {d : Drawing} {line name : String}

/-- The drawing with a line more. -/
def addLine (d : Drawing) (line : String) : d.Return :=
  ⟨{ d with lines := d.lines ++ [line] }, rfl⟩

/-- The drawing with a line more, below which the branch goes on with a name. -/
def enter (d : Drawing) (line name : String) : Drawing :=
  { visited := name :: d.visited, lines := d.lines ++ [line] }

/-- The name leaves the branch when everything below it has been drawn. -/
def Return.leave (below : (d.enter line name).Return) : d.Return :=
  ⟨{ below.1 with visited := below.1.visited.erase name }, by
    rw [below.2]
    exact List.erase_cons_head name d.visited⟩

/-- One part of a drawing after another. -/
def Return.andThen (first : d.Return) (others : first.1.Return) : d.Return :=
  ⟨others.1, others.2.trans first.2⟩

end Drawing

namespace SchemaModel

/-- What stands on the line of a name, before it is known whether the branch holds the name. -/
def labelOf (tested : List String) (name : String) : Option SchemaUnit → String
  | none => name ++ " [MISSING]"
  | some u => u.label tested

/-- How often a branch can still grow: by each name off it, and once by a unit that is not of the
model. -/
def growth (m : SchemaModel) (visited : List String) (name : String) (unit? : Option SchemaUnit) :
    Nat :=
  (m.namesOff visited).length + if unit?.isSome && !m.contains name then 1 else 0

/-- A name that is looked up is of the model. -/
theorem growth_get? (m : SchemaModel) (visited : List String) (name : String) :
    m.growth visited name (m.get? name) = (m.namesOff visited).length := by
  rw [growth, if_neg, Nat.add_zero]
  cases hu : m.get? name with
  | none => simp
  | some u => simp [contains_iff.2 ⟨u, mem_of_get?_eq_some hu⟩]

/-- A unit that joins the branch uses up some growth. -/
theorem length_namesOff_cons_lt_growth {m : SchemaModel} {visited : List String} {name : String}
    (hnew : name ∉ visited) (u : SchemaUnit) :
    (m.namesOff (name :: visited)).length < m.growth visited name (some u) := by
  rw [growth]
  by_cases hname : m.contains name = true
  · have hlt := length_namesOff_cons_lt_of_mem (mem_names_iff.2 (contains_iff.1 hname)) hnew
    omega
  · have hle := List.length_filter_le (fun a => decide (a ≠ name)) (m.namesOff visited)
    rw [namesOff_cons, if_pos (by simp [hname])]
    omega

mutual

/-- Draws a name behind its connection, and what it depends on behind an indentation. A name that the
branch already holds is marked, and nothing is drawn below it. -/
def drawUnit (m : SchemaModel) (style : TreeStyle) (tested : List String)
    (connection indentation name : String) (unit? : Option SchemaUnit) (d : Drawing) : d.Return :=
  let mark := if name ∈ d.visited then " [*]" else ""
  let line := connection ++ (labelOf tested name unit? ++ mark)
  match unit? with
  | none => d.addLine line
  | some u =>
    if _hvisited : name ∈ d.visited then d.addLine line
    else
      (m.drawDependencies style tested indentation (sortedSet u.dependencies)
        (d.enter line name)).leave
termination_by (m.growth d.visited name unit?, 0)
decreasing_by exact Prod.Lex.left _ _ (length_namesOff_cons_lt_growth _hvisited u)

/-- Draws names one after another, each as the unit it stands for. -/
def drawDependencies (m : SchemaModel) (style : TreeStyle) (tested : List String)
    (indentation : String) (names : List String) (d : Drawing) : d.Return :=
  match names with
  | [] => ⟨d, rfl⟩
  | name :: rest =>
    let connector := if rest.isEmpty then style.last else style.branch
    let deeper := indentation ++ if rest.isEmpty then style.space else style.vertical
    let first := m.drawUnit style tested (indentation ++ connector) deeper name (m.get? name) d
    first.andThen (m.drawDependencies style tested indentation rest first.1)
termination_by ((m.namesOff d.visited).length, names.length + 1)
decreasing_by
  · rw [growth_get?]
    exact Prod.Lex.right _ (Nat.succ_pos _)
  · rw [first.2]
    exact Prod.Lex.right _ (Nat.lt_succ_self _)

end

/-- Draws the trees of units one after another, with an empty line between two. -/
def drawRoots (m : SchemaModel) (style : TreeStyle) (tested : List String) :
    List SchemaUnit → List String → List String
  | [], lines => lines
  | u :: rest, lines =>
    let drawn := (m.drawUnit style tested "" "" u.name (some u) ⟨[], lines⟩).1.lines
    m.drawRoots style tested rest (if rest.isEmpty then drawn else drawn ++ [""])

/-- **The tree report** of a model. -/
def treeReport (m : SchemaModel) (tested : List String) (style : TreeStyle) (showAll : Bool) :
    String :=
  Text.joinLines (m.drawRoots style tested (m.treeRoots tested showAll) [])

end SchemaModel

end SchemaAssembly
