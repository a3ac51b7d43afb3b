import SchemaAssembly.Path
import SchemaAssembly.Text.Order

/-!
# File trees

A file tree is a finite list of nodes, each at its location: the names that lead to it from the root
without following a link. The root itself is always a directory. A tree also knows the working
directory, from which relative paths are followed. Nodes have no owners and no permissions: whatever
lies in a tree can be listed, read and written.

- `FileTree.node?` looks a location up, `FileTree.entries` lists a directory.
- `FileTree.put` and `FileTree.remove` change a tree at one location.
-/

namespace SchemaAssembly

/-- A place in a tree: the names that lead to it from the root. -/
abbrev Location := List String

/-- Equal locations are those with equal names, so it can be decided whether one is in a list. -/
instance : LawfulBEq Location :=
  inferInstance

/-- What lies at a location. -/
inductive Node where
  /-- a directory -/
  | directory
  /-- a regular file with its bytes -/
  | file (bytes : List UInt8)
  /-- a symbolic link with the text it holds -/
  | link (target : String)
  deriving DecidableEq

/-- A file tree and the working directory in it. -/
structure FileTree where
  /-- the nodes below the root; the first one at a location counts -/
  nodes : List (Location × Node)
  /-- the location of the working directory -/
  workingDirectory : Location
  deriving DecidableEq

namespace FileTree

/-- **What lies at a location**, if anything does. -/
def node? (t : FileTree) (loc : Location) : Option Node :=
  if loc = [] then some .directory else (t.nodes.find? (·.1 = loc)).map (·.2)

/-- The locations of all directories, the root included. -/
def directories (t : FileTree) : List Location :=
  [] :: (t.nodes.map (·.1)).filter fun loc => t.node? loc = some .directory

/-- The locations of all links. -/
def links (t : FileTree) : List Location :=
  (t.nodes.map (·.1)).filter fun loc => match t.node? loc with
    | some (.link _) => true
    | _ => false

/-- **The names in a directory**, in ascending order. -/
def entries (t : FileTree) (loc : Location) : List String :=
  sortedSet <| t.nodes.filterMap fun (place, _) =>
    if place.dropLast = loc then place.getLast? else none

/-- The tree with a node at a location, in place of the one that lay there. -/
def put (t : FileTree) (loc : Location) (node : Node) : FileTree :=
  if t.nodes.any (·.1 = loc) then
    { t with nodes := t.nodes.map fun n => if n.1 = loc then (loc, node) else n }
  else { t with nodes := t.nodes ++ [(loc, node)] }

/-- The tree without a location and everything below it. -/
def remove (t : FileTree) (loc : Location) : FileTree :=
  { t with nodes := t.nodes.filter fun n => !loc.isPrefixOf n.1 }

/-- The root is a directory. -/
@[simp] theorem node?_nil (t : FileTree) : t.node? [] = some .directory := by
  simp [node?]

/-- A node found is a node of the list. -/
theorem mem_nodes_of_node? {t : FileTree} {loc : Location} {node : Node} (hne : loc ≠ [])
    (h : t.node? loc = some node) : (loc, node) ∈ t.nodes := by
  rw [node?, if_neg hne] at h
  obtain ⟨n, hn, rfl⟩ := Option.map_eq_some_iff.1 h
  have hloc : n.1 = loc := by simpa using List.find?_some hn
  exact hloc ▸ List.mem_of_find?_eq_some hn

/-- A location is among the directories exactly if a directory lies there. -/
theorem mem_directories_iff {t : FileTree} {loc : Location} :
    loc ∈ t.directories ↔ t.node? loc = some .directory := by
  by_cases hne : loc = []
  · simp [hne, directories]
  · simp only [directories, List.mem_cons, hne, false_or, List.mem_filter, decide_eq_true_eq,
      and_iff_right_iff_imp]
    exact fun h => List.mem_map_of_mem (f := (·.1)) (mem_nodes_of_node? hne h)

/-- A location is among the links exactly if a link lies there. -/
theorem mem_links_iff {t : FileTree} {loc : Location} :
    loc ∈ t.links ↔ ∃ target, t.node? loc = some (.link target) := by
  constructor
  · intro h
    have h := (List.mem_filter.1 h).2
    split at h
    · exact ⟨_, ‹_›⟩
    · simp at h
  · rintro ⟨target, h⟩
    have hne : loc ≠ [] := by
      rintro rfl
      simp at h
    have hmem := List.mem_map_of_mem (f := (·.1)) (mem_nodes_of_node? hne h)
    exact List.mem_filter.2 ⟨hmem, by simp [h]⟩

end FileTree

end SchemaAssembly
