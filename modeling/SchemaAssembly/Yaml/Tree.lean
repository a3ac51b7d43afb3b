import SchemaAssembly.Yaml.Node

/-!
# Nodes without aliases

A node in which every alias has been replaced by what it names. A name stands for the same node
throughout a document, and must be given before it is used; inside the node it names it stands for
an empty one.

- `Tree.ofNode?` replaces the aliases of a node.
-/

namespace SchemaAssembly.Yaml

/-- A node without aliases. -/
inductive Tree where
  /-- a text, and whether it is written without quotes -/
  | scalar (tag : Tag) (plain : Bool) (text : String)
  /-- a list of nodes -/
  | sequence (tag : Tag) (items : List Tree)
  /-- keys with their values -/
  | mapping (tag : Tag) (entries : List (Tree × Tree))
  deriving Inhabited, Repr

namespace Tree

/-- What names stand for so far. -/
abbrev Anchors := List (String × Tree)

/-- What a name stands for inside the node that it names. -/
def inside : Node → Tree
  | .mapping tag _ => .mapping tag []
  | .sequence tag _ => .sequence tag []
  | _ => .sequence none []

mutual

/-- A node with its aliases replaced, given what names stand for before it; they may stand for more
after it. -/
def replace (anchors : Anchors) : Node → Option (Tree × Anchors)
  | .scalar tag plain text => some (.scalar tag plain text, anchors)
  | .alias name => (anchors.lookup name).map fun tree => (tree, anchors)
  | .anchored name node =>
    if (anchors.lookup name).isSome then none
    else do
      let (tree, anchors) ← replace ((name, inside node) :: anchors) node
      return (tree, (name, tree) :: anchors)
  | .sequence tag items => do
    let (items, anchors) ← replaceItems anchors items
    return (.sequence tag items, anchors)
  | .mapping tag entries => do
    let (entries, anchors) ← replaceEntries anchors entries
    return (.mapping tag entries, anchors)

/-- The items of a sequence with their aliases replaced. -/
def replaceItems (anchors : Anchors) : List Node → Option (List Tree × Anchors)
  | [] => some ([], anchors)
  | item :: rest => do
    let (item, anchors) ← replace anchors item
    let (rest, anchors) ← replaceItems anchors rest
    return (item :: rest, anchors)

/-- The entries of a mapping with their aliases replaced. -/
def replaceEntries (anchors : Anchors) : List (Node × Node) → Option (List (Tree × Tree) × Anchors)
  | [] => some ([], anchors)
  | (key, value) :: rest => do
    let (key, anchors) ← replace anchors key
    let (value, anchors) ← replace anchors value
    let (rest, anchors) ← replaceEntries anchors rest
    return ((key, value) :: rest, anchors)

end

/-- **A node with its aliases replaced.** -/
def ofNode? (node : Node) : Option Tree :=
  (replace [] node).map (·.1)

/-- The kind of a node, by its tag or, without one, by what it is. A single exclamation mark is no
tag, but quotes do not count behind it. -/
def kind? : Tree → Option Kind
  | .scalar none plain text => some (if plain then .ofPlain text else .str)
  | .scalar (some tag) _ text => if tag = "!" then some (.ofPlain text) else Kind.ofTag? tag
  | .sequence none _ => some .seq
  | .sequence (some tag) _ => if tag = "!" then some .seq else Kind.ofTag? tag
  | .mapping none _ => some .map
  | .mapping (some tag) _ => if tag = "!" then some .map else Kind.ofTag? tag

mutual

/-- A node as a text. A mapping is what its default key stands for. -/
def scalarText? : Tree → Option String
  | .scalar _ _ text => some text
  | .sequence .. => none
  | .mapping _ entries => defaultText? entries

/-- What the default key stands for among some entries. -/
def defaultText? : List (Tree × Tree) → Option String
  | [] => none
  | (key, value) :: rest => if key.kind? = some .value then value.scalarText? else defaultText? rest

end

end Tree

end SchemaAssembly.Yaml
