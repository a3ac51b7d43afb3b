import SchemaAssembly.Yang.Module

/-!
# Schema nodes

What the statements of a module define is a tree of nodes. Where a grouping is used, copies of its
nodes stand, each with the place of the use; the case of a choice and the input and output of an
operation have a node even if they are not written.

A node is found at an address: the position of a tree in a list of trees, and then the positions of
children. `Forest.node?` finds the node at an address and `Forest.modifyAt` changes it;
`node?_modifyAt` says that it changes no other than the node at the address and those above it.
-/

namespace SchemaAssembly.Yang

/-- A statement in the body of a node that defines no node. -/
structure Property where
  /-- the statement -/
  site : Site
  /-- where it is -/
  position : Position

namespace Property

/-- What kind of property it is. -/
def keyword (p : Property) : String :=
  p.site.statement.keyword

/-- Its argument. -/
def argument (p : Property) : Option String :=
  p.site.statement.argument

end Property

/-- A node of a schema tree. -/
structure SchemaNode where
  /-- what kind of node it is -/
  keyword : String
  /-- its name -/
  name : String
  /-- the statement it comes from -/
  site : Site
  /-- where it is -/
  position : Position
  /-- the number of the module it is part of -/
  host : Nat
  /-- the name of the module that owns its name -/
  space : String
  /-- the statement that uses the grouping it is copied from -/
  usedAt : Option Position := none
  /-- the statements in its body that define no node -/
  properties : List Property := []
  /-- the nodes in it -/
  children : List SchemaNode := []
  /-- whether it can be changed; unknown in a grouping -/
  config : Option Bool := none

/-- The keywords of nodes that have children. -/
def parentKeywords : List String :=
  ["container", "list", "choice", "case", "rpc", "action", "input", "output", "notification"]

/-- The keywords of nodes that a body defines. -/
def nodeKeywords : List String :=
  ["leaf", "leaf-list", "container", "list", "choice", "case", "anyxml", "anydata", "action",
    "rpc", "notification"]

namespace SchemaNode

/-- The keyword of a node that stands for one that an augment expects to be there. -/
def placeholder : String := "__tmp_augment__"

/-- Whether the node stands for one that is expected. -/
def isPlaceholder (n : SchemaNode) : Bool :=
  n.keyword = placeholder

/-- Whether the node may have children. -/
def takesChildren (n : SchemaNode) : Bool :=
  parentKeywords.contains n.keyword || n.isPlaceholder

/-- Whether the node has a name that a module owns. -/
def isNamed (name space : String) (n : SchemaNode) : Bool :=
  n.name = name && n.space = space

/-- The first property with a keyword. -/
def property? (n : SchemaNode) (keyword : String) : Option Property :=
  n.properties.find? (·.keyword = keyword)

/-- The argument of the first property with a keyword. -/
def argument? (n : SchemaNode) (keyword : String) : Option String :=
  (n.property? keyword).bind (·.argument)

/-- The least number of entries, if it is given. -/
def leastEntries (n : SchemaNode) : Nat :=
  ((n.argument? "min-elements").bind (·.toNat?)).getD 0

/-- Whether a value or an alternative must be there. -/
def isMandatory (n : SchemaNode) : Bool :=
  n.argument? "mandatory" = some "true"

mutual

/-- The copy of a node where its grouping is used. -/
def copy (host : Nat) (space : String) (uses : Position) : SchemaNode → SchemaNode
  | ⟨keyword, name, site, position, _, _, _, properties, children, config⟩ =>
    { keyword, name, site, host, space, config
      position := position.usedFrom uses
      usedAt := some uses
      properties := properties.map fun p => { p with position := p.position.usedFrom uses }
      children := copyAll host space uses children }

/-- The copies of some nodes. -/
def copyAll (host : Nat) (space : String) (uses : Position) : List SchemaNode → List SchemaNode
  | [] => []
  | n :: rest => n.copy host space uses :: copyAll host space uses rest

end

end SchemaNode

/-! ### Addresses -/

/-- An address of a node in a list of trees: the position of its tree, and then the positions of
children. -/
abbrev Address := List Nat

/-- Trees in order. -/
abbrev Forest := List SchemaNode

namespace Forest

/-- The node at an address. -/
def node? (forest : Forest) : Address → Option SchemaNode
  | [] => none
  | [i] => forest[i]?
  | i :: j :: rest =>
    match forest[i]? with
    | some n => node? n.children (j :: rest)
    | none => none

/-- Changes the node at an address. -/
def modifyAt (change : SchemaNode → SchemaNode) : Address → Forest → Forest
  | [], forest => forest
  | [i], forest => forest.modify i change
  | i :: j :: rest, forest =>
    forest.modify i fun n => { n with children := modifyAt change (j :: rest) n.children }

/-- The nodes at an address and above it, the innermost first. -/
def nodesAbove (forest : Forest) (above : List SchemaNode) : Address → List SchemaNode
  | [] => above
  | i :: rest =>
    match forest[i]? with
    | some n => nodesAbove n.children (n :: above) rest
    | none => above

/-- The position of the first node with a name that a module owns. -/
def find? (name space : String) (forest : Forest) : Option Nat :=
  forest.findIdx? (·.isNamed name space)

end Forest

end SchemaAssembly.Yang
