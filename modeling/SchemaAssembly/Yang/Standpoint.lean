import SchemaAssembly.Yang.Expansion

/-!
# Standpoints

A place in the trees of a module: a node with those above it, or the outermost level. From a
standpoint one goes up and down. Choices and cases are passed over, because data has no such nodes;
on the way up the inputs and outputs of operations are passed over too, and on the way down from
there the one that the way came through.

- `Check.visits` goes through the nodes of a module.
- `Standpoint.up?` and `dataNode?` are steps up and down.
-/

namespace SchemaAssembly.Yang

/-- A place in the trees of a module. -/
structure Standpoint where
  /-- the node and those above it, the innermost first; none at the outermost level -/
  chain : List SchemaNode
  /-- the module at whose outermost level the chain ends -/
  home : Nat
  /-- whether the chain reaches the outermost level -/
  isRooted : Bool

namespace SchemaNode

/-- Whether the node is an alternative or the case of one. -/
def isAlternative (n : SchemaNode) : Bool :=
  n.keyword = "choice" || n.keyword = "case"

/-- Whether the node is what goes into an operation or comes out of it. -/
def isSide (n : SchemaNode) : Bool :=
  n.keyword = "input" || n.keyword = "output"

/-- Whether data has no such nodes. -/
def isPassedOver (n : SchemaNode) : Bool :=
  n.isAlternative || n.isSide

end SchemaNode

namespace Standpoint

/-- The node at a standpoint. -/
def node? (s : Standpoint) : Option SchemaNode :=
  s.chain.head?

/-- The next place above that data has. -/
def up? (s : Standpoint) : Option Standpoint :=
  match s.chain with
  | [] => none
  | _ :: above => some { s with chain := above.dropWhile (·.isPassedOver) }

/-- The input or output that is passed over on the way to the next place above. -/
def sideAbove? (s : Standpoint) : Option String :=
  (((s.chain.drop 1).takeWhile (·.isPassedOver)).reverse.find? (·.isSide)).map (·.keyword)

/-- The place some steps above, with the last input or output that is passed over on the way. -/
def upBy? (s : Standpoint) (side : Option String := none) :
    Nat → Option (Standpoint × Option String)
  | 0 => some (s, side)
  | n + 1 => s.up?.bind fun t => t.upBy? (s.sideAbove? <|> side) n

/-- What tells a standpoint from others. -/
def key (s : Standpoint) : Nat × List (SiteKey × String) :=
  (s.home, s.chain.map fun n => (n.site.key, n.name))

end Standpoint

mutual

/-- A node, if it has a name that a module owns, with those above it. Of an alternative, and of the
input or output that the way came through, the first such node in it is taken. -/
def dataNodeOf? (name space : String) (side : Option String) (above : List SchemaNode) :
    SchemaNode → Option (List SchemaNode)
  | ⟨keyword, ownName, site, position, host, ownSpace, usedAt, properties, children, config⟩ =>
    let n : SchemaNode :=
      ⟨keyword, ownName, site, position, host, ownSpace, usedAt, properties, children, config⟩
    if n.isAlternative || some keyword = side then dataNode? name space side (n :: above) children
    else if n.isNamed name space then some (n :: above)
    else none

/-- **The first node with a name** that a module owns among some nodes, with those above it. -/
def dataNode? (name space : String) (side : Option String) (above : List SchemaNode) :
    List SchemaNode → Option (List SchemaNode)
  | [] => none
  | n :: rest =>
    match dataNodeOf? name space side above n with
    | some chain => some chain
    | none => dataNode? name space side above rest

end

/-! ### Going through trees -/

/-- A moment of going through trees. -/
structure Visit where
  /-- where it is -/
  standpoint : Standpoint
  /-- the node there -/
  node : SchemaNode
  /-- whether the nodes in it have been gone through -/
  isLeaving : Bool

mutual

/-- Goes through a node. Of nodes that are hosted elsewhere, those further in are left out. -/
def visitsOf (isSkipped : SchemaNode → Bool) (module : Nat) (above : Standpoint) :
    SchemaNode → List Visit
  | ⟨keyword, name, site, position, host, space, usedAt, properties, children, config⟩ =>
    let n : SchemaNode :=
      ⟨keyword, name, site, position, host, space, usedAt, properties, children, config⟩
    let here := { above with chain := n :: above.chain }
    if isSkipped n then []
    else if host = module then
      ⟨here, n, false⟩ :: visitsIn isSkipped module here children ++ [⟨here, n, true⟩]
    else [⟨here, n, false⟩]

/-- Goes through some nodes. -/
def visitsIn (isSkipped : SchemaNode → Bool) (module : Nat) (above : Standpoint) :
    List SchemaNode → List Visit
  | [] => []
  | n :: rest => visitsOf isSkipped module above n ++ visitsIn isSkipped module above rest

end

namespace Check

/-- The nodes of an augment where they stand; those that have no place stand alone. -/
def nodesAdded (s : Site) : Check (List (Standpoint × SchemaNode)) := do
  let w ← get
  let placed := (w.placements.filter (·.1 = s.key)).filterMap fun (_, address) =>
    match Forest.nodesAbove w.forest [] address with
    | [] => none
    | n :: above =>
      let home := ((above.getLast?).getD n).host
      if n.keyword = "case" && n.site.statement.keyword != "case" then
        n.children.head?.map fun inner => (⟨n :: above, home, true⟩, inner)
      else some (⟨above, home, true⟩, n)
  let others := (← additionsOf s).filter fun n =>
    placed.all fun (_, other) => !other.isNamed n.name n.space
  return placed ++ others.map fun n => (⟨[], s.home, false⟩, n)

/-- **Going through the nodes of a module**: those of its trees, and those that it adds to others.
-/
def visits (m : Module) : Check (List Visit) := do
  let w ← get
  let isSkipped := fun (n : SchemaNode) =>
    (w.modules[n.site.home]?).any fun m => m.rejects n.site.statement
  let trees := m.trees.filterMap (w.forest[·]?)
  let added ← (← accepted m.site "augment").mapM nodesAdded
  return visitsIn isSkipped m.number ⟨[], m.number, true⟩ trees ++
    added.flatten.flatMap fun (above, n) => visitsOf isSkipped m.number above n

end Check

end SchemaAssembly.Yang
