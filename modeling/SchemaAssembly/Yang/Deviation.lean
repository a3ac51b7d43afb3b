import SchemaAssembly.Yang.Keys

/-!
# Deviations

A module can say that a node is not as its definition says: that it is not supported, or that
properties are added, replaced or left out. Some properties a node has at most once; every node can
be changed or not, so that this is only ever replaced.

- `Check.checkDeviations` applies the deviations of a module.
-/

namespace SchemaAssembly.Yang

namespace Forest

/-- A forest without the child at some position of the node at an address. -/
def withoutChild (parent : Address) (position : Nat) (forest : Forest) : Forest :=
  forest.modifyAt (fun n => { n with children := n.children.eraseIdx position }) parent

end Forest

/-- The nodes that each property can be given to. -/
def deviatedKeywords : List (String × List String) :=
  let any := ["leaf", "choice", "container", "list", "leaf-list"]
  [("type", ["leaf", "leaf-list"]), ("units", ["leaf", "leaf-list"]),
    ("default", ["leaf", "leaf-list", "choice"]), ("config", any), ("must", any),
    ("mandatory", ["leaf", "choice"]), ("min-elements", ["leaf-list", "list"]),
    ("max-elements", ["leaf-list", "list"]), ("unique", ["list"])]

/-- The properties that a node has at most once. -/
def singleKeywords : List String :=
  ["type", "units", "default", "config", "mandatory", "min-elements", "max-elements"]

namespace Check

/-- A node whose definition is deviated from. -/
structure Deviated where
  /-- where it is, unless it has been left out -/
  address : Option Address
  /-- the node -/
  node : SchemaNode

/-- Changes the properties of a node. -/
def setProperties (d : Deviated) (properties : List Property) : Check Deviated := do
  d.address.forM fun address =>
    modify fun w => { w with forest := w.forest.modifyAt (fun n => { n with properties }) address }
  return { d with node := { d.node with properties } }

/-- Adds a property to a node. -/
def addProperty (d : Deviated) (s : Site) : Check Deviated := do
  let keyword := s.statement.keyword
  let position ← positionOf s
  if keyword = "config" ||
      (singleKeywords.contains keyword && (d.node.property? keyword).isSome) then
    report position (.node (.propertyExists keyword d.node.space d.node.name))
    return d
  if !((deviatedKeywords.lookup keyword).any (·.contains d.node.keyword)) then
    report position (.node (.badProperty keyword))
    return d
  setProperties d (d.node.properties ++ [⟨s, position⟩])

/-- The position of the property that a statement replaces or leaves out. -/
def replacedProperty? (n : SchemaNode) (s : Statement) : Option Nat :=
  n.properties.findIdx? fun p =>
    p.keyword = s.keyword && (singleKeywords.contains s.keyword || p.argument = s.argument)

/-- Replaces a property of a node, or leaves it out. -/
def replaceProperty (isReplaced : Bool) (d : Deviated) (s : Site) : Check Deviated := do
  let position ← positionOf s
  if isReplaced && s.statement.keyword = "config" then return d
  match replacedProperty? d.node s.statement with
  | none =>
    report position (.node (.noProperty s.statement.keyword d.node.space d.node.name))
    return d
  | some i =>
    let kept := d.node.properties.eraseIdx i
    setProperties d (if isReplaced then kept ++ [⟨s, position⟩] else kept)

/-- Takes a node out of its tree, unless it is a key. -/
def dropNode (s : Site) (d : Deviated) : Check Deviated := do
  let dropped : Deviated := { d with address := none }
  match d.address with
  | none => return d
  | some address =>
    let w ← get
    match w.forest.nodesAbove [] address, address.getLast? with
    | [_], some i =>
      modify fun w => { w with
        modules := w.modules.map fun m => { m with trees := m.trees.filter (· != i) }
        unsupported := d.node.site.key :: w.unsupported }
      return dropped
    | _ :: parent :: _, some i =>
      let keys := Text.wordsOf ((parent.argument? "key").getD "")
      if parent.keyword = "list" && d.node.keyword = "leaf" &&
          keys.any fun key => (Reference.ofText key).name = d.node.name then
        reportAt s (.node (.keyNotSupported d.node.space d.node.name))
        return d
      else
        modify fun w => { w with forest := w.forest.withoutChild address.dropLast i }
        return dropped
    | _, _ => return d

/-- Applies a deviate statement of a deviation. -/
def deviate (isAlone : Bool) (d : Deviated) (s : Site) : Check Deviated := do
  let properties ← (s.body.filter fun t => !t.statement.isExtension).filterM fun t =>
    return !(← ofModule t.home false (·.rejects t.statement))
  match s.statement.name with
  | "not-supported" =>
    if !isAlone then reportAt s (.node .otherDeviate)
    dropNode s d
  | "add" => properties.foldlM addProperty d
  | "replace" => properties.foldlM (replaceProperty true) d
  | "delete" => properties.foldlM (replaceProperty false) d
  | _ => return d

/-- Applies a deviation, and answers with the node as it is then. -/
def applyDeviation (s : Site) : Check (Option Deviated) := do
  let arrival ← arrive s false
  match arrival.target with
  | none => return none
  | some address =>
    match arrival.forest.node? address with
    | none => return none
    | some node =>
      let stated ← accepted s "deviate"
      return some (← stated.foldlM (deviate (stated.length ≤ 1)) ⟨some address, node⟩)

/-- Checks the default values of a leaf, or of a list of leaves, that has been deviated from. -/
def recheckDefaults (n : SchemaNode) : Check Unit := do
  match n.property? "type" with
  | none => return
  | some type =>
    let stated := n.properties.filter (·.keyword = "default")
    let leaf : LeafStatements :=
      { home := n.host, position := n.position, type := type.site
        defaults := stated.map fun p => (p.position, p.argument)
        isMandatory := n.isMandatory, leastEntries := n.leastEntries }
    match n.keyword with
    | "leaf" => leaf.checkLeaf
    | "leaf-list" => leaf.checkLeafList
    | _ => return

/-- **Applies the deviations of a module.** -/
def checkDeviations (m : Module) : Check Unit := do
  let deviated := (← (← accepted m.site "deviation").mapM applyDeviation).filterMap id
  for d in deviated do
    let last := deviated.filter fun other =>
      other.node.site.key = d.node.site.key && other.node.position = d.node.position
    recheckDefaults ((last.getLast?).getD d).node

end Check

end SchemaAssembly.Yang
