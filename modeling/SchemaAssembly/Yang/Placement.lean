import SchemaAssembly.Yang.Defaults

/-!
# Placing nodes

Paths through trees of nodes, and what an augment does to the node that its path leads to. Whether a
node can be changed is inherited from the node above it.

An augment may come before the augments that define the nodes on its path, if these belong to its
own module: then expected nodes stand in their places.
-/

namespace SchemaAssembly.Yang.Check

/-! ### Configuration -/

/-- The keywords of nodes below which nothing is said to be changeable or not. -/
def operationKeywords : List String :=
  ["action", "rpc", "notification"]

mutual

/-- A node with what it and the nodes in it inherit. Where nothing is inherited, statements of the
nodes count only if they may say anything. -/
def withConfig (mayState : Bool) (inherited : Option Bool) : SchemaNode → Check SchemaNode
  | ⟨keyword, name, site, position, host, space, usedAt, properties, children, _⟩ => do
    let config ← match properties.find? (·.keyword = "config") with
      | none => pure inherited
      | some p =>
        if inherited.isNone && !mayState then pure inherited
        else
          match p.argument with
          | some "true" =>
            if inherited = some false then
              report p.position (.node .configBelowState)
              pure inherited
            else pure (some true)
          | some "false" => pure (some false)
          | _ => pure inherited
    let children ← withConfigAll mayState config children
    return ⟨keyword, name, site, position, host, space, usedAt, properties, children, config⟩

/-- Nodes with what they and the nodes in them inherit. -/
def withConfigAll (mayState : Bool) (inherited : Option Bool) :
    List SchemaNode → Check (List SchemaNode)
  | [] => return []
  | n :: rest => do
    let first ← if operationKeywords.contains n.keyword then withConfig false none n
      else withConfig mayState inherited n
    return first :: (← withConfigAll mayState inherited rest)

end

/-! ### Paths -/

/-- The steps of a path. -/
def stepsOf (path : String) : List Reference :=
  ((slashFields path).filter (· != "")).map .ofText

/-- Where a path leads in some trees, to which it may add the nodes that it expects. -/
structure Arrival where
  /-- the trees -/
  forest : Forest
  /-- the node, if the path leads to one -/
  target : Option Address := none
  /-- the nodes that have been added -/
  expected : List Address := []

/-- Goes down from a node, which is in a module of the given name. -/
def descend (s : Site) (mayExpect : Bool) (space : String) (arrival : Arrival) (start : Address) :
    List Reference → Check Arrival
  | [] => return { arrival with target := some start }
  | r :: rest => do
    let position ← positionOf s
    match arrival.forest.node? start with
    | none => return arrival
    | some n =>
      if !n.takesChildren then
        report position (.node (.notFound space r.name))
        return arrival
      match ← moduleOf? s.home r.qualifier position with
      | none => return arrival
      | some m =>
        match Forest.find? r.name m.owner n.children with
        | some i => descend s mayExpect m.owner arrival (start ++ [i]) rest
        | none =>
          if !mayExpect || m.number != s.home then
            report position (.node (.notFound m.owner r.name))
            return arrival
          let expected : SchemaNode :=
            { keyword := SchemaNode.placeholder, name := r.name, site := s, position
              host := m.number, space := m.owner, config := n.config }
          let address := start ++ [n.children.length]
          let forest := arrival.forest.modifyAt
            (fun n => { n with children := n.children ++ [expected] }) start
          let arrival := { arrival with forest, expected := arrival.expected ++ [address] }
          descend s mayExpect m.owner arrival address rest

/-- The tree of a module that has a name, if the site sees it. -/
def treeNamed? (s : Site) (m : Module) (name : String) : Check (Option Nat) := do
  let forest := (← get).forest
  let found := m.trees.find? fun i => (forest[i]?).any (·.isNamed name m.owner)
  match found with
  | none => return none
  | some i =>
    match forest[i]? with
    | some n => if ← seesOwned s.home n.site then return some i else return none
    | none => return none

/-- The first of some submodules that has a tree of a name. -/
def treeIncluded? (s : Site) (name : String) : List String → Check (Option Nat)
  | [] => return none
  | included :: rest => do
    match ← lookUp? ⟨included, none⟩ with
    | none => treeIncluded? s name rest
    | some m =>
      match ← treeNamed? s m name with
      | some i => return some i
      | none => treeIncluded? s name rest

/-- **Where a path from the outermost level leads.** -/
def arrive (s : Site) (mayExpect : Bool) : Check Arrival := do
  let nowhere : Check Arrival := return { forest := (← get).forest }
  let position ← positionOf s
  match stepsOf s.statement.name with
  | [] => nowhere
  | r :: rest =>
    match ← moduleOf? s.home r.qualifier position with
    | none => nowhere
    | some m =>
      let found ← match ← treeNamed? s m r.name with
        | some i => pure (some i)
        | none => treeIncluded? s r.name (m.statement.arguments "include")
      match found with
      | none =>
        report position (.node (.notFound m.owner r.name))
        nowhere
      | some i =>
        descend s mayExpect m.owner { forest := (← get).forest } [i] rest

/-! ### Augments -/

/-- A case around a node that stands in a choice by itself. -/
def implicitCase (n : SchemaNode) : SchemaNode :=
  if n.keyword = "case" then n
  else { n with keyword := "case", properties := [], children := [n] }

mutual

/-- Reports the nodes that must be there among a node and those in it. -/
def reportMandatory : SchemaNode → Check Unit
  | ⟨keyword, name, site, position, host, space, usedAt, properties, children, config⟩ => do
    let n : SchemaNode :=
      ⟨keyword, name, site, position, host, space, usedAt, properties, children, config⟩
    let defect := .node (.mandatoryAugment name)
    match keyword with
    | "leaf" | "choice" | "anyxml" | "anydata" =>
      if n.isMandatory then (n.property? "mandatory").forM fun p => report p.position defect
    | "list" | "leaf-list" =>
      if 0 < n.leastEntries then
        (n.property? "min-elements").forM fun p => report p.position defect
    | "container" =>
      if (n.property? "presence").isNone then reportMandatoryAll children
    | _ => return

/-- Reports the nodes that must be there among some nodes and those in them. -/
def reportMandatoryAll : List SchemaNode → Check Unit
  | [] => return
  | n :: rest => do
    reportMandatory n
    reportMandatoryAll rest

end

/-- Adds nodes to the node at an address until one has a name that is taken there. The answer comes
with the addresses of the nodes. -/
def place (s : Site) (space homeName : String) (target : Address) (forest : Forest) :
    List SchemaNode → Check (Forest × List Address)
  | [] => return (forest, [])
  | n :: rest => do
    match forest.node? target with
    | none => return (forest, [])
    | some parent =>
      let n := if parent.keyword = "choice" then implicitCase n else n
      let found := (Forest.find? n.name space parent.children).bind fun i =>
        (parent.children[i]?).map fun other => (i, other)
      match found with
      | some (i, other) =>
        if !other.isPlaceholder then
          report n.position (.node (.sameName s.statement.name (← positionOf s) n.name
            other.position))
          return (forest, [])
        if !n.takesChildren then
          report other.position (.node (.notAugmentable homeName n.name n.keyword))
          place s space homeName target forest rest
        else
          let n ← withConfig true parent.config { n with children := n.children ++ other.children }
          let address := target ++ [i]
          let (forest, more) ← place s space homeName target
            (forest.modifyAt (fun _ => n) address) rest
          return (forest, address :: more)
      | none =>
        let n ← withConfig true parent.config n
        let address := target ++ [parent.children.length]
        let (forest, more) ← place s space homeName target (forest.modifyAt
          (fun parent => { parent with children := parent.children ++ [n] }) target) rest
        return (forest, address :: more)

/-- Adds the nodes of an augment to the node that its path leads to. -/
def augmentAt (s : Site) (nodes : List SchemaNode) (arrival : Arrival) :
    Check (Forest × List Address) := do
  let forest := arrival.forest
  match arrival.target, ← module? s.home with
  | some target, some m =>
    match forest.node? target with
    | none => return (forest, [])
    | some parent =>
      if !parent.takesChildren then
        let hostName ← ofModule parent.host "" (·.name)
        reportAt s (.node (.notAugmentable hostName parent.name parent.keyword))
        return (forest, [])
      if parent.space != m.owner && (m.isOld || (s.statement.first? "when").isNone) then
        reportMandatoryAll nodes
      place s m.owner m.name target forest nodes
  | _, _ => return (forest, [])

/-- The nodes of an augment. -/
def additionsOf (s : Site) : Check (List SchemaNode) :=
  return ((← get).additions.lookup s.key).getD []

/-- **What an augment at the outermost level does.** -/
def augment (s : Site) : Check Unit := do
  if !s.statement.name.startsWith "/" then return
  let arrival ← arrive s true
  let (forest, addresses) ← augmentAt s (← additionsOf s) arrival
  modify fun w => { w with
    forest
    expected := w.expected ++ arrival.expected
    placements := addresses.map (s.key, ·) ++ w.placements }

/-- Reports the nodes that are still expected. -/
def reportExpected : Check Unit := do
  let w ← get
  for address in w.expected do
    match w.forest.node? address with
    | some n =>
      if n.isPlaceholder then
        report { n.position with usedAt := none } (.node (.notFound n.space n.name))
    | none => pure ()
  set { ← get with expected := [] }

end SchemaAssembly.Yang.Check
