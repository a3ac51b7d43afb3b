import SchemaAssembly.Yang.Placement

/-!
# Expansion

The nodes that the statements of a module define. Where a grouping is used, copies of its nodes
stand, which may be refined and augmented there; the nodes of a grouping are found once. A node that
stands in a choice by itself has a case around it, and an operation has an input and an output.

- `Check.nodesIn` are the nodes that a body defines.
- `Check.expand` gives a module its trees.
-/

namespace SchemaAssembly.Yang.Check

/-! ### Refinements -/

/-- The kinds of nodes that a property can be refined for, and whether it is added to those that are
there. -/
def refinements : List (String × List String × Bool) :=
  let data := ["container", "leaf", "leaf-list", "list", "choice", "anyxml", "anydata"]
  [("description", "case" :: data, false), ("reference", "case" :: data, false),
    ("config", data, false), ("presence", ["container"], false),
    ("must", ["container", "leaf", "leaf-list", "list", "anyxml", "anydata"], true),
    ("default", ["leaf", "leaf-list", "choice"], false),
    ("mandatory", ["leaf", "choice", "anyxml", "anydata"], false),
    ("min-elements", ["leaf-list", "list"], false), ("max-elements", ["leaf-list", "list"], false),
    ("if-feature", "case" :: data, true)]

/-- Checks a refined default value against the type of a leaf. -/
def checkRefinedDefault (n : SchemaNode) (p : Property) : Check Unit := do
  match n.property? "type" with
  | none => return
  | some t =>
    match (← knownType? t.site).bind (·.type), p.argument with
    | some type, some text =>
      let _ ← valueOf p.site.home p.position type text
    | _, _ => return

/-- Refines a node in each way that a refine statement states. -/
def refineNode (s : Site) (n : SchemaNode) :
    List (String × List String × Bool) → Check SchemaNode
  | [] => return n
  | (keyword, kinds, isAdded) :: rest => do
    match s.all keyword with
    | [] => refineNode s n rest
    | first :: more =>
      if !kinds.contains n.keyword then
        reportAt s (.node (.badRefinement n.keyword n.space n.name keyword))
        refineNode s n rest
      else
        let stated ← (if isAdded then first :: more else [first]).mapM fun site => do
          return { site, position := ← positionOf site : Property }
        let kept := if isAdded then n.properties
          else match n.properties.findIdx? (·.keyword = keyword) with
            | some i => n.properties.eraseIdx i
            | none => n.properties
        let n := { n with properties := kept ++ stated }
        if keyword = "default" && n.keyword != "choice" then
          for p in stated do checkRefinedDefault n p
        refineNode s n rest

/-- Where a path leads among the nodes that a uses statement copies. -/
def arriveInCopies (s : Site) (mayExpect : Bool) (copies : Forest) : Check Arrival := do
  let position ← positionOf s
  match stepsOf s.statement.name with
  | [] => return { forest := copies }
  | r :: rest =>
    match ← moduleOf? s.home r.qualifier position with
    | none => return { forest := copies }
    | some m =>
      match Forest.find? r.name m.owner copies with
      | none =>
        report position (.node (.notFound m.owner r.name))
        return { forest := copies }
      | some i => descend s mayExpect m.owner { forest := copies } [i] rest

/-- Applies refine statements to the nodes that a uses statement copies, given the nodes that have
been refined. -/
def refineAll (refined : List (Address × Position)) (copies : Forest) :
    List Site → Check Forest
  | [] => return copies
  | s :: rest => do
    match (← arriveInCopies s false copies).target with
    | none => refineAll refined copies rest
    | some address =>
      match refined.lookup address, copies.node? address with
      | some first, some n =>
        reportAt s (.node (.refinedTwice n.name first))
        refineAll refined copies rest
      | none, some n =>
        let n ← refineNode s n refinements
        refineAll ((address, ← positionOf s) :: refined)
          (copies.modifyAt (fun _ => n) address) rest
      | _, none => refineAll refined copies rest

/-! ### Nodes -/

/-- The keywords of statements that are no properties of the node they stand in. -/
def structuralKeywords : List String :=
  nodeKeywords ++ ["input", "output", "uses", "grouping", "typedef", "augment"]

/-- The node of a statement, with the nodes in it. -/
def nodeOf (s : Site) (children : List SchemaNode) : Check SchemaNode := do
  let position ← positionOf s
  let properties ← (s.body.filter fun t => !structuralKeywords.contains t.statement.keyword).mapM
    fun site => do return { site, position := ← positionOf site : Property }
  let keyword := s.statement.keyword
  let isUnnamed := keyword = "input" || keyword = "output"
  return { keyword, name := if isUnnamed then keyword else s.statement.name, site := s, position
           host := s.home, space := ← ofModule s.home "" (·.owner), properties, children }

/-- The input or output that an operation has without stating it. -/
def impliedNodes (s : Site) : Check (List SchemaNode) := do
  if s.statement.keyword != "rpc" && s.statement.keyword != "action" then return []
  let position ← positionOf s
  let space ← ofModule s.home "" (·.owner)
  return (["input", "output"].filter fun keyword => (s.statement.first? keyword).isNone).map
    fun keyword => { keyword, name := keyword, site := s, position, host := s.home, space }

mutual

/-- **The nodes that a body defines.** -/
def nodesIn : (depth : Nat) → Site → Check (List SchemaNode)
  | 0, _ => return []
  | depth + 1, s => do
    if ← ofModule s.home false (·.rejects s.statement) then return []
    let isChoice := s.statement.keyword = "choice"
    let groups ← s.body.mapM fun t => do
      let keyword := t.statement.keyword
      if isChoice then
        if nodeKeywords.contains keyword then
          return [implicitCase (← nodeOf t (← childrenOf depth t))]
        else return []
      else if nodeKeywords.contains keyword || keyword = "input" || keyword = "output" then
        return [← nodeOf t (← childrenOf depth t)]
      else if keyword = "uses" then usedNodes depth t
      else if keyword = "grouping" then
        let _ ← nodesOfGrouping depth t
        return []
      else if keyword = "augment" then
        addNodes depth t
        return []
      else return []
    return groups.flatten ++ (← impliedNodes s)

/-- The nodes in a node. -/
def childrenOf : (depth : Nat) → Site → Check (List SchemaNode)
  | 0, _ => return []
  | depth + 1, s =>
    if parentKeywords.contains s.statement.keyword then nodesIn depth s else return []

/-- The nodes of a grouping. -/
def nodesOfGrouping : (depth : Nat) → Site → Check (List SchemaNode)
  | 0, _ => return []
  | depth + 1, g => do
    let note := fun (nodes : List SchemaNode) =>
      modify fun w => { w with expansions := (g.key, nodes) :: w.expansions }
    match (← get).expansions.lookup g.key with
    | some nodes => return nodes
    | none =>
      note []
      let nodes ← nodesIn depth g
      note nodes
      return nodes

/-- Finds the nodes of an augment. -/
def addNodes : (depth : Nat) → Site → Check Unit
  | 0, _ => return
  | depth + 1, s => do
    let nodes ← nodesIn depth s
    modify fun w => { w with additions := (s.key, nodes) :: w.additions }

/-- The nodes that a uses statement puts in its place. -/
def usedNodes : (depth : Nat) → Site → Check (List SchemaNode)
  | 0, _ => return []
  | depth + 1, s => do
    let copies ← match ← groupingOf s with
      | none => pure []
      | some g =>
        let nodes ← nodesOfGrouping depth g
        let space ← ofModule s.home "" (·.owner)
        let copies := SchemaNode.copyAll s.home space (← positionOf s) nodes
        refineAll [] copies (← accepted s "refine")
    let augments ← accepted s "augment"
    augments.forM (addNodes depth)
    augmentCopies copies augments

/-- Applies augments to the nodes that a uses statement copies. -/
def augmentCopies (copies : Forest) : List Site → Check Forest
  | [] => return copies
  | s :: rest => do
    if s.statement.name.startsWith "/" then augmentCopies copies rest
    else
      let arrival ← arriveInCopies s true copies
      let (copies, _) ← augmentAt s (← additionsOf s) arrival
      let copies ← augmentCopies copies rest
      for address in arrival.expected do
        match copies.node? address with
        | some n =>
          if n.isPlaceholder then report n.position (.node (.notFound n.space n.name))
        | none => pure ()
      return copies

end

/-- **Expanding a module**: it gets the trees that it defines besides those of its submodules. -/
def expand (m : Module) : Check Unit := do
  let nodes ← nodesIn (← depth) m.site
  let first := (← get).forest.length
  modify fun w => { w with forest := w.forest ++ nodes }
  modifyModule m.number fun m =>
    { m with trees := m.trees ++ (List.range nodes.length).map (first + ·) }

/-! ### What nodes inherit -/

/-- Sets what the nodes of a module and of its outermost groupings and augments inherit. -/
def inheritConfig (m : Module) : Check Unit := do
  for g in m.site.all "grouping" do
    match (← get).expansions.lookup g.key with
    | some nodes =>
      let nodes ← withConfigAll true none nodes
      modify fun w => { w with expansions := (g.key, nodes) :: w.expansions }
    | none => pure ()
  for s in m.site.all "augment" do
    match (← get).additions.lookup s.key with
    | some nodes =>
      let nodes ← withConfigAll true none nodes
      modify fun w => { w with additions := (s.key, nodes) :: w.additions }
    | none => pure ()
  for i in ((← module? m.number).map (·.trees)).getD [] do
    match (← get).forest[i]? with
    | some n =>
      let n ← if operationKeywords.contains n.keyword then withConfig false none n
        else withConfig true (some true) n
      modify fun w => { w with forest := w.forest.set i n }
    | none => pure ()

end SchemaAssembly.Yang.Check
