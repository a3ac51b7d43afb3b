import SchemaAssembly.Yang.Expansion

/-!
# Names

The nodes in a node must have different names, as far as one module owns these. What stands in the
cases of a choice counts as standing beside the choice too. Of two nodes the one on the later line
is wrong. Groupings and augments are looked into where they stand.

- `Check.checkNames` checks the names of a module.
-/

namespace SchemaAssembly.Yang.Check

/-! ### Nodes beside each other -/

mutual

/-- The nodes that take names where some nodes stand. -/
def standing : List SchemaNode → List SchemaNode
  | [] => []
  | ⟨keyword, name, site, position, host, space, usedAt, properties, children, config⟩ :: rest =>
    let inCases := if keyword = "choice" then standingInCases children else []
    ⟨keyword, name, site, position, host, space, usedAt, properties, children, config⟩ ::
      (inCases ++ standing rest)

/-- The nodes that take names where some cases stand. -/
def standingInCases : List SchemaNode → List SchemaNode
  | [] => []
  | ⟨_, _, _, _, _, _, _, _, children, _⟩ :: rest => standing children ++ standingInCases rest

end

/-- Reports the nodes in a parent that have the name of a node before them. -/
def reportNamesakes (parent : String) (place : Position) (before : List SchemaNode) :
    List SchemaNode → Check Unit
  | [] => return
  | n :: rest => do
    match before.find? (·.isNamed n.name n.space) with
    | none => reportNamesakes parent place (before ++ [n]) rest
    | some other =>
      let (first, second) :=
        if n.position.line < other.position.line then (n, other) else (other, n)
      report (n.usedAt.getD second.position)
        (.node (.sameName parent place n.name first.position))
      reportNamesakes parent place before rest

/-- Reports the values that are given before. -/
def reportRepeated (position : Position) (before : List DataValue) : List DataValue → Check Unit
  | [] => return
  | value :: rest => do
    if before.any (·.isSame value) then
      report position (.typing (.sameDefault (DataType.shownValue value)))
      reportRepeated position before rest
    else reportRepeated position (before ++ [value]) rest

/-- Checks that the default values of a list of leaves that can be changed differ. -/
def checkDefaults (n : SchemaNode) : Check Unit := do
  if n.config != some true then return
  match n.property? "type" with
  | none => return
  | some t =>
    match (← knownType? t.site).bind (·.type) with
    | none => return
    | some type =>
      let depth ← depth
      let values ← (n.site.all "default").mapM fun s => do
        match s.statement.argument with
        | some text => return (← (read? depth s.home n.position true text type).run).toOption
        | none => return none
      reportRepeated n.position [] (values.filterMap id)

/-! ### Nodes in the statements of a module -/

mutual

/-- Checks the names in a node. Further in, only the nodes of the module itself are looked at. -/
def checkNamesOf : (depth : Nat) → (module : Nat) → SchemaNode → Check Unit
  | 0, _, _ => return
  | depth + 1, module, n => do
    if ← ofModule n.site.home false (·.rejects n.site.statement) then return
    reportNamesakes n.name n.position [] (standing n.children)
    if n.keyword = "leaf-list" then checkDefaults n
    if n.host = module then
      n.children.forM (checkNamesOf depth module)
      if n.site.statement.keyword = n.keyword then checkNamesIn depth module n.site

/-- Checks the names in the groupings and augments of a body. -/
def checkNamesIn : (depth : Nat) → (module : Nat) → Site → Check Unit
  | 0, _, _ => return
  | depth + 1, module, s => do
    for t in s.body do
      if !(← ofModule t.home false (·.rejects t.statement)) then
        match t.statement.keyword with
        | "grouping" =>
          let nodes := ((← get).expansions.lookup t.key).getD []
          reportNamesakes t.statement.name (← positionOf t) [] (standing nodes)
        | "augment" =>
          let nodes ← additionsOf t
          reportNamesakes t.statement.name (← positionOf t) [] (standing nodes)
          nodes.forM (checkNamesOf depth module)
        | "uses" => checkNamesIn depth module t
        | _ => pure ()

end

/-! ### Modules -/

/-- Reports the outermost definitions whose name is defined again further in by a submodule. -/
def reportDefinedInside (m : Module) : Check Unit := do
  for name in m.statement.arguments "include" do
    match ← lookUp? ⟨name, none⟩ with
    | none => pure ()
    | some included =>
      for s in included.statement.body do
        for t in sitesIn [] included.number [s, included.statement] s.body do
          for kind in DefinitionKind.nested do
            if t.statement.keyword = kind.definedBy then
              match m.definition? kind t.statement.name with
              | some d =>
                reportAt d
                  (.definition (.alreadyDefined kind t.statement.name (← positionOf t)))
              | none => pure ()

/-- **Checks the names of a module.** -/
def checkNames (m : Module) : Check Unit := do
  if !m.isSubmodule then reportDefinedInside m
  let forest := (← get).forest
  let trees := m.trees.filterMap (forest[·]?)
  reportNamesakes m.name (m.position m.statement) [] (standing trees)
  let depth ← depth
  trees.forM (checkNamesOf depth m.number)
  checkNamesIn depth m.number m.site

end SchemaAssembly.Yang.Check
