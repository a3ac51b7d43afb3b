import SchemaAssembly.Yang.Standpoint

/-!
# Keys, defaults of choices and places of operations

The entries of a list that can be changed are told apart by its keys, which are leaves of the list;
unique statements name further leaves that tell entries apart. The default case of a choice is one
of its cases, and nothing in it must be there.

- `Check.checkKeys` checks the lists, choices and operations of a module.
-/

namespace SchemaAssembly.Yang.Check

/-- The child of a node that a name in one of the properties of a list refers to. A name may be
qualified by the short name of the module that the list is in, and by no other. -/
def childNamed? (n parent : SchemaNode) (name : String) : Check (Option SchemaNode) := do
  let r := Reference.ofText name
  if ← isOwn n.host r.qualifier then return parent.children.find? (·.name = r.name)
  return none

/-! ### Keys -/

/-- Reports what a key of a list cannot have. -/
def checkKeyLeaf (n leaf : SchemaNode) (name : String) : Check Unit := do
  for keyword in ["if-feature", "when"] do
    (leaf.property? keyword).forM fun p =>
      report p.position (.reference (.badKeyStatement keyword))
  if leaf.config != n.config then
    (leaf.property? "config").forM fun p =>
      report p.position (.reference (.badKeyConfig (Reference.ofText name).name))

/-- The type statement that makes a leaf unfit to be a key in the first version of the language: one
without values. -/
def emptyType? (n leaf : SchemaNode) : Check (Option Site) := do
  match ← ofModule n.host false (·.isOld), leaf.property? "type" with
  | true, some t => madeFrom? (← depth) ["empty"] t.site
  | _, _ => return none

/-- Checks the keys of a list up to the first that is wrong, given those before. -/
def checkKeyNames (n : SchemaNode) (p : Property) (before : List String) :
    List String → Check Unit
  | [] => return
  | name :: rest => do
    let child ← childNamed? n n name
    if before.contains name then
      report p.position (.reference (.sameKey name))
    else
      match child with
      | none => report p.position (.reference (.badKey name))
      | some leaf =>
        if leaf.keyword != "leaf" then
          report p.position (.reference (.badKey name))
        else
          match ← emptyType? n leaf with
          | some t => report p.position (.reference (.badKeyType t.statement.name name))
          | none =>
            checkKeyLeaf n leaf name
            checkKeyNames n p (name :: before) rest

/-- Checks the keys of a list. -/
def checkKey (n : SchemaNode) : Check Unit := do
  match n.property? "key" with
  | none =>
    if n.config = some true then
      match n.usedAt with
      | some uses => report uses (.reference (.noKeyWhereUsed n.position))
      | none => report n.position (.reference .noKey)
  | some p => checkKeyNames n p [] (Text.wordsOf ((p.argument).getD ""))

/-! ### Unique leaves -/

/-- The node that a unique path leads to from a list. What is wrong is reported. -/
def uniqueNode (n : SchemaNode) (p : Property) :
    SchemaNode → List String → OptionT Check SchemaNode
  | parent, [] => return parent
  | parent, step :: rest => do
    match ← OptionT.lift (childNamed? n parent step) with
    | none =>
      OptionT.lift (report p.position (.reference (.badUniquePart step)))
      failure
    | some child =>
      if child.keyword = "list" then
        OptionT.lift (report p.position (.reference (.uniqueThroughList step)))
        failure
      uniqueNode n p child rest

/-- Checks the paths of a unique statement, given the leaves before. There is no answer if one leads
to no leaf, or to one that can be changed where the others cannot. -/
def checkUniquePaths (n : SchemaNode) (p : Property) (before : List SchemaNode) :
    List String → OptionT Check Unit
  | [] => return
  | path :: rest => do
    let leaf ← uniqueNode n p n ((slashFields path).filter (· != ""))
    if leaf.keyword != "leaf" then
      OptionT.lift (report p.position (.reference (.badUnique path)))
      failure
    if before.any fun other => other.site.key = leaf.site.key then
      OptionT.lift (report p.position (.reference (.sameUnique path)))
    if before.any fun other => other.config != leaf.config then
      OptionT.lift (report p.position (.reference (.badUniqueConfig path)))
      failure
    checkUniquePaths n p (leaf :: before) rest

/-- Checks the unique statements of a list up to the first that is wrong. -/
def checkUnique (n : SchemaNode) : Check Unit := do
  let stated := n.properties.filter (·.keyword = "unique")
  let checked : OptionT Check Unit := stated.forM fun p =>
    checkUniquePaths n p [] (Text.wordsOf ((p.argument).getD ""))
  let _ ← checked.run

/-! ### Default cases -/

mutual

/-- Reports the nodes that must be there in a case among a node and those in it. -/
def reportMandatoryNode : SchemaNode → Check Unit
  | ⟨keyword, name, site, position, host, space, usedAt, properties, children, config⟩ => do
    let n : SchemaNode :=
      ⟨keyword, name, site, position, host, space, usedAt, properties, children, config⟩
    let defect := .reference .mandatoryInDefaultCase
    if ["leaf", "choice", "anyxml", "anydata"].contains keyword then
      if n.isMandatory then report position defect
    else if keyword = "list" || keyword = "leaf-list" then
      if 0 < n.leastEntries then report position defect
    else if keyword = "container" then
      let presence := n.argument? "presence"
      if presence = none || presence = some "false" then reportMandatoryInCase children

/-- Reports the nodes that must be there in a case. -/
def reportMandatoryInCase : List SchemaNode → Check Unit
  | [] => return
  | n :: rest => do
    reportMandatoryNode n
    reportMandatoryInCase rest

end

/-- Checks the default case of a choice. -/
def checkDefaultCase (n : SchemaNode) : Check Unit := do
  match n.property? "default" with
  | none => return
  | some p =>
    if n.isMandatory then report n.position (.typing .defaultAndMandatory)
    match n.children.find? fun c => some c.name = p.argument with
    | none => report p.position (.reference (.noDefaultCase ((p.argument).getD "None")))
    | some c => reportMandatoryInCase c.children

/-! ### Operations -/

/-- Checks that an operation or notification is neither in a list without a key nor in another one.
-/
def checkSurroundings (n : SchemaNode) : List SchemaNode → Check Unit
  | [] => return
  | outer :: further => do
    if outer.keyword = "list" then
      if (outer.property? "key").isNone then
        report n.position (.node (.inListWithoutKey n.keyword))
    else if operationKeywords.contains outer.keyword then
      report n.position (.node (.inOperation n.keyword outer.keyword))
    checkSurroundings n further

/-- **Checks the lists, choices and operations of a module.** -/
def checkKeys (m : Module) : Check Unit := do
  for v in ← visits m do
    if !v.isLeaving then
      match v.node.keyword with
      | "list" =>
        checkKey v.node
        checkUnique v.node
      | "choice" => checkDefaultCase v.node
      | "action" | "notification" => checkSurroundings v.node (v.standpoint.chain.drop 1)
      | _ => pure ()

end SchemaAssembly.Yang.Check
