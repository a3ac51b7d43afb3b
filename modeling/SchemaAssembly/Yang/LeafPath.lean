import SchemaAssembly.Yang.Standpoint

/-!
# Paths to leaves

A leaf may point to another one. Its path begins at the outermost level or goes up from the leaf,
and then goes down; it may also go on from the leaf that another leaf points to. On the way down a
list may be followed by conditions, each of which compares a key with another leaf.

- `LeafPath.ofText` reads a path.
- `Check.checkPointer` checks the path of a leaf.
-/

namespace SchemaAssembly.Yang

/-- A step down. -/
inductive DownStep where
  /-- to a node -/
  | node (name : Reference)
  /-- a condition on a key, and the way to the leaf it is compared with -/
  | condition (key : Reference) (ups : Nat) (downs : List Reference)
  deriving DecidableEq, Repr

/-- Steps up and down. -/
structure Route where
  /-- how many steps go up, unless the steps begin at the outermost level -/
  ups : Option Nat
  /-- the steps that go down -/
  downs : List DownStep
  deriving DecidableEq, Repr

/-- A path to a leaf. -/
inductive LeafPath where
  /-- a route -/
  | direct (route : Route)
  /-- a route to a leaf, and one from the leaf that this one points to -/
  | through (first second : Route)
  deriving DecidableEq, Repr

/-- The condition that a text without its brackets is. -/
def DownStep.ofCondition (text : String) : DownStep :=
  let (key, path) := match text.splitOn "=" with
    | key :: path => (key, "=".intercalate path)
    | [] => (text, "")
  let fields := (slashFields path).drop 1
  .condition (.ofText key) (fields.takeWhile (· = "..")).length
    ((fields.dropWhile (· = "..")).map .ofText)

/-- The step to a node and the conditions behind it that a text is. -/
def DownStep.ofField (text : String) : List DownStep :=
  match text.splitOn "[" with
  | [] => []
  | name :: conditions =>
    .node (.ofText name) :: conditions.map fun c => .ofCondition ((c.splitOn "]").headD "")

/-- The fields between the slashes that are not within brackets or parentheses, given the characters
of the field that has begun, the last one first. -/
def outerFields (depth : Nat) (field : List Char) : List Char → List String
  | [] => [String.ofList field.reverse]
  | c :: rest =>
    if c = '/' && depth = 0 then String.ofList field.reverse :: outerFields 0 [] rest
    else
      let depth := if "[(".toList.contains c then depth + 1
        else if "])".toList.contains c then depth - 1
        else depth
      outerFields depth (c :: field) rest

/-- The route between some slashes. Before the first slash of an absolute path there is nothing. -/
def Route.ofFields (fields : List String) : Route where
  ups := if fields.head? = some "" then none else some (fields.takeWhile (· = "..")).length
  downs := (fields.filter fun f => f != ".." && f != "").flatMap DownStep.ofField

/-- The path that a text is. -/
def LeafPath.ofText (text : String) : LeafPath :=
  let plain := text.toList.filter fun c => !Text.isBlank c
  match outerFields 0 [] plain with
  | first :: rest =>
    if first.startsWith "deref(" then
      .through (.ofFields (outerFields 0 [] ((first.toList.drop 6).dropLast))) (.ofFields rest)
    else .direct (.ofFields (first :: rest))
  | [] => .direct (.ofFields [])

namespace Check

/-- A leaf and its path. -/
structure Pointer where
  /-- where the leaf is -/
  standpoint : Standpoint
  /-- the leaf -/
  leaf : SchemaNode
  /-- the path -/
  path : Site
  /-- whether what it points to must be there -/
  isRequired : Bool

/-- Reports what is wrong with the path of a leaf. -/
def Pointer.refuse {α : Type} (p : Pointer) (defect : ReferenceDefect) : OptionT Check α := do
  OptionT.lift (reportAt p.path (.reference defect))
  failure

/-- The module that a step of a path is about. In the path of a type definition, names without a
short name are those of the module of the definition. -/
def Pointer.moduleOf (p : Pointer) (r : Reference) : OptionT Check Module :=
  match r.qualifier with
  | none =>
    let isDefined := (p.path.around[1]?).any (·.keyword = "typedef")
    OptionT.mk (module? (if isDefined then p.path.home else p.leaf.host))
  | some _ => OptionT.mk (moduleOf? p.path.home r.qualifier p.leaf.position)

/-- The nodes in a standpoint. -/
def nodesAt (s : Standpoint) : Check (List SchemaNode) := do
  match s.node? with
  | some n => return n.children
  | none =>
    let forest := (← get).forest
    return ((← module? s.home).map (·.trees)).getD [] |>.filterMap (forest[·]?)

/-- Goes down from a standpoint to a node. -/
def Pointer.downTo (p : Pointer) (side : Option String) (s : Standpoint) (r : Reference) :
    OptionT Check Standpoint := do
  let m ← p.moduleOf r
  match s.node? with
  | some n =>
    if !n.takesChildren then
      p.refuse (.badStep m.owner r.name p.leaf.name p.leaf.position n.keyword)
  | none => pure ()
  let nodes ← OptionT.lift (nodesAt s)
  match dataNode? r.name m.owner side s.chain nodes with
  | some chain => return { s with chain }
  | none => p.refuse (.noStep m.owner r.name p.leaf.name p.leaf.position)

/-- Goes up from a standpoint. Outside of the trees of the modules nothing is checked. -/
def Pointer.up (p : Pointer) (start : Standpoint) (ups : Nat) :
    OptionT Check (Standpoint × Option String) := do
  match start.upBy? none ups with
  | none =>
    if start.isRooted then p.refuse (.tooFarUp p.leaf.name p.leaf.position) else failure
  | some (s, side) =>
    if s.chain.isEmpty && !s.isRooted then failure
    return (s, side)

/-- Checks a condition on a key of the list at a standpoint, given the keys that other conditions
have been about. -/
def Pointer.checkCondition (p : Pointer) (list : Standpoint) (before : List Reference)
    (key : Reference) (ups : Nat) (downs : List Reference) : OptionT Check Unit := do
  let m ← p.moduleOf key
  let keys := ((list.node?.bind (·.argument? "key")).map Text.wordsOf).getD []
  let isKey := keys.any (fun k => (Reference.ofText k).name = key.name) &&
    list.node?.any fun n => n.children.any (·.isNamed key.name m.owner)
  if !isKey then p.refuse (.noKeyLeaf m.name key.name p.leaf.name p.leaf.position)
  if before.contains key then p.refuse (.sameKeyLeaf m.name key.name p.leaf.name p.leaf.position)
  let (start, side) ← p.up p.standpoint ups
  let reached ← downs.foldlM (p.downTo side) start
  match reached.node? with
  | some n =>
    if n.keyword != "leaf" then p.refuse (.badComparison m.name key.name n.name n.position)
  | none => pure ()

/-- Goes down from a standpoint, given the keys that conditions on the list there are about. -/
def Pointer.down (p : Pointer) (side : Option String) (s : Standpoint)
    (before : List Reference) : List DownStep → OptionT Check Standpoint
  | [] => return s
  | .node r :: rest => do
    p.down side (← p.downTo side s r) [] rest
  | .condition key ups downs :: rest => do
    match s.node? with
    | some n =>
      if n.keyword != "list" then
        p.refuse (.badCondition n.space n.name p.leaf.name p.leaf.position)
    | none => pure ()
    p.checkCondition s before key ups downs
    p.down side s (key :: before) rest

/-- Goes along a route from a standpoint. -/
def Pointer.along (p : Pointer) (start : Standpoint) (route : Route) :
    OptionT Check Standpoint := do
  match route.ups, route.downs with
  | some ups, downs =>
    let (s, side) ← p.up start ups
    p.down side s [] downs
  | none, .node r :: rest =>
    let m ← p.moduleOf r
    let included ← OptionT.lift ((m.statement.arguments "include").filterMapM fun name =>
      lookUp? ⟨name, none⟩)
    for home in m :: included do
      let outermost : Standpoint := ⟨[], home.number, true⟩
      let nodes ← OptionT.lift (nodesAt outermost)
      match dataNode? r.name m.owner none [] nodes with
      | some chain => return ← p.down none { outermost with chain } [] rest
      | none => pure ()
    p.refuse (.noStep m.owner r.name p.leaf.name p.leaf.position)
  | none, _ => failure

/-- Whether the node at a standpoint is a key of its list. -/
def isKeyOf (s : Standpoint) : Bool :=
  match s.chain with
  | n :: list :: _ =>
    list.keyword = "list" &&
      (((list.argument? "key").map Text.wordsOf).getD []).any fun key =>
        (Reference.ofText key).name = n.name
  | _ => false

/-- The path of a leaf that points to another one. -/
def pointer? (s : Standpoint) (leaf : SchemaNode) : Check (Option Pointer) := do
  match leaf.property? "type" with
  | none => return none
  | some t =>
    match ((← knownType? t.site).bind (·.type)).map DataType.unnamed with
    | some (.pointer path isRequired) => return some ⟨s, leaf, path, isRequired⟩
    | _ => return none

/-- The leaf that another one points to. What is wrong is reported. -/
def Pointer.target : (depth : Nat) → Pointer → OptionT Check Standpoint
  | 0, _ => failure
  | depth + 1, p => do
    let reached ← match LeafPath.ofText p.path.statement.name with
      | .direct route => p.along p.standpoint route
      | .through first second =>
        let between ← p.along p.standpoint first
        match between.node? with
        | none => failure
        | some n =>
          match ← OptionT.lift (pointer? between n) with
          | none => p.refuse (.noPointer n.name n.position)
          | some next =>
            let target ← Pointer.target depth next
            target.node?.forM fun t =>
              if isKeyOf target then pure ()
              else p.refuse (.noKeyPointer n.name n.position t.name t.position)
            p.along target second
    match reached.node? with
    | none => p.refuse (.notLeaf p.leaf.name p.leaf.position)
    | some n =>
      if n.keyword != "leaf" && n.keyword != "leaf-list" then
        p.refuse (.notLeaf p.leaf.name p.leaf.position)
      if p.leaf.config = some true && n.config = some false && p.isRequired then
        p.refuse (.badConfig p.leaf.name n.name n.position)
      if reached.key = p.standpoint.key then
        p.refuse (.circularPath p.path.statement.name)
      return reached

/-- **Checks the path of a leaf**, if it points to another one. -/
def checkPointer (s : Standpoint) (leaf : SchemaNode) : Check Unit := do
  match ← pointer? s leaf with
  | none => return
  | some p =>
    let _ ← (p.target (← depth)).run

end Check

end SchemaAssembly.Yang
