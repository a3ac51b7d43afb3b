import SchemaAssembly.Yang.Typing

/-!
# Default values

The default values of leaves are checked against their types, and so are those that the definitions
of their types have. What has a default value need not be given.

- `LeafStatements.checkLeaf` and `LeafStatements.checkLeafList` check the defaults of leaves.
- `Check.checkTyping` checks the types that a statement states or needs.
-/

namespace SchemaAssembly.Yang.Check

/-- The type of a leaf, if the grammar does not reject its type statement. -/
def typeOfLeaf (t : Site) : Check (Option (Option DataType)) := do
  if ← ofModule t.home false (·.rejects t.statement) then return none
  return some (← typeOf t)

/-- Checks the default value that the definition of a leaf's type has against that type. -/
def checkDefinedDefault (home : Nat) (position : Position) (t : Site) (type : DataType) :
    Check Unit := do
  match (← knownType? t).bind (·.definition) with
  | none => return
  | some d =>
    match (← get).defaults.lookup d.key with
    | none => return
    | some v => checkValue (← depth) home position " for the default  value" type v.value

/-- A leaf, or a list of leaves, with the statements that matter to its default values. -/
structure LeafStatements where
  /-- the module it is in -/
  home : Nat
  /-- where it is -/
  position : Position
  /-- its type statement -/
  type : Site
  /-- the default values, and where they are stated -/
  defaults : List (Position × Option String)
  /-- whether there must be a value -/
  isMandatory : Bool
  /-- how many entries there must be at least -/
  leastEntries : Nat

/-- Checks the default values of a leaf against its type. -/
def LeafStatements.checkDefaults (s : LeafStatements) (type : DataType) : Check Unit := do
  match s.defaults with
  | [] => checkDefinedDefault s.home s.position s.type type
  | stated =>
    for (position, text) in stated do
      let _ ← valueOf s.home position type (text.getD "None")

/-- Reports a default value of a leaf that is there on a condition only. -/
def LeafStatements.checkUnconditional (s : LeafStatements) (position : Position)
    (text : Option String) : Check Unit := do
  match (s.type.all "enum").find? (·.statement.argument = text) with
  | some value =>
    if (value.first? "if-feature").isSome then report position (.typing .conditionalDefault)
  | none => return

/-- Checks the default value of a leaf. -/
def LeafStatements.checkLeaf (s : LeafStatements) : Check Unit := do
  match ← typeOfLeaf s.type with
  | none => return
  | some type =>
    type.forM s.checkDefaults
    match s.defaults with
    | [] => return
    | (position, text) :: _ =>
      if type.isSome then s.checkUnconditional position text
      if s.isMandatory then report s.position (.typing .defaultAndMandatory)

/-- Checks the default values of a list of leaves. -/
def LeafStatements.checkLeafList (s : LeafStatements) : Check Unit := do
  match ← typeOfLeaf s.type with
  | none => return
  | some type =>
    type.forM s.checkDefaults
    match s.defaults with
    | [] => return
    | (position, _) :: _ =>
      if 0 < s.leastEntries then report position (.typing .defaultAndEntries)

/-- The statements in a leaf that matter to its default values. -/
def leafStatements? (s : Site) : Check (Option LeafStatements) := do
  match s.first? "type" with
  | none => return none
  | some type =>
    let stated := if s.statement.keyword = "leaf" then (s.first? "default").toList
      else s.all "default"
    let defaults ← stated.mapM fun d => do return (← positionOf d, d.statement.argument)
    return some { home := s.home, position := ← positionOf s, type, defaults
                  isMandatory := s.statement.argument? "mandatory" = some "true"
                  leastEntries := ((s.statement.argument? "min-elements").bind
                    (·.toNat?)).getD 0 }

/-- **Checks the types that a statement states or needs.** -/
def checkTyping (s : Site) : Check Unit := do
  match s.statement.keyword with
  | "type" => let _ ← typeOf s
  | "typedef" => checkTypeDefinition (← depth) s
  | "leaf" => (← leafStatements? s).forM LeafStatements.checkLeaf
  | "leaf-list" => (← leafStatements? s).forM LeafStatements.checkLeafList
  | _ => return

end SchemaAssembly.Yang.Check
