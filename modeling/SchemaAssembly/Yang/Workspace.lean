import SchemaAssembly.Source.Document
import SchemaAssembly.Yang.DataType
import SchemaAssembly.Yang.SchemaNode

/-!
# Workspaces

The modules that are being checked together, the documents among which modules find what they need,
and what has been found out so far. A check is a step from one workspace to the next.

A document is found under the name it declares. Without a revision the newest module of the name is
found, the first of those that are equally new; with a revision, the first that has it. A document
is read when its revision is asked for; one that cannot be read is tried again whenever it might
matter, and its faults are reported again.

- `Check.require` finds what a module needs, `Check.lookUp?` what has been found before.
- `Check.moduleOf?` is the module that a short name stands for.
-/

namespace SchemaAssembly.Yang

/-- Which features are enabled. -/
structure FeatureSwitches where
  /-- modules with the names of their enabled features; of other modules all features are enabled -/
  restrictions : List (String × List String)
  deriving DecidableEq, Repr

/-- Whether a feature of a module is enabled. -/
def FeatureSwitches.isEnabled (f : FeatureSwitches) (owner name : String) : Bool :=
  match f.restrictions.lookup owner with
  | some names => names.contains name
  | none => true

/-- Something that is found under a name. -/
inductive Holding where
  /-- a document that has not been read, or could not be -/
  | document (document : SourceDocument)
  /-- the statement of a document, with its revision and the number of the reading -/
  | statement (revision : String) (path : Path) (reading : Nat) (statement : Statement)
  /-- a revision that is there already, or has been looked for in vain -/
  | settled (revision : String)

/-- The revision of something, if it is known. -/
def Holding.revision? : Holding → Option String
  | document _ => none
  | statement revision .. | settled revision => some revision

/-- How far a definition has been checked. -/
inductive Progress where
  /-- it is being checked -/
  | active
  /-- it is being checked, and is known to need itself -/
  | circular
  /-- it has been checked -/
  | done
  deriving DecidableEq, Repr

/-- What is known of a type statement. -/
structure KnownType where
  /-- the definition it refers to, unless the type is built in -/
  definition : Option Site := none
  /-- the type, if nothing is wrong with it -/
  type : Option DataType := none

/-- A default value and the text that states it. -/
structure DefaultValue where
  /-- the value -/
  value : DataValue
  /-- the text -/
  text : String

/-- What tells a statement from all others: the number of its module and its own number. -/
abbrev SiteKey := Nat × Nat

/-- The modules that are checked together, and what is known of them. -/
structure Workspace where
  /-- which features are enabled -/
  switches : FeatureSwitches
  /-- what is found under each name -/
  holdings : List (String × List Holding)
  /-- how deep anything can be nested or chained -/
  depth : Nat
  /-- the modules, in the order in which they were found -/
  modules : Array Module := #[]
  /-- how many documents have been read -/
  readings : Nat := 0
  /-- the problems, in the order in which they were found -/
  problems : Array Problem := #[]
  /-- how far definitions have been checked -/
  progress : List (SiteKey × Progress) := []
  /-- the groupings that uses statements refer to -/
  groupings : List (SiteKey × Option Site) := []
  /-- the types that type statements refer to -/
  types : List (SiteKey × KnownType) := []
  /-- the default values of type definitions -/
  defaults : List (SiteKey × DefaultValue) := []
  /-- the nodes of groupings -/
  expansions : List (SiteKey × List SchemaNode) := []
  /-- the nodes that augments add -/
  additions : List (SiteKey × List SchemaNode) := []
  /-- the addresses at which the nodes of augments stand, the last ones first -/
  placements : List (SiteKey × Address) := []
  /-- the addresses at which nodes are expected, in order -/
  expected : List Address := []
  /-- the trees at the outermost levels of the modules -/
  forest : Forest := []
  /-- the statements with a condition that does not hold -/
  disabled : List SiteKey := []
  /-- the statements whose nodes are not supported -/
  unsupported : List SiteKey := []

/-- A step from one workspace to the next. -/
abbrev Check := StateM Workspace

namespace Workspace

/-- The workspace with some documents and no modules. Every statement takes a character at least, so
the length of the texts bounds every depth. -/
def ofDocuments (switches : FeatureSwitches) (documents : List SourceDocument) : Workspace where
  switches := switches
  holdings := (distinct (documents.map (·.name))).map fun name =>
    (name, (documents.filter (·.name = name)).map .document)
  depth := documents.foldl (fun sum d => sum + d.text.length + 1) 1

end Workspace

namespace Check

/-! ### Problems and modules -/

/-- Reports a problem. -/
def report (position : Position) (defect : Defect) : Check Unit :=
  modify fun w => { w with problems := w.problems.push ⟨position, defect⟩ }

/-- A module. -/
def module? (number : Nat) : Check (Option Module) :=
  return (← get).modules[number]?

/-- Changes a module. -/
def modifyModule (number : Nat) (change : Module → Module) : Check Unit :=
  modify fun w => { w with modules := w.modules.modify number change }

/-- Whether something holds of a module. -/
def ofModule {α : Type} (number : Nat) (default : α) (f : Module → α) : Check α :=
  return ((← module? number).map f).getD default

/-- The place of a site. -/
def positionOf (s : Site) : Check Position := do
  match ← module? s.home with
  | some m => return m.position s.statement
  | none => return ⟨.ofText "", s.statement.line, none, none⟩

/-- Reports what is wrong at a site. -/
def reportAt (s : Site) (defect : Defect) : Check Unit := do
  report (← positionOf s) defect

/-! ### Documents -/

/-- Reads a document, and reports what is wrong with its form. The answer comes with the number of
the reading. -/
def read (d : SourceDocument) : Check (Option (Nat × Statement)) := do
  let reading := Reading.ofText d.text
  let number := (← get).readings
  modify fun w => { w with readings := number + 1 }
  for (line, fault) in reading.faults do
    report { path := d.path, line, reading := if reading.hasBegun then some number else none }
      (.form fault)
  return reading.statement.map fun s => (number, s)

/-- What is found under a name. -/
def holdingsOf (name : String) : Check (Option (List Holding)) :=
  return (← get).holdings.lookup name

/-- Sets what is found under a name. -/
def setHoldings (name : String) (holdings : List Holding) : Check Unit :=
  modify fun w => { w with
    holdings := (name, holdings) :: w.holdings.filter fun (other, _) => other != name }

/-- Reads the documents of a name whose revisions are not known. -/
def readRevisions (name : String) : Check (List Holding) := do
  let known ← ((← holdingsOf name).getD []).mapM fun h => do
    match h with
    | .document d =>
      match ← read d with
      | some (reading, s) => return .statement s.revisionKey d.path reading s
      | none => return h
    | _ => return h
  setHoldings name known
  return known

/-- The newest of some holdings, the first of those that are equally new. -/
def newest? (holdings : List Holding) : Option (String × Holding) :=
  holdings.foldl (fun best h =>
    match h.revision?, best with
    | none, _ => best
    | some revision, none => some (revision, h)
    | some revision, some (bestRevision, _) =>
      if bestRevision < revision then some (revision, h) else best) none

/-- The module of a name and a revision. -/
def registered? (name revision : String) : Check (Option Module) :=
  return (← get).modules.find? fun m => m.name = name && m.statement.revisionKey = revision

/-- **Looking up** a module that has been found before. -/
def lookUp? (target : Target) : Check (Option Module) := do
  match target.revision with
  | some revision => registered? target.name revision
  | none =>
    if (← holdingsOf target.name).isNone then return none
    match newest? (← readRevisions target.name) with
    | some (revision, _) => registered? target.name revision
    | none => return none

/-- **Registering** a document's statement as a module, which may be expected to have a name. A
module that is there already stays as it is. -/
def register (path : Path) (reading : Nat) (s : Statement) (expected : Option String) :
    Check (Option Module) := do
  let position : Position := { path, line := s.line, reading := some reading }
  match expected, s.argument with
  | some expected, some name =>
    if expected != name then
      report position (.linking (.otherName name path expected))
      return none
  | _, _ => pure ()
  match s.argument with
  | none =>
    report position (.grammar (.noArgument s.keyword))
    return none
  | some name =>
    if s.keyword != "module" && s.keyword != "submodule" then
      report position (.grammar (.noModule s.keyword))
      return none
    match ← registered? name s.revisionKey with
    | some m => return some m
    | none =>
      let m : Module := { number := (← get).modules.size, path, reading, statement := s }
      modify fun w => { w with modules := w.modules.push m }
      if (← holdingsOf name).isNone then setHoldings name [.settled s.revisionKey]
      return some m

/-- Reads and registers a document. -/
def load (d : SourceDocument) : Check (Option Module) := do
  match ← read d with
  | some (reading, s) => register d.path reading s none
  | none => return none

/-- **Finding what a module needs.** What is found under no name, or not in that revision, is
reported once. -/
def require (position : Position) (target : Target) : Check (Option Module) := do
  match ← holdingsOf target.name with
  | none =>
    report position (.linking (.notFound target.name))
    setHoldings target.name []
    return none
  | some [] => return none
  | some _ =>
    let chosen ← match target.revision with
      | some revision =>
        match ← registered? target.name revision with
        | some m => return some m
        | none =>
          let known ← readRevisions target.name
          match known.find? (·.revision? = some revision) with
          | some h => pure (some h)
          | none =>
            report position (.linking (.noRevision target.name revision))
            setHoldings target.name (known ++ [.settled revision])
            pure none
      | none =>
        match newest? (← readRevisions target.name) with
        | some (revision, h) =>
          match ← registered? target.name revision with
          | some m => return some m
          | none => pure (some h)
        | none => pure none
    match chosen with
    | some (.statement _ path reading s) => register path reading s (some target.name)
    | _ => return none

/-! ### Short names -/

/-- **The module that a short name stands for** in another module. A short name that is not known is
reported once, unless the check is silent. -/
def moduleOf? (home : Nat) (qualifier : Option String) (position : Position)
    (isSilent : Bool := false) : Check (Option Module) := do
  match ← module? home, qualifier with
  | none, _ => return none
  | some m, none => return some m
  | some m, some qualifier =>
    if m.ownQualifier = some qualifier then return some m
    match m.qualifiers.lookup qualifier with
    | some target => lookUp? target
    | none =>
      if !m.missingQualifiers.contains qualifier then
        if !isSilent then report position (.linking (.unknownQualifier qualifier))
        modifyModule home fun m =>
          { m with missingQualifiers := qualifier :: m.missingQualifiers }
      return none

/-- Whether a short name stands for the module itself. -/
def isOwn (home : Nat) (qualifier : Option String) : Check Bool := do
  match qualifier with
  | none => return true
  | some _ => return (← ofModule home none (·.ownQualifier)) = qualifier

/-! ### What is known of statements -/

/-- How far a definition has been checked. -/
def progressOf (s : Site) : Check (Option Progress) :=
  return (← get).progress.lookup s.key

/-- Notes how far a definition has been checked. -/
def setProgress (s : Site) (p : Progress) : Check Unit :=
  modify fun w => { w with progress := (s.key, p) :: w.progress }

/-- How deep anything can be nested or chained. -/
def depth : Check Nat :=
  return (← get).depth

end Check

end SchemaAssembly.Yang
