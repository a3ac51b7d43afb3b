import SchemaAssembly.Text.Order
import SchemaAssembly.Yang.Condition
import SchemaAssembly.Yang.Deviation
import SchemaAssembly.Yang.Names

/-!
# Validation

A module is validated after what it needs, and only once. Its problems are found in this order:
those of its short names, those of the grammar and of definitions given twice, those of what it
needs, and then those of definitions, types, nodes and references. A module that needs itself,
directly or not, is not validated again.

- `Check.validate` validates a module.
- `Check.validateAll` validates sources with all they need.
-/

namespace SchemaAssembly.Yang.Check

/-! ### Short names -/

/-- The statement that gives a module its own short name. -/
def ownQualifierOf (m : Module) : Option String :=
  match m.belongsTo? with
  | some belongsTo => belongsTo.argument? "prefix"
  | none => if m.isSubmodule then none else m.statement.argument? "prefix"

/-- Whether the module that owns what a module defines has been found. -/
def isOwned (m : Module) : Check Bool := do
  if !m.isSubmodule then return true
  return (← lookUp? ⟨m.owner, none⟩).isSome

/-- Finds the short names that a module knows. -/
def findQualifiers (m : Module) : Check Unit := do
  let own ← match ownQualifierOf m with
    | none => pure none
    | some qualifier => if ← isOwned m then pure (some qualifier) else pure none
  modifyModule m.number fun m => { m with ownQualifier := own }
  for s in m.statement.all "import" do
    match s.first? "prefix" with
    | none => pure ()
    | some stated =>
      match stated.argument with
      | none => pure ()
      | some qualifier =>
        let known ← ofModule m.number [] (·.qualifiers)
        let holder := if own = some qualifier then some m.owner
          else (known.lookup qualifier).map (·.name)
        holder.forM fun holder =>
          report (m.position stated) (.linking (.qualifierTaken qualifier holder))
        if s.argument.isSome && s.name != m.owner then
          modifyModule m.number fun m =>
            { m with qualifiers := (qualifier, .ofStatement s) :: m.qualifiers }

/-- Reports the short names of extensions that a module does not know. -/
def findExtensions (m : Module) : Check Unit := do
  for s in sitesOf [] m.number [] m.statement do
    match s.statement.qualifiedKeyword? with
    | none => pure ()
    | some (qualifier, _) =>
      match ← module? m.number with
      | none => pure ()
      | some m =>
        if m.ownQualifier != some qualifier && (m.qualifiers.lookup qualifier).isNone &&
            !m.missingQualifiers.contains qualifier then
          report (m.position s.statement) (.linking (.unknownQualifier qualifier))
          modifyModule m.number fun m =>
            { m with missingQualifiers := qualifier :: m.missingQualifiers }

/-! ### Grammar -/

/-- Reports the definitions in a body whose names have been defined in it. -/
def reportDefinedTwice (s : Site) (kind : DefinitionKind) : Check Unit := do
  let first := definitionsIn kind s
  for d in s.all kind.definedBy do
    match first.find? (·.name = d.statement.name) with
    | some other =>
      if other.site.key != d.key then
        reportAt d
          (.definition (.alreadyDefined kind d.statement.name (← positionOf other.site)))
    | none => pure ()

/-- The keywords of statements that define nodes of the data tree. -/
def dataKeywords : List String :=
  ["container", "leaf", "leaf-list", "list", "choice", "anyxml", "anydata", "uses"]

/-- Whether a statement must define nodes and does not. -/
def lacksData (s : Statement) : Bool :=
  (s.keyword = "input" || s.keyword = "output") &&
    s.body.all fun t => !dataKeywords.contains t.keyword

/-- Whether a statement has a name that the first version of the language keeps for other uses. -/
def hasReservedName (s : Statement) : Bool :=
  argumentOf? s.keyword = some (some .identifier) &&
    ((s.name.toList.take 3).map Char.toLower == ['x', 'm', 'l'])

/-- Checks a statement that the grammar does not reject. -/
def checkForm (isOld : Bool) (s : Site) : Check Unit := do
  if s.statement.keyword = "typedef" && builtInTypes.contains s.statement.name then
    reportAt s (.definition (.reservedType s.statement.name))
  if lacksData s.statement then
    reportAt s (.grammar (.missingNode s.statement.keyword))
  for kind in if s.around.isEmpty then DefinitionKind.all else DefinitionKind.nested do
    reportDefinedTwice s kind
  if isOld && hasReservedName s.statement then
    reportAt s (.grammar (.reservedName s.statement.name))

/-- Checks a module against the grammar. -/
def checkGrammar (m : Module) : Check Unit := do
  let checked := m.statement.checked
  for (line, defect) in checked.findings do
    report { path := m.path, line, reading := some m.reading } (.grammar defect)
  modifyModule m.number fun m => { m with
    rejected := checked.rejected
    definitions := DefinitionKind.all.flatMap fun kind => definitionsIn kind m.site }
  let inner := sitesIn checked.rejected m.number [m.statement] m.statement.body
  for s in m.site :: inner do
    checkForm m.isOld s

/-! ### What a module needs -/

/-- Finds what an import or include needs. -/
def need (m : Module) (s : Statement) : Check (Option Module) := do
  let position := m.position s
  let target := Target.ofStatement s
  match ← lookUp? target with
  | some other =>
    if other.stage = .active then report position (.linking (.circular target.name))
  | none => pure ()
  let found ← require position target
  match found with
  | some other =>
    if target.revision.isSome && m.isOld && !other.isOld then
      report position (.linking (.newerImport m.version other.version))
  | none => pure ()
  return found

/-- Gives a module the definitions of a submodule that it includes. -/
def mergeDefinitions (number : Nat) (included : Module) : Check Unit := do
  for d in included.definitions do
    match ← ofModule number none (·.definition? d.kind d.name) with
    | none => modifyModule number fun m => { m with definitions := m.definitions ++ [d] }
    | some other =>
      if other.key != d.site.key then
        reportAt other (.definition (.alreadyDefined d.kind d.name (← positionOf d.site)))

/-- Reports what is wrong with a submodule where it is included. -/
def checkIncluded (m included : Module) : Check Unit := do
  match included.belongsTo? with
  | none => return
  | some belongsTo =>
    if belongsTo.argument != some m.owner then
      report (included.position belongsTo) (.linking (.otherOwner m.name included.name))
    else if !m.isSubmodule && !m.isOld then
      for s in included.statement.all "include" do
        if !m.includes s.name then
          report (included.position s)
            (.linking (.missingInclude s.name included.name m.name))

/-! ### Modules -/

/-- Checks what a module defines and refers to, once what it needs is there. -/
def checkContents (m : Module) : Check Unit := do
  let sites := m.sites
  sites.forM checkDefinition
  sites.forM checkTyping
  expand m
  inheritConfig m
  for s in ← accepted m.site "augment" do
    augment s
  reportExpected
  let current := ofModule m.number m id
  checkNames (← current)
  checkKeys (← current)
  checkConditions (← current)
  checkDeviations (← current)

mutual

/-- **Validates a module** with what it needs, unless it has been begun. Every module that is begun
is a new one, and every import and include is a statement of its own, so the length of the texts
bounds the depth. -/
def validate : (depth : Nat) → (number : Nat) → Check Unit
  | 0, _ => return
  | depth + 1, number => do
    match ← module? number with
    | none => return
    | some m =>
      if m.stage != .registered then return
      modifyModule number fun m => { m with stage := .active }
      findQualifiers m
      findExtensions m
      checkGrammar m
      match ← module? number with
      | none => return
      | some m =>
        if !m.rejects m.statement then
          for s in m.statement.all "import" do
            validateImport depth m s
          validateIncludes depth m (m.statement.all "include")
          (← module? number).forM checkContents
      modifyModule number fun m => { m with stage := .done }

/-- Validates what a module imports. -/
def validateImport : (depth : Nat) → Module → Statement → Check Unit
  | 0, _, _ => return
  | depth + 1, m, s => do
    match ← need m s with
    | none => return
    | some other =>
      if other.isSubmodule then
        report (m.position s) (.linking (.notImportable other.statement.keyword s.name))
      validate depth other.number

/-- Validates what a module includes, up to the first that cannot be included, and gives it to the
module. -/
def validateIncludes : (depth : Nat) → Module → List Statement → Check Unit
  | 0, _, _ => return
  | _, _, [] => return
  | depth + 1, m, s :: rest => do
    match ← need m s with
    | none => validateIncludes depth m rest
    | some other =>
      if !other.isSubmodule then
        report (m.position s) (.linking (.notIncludable other.statement.keyword s.name))
      else
        if other.version != m.version then
          report (m.position s) (.linking (.otherVersion other.version m.version))
        validate depth other.number
        match ← module? other.number with
        | none => pure ()
        | some included =>
          checkIncluded m included
          modifyModule m.number fun m => { m with
            trees := m.trees ++ included.trees.filter fun i => !m.trees.contains i }
          mergeDefinitions m.number included
        validateIncludes depth m rest

end

/-- Reports modules that have the same namespace. -/
def checkNamespaces : Check Unit := do
  let stated := (← get).modules.toList.filterMap fun m =>
    if m.isSubmodule then none
    else (m.statement.first? "namespace").map fun s => (m, s)
  for (m, s) in stated do
    let names := sortedSet ((stated.filter fun (_, t) => t.name = s.name).map (·.1.name))
    if 1 < names.length then report (m.position s) (.linking (.sameNamespace s.name names))

/-- Reads sources and validates them with all they need. -/
def validateAll (sources : List SourceDocument) : Check Unit := do
  let depth ← depth
  for d in sources do
    let _ ← load d
  for number in List.range (← get).modules.size do
    validate depth number
  checkNamespaces

end SchemaAssembly.Yang.Check
