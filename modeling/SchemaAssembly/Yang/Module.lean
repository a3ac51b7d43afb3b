import SchemaAssembly.Source.Revision
import SchemaAssembly.Yang.Grammar

/-!
# Modules

A module or a submodule, with the document that declares it. A submodule belongs to a module, and
what it defines is owned by that module. A definition can be found from inside the statement that it
stands in; at the outermost level a module has its own definitions and those of what it includes.
-/

namespace SchemaAssembly.Yang

/-- A statement of a module, with the statements around it, the innermost first. -/
structure Site where
  /-- the number of the module -/
  home : Nat
  /-- the statement -/
  statement : Statement
  /-- the statements around it -/
  around : List Statement
  deriving Inhabited

namespace Site

/-- What tells a site from others. -/
def key (s : Site) : Nat × Nat :=
  (s.home, s.statement.number)

/-- The site of a statement in the body of this one. -/
def inner (s : Site) (t : Statement) : Site :=
  ⟨s.home, t, s.statement :: s.around⟩

/-- The sites of the statements in the body. -/
def body (s : Site) : List Site :=
  s.statement.body.map s.inner

/-- The sites of the statements with a keyword in the body. -/
def all (s : Site) (keyword : String) : List Site :=
  (s.statement.all keyword).map s.inner

/-- The site of the first statement with a keyword in the body. -/
def first? (s : Site) (keyword : String) : Option Site :=
  (s.statement.first? keyword).map s.inner

/-- The statement around it. -/
def parent? (s : Site) : Option Site :=
  match s.around with
  | [] => none
  | t :: around => some ⟨s.home, t, around⟩

/-- The keyword of the statement around it. -/
def parentKeyword (s : Site) : String :=
  (s.around.head?.map (·.keyword)).getD ""

end Site

mutual

/-- The sites of a statement and of all in it, in the order of the text, without those whose numbers
are rejected. -/
def sitesOf (rejected : List Nat) (home : Nat) (around : List Statement) : Statement → List Site
  | ⟨keyword, argument, line, number, body⟩ =>
    if rejected.contains number then []
    else
      let s : Statement := ⟨keyword, argument, line, number, body⟩
      ⟨home, s, around⟩ :: sitesIn rejected home (s :: around) body

/-- The sites of some statements and of all in them. -/
def sitesIn (rejected : List Nat) (home : Nat) (around : List Statement) :
    List Statement → List Site
  | [] => []
  | s :: rest => sitesOf rejected home around s ++ sitesIn rejected home around rest

end

/-- A module another one refers to. -/
structure Target where
  /-- its name -/
  name : String
  /-- its revision, if it matters -/
  revision : Option String
  deriving DecidableEq, Repr

/-- The target that an import or include states. -/
def Target.ofStatement (s : Statement) : Target :=
  ⟨s.name, s.argument? "revision-date"⟩

/-- How far a module has been validated. -/
inductive Stage where
  /-- not at all -/
  | registered
  /-- it is being validated -/
  | active
  /-- it has been validated -/
  | done
  deriving DecidableEq, Repr

/-- A definition at the outermost level of a module. -/
structure Definition where
  /-- its kind -/
  kind : DefinitionKind
  /-- its name -/
  name : String
  /-- where it is -/
  site : Site

/-- The newest revision that a text states. -/
def Statement.revision? (s : Statement) : Option String :=
  Source.greatest? ((s.all "revision").filterMap (·.argument))

/-- The newest revision as it is compared with others: none counts as newer than any date. -/
def Statement.revisionKey (s : Statement) : String :=
  s.revision?.getD "unknown"

/-- A module or a submodule. -/
structure Module where
  /-- its number among the modules -/
  number : Nat
  /-- the document it comes from -/
  path : Path
  /-- the reading of the document it comes from -/
  reading : Nat
  /-- its text -/
  statement : Statement
  /-- how far it has been validated -/
  stage : Stage := .registered
  /-- the short name that it gives itself, once it is known -/
  ownQualifier : Option String := none
  /-- the short names it knows, with what they stand for -/
  qualifiers : List (String × Target) := []
  /-- the short names that it does not know, as far as they have been met -/
  missingQualifiers : List String := []
  /-- the numbers of the statements that the grammar rejects -/
  rejected : List Nat := []
  /-- the definitions at its outermost level, the first ones first -/
  definitions : List Definition := []
  /-- the numbers of the trees at its outermost level -/
  trees : List Nat := []

namespace Module

/-- The name it declares. -/
def name (m : Module) : String :=
  m.statement.name

/-- Whether it is a submodule. -/
def isSubmodule (m : Module) : Bool :=
  m.statement.keyword = "submodule"

/-- The statement that says where a submodule belongs. -/
def belongsTo? (m : Module) : Option Statement :=
  if m.isSubmodule then m.statement.first? "belongs-to" else none

/-- The name of the module that owns what it defines. -/
def owner (m : Module) : String :=
  if m.isSubmodule then ((m.belongsTo?.bind (·.argument)).getD "") else m.name

/-- The version of the language it is written in. -/
def version (m : Module) : String :=
  m.statement.version

/-- Whether it is written in the first version of the language. -/
def isOld (m : Module) : Bool :=
  m.version = "1"

/-- Its newest revision, if it has one. -/
def revision (m : Module) : Option String :=
  m.statement.revision?

/-- Its site. -/
def site (m : Module) : Site :=
  ⟨m.number, m.statement, []⟩

/-- The place of one of its statements. -/
def position (m : Module) (s : Statement) : Position :=
  { path := m.path, line := s.line, reading := some m.reading }

/-- Whether it includes a submodule by name. -/
def includes (m : Module) (name : String) : Bool :=
  (m.statement.arguments "include").contains name

/-- The sites of its statements that the grammar does not reject. -/
def sites (m : Module) : List Site :=
  sitesOf m.rejected m.number [] m.statement

/-- Whether the grammar rejects a statement. -/
def rejects (m : Module) (s : Statement) : Bool :=
  m.rejected.contains s.number

/-- The definition of a name at the outermost level. -/
def definition? (m : Module) (kind : DefinitionKind) (name : String) : Option Site :=
  (m.definitions.find? fun d => d.kind = kind && d.name = name).map (·.site)

end Module

/-- The first definitions of each name in a body, of a kind. -/
def definitionsIn (kind : DefinitionKind) (s : Site) : List Definition :=
  distinctOn (·.name) <| (s.all kind.definedBy).map fun d => ⟨kind, d.statement.name, d⟩

end SchemaAssembly.Yang
