import SchemaAssembly.Engine.Basic
import SchemaAssembly.Text.Order
import SchemaAssembly.Yang.Validation

/-!
# The YANG engine

An engine that reads its documents and checks them against each other. It collects documents and the
supported features, which must come first, and answers to a build with what it has collected by
then; a build changes nothing. The checking itself is left to a library, which starts afresh with
every build.

- `YangSession.call` is the effect of one call, `YangSession.build` the answer to a build.
- `YangSession.engine` is the engine on a library, and `yangEngine` the one on the checks of a
  workspace, `validated`.
-/

namespace SchemaAssembly

open Yang

/-- What a YANG engine has been given. -/
structure YangSession where
  /-- the supported features, if they have been set -/
  features : Option FeatureSet := none
  /-- the documents to be checked -/
  sources : List SourceDocument := []
  /-- the documents that resolve imports and includes -/
  library : List SourceDocument := []
  deriving DecidableEq

/-- A call that comes at the wrong time. -/
inductive Misuse where
  /-- features are set after documents have been added -/
  | lateFeatures
  deriving DecidableEq, Repr

/-- The misuse in words. -/
def Misuse.message : Misuse → String
  | lateFeatures => "features must be set before sources are added"

/-- **Libraries for YANG**: what is known once sources have been validated with some features enabled,
and with documents among which they find what they need. -/
abbrev YangLibrary :=
  (switches : FeatureSwitches) → (documents sources : List SourceDocument) → Workspace

/-- The keywords of statements that define something. -/
def definitionKeywords : List String :=
  ["container", "leaf", "leaf-list", "list", "choice", "anydata", "anyxml", "uses", "augment",
    "rpc", "action", "notification", "grouping", "typedef", "identity", "feature"]

namespace YangSession

/-- All documents, sources first. -/
def documents (s : YangSession) : List SourceDocument :=
  s.sources ++ s.library

/-- **The effect of a call.** -/
def call (s : YangSession) : EngineCall → Except Misuse YangSession
  | .restrict features =>
    if s.documents.isEmpty then .ok { s with features := some features } else .error .lateFeatures
  | .addSource d => .ok { s with sources := s.sources ++ [d] }
  | .addLibrary d => .ok { s with library := s.library ++ [d] }
  | .build => .ok s

/-- The session after some calls. A call that is a misuse has no effect. -/
def afterCalls (s : YangSession) (calls : List EngineCall) : YangSession :=
  calls.foldl (fun s c => (s.call c).toOption.getD s) s

/-- **The enabled features** of every document and of every module of the supported features. There
are none to state as long as no feature is selected: then all features are enabled. -/
def enabledFeatures (s : YangSession) : List (String × List String) :=
  match s.features with
  | none => []
  | some features =>
    if features.isEmpty then []
    else (sortedSet (s.documents.map (·.name) ++ features.modules)).map fun name =>
      (name, features.forModule name)

/-- The definitions of a module that are there: all conditions of their statements hold, and no
deviation leaves them out. -/
def definitionsOf (w : Workspace) (m : Module) : List String :=
  (m.site.body.filter fun s =>
    definitionKeywords.contains s.statement.keyword && !w.disabled.contains s.key &&
      !w.unsupported.contains s.key).map fun s =>
        s.statement.keyword ++ " " ++ s.statement.name

/-- The unit of a module. -/
def unitOf (w : Workspace) (m : Module) : SchemaUnit where
  name := m.name
  revision := m.revision
  kind := m.statement.keyword
  source := some m.path
  imports := m.statement.arguments "import"
  includes := m.statement.arguments "include"
  definitions := definitionsOf w m

/-- **The answer to a build**: the problems, or the units of all modules that have been found. -/
def build (library : YangLibrary) (s : YangSession) : BuildReport :=
  let w := library ⟨s.enabledFeatures⟩ s.documents s.sources
  { events := s.sources.map fun d => .parsing d.path d.name
    outcome :=
      if w.problems.isEmpty then .ok (.ofUnits (w.modules.toList.map (unitOf w)))
      else .error (Problem.messages w.problems.toList) }

/-- **The engine on a library.** -/
def engine (library : YangLibrary) : Engine := fun calls =>
  (({} : YangSession).afterCalls calls).build library

end YangSession

/-- The library that validates sources in a workspace of their own. -/
def validated : YangLibrary := fun switches documents sources =>
  ((Check.validateAll sources).run (.ofDocuments switches documents)).2

/-- **The YANG engine.** -/
def yangEngine : Engine :=
  YangSession.engine validated

end SchemaAssembly
