import SchemaAssembly.Engine.Basic
import SchemaAssembly.Failure
import SchemaAssembly.Selection
import SchemaAssembly.SourceSet

/-!
# Assembling a model

The whole way from files to a model: sources are sorted by role, all of them are read, an engine is
handed the documents, and the units that came from tested sources are selected. The first thing that
goes wrong ends it.

- `FileTree.assemble` reads sources and runs an engine.
- `Request.run` is the whole way. What it reports, and the calls its engine received, come with the
  result whether it succeeds or fails.
-/

namespace SchemaAssembly

/-- How something ended, what was reported until then, and the calls an engine received. -/
structure Outcome (α : Type) where
  /-- the result, or why there is none -/
  result : Except Failure α
  /-- what was reported, in order -/
  events : List Event := []
  /-- the calls the engine received, if one was used -/
  calls : Option (List EngineCall) := none

namespace Outcome

variable {α β : Type}

/-- What came before an outcome is reported before it. -/
def after (events : List Event) (o : Outcome α) : Outcome α :=
  { o with events := events ++ o.events }

/-- Goes on with a result; what goes on uses no engine. -/
def andThen (o : Outcome α) (f : α → Except Failure (β × List Event)) : Outcome β :=
  match o.result with
  | .error failure => { result := .error failure, events := o.events, calls := o.calls }
  | .ok a =>
    match f a with
    | .error failure => { result := .error failure, events := o.events, calls := o.calls }
    | .ok (b, events) => { result := .ok b, events := o.events ++ events, calls := o.calls }

end Outcome

/-- The supporting documents that no tested document shadows: the first of each path, unless a
tested document has that path. -/
def unshadowed (tested supporting : List SourceDocument) : List SourceDocument :=
  distinctOnAfter (·.path) (tested.map (·.path)) <|
    supporting.filter fun d => !(tested.map (·.name)).contains d.name

/-- What is reported about supporting documents that are shadowed. -/
def shadowEvents (tested supporting : List SourceDocument) : List Event :=
  (supporting.filter fun d => (tested.map (·.name)).contains d.name).map fun d =>
    .shadowed d.path d.name

/-- The call that restricts an engine to some features; there is none if nothing is restricted. -/
def restriction : Option FeatureSet → List EngineCall
  | some features => if features.isEmpty then [] else [.restrict features]
  | none => []

/-- **The calls that an engine receives.** -/
def engineCalls (tested supporting : List SourceDocument) (features : Option FeatureSet)
    (useAllFiles : Bool) : List EngineCall :=
  restriction features ++
    tested.map .addSource ++
    (unshadowed tested supporting).map (if useAllFiles then .addSource else .addLibrary) ++
    [.build]

/-- Why an assembly fails that cannot read a document. -/
def ReadFailure.ending (path : Path) : ReadFailure → Failure
  | .fault .unusable => .unusable path
  | failure => .unreadable path (failure.reason path)

/-- Reads all documents; the first that cannot be read is the failure. -/
def FileTree.readAll (t : FileTree) (paths : List Path) : Except Failure (List SourceDocument) :=
  paths.mapM fun path => (SourceDocument.read t path).mapError (·.ending path)

/-- **Assembling** a model from sources, with the names that the tested ones declare. -/
def FileTree.assemble (t : FileTree) (engine : Engine) (primary supporting : List Path)
    (features : Option FeatureSet) (useAllFiles : Bool) : Outcome (SchemaModel × List String) :=
  match do return (← t.readAll primary, ← t.readAll supporting) with
  | .error failure => { result := .error failure }
  | .ok (tested, library) =>
    let calls := engineCalls tested library features useAllFiles
    let report := engine calls
    let events := shadowEvents tested library ++ report.events
    match report.outcome with
    | .error messages =>
      { result := .error (.unbuildable messages report.summary), events, calls := some calls }
    | .ok model =>
      { result := .ok (model, tested.map (·.name))
        events := events ++ [.built model.size]
        calls := some calls }

/-- What is to be assembled. -/
structure Request where
  /-- library roots -/
  libraries : List String := []
  /-- files under test -/
  tests : List String := []
  /-- the supported features; none, or no set of them, means all -/
  features : Option FeatureSet := none
  /-- whether library roots are scanned with their subdirectories -/
  recursive : Bool := false
  /-- whether library files are parsed and validated like tested ones -/
  useAllFiles : Bool := false
  /-- whether a file under test must have the extension of a source -/
  strictExtensions : Bool := false
  /-- whether every tested source must have a unit in the model -/
  requireTestedMatch : Bool := false
  /-- the extension of a source -/
  extension : String := schemaExtension

/-- The result of a request. -/
structure Assembly where
  /-- the resolved model -/
  model : SchemaModel
  /-- the names that the tested sources declare, in the order of the files -/
  names : List String
  /-- the units that came from tested sources -/
  testedUnits : List SchemaUnit
  /-- the sources -/
  sources : SourceSet

/-- The names of the tested units, ascending and each once. -/
def Assembly.testedNames (a : Assembly) : List String :=
  sortedSet (a.testedUnits.map (·.name))

namespace Request

/-- How library roots are scanned. -/
def scanOptions (r : Request) : ScanOptions where
  recursive := r.recursive
  extension := r.extension

/-- Assembles and selects, once the sources are known. -/
def runWith (r : Request) (engine : Engine) (t : FileTree) (sources : SourceSet) :
    Outcome Assembly :=
  (t.assemble engine sources.primary sources.supporting r.features r.useAllFiles).andThen
    fun (model, names) => do
      let (testedUnits, events) ← model.select names r.requireTestedMatch
      return ({ model, names, testedUnits, sources }, events)

/-- **Running a request.** -/
def run (r : Request) (engine : Engine) (t : FileTree) : Outcome Assembly :=
  match t.sortSources r.scanOptions r.libraries r.tests with
  | (.error root, events) => { result := .error (.unusable root), events }
  | (.ok sources, events) =>
    match r.strictExtensions, sources.ignored with
    | true, path :: _ => { result := .error (.notASource path), events }
    | _, ignored =>
      (r.runWith engine t sources).after
        (events ++ ignored.map fun path => .ignored path r.extension)

end Request

end SchemaAssembly
