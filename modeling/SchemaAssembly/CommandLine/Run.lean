import SchemaAssembly.CommandLine.Arguments
import SchemaAssembly.Report.Flowchart
import SchemaAssembly.Report.Listing
import SchemaAssembly.Report.Tree
import SchemaAssembly.Settings.Load

/-!
# Running a command line

A command line is run on a file tree: settings are loaded and overlaid, a model is assembled, and a
report is printed or written to a file. What comes out is a `Response`, or a `Breakdown` in the few
cases that have none. Whatever goes wrong, nothing is printed and the tree stays as it was.
-/

namespace SchemaAssembly

/-- What a run gives. -/
structure Response where
  /-- zero if all went well, one if not -/
  exitCode : Nat
  /-- what is printed as the result -/
  stdout : String := ""
  /-- what is printed beside the result -/
  stderr : String := ""
  /-- the file tree afterwards -/
  tree : FileTree

/-- Why a run comes to no response. -/
inductive Breakdown where
  /-- a scalar of the settings file is not of its kind -/
  | badScalar (fault : Yaml.ScalarFault)
  /-- a source has no real location -/
  | linkLoop (loop : LinkLoop)
  /-- the system cannot be asked for a path -/
  | unusable (path : Path)
  deriving DecidableEq, Repr

/-- The breakdown in words. -/
def Breakdown.message : Breakdown → String
  | badScalar fault => fault.message
  | linkLoop loop => loop.message
  | unusable path => Fault.unusable.message path.text

namespace Options

/-- The least severe events that are reported. -/
def severity (o : Options) : Severity :=
  match o.verbose with
  | 0 => .warning
  | 1 => .info
  | _ => .debug

/-- An argument as a value of a setting: nothing is an empty list, and so no text. -/
def settingOf : Argument → Value
  | .text argument => .text argument
  | .nothing => .list []

/-- What the command line lays over the settings of a file. -/
def overlay (o : Options) : Overlay where
  libraries := o.path.map settingOf
  tests := o.files.map .text
  features := o.features.map .text
  flags :=
    [("recursive", o.recursive), ("use_all_files", o.parseAll),
     ("strict_extensions", o.strictExtensions), ("require_tested_match", o.requireTested)]

/-- A settings failure for what the command line lays over other settings. -/
def overlayFailure : OverlayFailure → SettingsFailure
  | .unknownFlags names => .invalid .commandLine (names.map fun name => ⟨[.key name], .unknownKey⟩)
  | .invalid complaints => .invalid .commandLine complaints

/-- **The settings** of a command line: those of its file, if it names one, with its own laid over
them. -/
def settings (o : Options) (yaml : YamlReader) (t : FileTree) : Except SettingsFailure Settings := do
  let s ← match o.config.bind (·.given?) with
    | none => .ok {}
    | some path => Settings.load yaml t (.ofText path)
  (s.merged o.overlay).mapError overlayFailure

/-- The settings of a command line with their features. -/
def settingsAndFeatures (o : Options) (yaml : YamlReader) (t : FileTree) :
    Except SettingsFailure (Settings × FeatureSet) := do
  let s ← o.settings yaml t
  return (s, ← s.featureSet.mapError .badFeature)

/-- **The report** on an assembly. -/
def report (o : Options) (t : FileTree) (a : Assembly) : Except LinkLoop String :=
  if o.format = .text "mermaid" then
    .ok (a.model.flowchartReport a.testedNames o.orientation.printed o.groupByRole)
  else if o.format = .text "json" then
    a.model.listingReport t a.testedNames (some ⟨.root, t.workingDirectory⟩)
  else .ok (a.model.treeReport a.testedNames (.ofName o.asciiStyle.printed) o.showAll)

/-- Lines as they are printed, each with its end. -/
def printed (lines : List String) : String :=
  String.join (lines.map (· ++ "\n"))

/-- The response to something that went wrong. -/
def failed (t : FileTree) (log : List String) (message : String) : Response where
  exitCode := 1
  stderr := printed (log ++ [message])
  tree := t

/-- Prints a report, or writes it to a file. -/
def deliver (o : Options) (t : FileTree) (log : List String) (report : String) :
    Except Breakdown Response :=
  match o.output.bind (·.given?) with
  | none =>
    .ok { exitCode := 0, stdout := printed [report], stderr := printed log, tree := t }
  | some file =>
    let path := Path.ofText file
    match t.write path (Text.encodeUtf8 report) with
    | .error .unusable => .error (.unusable path)
    | .error fault => .ok (failed t log ("Error writing output: " ++ fault.message path.text))
    | .ok written =>
      .ok
        { exitCode := 0
          stderr := printed (log ++ ["Output written to: " ++ path.text])
          tree := written }

/-- **Running** what a command line says. -/
def run (o : Options) (yaml : YamlReader) (engine : Engine) (t : FileTree) :
    Except Breakdown Response :=
  match o.settingsAndFeatures yaml t with
  | .error (.badScalar _ fault) => .error (.badScalar fault)
  | .error (.unusable path) => .error (.unusable path)
  | .error failure => .ok (failed t [] ("Error: " ++ failure.message))
  | .ok (s, features) =>
    if s.libraries.isEmpty && s.tests.isEmpty then
      .ok (failed t [] "Error: no YANG files or library directories given")
    else
      let outcome := (s.request features).run engine t
      let log := Event.log o.severity outcome.events
      match outcome.result with
      | .error (.unusable path) => .error (.unusable path)
      | .error failure => .ok (failed t log ("Error: " ++ failure.message))
      | .ok a =>
        match o.report t a with
        | .error loop => .error (.linkLoop loop)
        | .ok report => o.deliver t log report

end Options

end SchemaAssembly
