import SchemaAssembly.Settings.Overlay
import SchemaAssembly.Yaml.Load

/-!
# Loading settings

Settings from a YAML file. Relative paths in it are meant from the directory of the file, and a file
without a document gives the settings that nothing is said about.

What a text says as YAML is left to a reader, such as `Yaml.load`; nothing here depends on which.
-/

namespace SchemaAssembly

/-- **Readers of YAML**: the value of a text, null if it holds no document. -/
abbrev YamlReader := (text : String) → Except Yaml.LoadFault Value

/-- Where settings come from. -/
inductive SettingsOrigin where
  /-- from the command line -/
  | commandLine
  /-- from a file -/
  | file (path : Path)
  deriving DecidableEq, Repr

/-- The origin as a message names it. -/
def SettingsOrigin.text : SettingsOrigin → String
  | commandLine => "command line"
  | file path => "'" ++ path.text ++ "'"

/-- Why there are no settings. -/
inductive SettingsFailure where
  /-- the file cannot be read -/
  | unreadable (path : Path) (reason : String)
  /-- the file is no YAML -/
  | notYaml (path : Path)
  /-- the file holds something else than a mapping -/
  | notMapping (path : Path)
  /-- the values are not right -/
  | invalid (origin : SettingsOrigin) (complaints : List Complaint)
  /-- a feature identifier is not right -/
  | badFeature (e : InvalidFeature)
  /-- a scalar of the file is not of its kind -/
  | badScalar (path : Path) (fault : Yaml.ScalarFault)
  /-- the system cannot be asked for the file -/
  | unusable (path : Path)
  deriving DecidableEq, Repr

/-- **The failure in words**, as far as they do not depend on how complaints are laid out. -/
def SettingsFailure.message : SettingsFailure → String
  | unreadable path reason => "cannot read config file '" ++ path.text ++ "': " ++ reason
  | notYaml path => "invalid YAML in '" ++ path.text ++ "'"
  | notMapping path => "config file '" ++ path.text ++ "' must contain a mapping"
  | invalid origin _ => "invalid configuration in " ++ origin.text
  | badFeature e => e.message
  | badScalar _ fault => fault.message
  | unusable path => Fault.unusable.message path.text

/-- Why there are no settings if their file cannot be read. -/
def ReadFailure.settingsFailure (path : Path) : ReadFailure → SettingsFailure
  | .fault .unusable => .unusable path
  | failure => .unreadable path (failure.reason path)

namespace Settings

/-- The settings that a loaded file gives. -/
def ofLoaded (path : Path) : Value → Except SettingsFailure Settings
  | .null => .ok {}
  | .map entries => (check (some path.parent) (.map entries)).mapError (.invalid (.file path))
  | _ => .error (.notMapping path)

/-- **Loading** settings from a file. -/
def load (yaml : YamlReader) (t : FileTree) (path : Path) : Except SettingsFailure Settings := do
  let text ← (t.readText path).mapError (·.settingsFailure path)
  match yaml text with
  | .error .notYaml => .error (.notYaml path)
  | .error (.scalar fault) => .error (.badScalar path fault)
  | .ok value => ofLoaded path value

end Settings

end SchemaAssembly
