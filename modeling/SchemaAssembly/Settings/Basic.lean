import SchemaAssembly.Assembly
import SchemaAssembly.Value

/-!
# Settings

What an assembly is told to do: by a settings file, by the command line, or by both. `Complaint`s
are what is wrong with a value that should be settings; each names the place it is about. -/

namespace SchemaAssembly

/-- Settings of an assembly. -/
structure Settings where
  /-- library roots -/
  libraries : List String := []
  /-- files under test -/
  tests : List String := []
  /-- identifiers of the supported features -/
  features : List String := []
  /-- whether library roots are scanned with their subdirectories -/
  recursive : Bool := false
  /-- whether library files are parsed and validated like tested ones -/
  useAllFiles : Bool := false
  /-- whether a file under test must have the extension of a source -/
  strictExtensions : Bool := false
  /-- whether every tested source must have a unit in the model -/
  requireTestedMatch : Bool := false
  deriving DecidableEq, Repr

/-- A step to the place a complaint is about. -/
inductive PlaceStep where
  /-- the value of a key -/
  | key (name : String)
  /-- an item of a list, or a key that is a number -/
  | index (n : Int)
  deriving DecidableEq, Repr

/-- What can be wrong at a place. -/
inductive Objection where
  /-- a text is needed -/
  | notText
  /-- a list is needed -/
  | notList
  /-- a truth value is needed -/
  | notBool
  /-- no setting has this name -/
  | unknownKey
  /-- a key is not a text -/
  | notTextKey
  /-- a text is no feature identifier -/
  | badFeature (e : InvalidFeature)
  /-- the value as a whole is not a map -/
  | notMap
  /-- settings do not change -/
  | frozen
  deriving DecidableEq, Repr

/-- The objection in words. -/
def Objection.message : Objection → String
  | notText => "Input should be a valid string"
  | notList => "Input should be a valid list"
  | notBool => "Input should be a valid boolean"
  | unknownKey => "Extra inputs are not permitted"
  | notTextKey => "Keys should be strings"
  | badFeature e => "Value error, " ++ e.message
  | notMap => "Input should be a valid dictionary or instance of AssemblyConfig"
  | frozen => "Instance is frozen"

/-- Something wrong with a value that should be settings. -/
structure Complaint where
  /-- the steps to the place -/
  place : List PlaceStep
  /-- what is wrong there -/
  objection : Objection
  deriving DecidableEq, Repr

namespace Settings

/-- The features of settings as a set. -/
def featureSet (s : Settings) : Except InvalidFeature FeatureSet :=
  FeatureSet.parse s.features

/-- Settings do not change: setting a value of one is objected to. What a name with an underscore
before it stands for is no setting, and nobody objects. -/
def objectionToSet? (name : String) : Option Complaint :=
  if name.toList.head? = some '_' then none else some ⟨[.key name], .frozen⟩

/-- The settings as a value. -/
def toValue (s : Settings) : Value :=
  .map
    [(.text "lib_dirs", .ofTexts s.libraries),
     (.text "test_files", .ofTexts s.tests),
     (.text "features", .ofTexts s.features),
     (.text "recursive", .bool s.recursive),
     (.text "use_all_files", .bool s.useAllFiles),
     (.text "strict_extensions", .bool s.strictExtensions),
     (.text "require_tested_match", .bool s.requireTestedMatch)]

/-- What is to be assembled by these settings, given their features. -/
def request (s : Settings) (features : FeatureSet) : Request where
  libraries := s.libraries
  tests := s.tests
  features := some features
  recursive := s.recursive
  useAllFiles := s.useAllFiles
  strictExtensions := s.strictExtensions
  requireTestedMatch := s.requireTestedMatch

end Settings

end SchemaAssembly
