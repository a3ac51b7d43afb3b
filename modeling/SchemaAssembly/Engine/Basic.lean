import SchemaAssembly.Event
import SchemaAssembly.Failure
import SchemaAssembly.Feature.Set
import SchemaAssembly.SchemaModel.Basic
import SchemaAssembly.Source.Document

/-!
# Engines

An engine turns documents into a model. It is driven by calls, and what it answers to a build
depends on the calls it has received and on nothing else: an engine is a function of its calls. -/

namespace SchemaAssembly

/-- A call to an engine. -/
inductive EngineCall where
  /-- only these features are enabled -/
  | restrict (features : FeatureSet)
  /-- a document to be parsed and validated -/
  | addSource (document : SourceDocument)
  /-- a document that resolves imports and includes -/
  | addLibrary (document : SourceDocument)
  /-- all sources are to be resolved -/
  | build
  deriving DecidableEq

/-- What an engine answers to a build. -/
structure BuildReport where
  /-- what it reports on the way -/
  events : List Event := []
  /-- the model, or the messages that say why there is none -/
  outcome : Except (List String) SchemaModel
  /-- what the messages are introduced with -/
  summary : String := unbuildableSummary

/-- **An engine**: what it answers to the build that ends a sequence of calls. -/
abbrev Engine := (calls : List EngineCall) → BuildReport

namespace EngineCall

/-- The document of a call that adds a source. -/
def source? : EngineCall → Option SourceDocument
  | addSource document => some document
  | _ => none

/-- The document of a call that adds to the library. -/
def library? : EngineCall → Option SourceDocument
  | addLibrary document => some document
  | _ => none

end EngineCall

end SchemaAssembly
