import SchemaAssembly.Yang.Statement

/-!
# References to definitions

A name that refers to a definition may be qualified by a short name that the module has given to
itself or to another module. What may be referred to are types, groupings, features, identities and
extensions, and each kind is defined by one keyword.
-/

namespace SchemaAssembly.Yang

/-- A name that may be qualified. -/
structure Reference where
  /-- the short name of the module it is looked for in -/
  qualifier : Option String
  /-- the name in that module -/
  name : String
  deriving DecidableEq, Repr

/-- The reference that a text is, qualified by what stands before its first colon. -/
def Reference.ofText (text : String) : Reference :=
  match splitQualified text with
  | some (before, after) => ⟨some before, after⟩
  | none => ⟨none, text⟩

/-- A kind of thing that is defined under a name. -/
inductive DefinitionKind where
  /-- a derived type -/
  | type
  /-- a collection of nodes for use elsewhere -/
  | grouping
  /-- an optional part of a module -/
  | feature
  /-- a name that can be derived from others -/
  | identity
  /-- a keyword of a module's own -/
  | extension
  deriving DecidableEq, Repr

namespace DefinitionKind

/-- The kind as a message names it. -/
def text : DefinitionKind → String
  | type => "type"
  | grouping => "grouping"
  | feature => "feature"
  | identity => "identity"
  | extension => "extension"

/-- The keyword that defines such a thing. -/
def definedBy : DefinitionKind → String
  | type => "typedef"
  | kind => kind.text

/-- The kinds of things that may be defined in any body. -/
def nested : List DefinitionKind :=
  [type, grouping]

/-- All kinds. -/
def all : List DefinitionKind :=
  [type, grouping, feature, identity, extension]

end DefinitionKind

/-- The types that need no definition. -/
def builtInTypes : List String :=
  ["binary", "bits", "boolean", "decimal64", "empty", "enumeration", "identityref",
    "instance-identifier", "int8", "int16", "int32", "int64", "leafref", "string", "uint8",
    "uint16", "uint32", "uint64", "union"]

end SchemaAssembly.Yang
