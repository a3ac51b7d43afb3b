import SchemaAssembly.Distinct
import SchemaAssembly.Engine.Basic

/-!
# The shallow engine

An engine that does not parse its documents. It takes a document's dependencies from its raw text,
wherever `import` or `include` is followed by a name, and a unit's other fields from what the
document declares. It can be told to fail, and to leave units out of its models.
-/

namespace SchemaAssembly

/-- How a document mentions another. -/
inductive MentionKind where
  /-- by an import -/
  | imports
  /-- by an include -/
  | includes
  deriving DecidableEq, Repr

/-- A mention of another document. -/
structure Mention where
  /-- how it is mentioned -/
  kind : MentionKind
  /-- the name mentioned -/
  name : String
  deriving DecidableEq, Repr

namespace Mention

/-- The keyword of a mention. -/
def keyword : MentionKind → List Char
  | .imports => "import".toList
  | .includes => "include".toList

/-- Whether a name may hold the character. -/
def inName (c : Char) : Bool :=
  c.isAlphanum || c == '_' || c == '.' || c == '-'

/-- The mention of a kind that a text begins with: the keyword, spaces, a name. It comes with the
number of its characters. -/
def ofKind? (kind : MentionKind) (cs : List Char) : Option (Mention × Nat) :=
  if (keyword kind).isPrefixOf cs then
    let rest := cs.drop (keyword kind).length
    let spaces := rest.takeWhile (· == ' ')
    let name := (rest.dropWhile (· == ' ')).takeWhile inName
    if spaces.isEmpty || name.isEmpty then none
    else some (⟨kind, String.ofList name⟩, (keyword kind).length + spaces.length + name.length)
  else none

/-- The mention that a text begins with. -/
def first? (cs : List Char) : Option (Mention × Nat) :=
  (ofKind? .imports cs).or (ofKind? .includes cs)

/-- The mentions in a text. The first `skip` characters belong to a mention already found; a mention
does not begin inside a word. -/
def scan (skip : Nat) (insideWord : Bool) : List Char → List Mention
  | [] => []
  | c :: rest =>
    let inside := c.isAlphanum || c == '_'
    match skip with
    | skip + 1 => scan skip inside rest
    | 0 =>
      match if insideWord then none else first? (c :: rest) with
      | some (mention, length) => mention :: scan (length - 1) inside rest
      | none => scan 0 inside rest

/-- **The mentions** in a text, in order. -/
def ofText (text : String) : List Mention :=
  scan 0 false text.toList

/-- The names that a text mentions in one way. -/
def names (kind : MentionKind) (text : String) : List String :=
  ((ofText text).filter (·.kind = kind)).map (·.name)

end Mention

/-- What a shallow engine is told to do. -/
structure ShallowEngine where
  /-- the errors it reports; none if it builds models -/
  errors : List String := []
  /-- the names it leaves out -/
  dropped : List String := []
  deriving DecidableEq, Repr

namespace ShallowEngine

/-- The last document of each name. -/
def lastOfName (documents : List SourceDocument) : List SourceDocument :=
  distinctOn (·.name) documents.reverse

/-- The chosen documents with the library documents that they mention. -/
def grow (library chosen : List SourceDocument) : List SourceDocument :=
  let mentioned := chosen.flatMap fun d => (Mention.ofText d.text).map (·.name)
  chosen ++ library.filter fun d =>
    mentioned.contains d.name && !(chosen.map (·.name)).contains d.name

/-- The sources with every library document they mention, directly or not. No chain of mentions is
longer than the library. -/
def chosen (sources library : List SourceDocument) : List SourceDocument :=
  library.foldl (fun chosen _ => grow (lastOfName library) chosen) (lastOfName sources)

/-- The unit of a document. -/
def unitOf (d : SourceDocument) : SchemaUnit where
  name := d.name
  revision := d.revision
  kind := (d.kind.map (·.text)).getD "module"
  source := some d.path
  imports := Mention.names .imports d.text
  includes := Mention.names .includes d.text

/-- The model of sources and a library. -/
def model (e : ShallowEngine) (sources library : List SourceDocument) : SchemaModel :=
  .ofUnits (((chosen sources library).filter fun d => !e.dropped.contains d.name).map unitOf)

/-- **The engine.** -/
def engine (e : ShallowEngine) : Engine := fun calls =>
  if e.errors.isEmpty then
    { outcome := .ok (e.model (calls.filterMap (·.source?)) (calls.filterMap (·.library?))) }
  else { outcome := .error e.errors }

end ShallowEngine

end SchemaAssembly
