import SchemaAssembly.FileTree.Access
import SchemaAssembly.Source.Header
import SchemaAssembly.Source.Revision
import SchemaAssembly.Text.Lines
import SchemaAssembly.Text.Utf8

/-!
# Source documents

A source document is the text of one schema file together with the identity it declares: its name,
its kind and its revision. A document without a header is named after its file.
-/

namespace SchemaAssembly

/-- The text of one schema file and the identity it declares. -/
structure SourceDocument where
  /-- the path the file was read from -/
  path : Path
  /-- its text -/
  text : String
  /-- the declared name, or the one its file name gives -/
  name : String
  /-- the greatest revision, if there is one -/
  revision : Option String := none
  /-- what the header declares, if there is one -/
  kind : Option Source.HeaderKind := none
  deriving DecidableEq, Repr

/-- Why the text of a file cannot be had. All of it is foreseen but for one fault, that the system cannot
be asked for the path. -/
inductive ReadFailure where
  /-- the file cannot be read -/
  | fault (fault : Fault)
  /-- its bytes are no text -/
  | undecodable (error : Text.Utf8Error)
  deriving DecidableEq, Repr

/-- The failure in words, for the path that was to be read. -/
def ReadFailure.reason (path : Path) : ReadFailure → String
  | .fault f => f.message path.text
  | .undecodable e => e.message

/-- The text of a file, with its line ends made alike. -/
def FileTree.readText (t : FileTree) (p : Path) : Except ReadFailure String :=
  match t.read p with
  | .error f => .error (.fault f)
  | .ok bytes =>
    match Text.decodeUtf8 bytes with
    | .error e => .error (.undecodable e)
    | .ok cs => .ok (String.ofList (Text.normalizeNewlines cs))

namespace SourceDocument

/-- The text before the last `c`, or all of it if there is none. -/
def beforeLast (c : Char) (cs : List Char) : List Char :=
  match cs.reverse.dropWhile (· != c) with
  | [] => cs
  | _ :: before => before.reverse

/-- **The name a file name gives**: without its extension and without a revision. -/
def nameOfFile (p : Path) : String :=
  String.ofList ((beforeLast '.' p.name.toList).takeWhile (· != '@'))

/-- The document of a text read from a path. -/
def ofText (path : Path) (text : String) : SourceDocument :=
  let header := Source.header? text
  { path
    text
    name := (header.map (·.name)).getD (nameOfFile path)
    revision := Source.revision? text
    kind := header.map (·.kind) }

/-- **Reading a document.** -/
def read (t : FileTree) (p : Path) : Except ReadFailure SourceDocument :=
  (t.readText p).map (ofText p)

end SourceDocument

end SchemaAssembly
