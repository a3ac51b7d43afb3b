import SchemaAssembly.Source.Piece
import SchemaAssembly.Text.Word

/-!
# Headers

The header of a schema document is the first statement at the beginning of a line that declares a
module or submodule. It is looked for in the text without comments.
-/

namespace SchemaAssembly.Source

/-- What a header declares. -/
inductive HeaderKind where
  /-- a module -/
  | main
  /-- a submodule -/
  | sub
  deriving DecidableEq, Repr

/-- The keyword of a header. -/
def HeaderKind.text : HeaderKind → String
  | .main => "module"
  | .sub => "submodule"

/-- A header: what it declares, and under which name. -/
structure Header where
  /-- what is declared -/
  kind : HeaderKind
  /-- the declared name -/
  name : String
  deriving DecidableEq, Repr

/-- What follows a keyword that stands at the beginning of a text. -/
def afterKeyword (keyword cs : List Char) : Option (List Char) :=
  if keyword.isPrefixOf cs then some (cs.drop keyword.length) else none

/-- Whether a bare name may start with the character. -/
def startsName (c : Char) : Bool :=
  c.isAlpha || c == '_'

/-- Whether a bare name may go on with the character. -/
def continuesName (c : Char) : Bool :=
  Text.isWord c || c == '.' || c == '-'

/-- The text up to a quote, if it is not empty and the quote is there. -/
def quotedName (quote : Char) (cs : List Char) : Option (List Char) :=
  let name := cs.takeWhile (· != quote)
  if name.isEmpty || name.length == cs.length then none else some name

/-- The name at the beginning of a text, quoted or bare. -/
def nameArgument : List Char → Option (List Char)
  | '"' :: rest => quotedName '"' rest
  | '\'' :: rest => quotedName '\'' rest
  | c :: rest => if startsName c then some (c :: rest.takeWhile continuesName) else none
  | [] => none

/-- The name that follows a keyword: after one blank at least. -/
def nameAfterBlanks (cs : List Char) : Option (List Char) :=
  let rest := Text.trimStart cs
  if rest.length < cs.length then nameArgument rest else none

/-- The header that stands at the beginning of a text, blanks left aside. -/
def headerAt (cs : List Char) : Option Header :=
  let cs := Text.trimStart cs
  let found := fun (kind : HeaderKind) =>
    ((afterKeyword kind.text.toList cs).bind nameAfterBlanks).map fun name =>
      (⟨kind, String.ofList (Text.trimChars name)⟩ : Header)
  (found .main).or (found .sub)

/-- The first header at the beginning of a later line. -/
def headerInLaterLine : List Char → Option Header
  | [] => none
  | '\n' :: rest => (headerAt rest).or (headerInLaterLine rest)
  | _ :: rest => headerInLaterLine rest

/-- The first header at the beginning of a line. -/
def headerInLines (cs : List Char) : Option Header :=
  (headerAt cs).or (headerInLaterLine cs)

/-- **The header** of a document. -/
def header? (text : String) : Option Header :=
  headerInLines (stripComments text.toList)

end SchemaAssembly.Source
