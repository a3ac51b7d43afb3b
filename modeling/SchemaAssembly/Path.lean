/-!
# Paths

A path is a way to name a place in a file tree: where it starts, and the names to follow from there.
Repeated slashes and the name `.` say nothing and are dropped, the name `..` is kept because what it
leads to depends on links. Exactly two leading slashes are a start of their own.

- `Path.ofText` reads a path, `Path.text` writes it; the empty path is written `.`.
- `Path.join` follows one path from another, `Path.lexical` is the place a path names if there were
  no links.
-/

namespace SchemaAssembly

/-- Where a path starts. -/
inductive Anchor where
  /-- at the working directory -/
  | here
  /-- at the root of the tree -/
  | root
  /-- at the root, written with two slashes -/
  | doubleRoot
  deriving DecidableEq, Repr

/-- A path: its start and the names that follow. -/
structure Path where
  /-- where the path starts -/
  anchor : Anchor
  /-- the names to follow, none of them empty or `.` -/
  names : List String
  deriving DecidableEq, Repr

namespace Anchor

/-- The start that a number of leading slashes stands for. -/
def ofSlashes : Nat → Anchor
  | 0 => here
  | 2 => doubleRoot
  | _ => root

/-- The leading slashes. -/
def text : Anchor → String
  | here => ""
  | root => "/"
  | doubleRoot => "//"

end Anchor

/-- The names in a text between slashes, empty ones included. -/
def slashFields (text : String) : List String :=
  (text.toList.splitOn '/').map String.ofList

namespace Path

/-- **Reading a path.** -/
def ofText (text : String) : Path where
  anchor := .ofSlashes (text.toList.takeWhile (· == '/')).length
  names := (slashFields text).filter fun name => name != "" && name != "."

/-- **Writing a path.** -/
def text (p : Path) : String :=
  match p.anchor, p.names with
  | .here, [] => "."
  | anchor, names => anchor.text ++ "/".intercalate names

/-- Whether the system can be asked for the path at all: no name on the way holds the character
zero. -/
def isUsable (p : Path) : Bool :=
  p.names.all fun name => !name.toList.contains '\x00'

/-- Whether the path starts at the root. -/
def isAbsolute (p : Path) : Bool :=
  p.anchor != .here

/-- The last name, empty for a path without names. -/
def name (p : Path) : String :=
  p.names.getLast?.getD ""

/-- The path without its last name. -/
def parent (p : Path) : Path :=
  { p with names := p.names.dropLast }

/-- The path one name further. -/
def child (p : Path) (name : String) : Path :=
  { p with names := p.names ++ [name] }

/-- **Following `q` from `p`**: an absolute path does not depend on where it is followed from. -/
def join (p q : Path) : Path :=
  if q.isAbsolute then q else { p with names := p.names ++ q.names }

/-- Names followed from the root by their spelling alone: `..` takes the name before it back. -/
def collapse : (before : List String) → List String → List String
  | before, [] => before.reverse
  | before, name :: rest =>
    if name = ".." then collapse before.tail rest else collapse (name :: before) rest

/-- **The lexical place** of a path: the absolute path it spells out, links left aside. -/
def lexical (workingDirectory : List String) (p : Path) : Path :=
  match p.anchor with
  | .here => ⟨.root, collapse [] (workingDirectory ++ p.names)⟩
  | anchor => ⟨anchor, collapse [] p.names⟩

/-- An absolute path followed from anywhere is itself. -/
@[simp] theorem join_of_isAbsolute {p q : Path} (h : q.isAbsolute = true) : p.join q = q := by
  simp [join, h]

/-- A child's parent is where it was taken from. -/
@[simp] theorem parent_child (p : Path) (name : String) : (p.child name).parent = p := by
  simp [parent, child]

/-- A child's last name is the name that was added. -/
@[simp] theorem name_child (p : Path) (name : String) : (p.child name).name = name := by
  simp [Path.name, child]

end Path

end SchemaAssembly
