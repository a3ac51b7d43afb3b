import SchemaAssembly.FileTree.Resolve
import SchemaAssembly.Json.Writer
import SchemaAssembly.Selection

/-!
# The listing report

All units of a model as JSON, with the tested names. The source of a unit is shown relative to a
base directory if it really lies below it, links followed, and as it is spelled otherwise. A path
that leads back into itself has no real location, and then there is no listing. -/

namespace SchemaAssembly

/-- A path below another, by their locations. -/
def Location.below? (base loc : Location) : Option Path :=
  if base.isPrefixOf loc then some ⟨.here, loc.drop base.length⟩ else none

/-- A path that leads back into itself, where only a real location would do. -/
structure LinkLoop where
  /-- the path -/
  path : Path
  deriving DecidableEq, Repr

/-- The loop in words. -/
def LinkLoop.message (loop : LinkLoop) : String :=
  "Symlink loop from " ++ Text.quoted loop.path.text

/-- The real location of a path, unless the links on the way to it lead back into themselves. -/
def FileTree.realLocation (t : FileTree) (p : Path) : Except LinkLoop Location :=
  let location := t.realPath p
  match t.resolve ⟨.root, location⟩ with
  | .error .tooManyLinks => .error ⟨⟨.root, location⟩⟩
  | _ => .ok location

/-- A source relative to a base directory if it lies below it, and as it is spelled otherwise. -/
def FileTree.sourceBelow (t : FileTree) (base : Option Path) (source : Path) :
    Except LinkLoop Path := do
  match base with
  | none => return source
  | some b =>
    if !source.isUsable then return source
    let location ← t.realLocation source
    if !b.isUsable then return source
    return (Location.below? (← t.realLocation b) location).getD source

/-- **A source as a listing shows it.** Backslashes become slashes. -/
def FileTree.listedSource (t : FileTree) (base : Option Path) (source : Path) :
    Except LinkLoop String := do
  let shown ← t.sourceBelow base source
  return shown.text.map fun c => if c = '\\' then '/' else c

/-- A unit as a listing shows it. -/
def SchemaUnit.listed (u : SchemaUnit) (t : FileTree) (base : Option Path) :
    Except LinkLoop JsonValue := do
  let source ← u.source.mapM (t.listedSource base)
  return .object
    [("name", .text u.name),
     ("revision", .ofText? u.revision),
     ("kind", .text u.kind),
     ("source", .ofText? source),
     ("tested", .bool u.tested),
     ("imports", .ofTexts u.imports),
     ("includes", .ofTexts u.includes),
     ("definitions", .ofTexts u.definitions)]

namespace SchemaModel

/-- The units of a model and the tested names that have units, as a value. -/
def listing (m : SchemaModel) (t : FileTree) (tested : List String) (base : Option Path) :
    Except LinkLoop JsonValue := do
  let units ← (m.tagged tested).mapM fun u => u.listed t base
  return .object
    [("units", .list units), ("tested", .ofTexts ((sortedSet tested).filter m.contains))]

/-- **The listing report** of a model. -/
def listingReport (m : SchemaModel) (t : FileTree) (tested : List String) (base : Option Path)
    (indent : Int := 2) : Except LinkLoop String :=
  (m.listing t tested base).map (·.write indent)

end SchemaModel

end SchemaAssembly
