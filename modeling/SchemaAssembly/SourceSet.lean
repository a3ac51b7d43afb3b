import SchemaAssembly.Distinct
import SchemaAssembly.Scan

/-!
# Source sets

The sources of an assembly, by role. A file under test is primary if its text ends in the extension,
and its directory becomes a library root, before the roots that are given; whatever a scan of a root
finds is supporting. Roots and supporting files are told apart by the lexical place of their paths.

- `FileTree.classify` sorts sources by role, provided that all roots can be scanned.
- `FileTree.sortSources` does so unless the scan of a root breaks off.
-/

namespace SchemaAssembly

/-- The sources of an assembly. -/
structure SourceSet where
  /-- the sources under test, in the order given -/
  primary : List Path
  /-- the sources found below library roots -/
  supporting : List Path
  /-- the library roots -/
  roots : List String
  /-- the files under test that do not have the extension -/
  ignored : List String
  deriving DecidableEq, Repr

namespace FileTree

/-- Where a path spells out that it lies. -/
def place (t : FileTree) (p : Path) : Path :=
  p.lexical t.workingDirectory

/-- Whether a text is that of a source. Unlike in a scan, case counts. -/
def isSourceText (extension text : String) : Bool :=
  extension.toList.isSuffixOf text.toList

/-- The library roots: the directories of the sources under test, then those given. -/
def libraryRoots (t : FileTree) (primary : List Path) (libraries : List String) : List String :=
  distinctOn (fun root => t.place (.ofText root))
    (primary.map (fun path => path.parent.text) ++ libraries)

/-- What scans of the roots come across, one after the other. -/
def scanRoots (t : FileTree) (o : ScanOptions) (roots : List String) : List Finding :=
  roots.flatMap fun root => t.scan o (.ofText root)

/-- **Sorting sources by role**, with what is reported on the way. No scan is supposed to break
off. -/
def classify (t : FileTree) (o : ScanOptions) (libraries tests : List String) :
    SourceSet × List Event :=
  let primary := (tests.filter (isSourceText o.extension)).map Path.ofText
  let roots := t.libraryRoots primary libraries
  let found := t.scanRoots o roots
  let supporting := distinctOn t.place (found.filterMap Finding.file?)
  ({ primary
     supporting
     roots
     ignored := tests.filter fun text => !isSourceText o.extension text },
   found.filterMap Finding.event? ++
    [.classified primary.length supporting.length roots.length])

/-- **Sorting sources by role unless a scan breaks off.** Then the root of that scan is all that comes
of it, with what earlier scans have reported. -/
def sortSources (t : FileTree) (o : ScanOptions) (libraries tests : List String) :
    Except Path SourceSet × List Event :=
  let (sources, events) := t.classify o libraries tests
  let found := t.scanRoots o sources.roots
  match found.findSome? Finding.unusable? with
  | none => (.ok sources, events)
  | some root =>
    (.error root, (found.takeWhile (·.unusable?.isNone)).filterMap Finding.event?)

end FileTree

end SchemaAssembly
