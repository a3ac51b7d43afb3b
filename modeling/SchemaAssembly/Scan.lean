import SchemaAssembly.Event
import SchemaAssembly.FileTree.Access
import SchemaAssembly.Text.LowerCase

/-!
# Scanning for sources

A scan lists the schema files in a directory and, if asked to, in the directories below it. Links
are followed, and a directory that is reached again, under whatever path, is skipped. A directory's
files come before those of its subdirectories, and names are taken in ascending order.

- `scan` walks with a stack of directories still to visit; it stops because it lists no directory
  twice.
- What it comes across are `Finding`s: files, and what could not be read.
- A root that the system cannot be asked for breaks the scan off. Only a root can be like that; what
  a scan goes on to are entries that the system has listed.
-/

namespace SchemaAssembly

/-- The extension that schema files have unless something else is said. -/
def schemaExtension : String := ".yang"

/-- How to scan. -/
structure ScanOptions where
  /-- whether subdirectories are visited -/
  recursive : Bool := false
  /-- the extension that is looked for, in either case -/
  extension : String := schemaExtension
  /-- how deep to descend; a negative depth counts as zero, none means without a limit -/
  maxDepth : Option Int := none
  deriving DecidableEq, Repr

/-- What a scan comes across. -/
inductive Finding where
  /-- a schema file -/
  | file (path : Path)
  /-- a directory that cannot be listed -/
  | unreadableDirectory (path : Path) (fault : Fault)
  /-- an entry that cannot be looked at -/
  | unreadableEntry (path : Path) (fault : Fault)
  /-- a root with which the scan breaks off -/
  | unusableRoot (path : Path)
  deriving DecidableEq, Repr

namespace Finding

/-- The path of a file found. -/
def file? : Finding → Option Path
  | file path => some path
  | _ => none

/-- What is reported about a finding: files are not, nor is what breaks a scan off. -/
def event? : Finding → Option Event
  | file _ => none
  | unreadableDirectory path fault => some (.skippedDirectory path fault)
  | unreadableEntry path fault => some (.skippedEntry path fault)
  | unusableRoot _ => none

/-- The root with which a scan breaks off. -/
def unusable? : Finding → Option Path
  | unusableRoot path => some path
  | _ => none

end Finding

/-- **Schema file names**: those that end in the extension when case is left aside. -/
def isSchemaName (extension name : String) : Bool :=
  (Text.lower extension).toList.isSuffixOf (Text.lower name).toList

/-- How deep a scan descends: not at all unless it is recursive. -/
def ScanOptions.limit (o : ScanOptions) : Option Nat :=
  if o.recursive then o.maxDepth.map Int.toNat else some 0

/-- Whether the subdirectories of a directory at this depth are visited. -/
def ScanOptions.descends (o : ScanOptions) (depth : Nat) : Bool :=
  match o.limit with
  | some limit => depth < limit
  | none => true

namespace FileTree

/-- What a scan makes of one entry of a directory: a finding, a directory to visit, or nothing. -/
inductive Entry where
  /-- something found -/
  | found (finding : Finding)
  /-- a subdirectory -/
  | subdirectory (path : Path)
  /-- neither a directory nor a schema file -/
  | other
  deriving DecidableEq

/-- Looks at an entry. What does not exist, or leads nowhere, is passed over. -/
def entryAt (t : FileTree) (extension : String) (p : Path) : Entry :=
  match t.nodeAt p with
  | .ok .directory => .subdirectory p
  | .ok (.file _) => if isSchemaName extension p.name then .found (.file p) else .other
  | .ok (.link _) => .other
  | .error .nameTooLong => .found (.unreadableEntry p .nameTooLong)
  | .error _ => .other

/-- The entries of a directory at a location, under the path by which it was reached. -/
def entriesAt (t : FileTree) (extension : String) (loc : Location) (dir : Path) : List Entry :=
  (t.entries loc).map fun name => t.entryAt extension (dir.child name)

/-- The findings among entries. -/
def findings (entries : List Entry) : List Finding :=
  entries.filterMap fun
    | .found finding => some finding
    | _ => none

/-- The subdirectories among entries. -/
def subdirectories (entries : List Entry) : List Path :=
  entries.filterMap fun
    | .subdirectory path => some path
    | _ => none

/-- The directories that have not been visited. -/
def unvisited (t : FileTree) (visited : List Location) : List Location :=
  t.directories.filter (· ∉ visited)

/-- Visiting a directory for the first time leaves fewer unvisited. -/
theorem length_unvisited_cons_lt {t : FileTree} {visited : List Location} {loc : Location}
    (hdir : loc ∈ t.directories) (hnew : loc ∉ visited) :
    (t.unvisited (loc :: visited)).length < (t.unvisited visited).length := by
  have hmem : loc ∈ t.unvisited visited := List.mem_filter.2 ⟨hdir, by simpa using hnew⟩
  have hsub : t.unvisited (loc :: visited) = (t.unvisited visited).filter (· ≠ loc) := by
    simp only [unvisited, List.filter_filter]
    refine List.filter_congr fun a _ => ?_
    simp [not_or]
  rw [hsub]
  exact List.length_filter_lt_length_iff_exists.2 ⟨loc, hmem, by simp⟩

/-- Visits the directories of a stack, each with its depth. -/
def scanStack (t : FileTree) (o : ScanOptions) (visited : List Location) :
    (stack : List (Path × Nat)) → List Finding
  | [] => []
  | (dir, depth) :: rest =>
    match t.directoryAt dir with
    | .error fault => .unreadableDirectory dir fault :: t.scanStack o visited rest
    | .ok ⟨loc, _hdir⟩ =>
      if _hvisited : loc ∈ visited then t.scanStack o visited rest
      else
        let entries := t.entriesAt o.extension loc dir
        let below := if o.descends depth then subdirectories entries else []
        findings entries ++
          t.scanStack o (loc :: visited) (below.map (fun path => (path, depth + 1)) ++ rest)
termination_by stack => ((t.unvisited visited).length, stack.length)
decreasing_by
  · exact Prod.Lex.right _ (by simp)
  · exact Prod.Lex.right _ (by simp)
  · exact Prod.Lex.left _ _ (length_unvisited_cons_lt _hdir _hvisited)

/-- **Scanning** from a root. If the system cannot be asked for the root, the scan breaks off with
it. -/
def scan (t : FileTree) (o : ScanOptions) (root : Path) : List Finding :=
  if root.isUsable then t.scanStack o [] [(root, 0)] else [.unusableRoot root]

/-- The files that a scan finds, in order. -/
def sourcesBelow (t : FileTree) (o : ScanOptions) (root : Path) : List Path :=
  (t.scan o root).filterMap Finding.file?

end FileTree

end SchemaAssembly
