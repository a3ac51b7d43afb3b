import SchemaAssembly.FileTree.Resolve

/-!
# Using paths

Reading, listing and writing through paths. Writing is the one operation that changes a tree, and it
changes it at the location the path leads to and nowhere else.
-/

namespace SchemaAssembly.FileTree

/-- What a path leads to. -/
def nodeAt (t : FileTree) (p : Path) : Except Fault Node := do
  let loc ← t.resolve p
  match t.node? loc with
  | some node => .ok node
  | none => .error .notFound

/-- The location of a directory, with the fact that it is one. -/
def directoryAt (t : FileTree) (p : Path) :
    Except Fault { loc : Location // loc ∈ t.directories } :=
  match t.resolve p with
  | .error fault => .error fault
  | .ok loc => if h : loc ∈ t.directories then .ok ⟨loc, h⟩ else .error .notDirectory

/-- **Reading** a file's bytes. -/
def read (t : FileTree) (p : Path) : Except Fault (List UInt8) := do
  match ← t.nodeAt p with
  | .file bytes => .ok bytes
  | .directory => .error .isDirectory
  | .link _ => .error .tooManyLinks

/-- **Writing** bytes to a file, which is made if it does not exist. Writing fails, if it does, before
the file is opened: that space runs out once it has been emptied is left out. -/
def write (t : FileTree) (p : Path) (bytes : List UInt8) : Except Fault FileTree := do
  let loc ← t.resolveForWriting p
  if t.node? loc = some .directory then .error .isDirectory else .ok (t.put loc (.file bytes))

/-- Puts a node at a path, with the directories on the way that do not exist. A file is put where
the path leads to, a directory or link where the path stands. -/
def install (t : FileTree) (p : Path) (node : Node) : FileTree :=
  let parentLoc := t.realPath p.parent
  let t := ((List.range (parentLoc.length + 1)).map fun n => parentLoc.take n).foldl
    (fun t loc => if (t.node? loc).isNone then t.put loc .directory else t) t
  match node with
  | .file _ => t.put (t.realPath p) node
  | _ => t.put (parentLoc ++ [p.name]) node

/-- Takes away what stands at a path, and all below it. A link is taken away itself. -/
def uninstall (t : FileTree) (p : Path) : FileTree :=
  t.remove (t.realPath p.parent ++ [p.name])

/-- What a path leads to is not asked for if the system cannot be asked for the path. -/
theorem nodeAt_eq_unusable_iff {t : FileTree} {p : Path} :
    t.nodeAt p = .error .unusable ↔ p.isUsable = false := by
  rw [← @resolveAs_eq_unusable_iff t false, ← resolve, nodeAt]
  cases t.resolve p with
  | error fault => simp [bind, Except.bind]
  | ok loc => cases hnode : t.node? loc <;> simp [bind, Except.bind, hnode]

/-- Nor are its bytes. -/
theorem read_eq_unusable_iff {t : FileTree} {p : Path} :
    t.read p = .error .unusable ↔ p.isUsable = false := by
  rw [← @nodeAt_eq_unusable_iff t, read]
  cases t.nodeAt p with
  | error fault => simp [bind, Except.bind]
  | ok node => cases node <;> simp [bind, Except.bind]

/-- Reading gives some bytes exactly if the path leads to a file that holds them. -/
theorem read_eq_ok_iff {t : FileTree} {p : Path} {bytes : List UInt8} :
    t.read p = .ok bytes ↔ ∃ loc, t.resolve p = .ok loc ∧ t.node? loc = some (.file bytes) := by
  simp only [read, nodeAt]
  cases hres : t.resolve p with
  | error fault => simp [bind, Except.bind]
  | ok loc =>
    cases hnode : t.node? loc with
    | none => simp [bind, Except.bind, hnode]
    | some node => cases node <;> simp [bind, Except.bind, hnode]

end SchemaAssembly.FileTree
