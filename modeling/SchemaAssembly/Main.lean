import SchemaAssembly.CommandLine.Run
import SchemaAssembly.Yang.Session

/-!
# The program

The outermost layer: what a command line needs of the file system is read into a file tree, the
command line is run on that tree, and what it says is printed or written. -/

namespace SchemaAssembly

/-- A file tree that is being read, and the directories that have been listed. -/
structure Gathering where
  /-- what has been read -/
  tree : FileTree
  /-- the directories that have been listed -/
  listed : List Location := []

/-- Adds what lies at an absolute path, and what links there lead to. A directory is listed if
`lists` is set, and those below it if `deep` is. What cannot be looked at is left out. -/
partial def gather (deep lists : Bool) (g : Gathering) (text : String) : IO Gathering := do
  let location := (Path.ofText text).names
  let path := (← IO.currentDir) / text
  try
    match (← path.symlinkMetadata).type with
    | .dir =>
      let tree := g.tree.put location .directory
      if !lists || g.listed.contains location then return { g with tree }
      (← path.readDir).foldlM (fun g entry => gather deep deep g entry.path.toString)
        { tree, listed := location :: g.listed }
    | .file =>
      return { g with tree := g.tree.put location (.file (← IO.FS.readBinFile path).toList) }
    | .symlink =>
      let target := (← IO.FS.realPath path).toString
      gather deep lists { g with tree := g.tree.put location (.link target) } target
    | .other => return g
  catch _ => return g

/-- A tree with the directories on the way to its nodes. -/
def withParents (t : FileTree) : FileTree :=
  t.nodes.foldl (fun built (location, node) => built.install ⟨.root, location⟩ node)
    ⟨[], t.workingDirectory⟩

/-- The file tree as far as it can be reached at some paths. -/
def snapshot (deep : Bool) (paths : List Path) : IO FileTree := do
  let start : FileTree := ⟨[], (Path.ofText (← IO.currentDir).toString).names⟩
  let gathered ← paths.foldlM (fun g path => gather deep true g (start.place path).text) ⟨start, []⟩
  return (withParents gathered.tree).install ⟨.root, start.workingDirectory⟩ .directory

/-- The paths that a command line needs besides its settings file: library roots and the directories
of files under test and of the output. -/
def neededPaths (o : Options) (s : Settings) : List Path :=
  let output := o.output.bind (·.given?)
  s.libraries.map .ofText ++ (s.tests ++ output.toList).map fun file => (Path.ofText file).parent

/-- Runs what a command line says on the file system, and gives the exit code. -/
def runOnFileSystem (o : Options) : IO UInt32 := do
  let configuration := (o.config.bind (·.given?)).toList.map Path.ofText
  let (deep, paths) := match o.settings Yaml.load (← snapshot false configuration) with
    | .ok s => (s.recursive, neededPaths o s)
    | .error _ => (false, [])
  match o.run Yaml.load yangEngine (← snapshot deep (configuration ++ paths)) with
  | .error breakdown =>
    IO.eprintln breakdown.message
    return 1
  | .ok response =>
    IO.print response.stdout
    IO.eprint response.stderr
    if response.exitCode = 0 then
      if let some file := o.output.bind (·.given?) then
        if let .ok bytes := response.tree.read (.ofText file) then
          IO.FS.writeBinFile file ⟨bytes.toArray⟩
    return response.exitCode.toUInt32

/-- How the program is used. -/
def usage : String :=
  let options := CommandOption.all.map fun o => "[" ++ "|".intercalate o.spellings ++ "]"
  "usage: " ++ programName ++ " " ++ " ".intercalate options ++ " [FILE ...]"

end SchemaAssembly

open SchemaAssembly in
/-- The program. -/
def main (arguments : List String) : IO UInt32 := do
  match Options.ofArguments arguments with
  | .ok o => runOnFileSystem o
  | .error .help =>
    IO.println usage
    return 0
  | .error (.usage e) =>
    IO.eprintln usage
    IO.eprintln e.message
    return 2
