import SchemaAssembly.FileTree.Fault
import SchemaAssembly.Path
import SchemaAssembly.Text.Order

/-!
# Failures

Why an assembly gives no result. Directories that cannot be scanned are no failures: they are
reported as events and passed over. A path that the system cannot be asked for is one, but unlike all
others it is not foreseen, and nothing that runs an assembly is prepared for it.
-/

namespace SchemaAssembly

/-- What the messages of an engine are introduced with. -/
def unbuildableSummary : String := "schema model could not be built"

/-- Why an assembly fails. -/
inductive Failure where
  /-- a file under test does not have the extension of a source -/
  | notASource (path : String)
  /-- the text of a source cannot be had -/
  | unreadable (path : Path) (reason : String)
  /-- the engine reports errors -/
  | unbuildable (messages : List String) (summary : String := unbuildableSummary)
  /-- tested sources have no unit in the model -/
  | unmatched (names : List String)
  /-- the system cannot be asked for a path -/
  | unusable (path : Path)
  deriving DecidableEq, Repr

namespace Failure

/-- The failure for names without a unit, which it lists in order. -/
def ofUnmatched (names : List String) : Failure :=
  unmatched (sortTexts names)

/-- **The failure in words.** Each message of an engine has a line of its own. -/
def message : Failure → String
  | notASource path => "'" ++ path ++ "' is not a schema source file"
  | unreadable path reason => "cannot read '" ++ path.text ++ "': " ++ reason
  | unbuildable messages summary =>
    if messages.isEmpty then summary else summary ++ ":\n  " ++ "\n  ".intercalate messages
  | unmatched names => "no resolved unit for tested source(s): " ++ ", ".intercalate names
  | unusable path => Fault.unusable.message path.text

end Failure

end SchemaAssembly
