import SchemaAssembly.Settings.Check
import SchemaAssembly.Text.Order

/-!
# Overlaying settings

Settings with others laid over them: lists are extended, and a flag is on if it is on on either
side. What comes out is checked again as a whole. -/

namespace SchemaAssembly

/-- What is laid over settings. -/
structure Overlay where
  /-- more library roots -/
  libraries : List Value := []
  /-- more files under test -/
  tests : List Value := []
  /-- more features -/
  features : List Value := []
  /-- flags by their names -/
  flags : List (String × Bool) := []

/-- Why settings cannot be laid over others. -/
inductive OverlayFailure where
  /-- no flags have these names -/
  | unknownFlags (names : List String)
  /-- the settings that come out are not right -/
  | invalid (complaints : List Complaint)
  deriving DecidableEq, Repr

namespace Settings

/-- The names of the flags. -/
def flagNames : List String :=
  ["recursive", "use_all_files", "strict_extensions", "require_tested_match"]

/-- A flag with what an overlay says about it. -/
def overlaidFlag (o : Overlay) (name : String) (value : Bool) : Bool :=
  value || o.flags.any fun (flag, on) => flag = name && on

/-- The value that comes out when settings are overlaid. -/
def overlaid (s : Settings) (o : Overlay) : Value :=
  .map
    [(.text "lib_dirs", .list (s.libraries.map .text ++ o.libraries)),
     (.text "test_files", .list (s.tests.map .text ++ o.tests)),
     (.text "features", .list (s.features.map .text ++ o.features)),
     (.text "recursive", .bool (overlaidFlag o "recursive" s.recursive)),
     (.text "use_all_files", .bool (overlaidFlag o "use_all_files" s.useAllFiles)),
     (.text "strict_extensions", .bool (overlaidFlag o "strict_extensions" s.strictExtensions)),
     (.text "require_tested_match",
       .bool (overlaidFlag o "require_tested_match" s.requireTestedMatch))]

/-- **Overlaying** settings. -/
def merged (s : Settings) (o : Overlay) : Except OverlayFailure Settings :=
  match sortedSet ((o.flags.map (·.1)).filter (· ∉ flagNames)) with
  | [] => (check none (s.overlaid o)).mapError .invalid
  | names => .error (.unknownFlags names)

end Settings

/-- The failure that unknown flags are, in words. -/
def OverlayFailure.unknownFlagsMessage (names : List String) : String :=
  "unknown flag(s): " ++ ", ".intercalate names

end SchemaAssembly
