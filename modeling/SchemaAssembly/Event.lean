import SchemaAssembly.FileTree.Fault
import SchemaAssembly.Path

/-!
# Events

What the stages of an assembly report about their progress. An event is its cause; the line it is
logged as names its severity, the stage it comes from and the cause in words.

- `Event.log` are the lines of the events that are severe enough.
-/

namespace SchemaAssembly

/-- How important an event is. -/
inductive Severity where
  /-- of interest only when something is looked into -/
  | debug
  /-- progress -/
  | info
  /-- something the user should know -/
  | warning
  deriving DecidableEq, Repr

namespace Severity

/-- Severities as numbers: the more severe, the greater. -/
def rank : Severity → Nat
  | debug => 0
  | info => 1
  | warning => 2

/-- The severity as a log line shows it. -/
def text : Severity → String
  | debug => "DEBUG"
  | info => "INFO"
  | warning => "WARNING"

end Severity

/-- Something a stage of an assembly reports. -/
inductive Event where
  /-- a directory cannot be listed -/
  | skippedDirectory (path : Path) (fault : Fault)
  /-- what a directory lists cannot be looked at -/
  | skippedEntry (path : Path) (fault : Fault)
  /-- sources have been sorted by role -/
  | classified (primary supporting roots : Nat)
  /-- a file under test does not have the extension of a source -/
  | ignored (path extension : String)
  /-- a supporting source declares the name of a tested one -/
  | shadowed (path : Path) (name : String)
  /-- an engine parses a source -/
  | parsing (path : Path) (name : String)
  /-- an engine has built a model -/
  | built (units : Nat)
  /-- a tested source has no unit in the model -/
  | unmatched (name : String)
  deriving DecidableEq, Repr

namespace Event

/-- How important the event is. -/
def severity : Event → Severity
  | ignored .. | unmatched .. => .warning
  | built .. => .info
  | _ => .debug

/-- The stage that reports the event. -/
def stage : Event → String
  | skippedDirectory .. | skippedEntry .. => "scanner.discovery"
  | classified .. => "scanner.classifier"
  | ignored .. | shadowed .. | built .. => "assembler.builder"
  | parsing .. => "assembler.pyang_engine"
  | unmatched .. => "assembler.selector"

/-- The event in words. -/
def message : Event → String
  | skippedDirectory path fault =>
    "Skipping unreadable directory " ++ path.text ++ ": " ++ fault.message path.text
  | skippedEntry path fault =>
    "Skipping unreadable entry " ++ path.text ++ ": " ++ fault.message path.text
  | classified primary supporting roots =>
    "Classified " ++ toString primary ++ " primary and " ++ toString supporting ++
      " supporting sources from " ++ toString roots ++ " roots"
  | ignored path extension => "Ignoring '" ++ path ++ "': not a " ++ extension ++ " file"
  | shadowed path name =>
    "Skipping " ++ path.text ++ ": module '" ++ name ++ "' is supplied by a tested source"
  | parsing path name => "Parsing " ++ path.text ++ " (" ++ name ++ ")"
  | built units => "Built schema model with " ++ toString units ++ " units"
  | unmatched name => "No resolved unit for tested source '" ++ name ++ "'"

/-- The line the event is logged as. -/
def line (e : Event) : String :=
  e.severity.text ++ " " ++ e.stage ++ ": " ++ e.message

/-- **The log**: the lines of the events that are at least as severe as asked for. -/
def log (least : Severity) (events : List Event) : List String :=
  (events.filter fun e => least.rank ≤ e.severity.rank).map line

/-- The log of events that come one after the other. -/
theorem log_append (least : Severity) (before after : List Event) :
    log least (before ++ after) = log least before ++ log least after := by
  simp [log]

/-- Only warnings are as severe as a warning. -/
theorem warning_rank_le_iff {severity : Severity} :
    Severity.warning.rank ≤ severity.rank ↔ severity = .warning := by
  cases severity <;> decide

/-- Events of which none is a warning leave no warning. -/
theorem log_warning_eq_nil {events : List Event} (h : ∀ e ∈ events, e.severity ≠ .warning) :
    log .warning events = [] := by
  rw [log, List.map_eq_nil_iff, List.filter_eq_nil_iff]
  intro e he
  rw [decide_eq_true_eq, warning_rank_le_iff]
  exact h e he

/-- Of warnings each leaves a line. -/
theorem log_warning_eq_map {events : List Event} (h : ∀ e ∈ events, e.severity = .warning) :
    log .warning events = events.map line := by
  rw [log, List.filter_eq_self.2 fun e he => decide_eq_true (warning_rank_le_iff.2 (h e he))]

/-- The warnings about files under test that are passed over. -/
theorem log_ignored (paths : List String) (extension : String) :
    log .warning (paths.map fun path => .ignored path extension) =
      paths.map fun path => (ignored path extension).line := by
  rw [log_warning_eq_map (List.forall_mem_map.2 fun _ _ => rfl), List.map_map]
  rfl

/-- The warnings about names without a unit. -/
theorem log_unmatched (names : List String) :
    log .warning (names.map .unmatched) = names.map fun name => (unmatched name).line := by
  rw [log_warning_eq_map (List.forall_mem_map.2 fun _ _ => rfl), List.map_map]
  rfl

/-- That a model was built is no warning. -/
theorem log_built (units : Nat) : log .warning [built units] = [] :=
  rfl

end Event

end SchemaAssembly
