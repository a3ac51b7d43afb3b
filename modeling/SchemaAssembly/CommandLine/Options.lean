import SchemaAssembly.Text.Quoted

/-!
# Options

The options of the command line: how each is spelled, what it takes, and what it means. `Options` is
what a command line says once it has been read.

- `Options.apply` is the effect of one option.
-/

namespace SchemaAssembly

/-- The name of the program in its own messages. -/
def programName : String := "yangassemble"

/-- An option. -/
inductive CommandOption where
  /-- show how the program is used -/
  | help
  /-- a library directory -/
  | path
  /-- search library directories recursively -/
  | recursive
  /-- the supported features -/
  | features
  /-- parse and validate every library file -/
  | parseAll
  /-- a settings file -/
  | config
  /-- fail on files under test without the extension -/
  | strictExtensions
  /-- fail if a tested source has no unit -/
  | requireTested
  /-- the file to write to -/
  | output
  /-- the kind of report -/
  | format
  /-- the style of a tree report -/
  | asciiStyle
  /-- the direction of a flowchart -/
  | orientation
  /-- group the nodes of a flowchart -/
  | groupByRole
  /-- start a tree at every unit -/
  | showAll
  /-- report progress -/
  | verbose
  deriving DecidableEq, Repr

namespace CommandOption

/-- How many arguments an option takes. -/
inductive Arity where
  /-- none -/
  | none
  /-- exactly one -/
  | one
  /-- one or more -/
  | many
  deriving DecidableEq, Repr

/-- All options, in the order in which they are shown. -/
def all : List CommandOption :=
  [help, path, recursive, features, parseAll, config, strictExtensions, requireTested, output,
    format, asciiStyle, orientation, groupByRole, showAll, verbose]

/-- The spellings of an option, short ones first. -/
def spellings : CommandOption → List String
  | help => ["-h", "--help"]
  | path => ["-p", "--path"]
  | recursive => ["-r", "--recursive"]
  | features => ["-F", "--features"]
  | parseAll => ["-a", "--parse-all"]
  | config => ["-c", "--config"]
  | strictExtensions => ["--strict-extensions"]
  | requireTested => ["--require-tested"]
  | output => ["-o", "--output"]
  | format => ["-f", "--format"]
  | asciiStyle => ["--ascii-style"]
  | orientation => ["--orientation"]
  | groupByRole => ["--group-by-role"]
  | showAll => ["--show-all"]
  | verbose => ["-v", "--verbose"]

/-- How many arguments the option takes. -/
def arity : CommandOption → Arity
  | path | config | output | format | asciiStyle | orientation => .one
  | features => .many
  | _ => .none

/-- The values the option may have, if not every text. -/
def choices : CommandOption → Option (List String)
  | format => some ["ascii", "mermaid", "json"]
  | asciiStyle => some ["tree", "ascii"]
  | orientation => some ["LR", "TD", "TB", "RL", "BT"]
  | _ => none

/-- The option as a message names it. -/
def title (o : CommandOption) : String :=
  "/".intercalate o.spellings

/-- Every spelling with its option. -/
def table : List (String × CommandOption) :=
  all.flatMap fun o => o.spellings.map fun spelling => (spelling, o)

/-- The option of a spelling. -/
def ofSpelling? (spelling : String) : Option CommandOption :=
  (table.find? (·.1 = spelling)).map (·.2)

end CommandOption

/-- What is wrong with a command line. -/
inductive UsageError where
  /-- a shortened option could be more than one -/
  | ambiguous (written : String) (candidates : List String)
  /-- the one argument of an option is missing -/
  | expectedOne (o : CommandOption)
  /-- an option that takes arguments has none -/
  | expectedSome (o : CommandOption)
  /-- an option that takes no argument has one -/
  | ignoredArgument (o : CommandOption) (argument : String)
  /-- the argument is not one of those allowed -/
  | invalidChoice (o : CommandOption) (argument : String) (choices : List String)
  /-- arguments are left over -/
  | unrecognized (arguments : List String)
  deriving DecidableEq, Repr

namespace UsageError

/-- The error in words. -/
def text : UsageError → String
  | ambiguous written candidates =>
    "ambiguous option: " ++ written ++ " could match " ++ ", ".intercalate candidates
  | expectedOne o => "argument " ++ o.title ++ ": expected one argument"
  | expectedSome o => "argument " ++ o.title ++ ": expected at least one argument"
  | ignoredArgument o argument =>
    "argument " ++ o.title ++ ": ignored explicit argument " ++ Text.quoted argument
  | invalidChoice o argument choices =>
    "argument " ++ o.title ++ ": invalid choice: " ++ Text.quoted argument ++ " (choose from " ++
      ", ".intercalate (choices.map Text.quoted) ++ ")"
  | unrecognized arguments => "unrecognized arguments: " ++ " ".intercalate arguments

/-- The error as the program reports it. -/
def message (e : UsageError) : String :=
  programName ++ ": error: " ++ e.text

end UsageError

/-- Why a command line is not run. -/
inductive Refusal where
  /-- it asks how the program is used -/
  | help
  /-- it is not right -/
  | usage (e : UsageError)
  deriving DecidableEq, Repr

/-- The one argument that an option is given. -/
inductive Argument where
  /-- a text -/
  | text (text : String)
  /-- nothing: two dashes are no argument, even if they are attached to the option -/
  | nothing
  deriving DecidableEq, Repr

namespace Argument

/-- The argument that is left of those an option takes. -/
def ofList : List String → Argument
  | [] => nothing
  | argument :: _ => text argument

/-- The text, unless there is none or it is empty. -/
def given? : Argument → Option String
  | text argument => if argument = "" then none else some argument
  | nothing => none

/-- The argument as it is printed. -/
def printed : Argument → String
  | text argument => argument
  | nothing => "[]"

end Argument

/-- What a command line says. -/
structure Options where
  /-- files under test -/
  files : List String := []
  /-- library directories -/
  path : List Argument := []
  /-- whether library directories are searched recursively -/
  recursive : Bool := false
  /-- identifiers of the supported features -/
  features : List String := []
  /-- whether every library file is parsed and validated -/
  parseAll : Bool := false
  /-- the settings file -/
  config : Option Argument := none
  /-- whether files under test must have the extension -/
  strictExtensions : Bool := false
  /-- whether every tested source must have a unit -/
  requireTested : Bool := false
  /-- the file to write to -/
  output : Option Argument := none
  /-- the kind of report -/
  format : Argument := .text "ascii"
  /-- the style of a tree report -/
  asciiStyle : Argument := .text "tree"
  /-- the direction of a flowchart -/
  orientation : Argument := .text "LR"
  /-- whether the nodes of a flowchart are grouped -/
  groupByRole : Bool := false
  /-- whether a tree starts at every unit -/
  showAll : Bool := false
  /-- how much progress is reported -/
  verbose : Nat := 0
  deriving DecidableEq, Repr

namespace Options

/-- An argument that is not among the values an option may have. -/
def badChoice? (o : CommandOption) (arguments : List String) : Option UsageError :=
  o.choices.bind fun choices =>
    (arguments.find? (!choices.contains ·)).map fun argument =>
      .invalidChoice o argument choices

/-- **The effect of an option** with its arguments, the first two dashes among them apart. -/
def apply (s : Options) (o : CommandOption) (arguments : List String) : Except Refusal Options :=
  let arguments := arguments.erase "--"
  match badChoice? o arguments with
  | some e => .error (.usage e)
  | none =>
    let argument := Argument.ofList arguments
    match o with
    | .help => .error .help
    | .path => .ok { s with path := s.path ++ [argument] }
    | .recursive => .ok { s with recursive := true }
    | .features => .ok { s with features := arguments }
    | .parseAll => .ok { s with parseAll := true }
    | .config => .ok { s with config := some argument }
    | .strictExtensions => .ok { s with strictExtensions := true }
    | .requireTested => .ok { s with requireTested := true }
    | .output => .ok { s with output := some argument }
    | .format => .ok { s with format := argument }
    | .asciiStyle => .ok { s with asciiStyle := argument }
    | .orientation => .ok { s with orientation := argument }
    | .groupByRole => .ok { s with groupByRole := true }
    | .showAll => .ok { s with showAll := true }
    | .verbose => .ok { s with verbose := s.verbose + 1 }

end Options

end SchemaAssembly
