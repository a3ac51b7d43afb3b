import SchemaAssembly.Yang.Problem

/-!
# Grammar

Which statements may stand in which, how often, and with what kind of argument. The body of a module
has stages: once a statement of a later stage has come, those of earlier stages may not stand any
more. Some statements are allowed only since version 1.1 of the language. Statements of extensions
may stand anywhere, and anything may stand in them.

- `Statement.checked` checks a whole text.
-/

namespace SchemaAssembly.Yang

/-- How often a statement may stand in another. -/
inductive Count where
  /-- exactly once -/
  | one
  /-- at most once -/
  | optional
  /-- any number of times -/
  | many
  deriving DecidableEq, Repr

/-- A place for statements with a keyword. -/
structure Slot where
  /-- the keyword -/
  keyword : String
  /-- how often -/
  count : Count
  /-- whether there is such a place only since version 1.1 -/
  isRecent : Bool := false
  deriving DecidableEq, Repr

namespace Slot

/-- Places for one statement each. -/
def needed (keywords : List String) : List Slot :=
  keywords.map fun keyword => { keyword, count := .one }

/-- Places for at most one statement each. -/
def allowed (keywords : List String) : List Slot :=
  keywords.map fun keyword => { keyword, count := .optional }

/-- Places for any number of statements. -/
def repeated (keywords : List String) : List Slot :=
  keywords.map fun keyword => { keyword, count := .many }

/-- Places that there are only since version 1.1. -/
def recent (slots : List Slot) : List Slot :=
  slots.map fun slot => { slot with isRecent := true }

/-- Places for what a statement is documented with. -/
def documentation : List Slot :=
  allowed ["description", "reference"]

/-- Places for the conditions of a node. -/
def conditions : List Slot :=
  allowed ["when"] ++ repeated ["if-feature"]

/-- Places for nodes of the data tree. -/
def nodes : List Slot :=
  repeated ["container", "leaf", "leaf-list", "list", "choice", "anyxml"] ++
    recent (repeated ["anydata"]) ++ repeated ["uses"]

/-- Places for types and groupings. -/
def localDefinitions : List Slot :=
  repeated ["typedef", "grouping"]

/-- Places for operations below the outermost level. -/
def operations : List Slot :=
  recent (repeated ["action", "notification"])

/-- Places for the numbers of entries that a list may have. -/
def sizes : List Slot :=
  allowed ["min-elements", "max-elements", "ordered-by"]

/-- Places for what is said when something is violated. -/
def violation : List Slot :=
  allowed ["error-message", "error-app-tag"]

/-- A place that a statement has taken, as far as it is left. -/
def left (s : Slot) : List Slot :=
  if s.count = .many then [s] else []

/-- Whether a place is for a keyword. -/
def isFor (isRecent : Bool) (keyword : String) (s : Slot) : Bool :=
  s.keyword = keyword && (isRecent || !s.isRecent)

/-- Takes a place for a keyword and gives those that are left. -/
def take? (isRecent : Bool) (keyword : String) : List Slot → Option (List Slot)
  | [] => none
  | s :: rest =>
    if s.isFor isRecent keyword then some (s.left ++ rest)
    else (take? isRecent keyword rest).map (s :: ·)

end Slot

/-- What a body may hold. -/
inductive Rule where
  /-- statements with a keyword -/
  | slot (slot : Slot)
  /-- nothing that stands before, as soon as something has come that stands behind -/
  | stageEnd
  /-- one of some lists of places -/
  | choice (alternatives : List (List Slot))
  /-- any statement -/
  | anything

namespace Rule

/-- The places without any order. -/
def ofSlots (slots : List Slot) : List Rule :=
  slots.map slot

open Slot in
/-- The stages that a module and a submodule have in common. -/
def moduleStages : List Rule :=
  stageEnd :: ofSlots (repeated ["import", "include"]) ++
  stageEnd :: ofSlots (allowed ["organization", "contact"] ++ documentation) ++
  stageEnd :: ofSlots (repeated ["revision"]) ++
  stageEnd :: ofSlots (repeated ["extension", "feature", "identity", "typedef", "grouping",
    "augment", "rpc", "notification", "deviation"] ++ nodes)

open Slot in
/-- The restrictions that the types have. -/
def restrictions : List (List Slot) :=
  [allowed ["fraction-digits", "range"], allowed ["length"] ++ repeated ["pattern"],
    repeated ["enum"], repeated ["bit"],
    allowed ["path"] ++ recent (allowed ["require-instance"]), repeated ["base"],
    allowed ["require-instance"], repeated ["type"]]

open Slot in
/-- **What the body of a statement may hold.** -/
def bodyOf : (keyword : String) → List Rule
  | "module" =>
    ofSlots (allowed ["yang-version"] ++ needed ["namespace", "prefix"]) ++ moduleStages
  | "submodule" => ofSlots (allowed ["yang-version"] ++ needed ["belongs-to"]) ++ moduleStages
  | "import" => ofSlots (needed ["prefix"] ++ allowed ["revision-date"] ++ recent documentation)
  | "include" => ofSlots (allowed ["revision-date"] ++ recent documentation)
  | "belongs-to" => ofSlots (needed ["prefix"])
  | "revision" | "when" => ofSlots documentation
  | "extension" => ofSlots (allowed ["argument", "status"] ++ documentation)
  | "argument" => ofSlots (allowed ["yin-element"])
  | "identity" =>
    ofSlots (recent (repeated ["if-feature"]) ++ repeated ["base"] ++ allowed ["status"] ++
      documentation)
  | "feature" => ofSlots (repeated ["if-feature"] ++ allowed ["status"] ++ documentation)
  | "typedef" =>
    ofSlots (needed ["type"] ++ allowed ["units", "default", "status"] ++ documentation)
  | "type" => [choice restrictions]
  | "range" | "length" | "must" => ofSlots (violation ++ documentation)
  | "pattern" => ofSlots (recent (allowed ["modifier"]) ++ violation ++ documentation)
  | "enum" =>
    ofSlots (recent (repeated ["if-feature"]) ++ allowed ["value", "status"] ++ documentation)
  | "bit" =>
    ofSlots (recent (repeated ["if-feature"]) ++ allowed ["position", "status"] ++ documentation)
  | "grouping" =>
    ofSlots (allowed ["status"] ++ documentation ++ localDefinitions ++ nodes ++ operations)
  | "container" =>
    ofSlots (conditions ++ repeated ["must"] ++ allowed ["presence", "config", "status"] ++
      documentation ++ localDefinitions ++ nodes ++ operations)
  | "leaf" =>
    ofSlots (conditions ++ needed ["type"] ++ allowed ["units"] ++ repeated ["must"] ++
      allowed ["default", "config", "mandatory", "status"] ++ documentation)
  | "leaf-list" =>
    ofSlots (conditions ++ needed ["type"] ++ allowed ["units"] ++ repeated ["must"] ++
      recent (repeated ["default"]) ++ allowed ["config"] ++ sizes ++ allowed ["status"] ++
      documentation)
  | "list" =>
    ofSlots (conditions ++ repeated ["must"] ++ allowed ["key"] ++ repeated ["unique"] ++
      allowed ["config"] ++ sizes ++ allowed ["status"] ++ documentation ++
      localDefinitions ++ nodes ++ operations)
  | "choice" =>
    ofSlots (conditions ++ allowed ["default", "config", "mandatory", "status"] ++
      documentation ++ repeated ["container", "leaf", "leaf-list", "list", "anyxml", "case"] ++
      recent (repeated ["anydata", "choice"]))
  | "case" => ofSlots (conditions ++ allowed ["status"] ++ documentation ++ nodes)
  | "anyxml" | "anydata" =>
    ofSlots (conditions ++ repeated ["must"] ++ allowed ["config", "mandatory", "status"] ++
      documentation)
  | "uses" =>
    ofSlots (conditions ++ allowed ["status"] ++ documentation ++ repeated ["refine", "augment"])
  | "refine" =>
    ofSlots (recent (repeated ["if-feature"]) ++ repeated ["must"] ++
      allowed ["presence", "default"] ++ recent (repeated ["default"]) ++
      allowed ["config", "mandatory", "min-elements", "max-elements"] ++ documentation)
  | "augment" =>
    ofSlots (conditions ++ allowed ["status"] ++ documentation ++ repeated ["case"] ++ nodes ++
      operations)
  | "rpc" | "action" =>
    ofSlots (repeated ["if-feature"] ++ allowed ["status"] ++ documentation ++ localDefinitions ++
      allowed ["input", "output"])
  | "input" | "output" => ofSlots (recent (repeated ["must"]) ++ localDefinitions ++ nodes)
  | "notification" =>
    ofSlots (repeated ["if-feature"] ++ recent (repeated ["must"]) ++ allowed ["status"] ++
      documentation ++ localDefinitions ++ nodes)
  | "deviation" => ofSlots (documentation ++ repeated ["deviate"])
  | "deviate" =>
    ofSlots (allowed ["type", "units"] ++ repeated ["must", "unique"] ++ allowed ["default"] ++
      recent (repeated ["default"]) ++
      allowed ["config", "mandatory", "min-elements", "max-elements"])
  | _ => []

/-- The keywords that are still missing. -/
def missing (rules : List Rule) : List String :=
  rules.filterMap fun rule =>
    match rule with
    | slot s => if s.count = .one then some s.keyword else none
    | _ => none

/-- Takes a place for a keyword, given the rules passed over since the last stage. The answer is
what is missing in the stages passed over, and the rules that are left if there is a place. -/
def take (isRecent : Bool) (keyword : String) (passed : List Rule) :
    List Rule → List String × Option (List Rule)
  | [] => ([], none)
  | anything :: rest => ([], some (passed ++ anything :: rest))
  | slot s :: rest =>
    if s.isFor isRecent keyword then ([], some (passed ++ ofSlots s.left ++ rest))
    else take isRecent keyword (passed ++ [slot s]) rest
  | choice alternatives :: rest =>
    match alternatives.findSome? (Slot.take? isRecent keyword) with
    | some left => ([], some (passed ++ ofSlots left ++ rest))
    | none => take isRecent keyword (passed ++ [choice alternatives]) rest
  | stageEnd :: rest =>
    let (skipped, left) := take isRecent keyword [] rest
    (missing passed ++ skipped, left)

end Rule

/-- The kind of argument that a statement takes, if it takes one; there is none for a keyword that
is not known. -/
def argumentOf? : (keyword : String) → Option (Option ArgumentKind)
  | "module" | "submodule" | "prefix" | "import" | "include" | "belongs-to" | "extension"
  | "argument" | "identity" | "feature" | "typedef" | "bit" | "grouping" | "container" | "leaf"
  | "leaf-list" | "list" | "choice" | "case" | "anyxml" | "anydata" | "rpc" | "action"
  | "notification" => some (some .identifier)
  | "organization" | "contact" | "description" | "reference" | "units" | "pattern" | "default"
  | "error-message" | "error-app-tag" | "must" | "when" | "presence" => some (some .text)
  | "base" | "type" | "uses" => some (some .identifierRef)
  | "revision" | "revision-date" => some (some .date)
  | "yin-element" | "config" | "mandatory" | "require-instance" => some (some .boolean)
  | "position" | "min-elements" => some (some .nonNegative)
  | "yang-version" => some (some .version)
  | "namespace" => some (some .uri)
  | "value" => some (some .integer)
  | "max-elements" => some (some .maxValue)
  | "range" => some (some .range)
  | "length" => some (some .length)
  | "fraction-digits" => some (some .fractionDigits)
  | "status" => some (some .status)
  | "ordered-by" => some (some .orderedBy)
  | "key" => some (some .key)
  | "unique" => some (some .unique)
  | "enum" => some (some .enumName)
  | "modifier" => some (some .modifier)
  | "if-feature" => some (some .featureExpression)
  | "augment" => some (some .nodeId)
  | "refine" => some (some .descendantNodeId)
  | "deviation" => some (some .absoluteNodeId)
  | "deviate" => some (some .deviate)
  | "path" => some (some .path)
  | "input" | "output" => some none
  | _ => none

/-- What is wrong with the argument of a statement. -/
def argumentDefect? (s : Statement) (kind : Option ArgumentKind) : Option GrammarDefect :=
  match kind, s.argument with
  | none, none => none
  | none, some argument => some (.needlessArgument argument)
  | some _, none => some (.noArgument s.keyword)
  | some kind, some argument =>
    if kind.accepts argument then none else some (.badArgument argument kind.shown)

/-- A defect and its line. -/
abbrev Finding := Nat × GrammarDefect

/-- What checking statements against the grammar gives. -/
structure Checked where
  /-- the defects, in order -/
  findings : List Finding := []
  /-- the numbers of the statements that must not be looked at any more -/
  rejected : List Nat := []

namespace Checked

/-- Two results, one after the other. -/
def append (a b : Checked) : Checked :=
  ⟨a.findings ++ b.findings, a.rejected ++ b.rejected⟩

instance : Append Checked := ⟨append⟩

end Checked

mutual

/-- Checks the argument and the body of a statement. -/
def checkStatement (isRecent : Bool) (kind : Option ArgumentKind) : Statement → Checked
  | ⟨keyword, argument, line, number, body⟩ =>
    let own : Checked :=
      match argumentDefect? ⟨keyword, argument, line, number, body⟩ kind with
      | none => {}
      | some defect => ⟨[(line, defect)], [number]⟩
    own ++ checkBody isRecent keyword (Rule.bodyOf keyword) line body

/-- Checks statements against the rules that are left for the body they stand in. What is missing in
the end is missed at the last line. -/
def checkBody (isRecent : Bool) (parent : String) (left : List Rule) (line : Nat) :
    List Statement → Checked
  | [] => ⟨(Rule.missing left).map fun keyword => (line, .missing keyword parent), []⟩
  | ⟨keyword, argument, here, number, body⟩ :: rest =>
    if (splitQualified keyword).isSome then
      checkBody isRecent keyword [.anything] here body ++
        checkBody isRecent parent left here rest
    else
      let (skipped, taken) := Rule.take isRecent keyword [] left
      let early : Checked :=
        ⟨skipped.map fun expected => (here, .unexpectedBefore keyword expected), []⟩
      match taken with
      | none =>
        early ++ ⟨[(here, .unexpected keyword)], [number]⟩ ++
          checkBody isRecent parent left here rest
      | some left =>
        match argumentOf? keyword with
        | none => early ++ ⟨[(here, .unknownKeyword keyword)], [number]⟩
        | some kind =>
          early ++ checkStatement isRecent kind ⟨keyword, argument, here, number, body⟩ ++
            checkBody isRecent parent left here rest

end

/-- The version of the language that a text is written in. -/
def Statement.version (s : Statement) : String :=
  ((s.first? "yang-version").map (·.name)).getD "1"

/-- **Checking a text** against the grammar. -/
def Statement.checked (s : Statement) : Checked :=
  checkStatement (s.version != "1") (some .identifier) s

end SchemaAssembly.Yang
