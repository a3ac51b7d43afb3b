import SchemaAssembly.Json.Reader
import SchemaAssembly.Text.Blank
import SchemaAssembly.Text.Lines

/-!
# Facts read off a report

What the text of a report says about a model, to someone who has nothing but the text.

- `ReportFacts.ofListing?` takes a listing as JSON.
- `ReportFacts.ofTree` takes a tree by its lines: how deep a line is says what it hangs below, and its
  first word says what it is about.
- `ChartFact.ofChart` takes a flowchart by the words on its lines.
-/

namespace SchemaAssembly

/-- What a report says about a model by names. -/
structure ReportFacts where
  /-- the names that are marked as tested -/
  tested : List String
  /-- the names that no unit has -/
  missing : List String
  /-- the names of units, each with a name that the unit depends on -/
  pairs : List (String × String)
  deriving DecidableEq, Repr

/-! ### Listings -/

namespace JsonValue

/-- A member of an object. -/
def member? (key : String) : JsonValue → Option JsonValue
  | object members => (members.find? (·.1 = key)).map (·.2)
  | _ => none

/-- The items of a list. -/
def items? : JsonValue → Option (List JsonValue)
  | list items => some items
  | _ => none

/-- A text. -/
def text? : JsonValue → Option String
  | text value => some value
  | _ => none

/-- A truth value. -/
def bool? : JsonValue → Option Bool
  | bool value => some value
  | _ => none

end JsonValue

/-- What a listing says of a unit. -/
structure ListedUnit where
  /-- its name -/
  name : String
  /-- whether it is flagged as tested -/
  tested : Bool
  /-- the names it imports or includes -/
  dependencies : List String
  deriving DecidableEq, Repr

/-- A unit in a listing. -/
def ListedUnit.ofValue? (value : JsonValue) : Option ListedUnit := do
  let name ← (← value.member? "name").text?
  let tested ← (← value.member? "tested").bool?
  let imports ← (← (← value.member? "imports").items?).mapM JsonValue.text?
  let includes ← (← (← value.member? "includes").items?).mapM JsonValue.text?
  return ⟨name, tested, imports ++ includes⟩

/-- What units say together. The names that are missing are not listed as such: they are the names that
units depend on and that no unit has. -/
def ReportFacts.ofUnits (units : List ListedUnit) : ReportFacts where
  tested := (units.filter (·.tested)).map (·.name)
  missing := (units.flatMap (·.dependencies)).filter fun d => !units.any (·.name = d)
  pairs := units.flatMap fun u => u.dependencies.map fun d => (u.name, d)

/-- **The facts in a listing.** -/
def ReportFacts.ofListing? (text : String) : Option ReportFacts := do
  let value ← JsonValue.read text
  let units ← (← (← value.member? "units").items?).mapM ListedUnit.ofValue?
  return ofUnits units

/-! ### Trees -/

/-- A line of a tree. -/
structure TreeRow where
  /-- how many nodes it hangs below -/
  depth : Nat
  /-- the name on it -/
  name : String
  /-- the words behind the name -/
  marks : List String
  deriving DecidableEq, Repr

namespace TreeRow

/-- Whether a character connects nodes, in lines or in ASCII. -/
def connects (c : Char) : Bool :=
  [' ', '|', '\\', '-', '│', '├', '└', '─'].contains c

/-- A line that is not empty. Four characters connect it with every node it hangs below. Its first
word is the name, with a revision behind the sign for it or without. -/
def ofLine? (line : String) : Option TreeRow :=
  match Text.wordsOf (String.ofList (line.toList.dropWhile connects)) with
  | [] => none
  | first :: marks => some {
      depth := (line.toList.takeWhile connects).length / 4
      name := String.ofList (first.toList.takeWhile (· ≠ '@'))
      marks }

/-- What hangs below what: `branch` holds the names from the root down to the line before. -/
def pairsAfter (branch : List String) : List TreeRow → List (String × String)
  | [] => []
  | row :: rest =>
    let above := branch.take row.depth
    above.getLast?.toList.map (·, row.name) ++ pairsAfter (above ++ [row.name]) rest

end TreeRow

/-- **The facts in a tree report.** -/
def ReportFacts.ofTree (text : String) : ReportFacts :=
  let rows := (Text.fields '\n' text).filterMap TreeRow.ofLine?
  { tested := (rows.filter (·.marks.contains "[tested]")).map (·.name)
    missing := (rows.filter (·.marks.contains "[MISSING]")).map (·.name)
    pairs := TreeRow.pairsAfter [] rows }

/-! ### Flowcharts -/

/-- What a line of a flowchart says, by identifiers and names. -/
inductive ChartFact where
  /-- these nodes are tested -/
  | tested (ids : List String)
  /-- a name is drawn that no unit has -/
  | missing (name : String)
  /-- two nodes are joined -/
  | edge (source target : String)
  deriving DecidableEq, Repr

namespace ChartFact

/-- What the words on a line say. A node without a unit is labelled so behind its name, and the label
stands between quotes. -/
def ofWords? : List String → Option ChartFact
  | [node, mark] =>
    if mark = "[MISSING]\"]" then some (missing ((Text.fields '"' node).getD 1 "")) else none
  | [first, second, third] =>
    if second = "-->" ∨ second = "-.->" then some (edge first third)
    else if first = "class" ∧ third = "tested" then some (tested (Text.fields ',' second))
    else none
  | _ => none

/-- **The facts in a flowchart**, below the header that names its orientation. -/
def ofChart (orientation text : String) : List ChartFact :=
  let body := String.ofList (text.toList.drop ("flowchart " ++ orientation).length)
  (Text.fields '\n' body).filterMap fun line => ofWords? (Text.wordsOf line)

end ChartFact

end SchemaAssembly
