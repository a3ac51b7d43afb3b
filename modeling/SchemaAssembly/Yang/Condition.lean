import SchemaAssembly.Yang.LeafPath
import SchemaAssembly.Yang.XPath

/-!
# Conditions

What must hold of nodes, and when nodes are there, is stated by expressions. Their functions must be
known and have the right number of arguments, their paths must not go up too far, and the short
names in them must be known.

- `Check.checkExpression` checks an expression.
- `Check.checkConditions` checks the conditions of a module and the paths of its leaves.
-/

namespace SchemaAssembly.Yang

namespace XPath

/-- What is known of a function. -/
structure Signature where
  /-- how many arguments it has at least -/
  least : Nat
  /-- how many arguments it has at most, if that is limited -/
  most : Option Nat
  /-- whether its second argument is the name of an identity -/
  takesName : Bool := false
  /-- whether its value is a set of nodes -/
  givesNodes : Bool := false

namespace Signature

/-- A function of so many arguments. -/
def exactly (count : Nat) : Signature :=
  { least := count, most := some count }

/-- A function of so many arguments, the last of which may be left out. -/
def upTo (count : Nat) : Signature :=
  { least := count - 1, most := some count }

/-- A function of so many arguments or more. -/
def atLeast (count : Nat) : Signature :=
  { least := count, most := none }

/-- A function whose value is a set of nodes. -/
def toNodes (s : Signature) : Signature :=
  { s with givesNodes := true }

/-- A function whose second argument is the name of an identity. -/
def ofName (s : Signature) : Signature :=
  { s with takesName := true }

/-- Whether a function may have so many arguments. -/
def accepts (s : Signature) (given : Nat) : Bool :=
  s.least ≤ given && s.most.all (given ≤ ·)

/-- The numbers of arguments as a message names them. -/
def shown (s : Signature) : String :=
  match s.most with
  | none => "at least " ++ toString s.least
  | some most =>
    if s.least = most then toString most else toString s.least ++ "-" ++ toString most

end Signature

/-- The functions of all expressions. -/
def functions : List (String × Signature) :=
  [("last", .exactly 0), ("position", .exactly 0), ("count", .exactly 1),
    ("id", (Signature.exactly 1).toNodes), ("local-name", .upTo 1), ("namespace-uri", .upTo 1),
    ("name", .upTo 1), ("string", .upTo 1), ("concat", .atLeast 2), ("starts-with", .exactly 2),
    ("contains", .exactly 2), ("substring-before", .exactly 2), ("substring-after", .exactly 2),
    ("substring", .upTo 3), ("string-length", .upTo 1), ("normalize-space", .upTo 1),
    ("translate", .exactly 3), ("boolean", .exactly 1), ("not", .exactly 1), ("true", .exactly 0),
    ("false", .exactly 0), ("lang", .exactly 1), ("number", .upTo 1), ("sum", .exactly 1),
    ("floor", .exactly 1), ("ceiling", .exactly 1), ("round", .exactly 1),
    ("current", (Signature.exactly 0).toNodes), ("deref", (Signature.exactly 1).toNodes)]

/-- The functions that there are since version 1.1 of the language. -/
def recentFunctions : List (String × Signature) :=
  [("bit-is-set", .exactly 2), ("enum-value", .exactly 1),
    ("derived-from", (Signature.exactly 2).ofName),
    ("derived-from-or-self", (Signature.exactly 2).ofName), ("re-match", .exactly 2)]

/-- The short name in a text that looks like a qualified name. -/
def qualifierIn? (text : String) : Option String :=
  match text.splitOn ":" with
  | [qualifier, name] =>
    if FeatureExpression.isIdentifier qualifier.toList &&
        FeatureExpression.isIdentifier name.toList then some qualifier
    else none
  | _ => none

end XPath

namespace Check

open XPath

/-- Where a step of a path has led. -/
inductive Reached where
  /-- to a place in the trees of a module -/
  | place (place : Standpoint)
  /-- to what is above all nodes -/
  | root
  /-- it is not known where -/
  | unknown

/-- Where an expression stands. -/
structure ExpressionContext where
  /-- the module it is written in -/
  home : Nat
  /-- where it is written -/
  position : Position
  /-- the module whose names need no short name -/
  host : Nat
  /-- the node it is about -/
  start : Reached

/-- Checks the short name in a text that looks like a qualified name. One that is not known is
reported only if the text must be such a name. -/
def checkLiteral (c : ExpressionContext) (isName : Bool) (text : String) : Check Unit := do
  match qualifierIn? text with
  | some qualifier =>
    let _ ← moduleOf? c.home (some qualifier) c.position !isName
  | none => return

/-- Where a step up leads. -/
def moveUp (c : ExpressionContext) : Reached → Check Reached
  | .unknown => return .unknown
  | .root => do
    report c.position (.reference .expressionTooFarUp)
    return .unknown
  | .place s => do
    match s.up? with
    | some above => return if above.chain.isEmpty && !above.isRooted then .unknown else .place above
    | none =>
      if s.isRooted then report c.position (.reference .expressionTooFarUp)
      return .unknown

/-- Where a step down leads. -/
def moveDown (c : ExpressionContext) (reached : Reached) (r : Reference) : Check Reached := do
  let found ← match r.qualifier with
    | none => module? c.host
    | some _ => moduleOf? c.home r.qualifier c.position
  let from? : Option Standpoint := match reached, found with
    | .place s, _ => some s
    | .root, some m => some ⟨[], m.number, true⟩
    | _, _ => none
  match found, from? with
  | some m, some s =>
    match dataNode? r.name m.owner none s.chain (← nodesAt s) with
    | some chain => return .place { s with chain }
    | none => return .unknown
  | _, _ => return .unknown

/-- Where a step leads. -/
def moveBy (c : ExpressionContext) (reached : Reached) : Move → Check Reached
  | .stay => return reached
  | .up => moveUp c reached
  | .down r => moveDown c reached r
  | .elsewhere => return .unknown

mutual

/-- Checks an expression about a node, which may have to be a name. -/
def checkExpressionAt : (depth : Nat) → ExpressionContext → Reached → (isName : Bool) →
    Expression → Check Unit
  | 0, _, _, _, _ => return
  | depth + 1, c, reached, isName, e => do
    match e with
    | .literal text => checkLiteral c isName text
    | .number => return
    | .parameter name => report c.position (.reference (.unknownVariable name))
    | .call function arguments =>
      let _ ← checkCall depth c reached function arguments
    | .joined left right =>
      checkExpressionAt depth c reached false left
      checkExpressionAt depth c reached false right
    | .path isAbsolute steps => checkSteps depth c (if isAbsolute then .root else reached) steps
    | .onward start conditions steps =>
      let next ← match start with
        | .call function arguments =>
          let signature ← checkCall depth c reached function arguments
          if !steps.isEmpty && signature.any (!·.givesNodes) then
            report c.position (.reference (.noNodes function))
          pure (if function = "current" then c.start else .unknown)
        | start =>
          checkExpressionAt depth c reached false start
          pure .unknown
      for condition in conditions do
        checkExpressionAt depth c next false condition
      checkSteps depth c next steps

/-- Checks a call of a function. The answer is what is known of the function. -/
def checkCall : (depth : Nat) → ExpressionContext → Reached → (function : String) →
    List Expression → Check (Option Signature)
  | 0, _, _, _, _ => return none
  | depth + 1, c, reached, function, arguments => do
    let isOld ← ofModule c.home false (·.isOld)
    let known := if isOld then functions else functions ++ recentFunctions
    match known.lookup function with
    | none =>
      report c.position (.reference (.unknownFunction function))
      return none
    | some signature =>
      if !signature.accepts arguments.length then
        report c.position
          (.reference (.argumentCount function signature.shown arguments.length))
      for (argument, i) in arguments.zipIdx do
        checkExpressionAt depth c reached (signature.takesName && i = 1) argument
      return some signature

/-- Checks the steps of a path. -/
def checkSteps : (depth : Nat) → ExpressionContext → Reached → List Step → Check Unit
  | 0, _, _, _ => return
  | _, _, _, [] => return
  | depth + 1, c, reached, .mk move conditions :: rest => do
    let next ← moveBy c reached move
    for condition in conditions do
      checkExpressionAt depth c next false condition
    checkSteps depth c next rest

end

/-- **Checks an expression.** -/
def checkExpression (c : ExpressionContext) (text : String) : Check Unit := do
  match Expression.ofText? text with
  | some e => checkExpressionAt (2 * text.length + 2) c c.start false e
  | none => report c.position (.reference .badExpression)

/-- Whether a keyword states a condition. -/
def isCondition (keyword : String) : Bool :=
  keyword = "must" || keyword = "when"

/-- Checks the conditions of the uses and augments in a body. -/
def checkExpressionsIn : (depth : Nat) → Site → Check Unit
  | 0, _ => return
  | depth + 1, s => do
    for keyword in ["uses", "augment"] do
      for t in ← accepted s keyword do
        for condition in t.all "when" do
          checkExpression ⟨t.home, ← positionOf condition, t.home, .unknown⟩
            condition.statement.name
        checkExpressionsIn depth t

/-- **Checks the conditions of a module and the paths of its leaves.** -/
def checkConditions (m : Module) : Check Unit := do
  let depth ← depth
  for v in ← visits m do
    if v.isLeaving then
      for p in v.node.properties do
        if isCondition p.keyword then
          checkExpression ⟨p.site.home, p.position, v.node.host, .place v.standpoint⟩
            ((p.argument).getD "")
      if v.node.site.statement.keyword = v.node.keyword then
        checkExpressionsIn depth v.node.site
    else if v.node.keyword = "leaf" || v.node.keyword = "leaf-list" then
      checkPointer v.standpoint v.node
  checkExpressionsIn depth m.site

end Check

end SchemaAssembly.Yang
