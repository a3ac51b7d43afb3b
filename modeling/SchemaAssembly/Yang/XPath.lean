import SchemaAssembly.Text.Blank
import SchemaAssembly.Yang.Reader
import SchemaAssembly.Yang.Reference

/-!
# XPath expressions

The conditions of `must` and `when` statements. Of an expression it matters which functions are
called with which arguments, and which paths lead from node to node; how tightly operators bind does
not.

- `XPath.Expression.ofText?` reads an expression.
-/

namespace SchemaAssembly.Yang.XPath

/-! ### Tokens -/

/-- A token of an expression. -/
inductive Token where
  /-- a text between quotes -/
  | literal (text : String)
  /-- a number -/
  | number
  /-- the name of a variable -/
  | parameter (name : String)
  /-- a name -/
  | name (name : Reference)
  /-- any name, or any that a module owns -/
  | anyName
  /-- a minus -/
  | minus
  /-- another operator -/
  | operator
  /-- a mark that is no operator -/
  | mark (text : String)
  deriving DecidableEq, Repr

/-- Whether an operator may come next, given the token before. -/
def mayOperate : Option Token → Bool
  | none | some .minus | some .operator => false
  | some (.mark text) => text = ")" || text = "]" || text = "." || text = ".."
  | some _ => true

/-- The words that are operators. -/
def operatorWords : List String :=
  ["and", "or", "div", "mod"]

/-- The name that a text begins with, and what stands behind it. -/
def nameIn? : List Char → Option (String × List Char)
  | c :: rest =>
    if Read.beginsIdentifier c then
      some (String.ofList (c :: rest.takeWhile Read.continuesIdentifier),
        rest.dropWhile Read.continuesIdentifier)
    else none
  | [] => none

/-- The name, qualified or not, that a text begins with, and what stands behind it. -/
def reference? (cs : List Char) : Option (Reference × List Char) := do
  let (first, rest) ← nameIn? cs
  match rest with
  | ':' :: ':' :: _ => return (⟨none, first⟩, rest)
  | ':' :: behind =>
    match nameIn? behind with
    | some (second, rest) => return (⟨some first, second⟩, rest)
    | none => return (⟨none, first⟩, rest)
  | rest => return (⟨none, first⟩, rest)

/-- The token that a text without leading blanks begins with, and what stands behind it, given the
token before. -/
def token? (before : Option Token) : List Char → Option (Token × List Char)
  | '"' :: rest => literal? '"' rest
  | '\'' :: rest => literal? '\'' rest
  | '.' :: '.' :: rest => some (.mark "..", rest)
  | '/' :: '/' :: rest => some (.mark "//", rest)
  | ':' :: ':' :: rest => some (.mark "::", rest)
  | '!' :: '=' :: rest => some (.operator, rest)
  | '<' :: '=' :: rest => some (.operator, rest)
  | '>' :: '=' :: rest => some (.operator, rest)
  | '-' :: rest => some (.minus, rest)
  | '*' :: rest => some (if mayOperate before then .operator else .anyName, rest)
  | '$' :: rest => do
    let (r, rest) ← reference? rest
    let text := match r.qualifier with
      | some qualifier => qualifier ++ ":" ++ r.name
      | none => r.name
    return (.parameter text, rest)
  | c :: rest =>
    if c.isDigit || (c = '.' && (rest.head?.any Char.isDigit)) then
      some (.number, rest.dropWhile fun c => c.isDigit || c == '.')
    else if "|+=<>".toList.contains c then some (.operator, rest)
    else if "()[]@,/.".toList.contains c then some (.mark (String.singleton c), rest)
    else do
      let (r, behind) ← reference? (c :: rest)
      if mayOperate before then
        if r.qualifier.isNone && operatorWords.contains r.name then return (.operator, behind)
        else none
      match r.qualifier, behind with
      | none, ':' :: '*' :: behind => return (.anyName, behind)
      | _, behind => return (.name r, behind)
  | [] => none
where
  /-- The text up to the closing quote. -/
  literal? (quote : Char) (rest : List Char) : Option (Token × List Char) := do
    let behind ← (rest.dropWhile (· != quote)).tail?
    return (.literal (String.ofList (rest.takeWhile (· != quote))), behind)

/-- The tokens of a text of at most so many characters, given the token before. -/
def tokens? : (length : Nat) → (before : Option Token) → List Char → Option (List Token)
  | 0, _, cs => if cs.isEmpty then some [] else none
  | length + 1, before, cs =>
    match cs.dropWhile Text.isBlank with
    | [] => some []
    | cs => do
      let (token, rest) ← token? before cs
      return token :: (← tokens? length (some token) rest)

/-! ### Expressions -/

/-- Where a step of a path leads. -/
inductive Move where
  /-- to the node itself -/
  | stay
  /-- to the node above -/
  | up
  /-- to a child with a name -/
  | down (name : Reference)
  /-- elsewhere -/
  | elsewhere
  deriving DecidableEq, Repr

mutual

/-- An expression. -/
inductive Expression where
  /-- a text -/
  | literal (text : String)
  /-- a number -/
  | number
  /-- a variable -/
  | parameter (name : String)
  /-- a function with its arguments -/
  | call (function : String) (arguments : List Expression)
  /-- two expressions joined by an operator -/
  | joined (left right : Expression)
  /-- a path from the outermost level, or from where the expression stands -/
  | path (isAbsolute : Bool) (steps : List Step)
  /-- what an expression gives under some conditions, and a path from there -/
  | onward (start : Expression) (conditions : List Expression) (steps : List Step)

/-- A step of a path. -/
inductive Step where
  /-- a step that leads somewhere under some conditions -/
  | mk (move : Move) (conditions : List Expression)

end

/-- The words in front of a parenthesis that are no functions. -/
def nodeTypes : List String :=
  ["comment", "text", "processing-instruction", "node"]

/-- Whether a token begins a step. -/
def beginsStep : Token → Bool
  | .name _ | .anyName => true
  | .mark text => text = "." || text = ".." || text = "@"
  | _ => false

/-- Where a step along an axis to what a test names leads. -/
def moveAlong (axis : String) (test : Option Reference) (isNode : Bool) : Move :=
  match axis, test with
  | "child", some name => .down name
  | "self", none => if isNode then .stay else .elsewhere
  | "parent", none => if isNode then .up else .elsewhere
  | _, _ => .elsewhere

/-- The test of a step along an axis that some tokens begin with, and the tokens behind it. -/
def test? (axis : String) : List Token → Option (Move × List Token)
  | .name r :: .mark "(" :: .literal _ :: .mark ")" :: rest =>
    if r = ⟨none, "processing-instruction"⟩ then some (.elsewhere, rest) else none
  | .name r :: .mark "(" :: .mark ")" :: rest =>
    if r.qualifier.isNone && nodeTypes.contains r.name then
      some (moveAlong axis none (r.name = "node"), rest)
    else none
  | .name r :: rest => some (moveAlong axis (some r) false, rest)
  | .anyName :: rest => some (.elsewhere, rest)
  | _ => none

/-- Where the step leads that some tokens begin with, and the tokens behind it. -/
def move? : List Token → Option (Move × List Token)
  | .mark "." :: rest => some (.stay, rest)
  | .mark ".." :: rest => some (.up, rest)
  | .mark "@" :: rest => test? "attribute" rest
  | .name ⟨none, axis⟩ :: .mark "::" :: rest => test? axis rest
  | tokens => test? "child" tokens

/-- The step that passes over any number of levels. -/
def Step.anywhere : Step :=
  .mk .elsewhere []

mutual

/-- The expression that some tokens begin with, and the tokens behind it. Nothing in it is nested
deeper than `depth`. -/
def expression? : (depth : Nat) → List Token → Option (Expression × List Token)
  | 0, _ => none
  | depth + 1, tokens => do
    let (left, rest) ← operand? depth tokens
    match rest with
    | .operator :: rest | .minus :: rest =>
      let (right, rest) ← expression? depth rest
      return (.joined left right, rest)
    | rest => return (left, rest)

/-- The operand that some tokens begin with. -/
def operand? : (depth : Nat) → List Token → Option (Expression × List Token)
  | 0, _ => none
  | depth + 1, tokens => do
    match tokens with
    | .minus :: rest => operand? depth rest
    | .mark "/" :: rest =>
      match rest with
      | token :: _ =>
        if beginsStep token then
          let (steps, rest) ← steps? depth rest
          return (.path true steps, rest)
        else return (.path true [], rest)
      | [] => return (.path true [], [])
    | .mark "//" :: rest =>
      let (steps, rest) ← steps? depth rest
      return (.path true (.anywhere :: steps), rest)
    | .literal text :: rest => onward? depth (.literal text) rest
    | .number :: rest => onward? depth .number rest
    | .parameter name :: rest => onward? depth (.parameter name) rest
    | .mark "(" :: rest =>
      match ← expression? depth rest with
      | (inner, .mark ")" :: rest) => onward? depth inner rest
      | _ => none
    | .name r :: .mark "(" :: rest =>
      if r.qualifier.isNone && nodeTypes.contains r.name then
        let (steps, rest) ← steps? depth tokens
        return (.path false steps, rest)
      else
        let (arguments, rest) ← arguments? depth rest
        let function := match r.qualifier with
          | some qualifier => qualifier ++ ":" ++ r.name
          | none => r.name
        onward? depth (.call function arguments) rest
    | tokens =>
      let (steps, rest) ← steps? depth tokens
      return (.path false steps, rest)

/-- An expression with the conditions and the path that follow it. -/
def onward? : (depth : Nat) → Expression → List Token → Option (Expression × List Token)
  | 0, _, _ => none
  | depth + 1, start, tokens => do
    let (conditions, rest) ← conditions? depth tokens
    match rest with
    | .mark "/" :: rest =>
      let (steps, rest) ← steps? depth rest
      return (.onward start conditions steps, rest)
    | .mark "//" :: rest =>
      let (steps, rest) ← steps? depth rest
      return (.onward start conditions (.anywhere :: steps), rest)
    | rest =>
      if conditions.isEmpty then return (start, rest)
      else return (.onward start conditions [], rest)

/-- The arguments up to the closing parenthesis. -/
def arguments? : (depth : Nat) → List Token → Option (List Expression × List Token)
  | 0, _ => none
  | depth + 1, tokens => do
    match tokens with
    | .mark ")" :: rest => return ([], rest)
    | tokens =>
      let (first, rest) ← expression? depth tokens
      match rest with
      | .mark ")" :: rest => return ([first], rest)
      | .mark "," :: rest =>
        let (more, rest) ← arguments? depth rest
        if more.isEmpty then none else return (first :: more, rest)
      | _ => none

/-- The conditions in brackets that some tokens begin with. -/
def conditions? : (depth : Nat) → List Token → Option (List Expression × List Token)
  | 0, _ => none
  | depth + 1, tokens => do
    match tokens with
    | .mark "[" :: rest =>
      match ← expression? depth rest with
      | (condition, .mark "]" :: rest) =>
        let (more, rest) ← conditions? depth rest
        return (condition :: more, rest)
      | _ => none
    | tokens => return ([], tokens)

/-- The steps that some tokens begin with, at least one. -/
def steps? : (depth : Nat) → List Token → Option (List Step × List Token)
  | 0, _ => none
  | depth + 1, tokens => do
    let (move, rest) ← move? tokens
    let (conditions, rest) ← conditions? depth rest
    let step : Step := .mk move conditions
    match rest with
    | .mark "/" :: rest =>
      let (steps, rest) ← steps? depth rest
      return (step :: steps, rest)
    | .mark "//" :: rest =>
      let (steps, rest) ← steps? depth rest
      return (step :: .anywhere :: steps, rest)
    | rest => return ([step], rest)

end

/-- **Reading an expression**, if it is written correctly. -/
def Expression.ofText? (text : String) : Option Expression := do
  let tokens ← tokens? text.length none text.toList
  match ← expression? (4 * tokens.length + 4) tokens with
  | (e, []) => some e
  | _ => none

end SchemaAssembly.Yang.XPath
