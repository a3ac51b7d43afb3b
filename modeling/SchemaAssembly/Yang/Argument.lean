import SchemaAssembly.Text.Blank
import SchemaAssembly.Text.Lines
import SchemaAssembly.Text.Pattern
import SchemaAssembly.Yang.FeatureExpression

/-!
# Arguments

What the arguments of statements must look like.

- `ArgumentKind.accepts` decides whether an argument is of a kind. A line feed at the end of an
  argument does not matter to most kinds.
-/

namespace SchemaAssembly.Yang

open Text (Pattern)

/-! ### Parts of arguments -/

namespace Form

open Text.Pattern

/-- Any blanks. -/
def blanks : Pattern :=
  many (one Text.isBlank)

/-- At least one blank. -/
def gap : Pattern :=
  atLeastOne (one Text.isBlank)

/-- A name. -/
def identifier : Pattern :=
  followed (one Read.beginsIdentifier) (many (one Read.continuesIdentifier))

/-- A name that may be qualified. -/
def nodeName : Pattern :=
  followed (optional (followed identifier (text ":"))) identifier

/-- Names that each follow a slash. -/
def absolute : Pattern :=
  atLeastOne (followed (text "/") nodeName)

/-- Names between slashes. -/
def descendant : Pattern :=
  followed nodeName (many (followed (text "/") nodeName))

/-- A number without a sign and without needless zeros. -/
def natural : Pattern :=
  either (text "0") (followed (oneOf "123456789") (many digit))

/-- A number with or without a sign. -/
def signed : Pattern :=
  followed (optional (oneOf "+-")) natural

/-- A day. -/
def date : Pattern :=
  inOrder [oneOf "12", digit.times 3, text "-",
    either (followed (text "0") (oneOf "123456789")) (words ["10", "11", "12"]), text "-",
    anyOf [followed (text "0") (oneOf "123456789"), followed (oneOf "12") digit,
      words ["30", "31"]]]

/-- Parts separated by bars, each of which is a bound or two bounds with dots between them. -/
def parts (bound : Pattern) : Pattern :=
  let part := inOrder [bound, blanks,
    optional (inOrder [text "..", blanks, bound, blanks])]
  followed part (many (inOrder [text "|", blanks, part]))

/-- A bound of a length. -/
def lengthBound : Pattern :=
  either (words ["min", "max"]) (atLeastOne digit)

/-- A bound of a range. -/
def rangeBound : Pattern :=
  either (words ["min", "max"])
    (inOrder [optional (oneOf "+-"), atLeastOne digit,
      optional (followed (text ".") (atLeastOne digit))])

/-! ### Paths -/

/-- Any number of steps up. -/
def ups : Pattern :=
  many (text "../")

/-- What a key is compared with. -/
def keyPath : Pattern :=
  inOrder [text "current", blanks, text "(", blanks, text ")", blanks, text "/",
    blanks, atLeastOne (inOrder [text "..", blanks, text "/", blanks]),
    many (inOrder [nodeName, blanks, text "/", blanks]), nodeName]

/-- Conditions on the keys of a node. -/
def keyConditions : Pattern :=
  many (inOrder [blanks, text "[", blanks, nodeName, blanks, text "=", blanks, keyPath, blanks,
    text "]", blanks])

/-- A path from the outermost level. -/
def absolutePath : Pattern :=
  atLeastOne (inOrder [text "/", nodeName, keyConditions])

/-- A path from where it stands. -/
def relativePath : Pattern :=
  inOrder [ups, nodeName, keyConditions, optional absolutePath]

/-- A path to the node that another one points to, and on from there. -/
def followingPath : Pattern :=
  inOrder [text "deref", blanks, text "(", blanks, relativePath, blanks, text ")/../",
    relativePath]

/-! ### Identifiers of resources -/

/-- A character that may stand for itself, or one that is written by its number. -/
def uriChar (others : String) : Pattern :=
  let plain := "-._~!$&'()*+,;=" ++ others
  let hexDigit := either digit (oneOf "ABCDEF")
  either (one fun c => c.isAlphanum || plain.toList.contains c)
    (inOrder [text "%", hexDigit, hexDigit])

/-- Segments that each follow a slash. -/
def segments : Pattern :=
  many (followed (text "/") (many (uriChar ":@")))

/-- An address of a network in brackets. -/
def bracketed : Pattern :=
  let hexDigit := either digit (oneOf "ABCDEF")
  inOrder [text "[",
    either (atLeastOne (either hexDigit (oneOf ":.")))
      (inOrder [text "v", atLeastOne hexDigit, text ".", atLeastOne (uriChar ":")]),
    text "]"]

/-- Who gives out the names that follow. -/
def authority : Pattern :=
  inOrder [optional (followed (many (uriChar ":")) (text "@")),
    either bracketed (many (uriChar "")), optional (followed (text ":") (many digit))]

/-- What stands behind the scheme. -/
def hierarchy : Pattern :=
  anyOf [inOrder [text "//", authority, segments],
    followed (text "/") (optional (followed (atLeastOne (uriChar ":@")) segments)),
    followed (atLeastOne (uriChar ":@")) segments, empty]

/-- The identifier of a resource. -/
def uri : Pattern :=
  let rest := many (uriChar ":@/?")
  inOrder [one Char.isAlpha, many (one fun c => c.isAlphanum || c == '-' || c == '+' || c == '.'),
    text ":", hierarchy, optional (followed (text "?") rest), optional (followed (text "#") rest)]

end Form

/-! ### Kinds of arguments -/

/-- A kind of argument. -/
inductive ArgumentKind where
  /-- any text -/
  | text
  /-- a name -/
  | identifier
  /-- a name that may be qualified -/
  | identifierRef
  /-- a day -/
  | date
  /-- a version of the language -/
  | version
  /-- the identifier of a resource -/
  | uri
  /-- true or false -/
  | boolean
  /-- a number -/
  | integer
  /-- a number without a sign -/
  | nonNegative
  /-- a number of entries, or none -/
  | maxValue
  /-- intervals of numbers -/
  | range
  /-- intervals of lengths -/
  | length
  /-- how many digits stand behind a point -/
  | fractionDigits
  /-- whether a definition may still be used -/
  | status
  /-- who orders entries -/
  | orderedBy
  /-- names of leaves -/
  | key
  /-- paths to leaves -/
  | unique
  /-- the name of a value -/
  | enumName
  /-- how a pattern is applied -/
  | modifier
  /-- a condition on features -/
  | featureExpression
  /-- a path to a node -/
  | nodeId
  /-- a path to a node from where it stands -/
  | descendantNodeId
  /-- a path to a node from the outermost level -/
  | absoluteNodeId
  /-- how a node deviates -/
  | deviate
  /-- a path to a leaf -/
  | path
  deriving DecidableEq, Repr

namespace ArgumentKind

/-- The kind as a message names it. -/
def shown : ArgumentKind → String
  | text => "string"
  | identifier => "identifier"
  | identifierRef => "identifier-ref"
  | date => "date"
  | version => "version"
  | uri => "uri"
  | boolean => "boolean"
  | integer => "integer"
  | nonNegative => "non-negative-integer"
  | maxValue => "max-value"
  | range => "range-arg"
  | length => "length-arg"
  | fractionDigits => "fraction-digits-arg"
  | status => "status-arg"
  | orderedBy => "ordered-by-arg"
  | key => "key-arg"
  | unique => "unique-arg"
  | enumName => "enum-arg"
  | modifier => "modifier-arg"
  | featureExpression => "if-feature-expr"
  | nodeId => "schema-nodeid"
  | descendantNodeId => "descendant-schema-nodeid"
  | absoluteNodeId => "absolute-schema-nodeid"
  | deviate => "deviate-arg"
  | path => "path-arg"

open Text.Pattern in
/-- The pattern of a kind, if one describes it. -/
def pattern? : ArgumentKind → Option Pattern
  | identifier => some Form.identifier
  | identifierRef => some Form.nodeName
  | date => some Form.date
  | version => some (words ["1", "1.1"])
  | uri => some Form.uri
  | boolean => some (words ["true", "false"])
  | integer => some Form.signed
  | nonNegative => some Form.natural
  | maxValue =>
    some (either (Pattern.text "unbounded") (followed (oneOf "123456789") (many digit)))
  | range => some (Form.parts Form.rangeBound)
  | length => some (Form.parts Form.lengthBound)
  | status => some (words ["current", "obsolete", "deprecated"])
  | orderedBy => some (words ["user", "system"])
  | key => some (followed Form.nodeName (many (followed Form.gap Form.nodeName)))
  | unique => some (followed Form.descendant (many (followed Form.gap Form.descendant)))
  | modifier => some (Pattern.text "invert-match")
  | nodeId => some (either Form.absolute Form.descendant)
  | descendantNodeId => some Form.descendant
  | absoluteNodeId => some Form.absolute
  | deviate => some (words ["add", "delete", "replace", "not-supported"])
  | path => some (anyOf [Form.absolutePath, Form.relativePath, Form.followingPath])
  | text | fractionDigits | enumName | featureExpression => none

/-- Whether a number of digits behind a point is possible. Blanks around it do not count. -/
def isFractionDigits (cs : List Char) : Bool :=
  match Text.trimChars cs with
  | '+' :: rest => isSmall rest
  | cs => isSmall cs
where
  /-- Whether digits are those of a number from 1 to 18. -/
  isSmall (cs : List Char) : Bool :=
    match (String.ofList cs).toNat? with
    | some n => !cs.isEmpty && 1 ≤ n && n ≤ 18
    | none => false

/-- **Whether an argument is of a kind.** -/
def accepts (kind : ArgumentKind) (argument : String) : Bool :=
  let cs := argument.toList
  match kind.pattern? with
  | some p =>
    p.accepts cs || p.accepts (Text.withoutLineFeed cs)
  | none =>
    match kind with
    | fractionDigits => isFractionDigits cs
    | enumName =>
      match cs.head?, cs.getLast? with
      | some first, some last => !Text.isBlank first && !Text.isBlank last
      | _, _ => false
    | featureExpression => (FeatureExpression.ofText? argument).isSome
    | _ => true

end ArgumentKind

end SchemaAssembly.Yang
