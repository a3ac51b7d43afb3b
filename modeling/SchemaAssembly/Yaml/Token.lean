/-!
# YAML tokens

A YAML text as a list of tokens, and the characters it is read from. Each character comes with its
place, because in YAML the column decides how deep a line is nested.
-/

namespace SchemaAssembly.Yaml

/-- A character with its place in the text. -/
structure Placed where
  /-- the character -/
  char : Char
  /-- the line, counted from zero -/
  line : Nat
  /-- the column, counted from zero -/
  column : Nat
  /-- how many characters come before it -/
  index : Nat
  deriving DecidableEq, Repr

/-- What stands behind the last character. -/
def endMark : Char := '\x00'

/-- Whether the character ends a line. -/
def isBreak (c : Char) : Bool :=
  c == '\n' || c == '\r' || c == '\u0085' || c == '\u2028' || c == '\u2029'

/-- Whether a line is over at the character. -/
def endsLine (c : Char) : Bool :=
  c == endMark || isBreak c

/-- Whether a word is over at the character. -/
def endsWord (c : Char) : Bool :=
  c == ' ' || c == '\t' || endsLine c

/-- What a line break stands for: a line feed, except for the separators of lines and paragraphs. -/
def breakChar (c : Char) : Char :=
  if c == '\u2028' || c == '\u2029' then c else '\n'

/-- Whether YAML allows the character at all. -/
def isAllowed (c : Char) : Bool :=
  let code := c.toNat
  code == 9 || code == 10 || code == 13 || (0x20 ≤ code && code ≤ 0x7E) || code == 0x85 ||
    (0xA0 ≤ code && code ≤ 0xD7FF) || (0xE000 ≤ code && code ≤ 0xFFFD) || 0x10000 ≤ code

/-- Whether the character takes a column: a byte order mark does not. -/
def takesColumn (c : Char) : Bool :=
  c != '\uFEFF'

/-- The characters with their places, from a place on, and the mark of the end behind them. -/
def placeFrom (line column index : Nat) : List Char → List Placed
  | [] => [⟨endMark, line, column, index⟩]
  | c :: rest =>
    ⟨c, line, column, index⟩ ::
      if isBreak c then placeFrom (line + 1) 0 (index + 1) rest
      else placeFrom line (if takesColumn c then column + 1 else column) (index + 1) rest

/-- The next character. -/
def peek (ps : List Placed) : Char :=
  (ps.head?.map (·.char)).getD endMark

/-- Whether a line begins here that starts or ends a document. -/
def startsSeparator (ps : List Placed) : Bool :=
  let mark := (ps.take 3).map (·.char)
  (mark == ['-', '-', '-'] || mark == ['.', '.', '.']) && endsWord (peek (ps.drop 3))

/-- What a line that starts with a percent sign says. -/
inductive Directive where
  /-- the version -/
  | version
  /-- what a handle of tags stands for -/
  | handle (name start : String)
  /-- something else, which does not count -/
  | other
  deriving DecidableEq, Repr

/-- A token. -/
inductive Token where
  /-- a line that starts with a percent sign -/
  | directive (directive : Directive)
  /-- three dashes -/
  | documentStart
  /-- three dots -/
  | documentEnd
  /-- the start of a sequence by indentation -/
  | blockSequenceStart
  /-- the start of a mapping by indentation -/
  | blockMappingStart
  /-- the end of what was started by indentation -/
  | blockEnd
  /-- an opening bracket -/
  | flowSequenceStart
  /-- a closing bracket -/
  | flowSequenceEnd
  /-- an opening brace -/
  | flowMappingStart
  /-- a closing brace -/
  | flowMappingEnd
  /-- the dash before an item -/
  | blockEntry
  /-- a comma -/
  | flowEntry
  /-- a key follows -/
  | key
  /-- the value of a key follows -/
  | value
  /-- a reference to an anchor -/
  | alias (name : String)
  /-- a name for what follows -/
  | anchor (name : String)
  /-- what kind of thing follows: what a handle, if there is one, stands for and the suffix -/
  | tag (handle : Option String) (suffix : String)
  /-- a text, and whether it is written without quotes -/
  | scalar (plain : Bool) (text : String)
  deriving DecidableEq, Repr

end SchemaAssembly.Yaml
