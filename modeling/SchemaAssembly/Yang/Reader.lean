import SchemaAssembly.Text.Blank
import SchemaAssembly.Text.Lines
import SchemaAssembly.Yang.Statement

/-!
# Reading YANG text

The characters of a text are read together with their places. Blanks and comments may stand between
the parts of a statement. An argument is written without quotes, or as quoted pieces joined by plus
signs; only double quotes know escapes, and only they drop the blanks that a text has because it is
indented. A statement stands on the line of its unquoted argument or, without one, on the line of
what follows its keyword and argument.

- `Reading.ofText` reads a text.
-/

namespace SchemaAssembly.Yang

/-- A character and its place. -/
structure Mark where
  /-- the character -/
  char : Char
  /-- the line, counted from one -/
  line : Nat
  /-- how many characters of the line stand before it -/
  column : Nat
  deriving Repr

/-- Adds the columns to the characters of a text, given the line and the column that come next. -/
def withColumns (line column : Nat) : List (Char × Nat) → List Mark
  | [] => []
  | (c, number) :: rest =>
    let column := if number = line then column else 0
    ⟨c, number, column⟩ :: withColumns number (column + 1) rest

/-- The characters of a text with their places. -/
def marks (text : String) : List Mark :=
  withColumns 1 0 (Text.numberLines 1 text.toList)

/-- The number of lines of a text. -/
def lineCount (text : String) : Nat :=
  (((Text.numberLines 1 text.toList).getLast?).map (·.2)).getD 0

/-- What is wrong with the form of a text. -/
inductive FormFault where
  /-- the text ends inside a statement -/
  | endOfText
  /-- no keyword where one must be -/
  | noKeyword (found : String)
  /-- a keyword runs into something else -/
  | noSeparator (found : String)
  /-- a sign stands where an argument must be -/
  | noArgument (found : Char)
  /-- no quoted text behind a plus sign -/
  | notQuoted
  /-- an escape that has no meaning -/
  | badEscape (found : Char)
  /-- a statement has no end -/
  | unterminated (keyword : String) (found : Char)
  /-- something follows the outermost statement -/
  | trailing
  deriving DecidableEq, Repr

/-- A keyword as a message about an unfinished statement shows it: the parts of a qualified one are
shown as a pair. -/
def shownPair (keyword : String) : String :=
  match splitQualified keyword with
  | some (first, second) => "('" ++ first ++ "', '" ++ second ++ "')"
  | none => keyword

/-- The fault in words. -/
def FormFault.text : FormFault → String
  | endOfText => "premature end of file"
  | noKeyword found => "syntax error: illegal keyword: " ++ found
  | noSeparator found => "syntax error: expected separator, got: \"" ++ found ++ "...\""
  | noArgument found => "expected an argument for keyword \"" ++ String.singleton found ++ "\""
  | notQuoted => "expected quoted string after '+' operator"
  | badEscape found =>
    "the escape sequence \"\\" ++ String.singleton found ++
      "\" is illegal in double quoted strings"
  | unterminated keyword found =>
    "unterminated statement definition for keyword \"" ++ shownPair keyword ++
      "\", looking at " ++ String.singleton found
  | trailing => "trailing garbage after module"

/-- Why reading stops. -/
inductive Halt where
  /-- the text ends between the parts of a statement -/
  | endOfText
  /-- the text ends inside a word -/
  | cutOff (line : Nat)
  /-- something is wrong on a line -/
  | fault (line : Nat) (fault : FormFault)
  deriving DecidableEq, Repr

/-- What remains to be read. -/
structure Remaining where
  /-- the text -/
  marks : List Mark
  /-- whether escapes without a meaning are wrong -/
  isStrict : Bool
  /-- how many statements have begun -/
  count : Nat

/-- A step of reading. -/
abbrev Read := StateT Remaining (Except Halt)

namespace Read

/-- Something is wrong. -/
def fault {α : Type} (line : Nat) (fault : FormFault) : Read α :=
  throw (.fault line fault)

/-- Goes on behind some characters. -/
def goOn (rest : List Mark) : Read Unit :=
  modify fun s => { s with marks := rest }

/-! ### Blanks and comments -/

/-- What is being passed over. -/
inductive Gap where
  /-- blanks -/
  | blanks
  /-- a comment up to the end of the line -/
  | line (number : Nat)
  /-- a comment up to its closing sign -/
  | block
  deriving DecidableEq, Repr

/-- The text behind a gap. The sign that opens a block comment may be part of the one that closes
it. -/
def afterGap : Gap → List Mark → List Mark
  | _, [] => []
  | .block, ⟨'*', _, _⟩ :: ⟨'/', _, _⟩ :: rest => afterGap .blanks rest
  | .block, _ :: rest => afterGap .block rest
  | .line number, _ :: rest =>
    afterGap (if (rest.head?.map (·.line)) = some number then .line number else .blanks) rest
  | .blanks, m :: rest =>
    if Text.isBlank m.char then afterGap .blanks rest
    else if m.char = '/' then
      match rest with
      | ⟨'/', _, _⟩ :: _ => afterGap (.line m.line) rest
      | ⟨'*', _, _⟩ :: _ => afterGap .block rest
      | _ => m :: rest
    else m :: rest

/-- The next character that is neither blank nor in a comment. It is not passed over. -/
def peek : Read Mark := do
  let rest := afterGap .blanks (← get).marks
  goOn rest
  match rest with
  | [] => throw .endOfText
  | m :: _ => return m

/-- Passes over a character. -/
def drop : Read Unit :=
  modify fun s => { s with marks := s.marks.drop 1 }

/-! ### Keywords -/

/-- Whether an identifier may begin with the character. -/
def beginsIdentifier (c : Char) : Bool :=
  c.isAlpha || c == '_'

/-- Whether an identifier may go on with the character. -/
def continuesIdentifier (c : Char) : Bool :=
  c.isAlphanum || c == '_' || c == '-' || c == '.'

/-- The identifier that a text begins with, and the text behind it. -/
def identifier? : List Mark → Option (List Char × List Mark)
  | m :: rest =>
    if beginsIdentifier m.char then
      some (m.char :: (rest.takeWhile (continuesIdentifier ·.char)).map (·.char),
        rest.dropWhile (continuesIdentifier ·.char))
    else none
  | [] => none

/-- The keyword that a text begins with, qualified or not, and the text behind it. -/
def keyword? (text : List Mark) : Option (String × List Mark) :=
  (identifier? text).map fun (first, behind) =>
    match behind with
    | ⟨':', _, _⟩ :: rest =>
      match identifier? rest with
      | some (second, behind) => (String.ofList (first ++ ':' :: second), behind)
      | none => (String.ofList first, behind)
    | _ => (String.ofList first, behind)

/-- The first line of a text, with its end. -/
def firstLine : List Mark → List Char
  | [] => []
  | m :: rest => m.char :: (rest.takeWhile (·.line = m.line)).map (·.char)

/-- Whether a text begins with what may separate a keyword from what follows. -/
def beginsSeparator : List Mark → Bool
  | [] => false
  | m :: rest =>
    Text.isBlank m.char || m.char = ';' || m.char = '{' ||
      (m.char = '/' &&
        match rest with
        | next :: _ => next.char = '/' || next.char = '*'
        | [] => false)

/-- How much of a text is shown where a separator is missing. -/
def shownLength : Nat := 6

/-- A keyword. -/
def keyword : Read String := do
  let first ← peek
  match keyword? (← get).marks with
  | none => fault first.line (.noKeyword (String.ofList (firstLine (← get).marks)))
  | some (_, []) => throw (.cutOff first.line)
  | some (word, next :: rest) =>
    if beginsSeparator (next :: rest) then
      goOn (next :: rest)
      return word
    else
      fault next.line
        (.noSeparator (String.ofList ((firstLine (next :: rest)).take shownLength)))

/-! ### Arguments -/

/-- What a character stands for behind a backslash. -/
def escaped? : Char → Option Char
  | 'n' => some '\n'
  | 't' => some '\t'
  | '"' => some '"'
  | '\\' => some '\\'
  | _ => none

/-- A character between double quotes. -/
structure QuotedMark where
  /-- the character -/
  char : Char
  /-- its line -/
  line : Nat
  /-- whether it has been written as an escape -/
  isEscape : Bool

/-- The characters up to a closing double quote, and the text that begins with it. -/
def untilDoubleQuote (isStrict : Bool) : List Mark → Except Halt (List QuotedMark × List Mark)
  | [] => .error .endOfText
  | m :: rest =>
    if m.char = '"' then .ok ([], m :: rest)
    else if m.char = '\\' then
      match rest with
      | [] => .error .endOfText
      | next :: behind =>
        match escaped? next.char with
        | some c => do
          let (cs, behind) ← untilDoubleQuote isStrict behind
          return (⟨c, m.line, true⟩ :: cs, behind)
        | none =>
          if isStrict then .error (.fault m.line (.badEscape next.char))
          else do
            let (cs, behind) ← untilDoubleQuote isStrict (next :: behind)
            return (⟨m.char, m.line, false⟩ :: cs, behind)
    else do
      let (cs, behind) ← untilDoubleQuote isStrict rest
      return (⟨m.char, m.line, false⟩ :: cs, behind)

/-- The lines of some characters. -/
def inLines (cs : List QuotedMark) : List (List QuotedMark) :=
  cs.splitBy fun a b => a.line = b.line

/-- A line without the blanks of its indentation, of which at most `most` are dropped. The end of
the line is kept. -/
def withoutIndentation (most : Nat) (isWhole : Bool) (line : List QuotedMark) : List QuotedMark :=
  let blanks := (line.takeWhile fun c => !c.isEscape && Text.isBlank c.char).length
  let dropped := min most blanks
  line.drop (if isWhole && dropped = line.length then line.length - 1 else dropped)

/-- A line without the blanks before its end. -/
def withoutFinalBlanks (line : List QuotedMark) : List QuotedMark :=
  let back := line.reverse
  let ending := match back with
    | a :: b :: _ => if b.char = '\r' && !b.isEscape && a.char = '\n' then 2 else 1
    | _ => 1
  let isDropped := fun (c : QuotedMark) => !c.isEscape && (c.char = ' ' || c.char = '\t')
  ((back.drop ending).dropWhile isDropped).reverse ++ (back.take ending).reverse

/-- What stands between double quotes: lines lose their final blanks, and all but the first the
blanks up to the column behind the opening quote. The last line ends on line `last`. -/
def doubleQuoted (column first last : Nat) (cs : List QuotedMark) : List Char :=
  (inLines cs).flatMap fun line =>
    let number := (line.head?.map (·.line)).getD first
    let line := if number = first then line
      else withoutIndentation (column + 1) (number < last) line
    (if number < last then withoutFinalBlanks line else line).map (·.char)

/-- The characters up to a closing single quote, and the text behind it. -/
def singleQuoted? : List Mark → Option (List Char × List Mark)
  | [] => none
  | m :: rest =>
    if m.char = '\'' then some ([], rest)
    else (singleQuoted? rest).map fun (cs, behind) => (m.char :: cs, behind)

/-- A quoted text. -/
def quoted (quote : Mark) : Read (List Char) := do
  drop
  let s ← get
  if quote.char = '"' then
    match untilDoubleQuote s.isStrict s.marks with
    | .error halt => throw halt
    | .ok (cs, behind) =>
      let last := (behind.head?.map (·.line)).getD quote.line
      goOn (behind.drop 1)
      return doubleQuoted quote.column quote.line last cs
  else
    match singleQuoted? s.marks with
    | none => throw .endOfText
    | some (cs, behind) =>
      goOn behind
      return cs

/-- A text without quotes, and what follows it. -/
def unquoted : List Mark → List Char × List Mark
  | [] => ([], [])
  | m :: rest =>
    let next := rest.head?.map (·.char)
    let isComment := (m.char = '/' && (next = some '/' || next = some '*')) ||
      (m.char = '*' && next = some '/')
    let isSign := [';', '{', '}', '"', '\''].contains m.char
    if Text.isBlank m.char || isSign || isComment then ([], m :: rest)
    else
      let (cs, behind) := unquoted rest
      (m.char :: cs, behind)

/-- An argument. It has at most `pieces` quoted pieces. -/
def argument : (pieces : Nat) → (needsQuote : Bool) → Read (List Char)
  | 0, _ => throw .endOfText
  | pieces + 1, needsQuote => do
    let first ← peek
    if first.char = ';' || first.char = '{' || first.char = '}' then
      fault first.line (.noArgument first.char)
    else if first.char = '"' || first.char = '\'' then
      let cs ← quoted first
      let next ← peek
      if next.char = '+' then
        drop
        return cs ++ (← argument pieces true)
      else return cs
    else if needsQuote then fault first.line .notQuoted
    else
      let (cs, behind) := unquoted (← get).marks
      if behind.isEmpty then throw (.cutOff first.line)
      goOn behind
      return cs

/-! ### Statements -/

/-- What stands before the end or the body of a statement. -/
structure Heading where
  /-- the keyword -/
  keyword : String
  /-- the argument -/
  argument : Option String
  /-- the line of the statement -/
  line : Nat
  /-- the number of the statement -/
  number : Nat

/-- The line on which the last character was read, given the text before and behind it. -/
def lineBefore (before behind : List Mark) : Nat :=
  ((before.take (before.length - behind.length)).getLast?.map (·.line)).getD 0

/-- The heading of a statement. From the statement on that says so, the text is strict about
escapes. -/
def heading : Read Heading := do
  let keyword ← keyword
  let next ← peek
  let argument ←
    if next.char = ';' || next.char = '{' then pure none
    else
      let cs ← argument ((← get).marks.length + 1) false
      pure (some (String.ofList cs))
  let s ← get
  let line :=
    match argument with
    | none => next.line
    | some _ =>
      if next.char = '"' || next.char = '\'' then (s.marks.head?.map (·.line)).getD next.line
      else next.line
  let isStrict := s.isStrict || (keyword = "yang-version" && argument = some "1.1")
  set { s with isStrict, count := s.count + 1 }
  return { keyword, argument, line, number := s.count }

mutual

/-- The rest of a statement behind its heading. Nothing in it is nested deeper than `depth`. -/
def body : (depth : Nat) → Heading → Read Statement
  | 0, _ => throw .endOfText
  | depth + 1, h => do
    let next ← peek
    if next.char = ';' then
      drop
      return ⟨h.keyword, h.argument, h.line, h.number, []⟩
    else if next.char = '{' then
      drop
      return ⟨h.keyword, h.argument, h.line, h.number, ← statements depth⟩
    else fault next.line (.unterminated h.keyword next.char)

/-- The statements up to a closing brace, which is passed over. -/
def statements : (depth : Nat) → Read (List Statement)
  | 0 => throw .endOfText
  | depth + 1 => do
    let next ← peek
    if next.char = '}' then
      drop
      return []
    else
      let first ← body depth (← heading)
      return first :: (← statements depth)

end

end Read

/-! ### Texts -/

/-- What reading a text gives. -/
structure Reading where
  /-- the statement, if nothing is wrong with the form of the text -/
  statement : Option Statement
  /-- the faults with their lines -/
  faults : List (Nat × FormFault)
  /-- whether the outermost statement has begun -/
  hasBegun : Bool

namespace Reading

/-- The faults that a halt is about. -/
def faultsOf (text : String) : Halt → List (Nat × FormFault)
  | .endOfText => [(lineCount text, .endOfText)]
  | .cutOff line => [(line, .endOfText)]
  | .fault line fault => [(line, fault)]

/-- What is wrong with the text behind the outermost statement. Blanks and comments may stand there,
and also a statement that has no end. -/
def faultsBehind (depth : Nat) (rest : Remaining) : List (Nat × FormFault) :=
  match ((do Read.body depth (← Read.heading)) : Read Statement).run rest with
  | .ok (_, behind) => [(Read.lineBefore rest.marks behind.marks, .trailing)]
  | .error .endOfText => []
  | .error (.cutOff line) => [(line, .trailing)]
  | .error (.fault line fault) => [(line, fault), (line, .trailing)]

/-- **Reading a text.** Each statement takes a character at least, so the length of the text bounds
every depth. -/
def ofText (text : String) : Reading :=
  let marks := marks text
  let depth := 2 * marks.length + 2
  match Read.heading.run ⟨marks, false, 0⟩ with
  | .error halt => ⟨none, faultsOf text halt, false⟩
  | .ok (heading, rest) =>
    match (Read.body depth heading).run rest with
    | .error halt => ⟨none, faultsOf text halt, true⟩
    | .ok (statement, rest) =>
      match faultsBehind depth rest with
      | [] => ⟨some statement, [], true⟩
      | faults => ⟨none, faults, true⟩

end Reading

end SchemaAssembly.Yang
