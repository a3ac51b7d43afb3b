import SchemaAssembly.Text.Hex
import SchemaAssembly.Yaml.Token

/-!
# Written scalars

How the text of a scalar is written: plain, between quotes, or as a block of lines. Plain and quoted
scalars may go over several lines; a single line break then stands for a space, and of more than one
the first is dropped.
-/

namespace SchemaAssembly.Yaml

/-- What a run of line breaks stands for inside a folded text. -/
def fold (first : Char) (more : List Char) : List Char :=
  if first = '\n' then (if more.isEmpty then [' '] else more) else first :: more

/-! ### Plain scalars -/

/-- Where the reader of a plain scalar stands. -/
inductive PlainState where
  /-- inside a word -/
  | inWord
  /-- behind blanks on a line -/
  | afterBlanks (blanks : List Char)
  /-- behind line breaks -/
  | afterBreaks (first : Char) (more : List Char)

/-- Whether a plain scalar may start here. -/
def startsPlain (inFlow : Bool) (c next : Char) : Bool :=
  let special := "-?:,[]\x7b\x7d#&*!|>'\"%@`".toList
  (!endsWord c && !special.contains c) ||
    (!endsWord next && (c == '-' || (!inFlow && (c == '?' || c == ':'))))

/-- Whether a plain scalar ends before the character. -/
def endsPlain (inFlow : Bool) (c next : Char) : Bool :=
  endsWord c ||
    (c == ':' && (endsWord next || (inFlow && ",[]\x7b\x7d".toList.contains next))) ||
    (inFlow && ",?[]\x7b\x7d".toList.contains c)

/-- **Reading a plain scalar** that is nested at least `indent` deep. Gives its text, what follows,
and whether that is on a later line. -/
def readPlain (inFlow : Bool) (indent : Int) (acc : List Char) :
    PlainState → List Placed → List Char × List Placed × Bool
  | .afterBreaks .., [] => (acc.reverse, [], true)
  | _, [] => (acc.reverse, [], false)
  | .inWord, p :: rest =>
    if p.char == ' ' then readPlain inFlow indent acc (.afterBlanks [' ']) rest
    else if isBreak p.char then
      readPlain inFlow indent acc (.afterBreaks (breakChar p.char) []) rest
    else if endsPlain inFlow p.char (peek rest) then (acc.reverse, p :: rest, false)
    else readPlain inFlow indent (p.char :: acc) .inWord rest
  | .afterBlanks blanks, p :: rest =>
    if p.char == ' ' then readPlain inFlow indent acc (.afterBlanks (' ' :: blanks)) rest
    else if isBreak p.char then
      readPlain inFlow indent acc (.afterBreaks (breakChar p.char) []) rest
    else if p.char == '#' || (!inFlow && (p.column : Int) < indent) ||
        endsPlain inFlow p.char (peek rest) then (acc.reverse, p :: rest, false)
    else readPlain inFlow indent (p.char :: (blanks ++ acc)) .inWord rest
  | .afterBreaks first more, p :: rest =>
    if p.column == 0 && startsSeparator (p :: rest) then (acc.reverse, p :: rest, true)
    else if p.char == ' ' then readPlain inFlow indent acc (.afterBreaks first more) rest
    else if isBreak p.char then
      readPlain inFlow indent acc (.afterBreaks first (more ++ [breakChar p.char])) rest
    else if p.char == '#' || (!inFlow && (p.column : Int) < indent) ||
        endsPlain inFlow p.char (peek rest) then (acc.reverse, p :: rest, true)
    else readPlain inFlow indent (p.char :: ((fold first more).reverse ++ acc)) .inWord rest

/-! ### Quoted scalars -/

/-- Where the reader of a quoted scalar stands. -/
inductive QuotedState where
  /-- in the text -/
  | inText
  /-- behind blanks on a line -/
  | afterBlanks (blanks : List Char)
  /-- behind line breaks; the first one was escaped if it is missing here -/
  | afterBreaks (first : Option Char) (more : List Char)
  /-- behind a quote that may be the first of two -/
  | afterQuote
  /-- behind a backslash -/
  | afterBackslash
  /-- inside the number of an escaped character -/
  | inNumber (digits value : Nat)

/-- The characters that have an escape of one letter. -/
def escapes : List (Char × Char) :=
  [('0', '\x00'), ('a', '\x07'), ('b', '\x08'), ('t', '\t'), ('\t', '\t'), ('n', '\n'),
   ('v', '\x0b'), ('f', '\x0c'), ('r', '\r'), ('e', '\x1b'), (' ', ' '), ('"', '"'), ('\\', '\\'),
   ('/', '/'), ('N', '\u0085'), ('_', '\u00a0'), ('L', '\u2028'), ('P', '\u2029')]

/-- How many digits the number of an escaped character has. -/
def numberLength : Char → Option Nat
  | 'x' => some 2
  | 'u' => some 4
  | 'U' => some 8
  | _ => none

/-- One character of the text of a quoted scalar; nothing if it cannot stand there. The result is
`none` inside when the scalar is over. -/
def quotedText (double : Bool) (acc : List Char) (c : Char) :
    Option (Option (List Char × QuotedState)) :=
  if c == endMark then none
  else if c == ' ' || c == '\t' then some (some (acc, .afterBlanks [c]))
  else if isBreak c then some (some (acc, .afterBreaks (breakChar c) []))
  else if double then
    if c == '"' then some none
    else if c == '\\' then some (some (acc, .afterBackslash))
    else some (some (c :: acc, .inText))
  else if c == '\'' then some (some (acc, .afterQuote))
  else some (some (c :: acc, .inText))

/-- **Reading a quoted scalar** behind its opening quote. Gives its text and what follows. -/
def readQuoted (double : Bool) (acc : List Char) :
    QuotedState → List Placed → Option (List Char × List Placed)
  | _, [] => none
  | .inText, p :: rest => do
    match ← quotedText double acc p.char with
    | none => some (acc.reverse, rest)
    | some (acc, state) => readQuoted double acc state rest
  | .afterQuote, p :: rest =>
    if p.char == '\'' then readQuoted double ('\'' :: acc) .inText rest
    else some (acc.reverse, p :: rest)
  | .afterBlanks blanks, p :: rest =>
    if p.char == ' ' || p.char == '\t' then
      readQuoted double acc (.afterBlanks (p.char :: blanks)) rest
    else if isBreak p.char then
      readQuoted double acc (.afterBreaks (breakChar p.char) []) rest
    else do
      match ← quotedText double (blanks ++ acc) p.char with
      | none => some ((blanks ++ acc).reverse, rest)
      | some (acc, state) => readQuoted double acc state rest
  | .afterBreaks first more, p :: rest =>
    if p.column == 0 && startsSeparator (p :: rest) then none
    else if p.char == ' ' || p.char == '\t' then
      readQuoted double acc (.afterBreaks first more) rest
    else if isBreak p.char then
      readQuoted double acc (.afterBreaks first (more ++ [breakChar p.char])) rest
    else do
      let folded := match first with
        | some first => fold first more
        | none => more
      let acc := folded.reverse ++ acc
      match ← quotedText double acc p.char with
      | none => some (acc.reverse, rest)
      | some (acc, state) => readQuoted double acc state rest
  | .afterBackslash, p :: rest =>
    match escapes.find? (·.1 == p.char) with
    | some (_, meant) => readQuoted double (meant :: acc) .inText rest
    | none =>
      match numberLength p.char with
      | some digits => readQuoted double acc (.inNumber digits 0) rest
      | none =>
        if isBreak p.char then readQuoted double acc (.afterBreaks none []) rest else none
  | .inNumber digits value, p :: rest => do
    let value := value * 16 + (← Text.hexValue? p.char)
    if digits ≤ 1 then readQuoted double (Char.ofNat value :: acc) .inText rest
    else readQuoted double acc (.inNumber (digits - 1) value) rest

/-! ### Block scalars -/

/-- What becomes of the line breaks at the end of a block. -/
inductive Chomping where
  /-- one is kept -/
  | clip
  /-- none is kept -/
  | strip
  /-- all are kept -/
  | keep
  deriving DecidableEq, Repr

/-- What the first line of a block says about it. -/
structure BlockHeader where
  /-- how the block ends -/
  chomping : Chomping
  /-- how deep it is indented, if that is said -/
  indent : Option Nat
  deriving DecidableEq, Repr

/-- How a character says that a block ends. -/
def chomping? : Char → Option Chomping
  | '+' => some .keep
  | '-' => some .strip
  | _ => none

/-- How deep a character says that a block is indented: one to nine. -/
def indent? (c : Char) : Option Nat :=
  if '1' ≤ c ∧ c ≤ '9' then some (c.toNat - '0'.toNat) else none

/-- The line behind a header: nothing but blanks and a comment. Gives the next line. -/
def skipToNextLine (ps : List Placed) : Option (List Placed) :=
  let rest := ps.dropWhile (·.char == ' ')
  let rest := if peek rest == '#' then rest.dropWhile (fun p => !endsLine p.char) else rest
  match rest with
  | [] => some []
  | p :: more =>
    if isBreak p.char then some more else if p.char == endMark then some (p :: more) else none

/-- Reading the header of a block, with what follows on the next line. -/
def readHeader (ps : List Placed) : Option (BlockHeader × List Placed) := do
  let (header, rest) :=
    match chomping? (peek ps), indent? (peek ps) with
    | some chomping, _ =>
      match indent? (peek (ps.drop 1)) with
      | some indent => (⟨chomping, some indent⟩, ps.drop 2)
      | none => (⟨chomping, none⟩, ps.drop 1)
    | none, some indent =>
      match chomping? (peek (ps.drop 1)) with
      | some chomping => (⟨chomping, some indent⟩, ps.drop 2)
      | none => (⟨.clip, some indent⟩, ps.drop 1)
    | none, none => ((⟨.clip, none⟩ : BlockHeader), ps)
  if peek rest == ' ' || endsLine (peek rest) then
    return (header, ← skipToNextLine rest)
  else none

/-- The empty lines that a block begins with: their breaks, the deepest column on the way, and what
follows. -/
def leadingLines (breaks : List Char) (deepest : Nat) :
    List Placed → List Char × Nat × List Placed
  | [] => (breaks, deepest, [])
  | p :: rest =>
    if p.char == ' ' then leadingLines breaks (max deepest (p.column + 1)) rest
    else if isBreak p.char then leadingLines (breaks ++ [breakChar p.char]) deepest rest
    else (breaks, deepest, p :: rest)

/-- The empty lines before a line of a block that is indented to a known depth. -/
def emptyLines (indent : Nat) (breaks : List Char) : List Placed → List Char × List Placed
  | [] => (breaks, [])
  | p :: rest =>
    if p.char == ' ' && p.column < indent then emptyLines indent breaks rest
    else if isBreak p.char then emptyLines indent (breaks ++ [breakChar p.char]) rest
    else (breaks, p :: rest)

/-- Where the reader of a block stands. -/
inductive BlockState where
  /-- on a line, and whether that starts with no blank -/
  | onLine (flush : Bool)
  /-- behind the break of a line, and behind those of empty lines -/
  | afterBreaks (flush : Bool) (first : Char) (more : List Char)

/-- The end of a block. -/
def chomp (how : Chomping) (lineBreak more : List Char) : List Char :=
  match how with
  | .strip => []
  | .clip => lineBreak
  | .keep => lineBreak ++ more

/-- Reading the lines of a block. Gives its text and what follows. -/
def readLines (folded : Bool) (how : Chomping) (indent : Nat) (acc : List Char) :
    BlockState → List Placed → List Char × List Placed
  | _, [] => (acc.reverse, [])
  | .onLine flush, p :: rest =>
    if p.char == endMark then (acc.reverse, p :: rest)
    else if isBreak p.char then
      readLines folded how indent acc (.afterBreaks flush (breakChar p.char) []) rest
    else readLines folded how indent (p.char :: acc) (.onLine flush) rest
  | .afterBreaks flush first more, p :: rest =>
    if p.char == ' ' && p.column < indent then
      readLines folded how indent acc (.afterBreaks flush first more) rest
    else if isBreak p.char then
      readLines folded how indent acc (.afterBreaks flush first (more ++ [breakChar p.char])) rest
    else if p.column == indent && p.char != endMark then
      let flushNow := !(p.char == ' ' || p.char == '\t')
      let joined :=
        if folded && first == '\n' && flush && flushNow then
          (if more.isEmpty then [' '] else more)
        else first :: more
      readLines folded how indent (p.char :: (joined.reverse ++ acc)) (.onLine flushNow) rest
    else (acc.reverse ++ chomp how [first] more, p :: rest)

/-- **Reading a block scalar** behind its indicator, inside a block that is indented to `outer`.
Gives its text and what follows. -/
def readBlock (folded : Bool) (outer : Int) (ps : List Placed) :
    Option (List Char × List Placed) := do
  let (header, rest) ← readHeader ps
  let least := max 1 (outer + 1).toNat
  let (indent, breaks, rest) :=
    match header.indent with
    | some more =>
      let indent := least + more - 1
      (indent, emptyLines indent [] rest)
    | none =>
      let (breaks, deepest, rest) := leadingLines [] 0 rest
      (max least deepest, breaks, rest)
  match rest with
  | p :: more =>
    if p.column == indent && p.char != endMark then
      let flush := !(p.char == ' ' || p.char == '\t')
      return readLines folded header.chomping indent (p.char :: breaks.reverse) (.onLine flush) more
    else return (chomp header.chomping [] breaks, p :: more)
  | [] => return (chomp header.chomping [] breaks, [])

end SchemaAssembly.Yaml
