import SchemaAssembly.Text.Utf8
import SchemaAssembly.Yaml.Written

/-!
# From characters to tokens

Tokens are found one after the other. Which nesting a line has follows from its column, and that a
text was a key is only known when its colon is met: until then it is remembered as a possible key,
and the colon puts the tokens that a key starts with before it.

- `Token.ofText?` is the list of tokens of a text, if it has one.
-/

namespace SchemaAssembly.Yaml

/-- A text that may turn out to be a key. -/
structure PossibleKey where
  /-- how many tokens come before it -/
  position : Nat
  /-- whether nothing else can stand there -/
  required : Bool
  /-- where it starts -/
  start : Placed

/-- What has been read, and what is known about the place where the next token starts. -/
structure Progress where
  /-- what is left of the text -/
  rest : List Placed
  /-- the tokens found, the last one first -/
  tokens : List Token := []
  /-- how many brackets and braces are open -/
  flow : Nat := 0
  /-- the column of the block the next token is in, minus one outside of any -/
  indent : Int := -1
  /-- the columns of the blocks around it, innermost first -/
  outer : List Int := []
  /-- whether the next token may start a key -/
  keyAllowed : Bool := true
  /-- the possible keys, by the number of brackets and braces open around them -/
  keys : List (Nat × PossibleKey) := []

namespace Progress

/-- The place of the next character. -/
def place (s : Progress) : Placed :=
  s.rest.headD ⟨endMark, 0, 0, 0⟩

/-- The column of the next character. -/
def column (s : Progress) : Int :=
  s.place.column

/-- A token more. -/
def add (s : Progress) (token : Token) : Progress :=
  { s with tokens := token :: s.tokens }

/-- The longest distance, in characters, between the start of a key and its colon. -/
def longestKey : Nat := 1024

/-- Forgets the possible keys whose colon can no longer come: it must stand on the same line. -/
def dropStaleKeys (s : Progress) : Option Progress :=
  let isStale := fun (key : PossibleKey) =>
    key.start.line != s.place.line || s.place.index - key.start.index > longestKey
  if s.keys.any fun (_, key) => isStale key && key.required then none
  else some { s with keys := s.keys.filter fun (_, key) => !isStale key }

/-- Forgets the possible key among the brackets and braces that are open. -/
def removeKey (s : Progress) : Option Progress :=
  if s.keys.any fun (flow, key) => flow == s.flow && key.required then none
  else some { s with keys := s.keys.filter fun (flow, _) => flow != s.flow }

/-- Remembers that what starts here may be a key. -/
def saveKey (s : Progress) : Option Progress :=
  if s.keyAllowed then do
    let s ← s.removeKey
    let key : PossibleKey :=
      { position := s.tokens.length
        required := s.flow == 0 && s.indent == s.column
        start := s.place }
    return { s with keys := (s.flow, key) :: s.keys }
  else some s

/-- Ends the blocks that are indented deeper than a column. -/
def unwindFrom (column indent : Int) (tokens : List Token) :
    (outer : List Int) → Int × List Int × List Token
  | [] => (indent, [], tokens)
  | next :: outer =>
    if column < indent then unwindFrom column next (.blockEnd :: tokens) outer
    else (indent, next :: outer, tokens)

/-- Ends the blocks that are indented deeper than a column, unless brackets or braces are open. -/
def unwind (s : Progress) (column : Int) : Progress :=
  if s.flow != 0 then s
  else
    let (indent, outer, tokens) := unwindFrom column s.indent s.tokens s.outer
    { s with indent, outer, tokens }

/-- Puts a token before the last ones, so that `position` come before it. -/
def insert (s : Progress) (position : Nat) (token : Token) : Progress :=
  { s with tokens := s.tokens.insertIdx (s.tokens.length - position) token }

/-- Starts a block at a column, unless one is already there; its token comes behind `position`
others. -/
def startBlock (s : Progress) (column : Int) (position : Nat) (token : Token) : Progress :=
  if s.indent < column then
    ({ s with indent := column, outer := s.indent :: s.outer }).insert position token
  else s

/-- What follows blanks, comments and line breaks, and whether there is a line break among them. -/
def skipBlanks (comment broke : Bool) : List Placed → List Placed × Bool
  | [] => ([], broke)
  | p :: rest =>
    if isBreak p.char then skipBlanks false true rest
    else if p.char == endMark then (p :: rest, broke)
    else if comment then skipBlanks true broke rest
    else if p.char == ' ' then skipBlanks false broke rest
    else if p.char == '#' then skipBlanks true broke rest
    else (p :: rest, broke)

/-- Goes to the start of the next token. A key may start on a new line outside of brackets. -/
def toNextToken (s : Progress) : Progress :=
  let start := if s.place.index == 0 && s.place.char == '\uFEFF' then s.rest.drop 1 else s.rest
  let (rest, broke) := skipBlanks false false start
  { s with rest, keyAllowed := s.keyAllowed || (broke && s.flow == 0) }

/-! ### Single tokens -/

/-- A character of a name or of a tag's handle. -/
def isNameChar (c : Char) : Bool :=
  c.isAlphanum || c == '-' || c == '_'

/-- A character of a tag. -/
def isTagChar (c : Char) : Bool :=
  c.isAlphanum || "-;/?:@&=+$,_.!~*'()[]%".toList.contains c

/-- A name behind an asterisk or ampersand. -/
def readName (ps : List Placed) : Option (String × List Placed) :=
  let name := ps.takeWhile (isNameChar ·.char)
  let rest := ps.drop name.length
  let next := peek rest
  if name.isEmpty || !(endsWord next || "?:,]\x7d%@`".toList.contains next) then none
  else some (String.ofList (name.map (·.char)), rest)

/-- The characters that percent signs with their hexadecimal numbers stand for at the start of a
text, and what follows them. -/
def readEscapes (bytes : List UInt8) : List Placed → Option (List Char × List Placed)
  | ⟨'%', _, _, _⟩ :: high :: low :: rest => do
    let byte := (← Text.hexValue? high.char) * 16 + (← Text.hexValue? low.char)
    readEscapes (bytes ++ [byte.toUInt8]) rest
  | ps =>
    if peek ps == '%' then none
    else match Text.decodeUtf8 bytes with
      | .ok cs => some (cs, ps)
      | .error _ => none

/-- Characters of a tag, and what follows them. At most `steps` runs of escapes are read. -/
def readTagText (steps : Nat) (ps : List Placed) : Option (List Char × List Placed) :=
  match steps with
  | 0 => none
  | steps + 1 =>
    let word := ps.takeWhile fun p => isTagChar p.char && p.char != '%'
    let rest := ps.drop word.length
    let cs := word.map (·.char)
    if peek rest == '%' then do
      let (escaped, rest) ← readEscapes [] rest
      let (more, rest) ← readTagText steps rest
      return (cs ++ escaped ++ more, rest)
    else some (cs, rest)

/-- The characters of a tag, at least one as it is written. -/
def readTagChars (ps : List Placed) : Option (String × List Placed) :=
  if isTagChar (peek ps) then
    (readTagText (ps.length + 1) ps).map fun (cs, rest) => (String.ofList cs, rest)
  else none

/-- A handle of tags: a name between exclamation marks, or one such mark before a space. -/
def readHandle (ps : List Placed) : Option (String × List Placed) :=
  let name := (ps.drop 1).takeWhile (isNameChar ·.char)
  let behind := ps.drop (name.length + 1)
  if peek ps != '!' then none
  else if peek (ps.drop 1) == ' ' then some ("!", ps.drop 1)
  else if peek behind != '!' then none
  else some (String.ofList ('!' :: name.map (·.char) ++ ['!']), behind.drop 1)

/-- A tag, from its first exclamation mark on. -/
def readTag (ps : List Placed) : Option (Token × List Placed) := do
  let behind := ps.drop 1
  let (token, rest) ←
    if peek behind == '<' then
      let (suffix, rest) ← readTagChars (behind.drop 1)
      if peek rest == '>' then some (Token.tag none suffix, rest.drop 1) else none
    else if endsWord (peek behind) then some (Token.tag none "!", behind)
    else
      let word := behind.takeWhile fun p => p.char == '\t' || !endsWord p.char
      let (handle, rest) ←
        if word.any (·.char == '!') then readHandle ps else some ("!", behind)
      let (suffix, rest) ← readTagChars rest
      some (Token.tag (some handle) suffix, rest)
  if peek rest == ' ' || endsLine (peek rest) then some (token, rest) else none

/-- What follows the two numbers of a version, of which the first must be one. -/
def readVersion (ps : List Placed) : Option (List Placed) :=
  let major := ps.takeWhile (·.char.isDigit)
  let behind := ps.drop major.length
  let minor := (behind.drop 1).takeWhile (·.char.isDigit)
  let behindMinor := behind.drop (minor.length + 1)
  let number := major.foldl (fun n p => n * 10 + (p.char.toNat - '0'.toNat)) 0
  if number == 1 && peek behind == '.' && !minor.isEmpty then some behindMinor else none

/-- A directive behind its percent sign, up to the end of its line. What an unknown directive says
does not count. -/
def readDirective (ps : List Placed) : Option (Directive × List Placed) := do
  let name := ps.takeWhile (isNameChar ·.char)
  let rest := ps.drop name.length
  if name.isEmpty || !(peek rest == ' ' || endsLine (peek rest)) then none
  else
    let isNamed := fun (text : String) => name.map (·.char) == text.toList
    let value := rest.dropWhile (·.char == ' ')
    let (directive, rest) ←
      if isNamed "YAML" then do
        let rest ← readVersion value
        some (Directive.version, rest)
      else if isNamed "TAG" then do
        let (handle, rest) ← readHandle value
        if peek rest != ' ' then none
        else
          let (start, rest) ← readTagChars (rest.dropWhile (·.char == ' '))
          some (Directive.handle handle start, rest)
      else some (Directive.other, rest.dropWhile fun p => !endsLine p.char)
    if peek rest == ' ' || endsLine (peek rest) then
      return (directive, ← skipToNextLine rest)
    else none

/-! ### The next token -/

/-- A line that starts or ends a document, or a directive. -/
def documentMark (s : Progress) (token : Token) (rest : List Placed) : Option Progress := do
  let s ← (s.unwind (-1)).removeKey
  return { s.add token with keyAllowed := false, rest }

/-- An opening bracket or brace. -/
def openFlow (s : Progress) (token : Token) : Option Progress := do
  let s ← s.saveKey
  return { s.add token with flow := s.flow + 1, keyAllowed := true, rest := s.rest.drop 1 }

/-- A closing bracket or brace; there must be one to close. -/
def closeFlow (s : Progress) (token : Token) : Option Progress := do
  let s ← s.removeKey
  if s.flow == 0 then none
  else return { s.add token with flow := s.flow - 1, keyAllowed := false, rest := s.rest.drop 1 }

/-- A comma. -/
def separate (s : Progress) : Option Progress := do
  let s ← s.removeKey
  return { s.add .flowEntry with keyAllowed := true, rest := s.rest.drop 1 }

/-- A dash before an item. -/
def item (s : Progress) : Option Progress := do
  if s.flow == 0 && !s.keyAllowed then none
  else
    let s := if s.flow == 0 then s.startBlock s.column s.tokens.length .blockSequenceStart else s
    let s ← s.removeKey
    return { s.add .blockEntry with keyAllowed := true, rest := s.rest.drop 1 }

/-- A question mark before a key, or a colon without a key before it. -/
def bare (s : Progress) (token : Token) : Option Progress := do
  if s.flow == 0 && !s.keyAllowed then none
  else
    let s := if s.flow == 0 then s.startBlock s.column s.tokens.length .blockMappingStart else s
    let s ← s.removeKey
    return { s.add token with keyAllowed := s.flow == 0, rest := s.rest.drop 1 }

/-- A colon: what was a possible key is one. -/
def colon (s : Progress) : Option Progress :=
  match s.keys.find? (·.1 == s.flow) with
  | some (_, key) =>
    let s := { s with keys := s.keys.filter (·.1 != s.flow) }
    let s := s.insert key.position .key
    let s :=
      if s.flow == 0 then s.startBlock key.start.column key.position .blockMappingStart else s
    some { s.add .value with keyAllowed := false, rest := s.rest.drop 1 }
  | none => s.bare .value

/-- A name, a tag or a quoted text, each of which may start a key. -/
def keyLike (s : Progress) (read : Option (Token × List Placed)) : Option Progress := do
  let s ← s.saveKey
  let (token, rest) ← read
  return { s.add token with keyAllowed := false, rest }

/-- A block scalar. -/
def block (s : Progress) (folded : Bool) : Option Progress := do
  let s ← s.removeKey
  let (text, rest) ← readBlock folded s.indent (s.rest.drop 1)
  return { s.add (.scalar false (String.ofList text)) with keyAllowed := true, rest }

/-- A plain scalar. -/
def plain (s : Progress) : Option Progress := do
  let s ← s.saveKey
  let (text, rest, later) := readPlain (s.flow != 0) (s.indent + 1) [] .inWord s.rest
  return { s.add (.scalar true (String.ofList text)) with keyAllowed := later, rest }

/-- The token that starts here. -/
def token (s : Progress) : Option Progress :=
  let c := peek s.rest
  let after := s.rest.drop 1
  let next := peek after
  let inFlow := s.flow != 0
  let quoted := fun double => (readQuoted double [] .inText after).map fun (text, rest) =>
    (Token.scalar false (String.ofList text), rest)
  if c == '%' && s.column == 0 then do
    let (directive, rest) ← readDirective after
    s.documentMark (.directive directive) rest
  else if s.column == 0 && startsSeparator s.rest then
    s.documentMark (if c == '-' then .documentStart else .documentEnd) (s.rest.drop 3)
  else if c == '[' then s.openFlow .flowSequenceStart
  else if c == '\x7b' then s.openFlow .flowMappingStart
  else if c == ']' then s.closeFlow .flowSequenceEnd
  else if c == '\x7d' then s.closeFlow .flowMappingEnd
  else if c == ',' then s.separate
  else if c == '-' && endsWord next then s.item
  else if c == '?' && (inFlow || endsWord next) then s.bare .key
  else if c == ':' && (inFlow || endsWord next) then s.colon
  else if c == '*' then
    s.keyLike ((readName after).map fun (name, rest) => (.alias name, rest))
  else if c == '&' then
    s.keyLike ((readName after).map fun (name, rest) => (.anchor name, rest))
  else if c == '!' then s.keyLike (readTag s.rest)
  else if c == '|' && !inFlow then s.block false
  else if c == '>' && !inFlow then s.block true
  else if c == '\'' then s.keyLike (quoted false)
  else if c == '"' then s.keyLike (quoted true)
  else if startsPlain inFlow c next then s.plain
  else none

/-- The tokens up to the end of the text, found in at most `steps` steps. -/
def finish (s : Progress) : (steps : Nat) → Option (List Token)
  | 0 => none
  | steps + 1 => do
    let s := s.toNextToken
    let s ← s.dropStaleKeys
    let s := s.unwind s.column
    if peek s.rest == endMark then
      let s ← (s.unwind (-1)).removeKey
      return s.tokens.reverse
    else (← s.token).finish steps

end Progress

/-- **The tokens** of a text. Every token takes a character at least. -/
def Token.ofText? (text : String) : Option (List Token) :=
  let cs := text.toList
  if cs.all isAllowed then
    ({ rest := placeFrom 0 0 0 cs } : Progress).finish (cs.length + 1)
  else none

end SchemaAssembly.Yaml
