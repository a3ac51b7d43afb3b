import SchemaAssembly.Yaml.Plain
import SchemaAssembly.Yaml.Tokens

/-!
# YAML nodes

The nested structure of a YAML text: scalars, sequences and mappings, as they are written, with
their tags, anchors and aliases. Whatever is left out, such as a value behind its colon, is an empty
plain scalar.

- `Node.ofText?` is the node of a text that holds one document.
-/

namespace SchemaAssembly.Yaml

/-- A tag of a node: which kind of thing it says the node is. -/
abbrev Tag := Option String

/-- A node. -/
inductive Node where
  /-- a text, and whether it is written without quotes -/
  | scalar (tag : Tag) (plain : Bool) (text : String)
  /-- a list of nodes -/
  | sequence (tag : Tag) (items : List Node)
  /-- keys with their values -/
  | mapping (tag : Tag) (entries : List (Node × Node))
  /-- a node that has a name -/
  | anchored (name : String) (node : Node)
  /-- a reference to a named node -/
  | alias (name : String)
  deriving Repr

namespace Node

/-- What is left out. -/
def empty : Node :=
  .scalar none true ""

/-- The anchor and the tag before a node, in either order, and the tokens behind them. -/
def properties : List Token → Option String × Tag × List Token
  | .anchor name :: .tag _ tag :: rest => (some name, some tag, rest)
  | .anchor name :: rest => (some name, none, rest)
  | .tag _ tag :: .anchor name :: rest => (some name, some tag, rest)
  | .tag _ tag :: rest => (none, some tag, rest)
  | rest => (none, none, rest)

/-- A node under its anchor, if it has one. -/
def named (anchor : Option String) (node : Node) : Node :=
  match anchor with
  | some name => .anchored name node
  | none => node

/-- Whether the next token is one of those before which something has been left out. -/
def nextIs (ends : List Token) (ts : List Token) : Bool :=
  match ts with
  | [] => true
  | t :: _ => ends.contains t

mutual

/-- A node. Only in a block may it be a block itself; where `indentless` is set, it may be a
sequence whose dashes stand in the column of the mapping around it. -/
def read (fuel : Nat) (inBlock indentless : Bool) (ts : List Token) :
    Option (Node × List Token) :=
  match fuel, ts with
  | 0, _ => none
  | _ + 1, .alias name :: rest => some (.alias name, rest)
  | fuel + 1, ts => do
    let (anchor, tag, content) := properties ts
    let leftOut :=
      if anchor.isSome || tag.isSome then some (scalar tag true "", content) else none
    let (node, rest) ←
      match content with
      | .blockEntry :: _ =>
        if indentless then do
          let (items, rest) ← readIndentless fuel content
          some (.sequence tag items, rest)
        else leftOut
      | .scalar plain text :: rest => some (.scalar tag plain text, rest)
      | .flowSequenceStart :: rest => do
        let (items, rest) ← readFlowItems fuel true rest
        some (.sequence tag items, rest)
      | .flowMappingStart :: rest => do
        let (entries, rest) ← readFlowEntries fuel true rest
        some (.mapping tag entries, rest)
      | .blockSequenceStart :: rest =>
        if inBlock then do
          let (items, rest) ← readBlockItems fuel rest
          some (.sequence tag items, rest)
        else leftOut
      | .blockMappingStart :: rest =>
        if inBlock then do
          let (entries, rest) ← readBlockEntries fuel rest
          some (.mapping tag entries, rest)
        else leftOut
      | _ => leftOut
    return (named anchor node, rest)

/-- A node, unless it has been left out before one of some tokens. -/
def readUnless (fuel : Nat) (ends : List Token) (inBlock indentless : Bool) (ts : List Token) :
    Option (Node × List Token) :=
  match fuel with
  | 0 => none
  | fuel + 1 => if nextIs ends ts then some (empty, ts) else read fuel inBlock indentless ts

/-- The items of a block sequence, up to its end. -/
def readBlockItems (fuel : Nat) (ts : List Token) : Option (List Node × List Token) :=
  match fuel, ts with
  | fuel + 1, .blockEntry :: rest => do
    let (item, rest) ← readUnless fuel [.blockEntry, .blockEnd] true false rest
    let (items, rest) ← readBlockItems fuel rest
    return (item :: items, rest)
  | _ + 1, .blockEnd :: rest => some ([], rest)
  | _, _ => none

/-- The items of a sequence in the column of its mapping. -/
def readIndentless (fuel : Nat) (ts : List Token) : Option (List Node × List Token) :=
  match fuel, ts with
  | 0, _ => none
  | fuel + 1, .blockEntry :: rest => do
    let (item, rest) ← readUnless fuel [.blockEntry, .key, .value, .blockEnd] true false rest
    let (items, rest) ← readIndentless fuel rest
    return (item :: items, rest)
  | _ + 1, rest => some ([], rest)

/-- The entries of a block mapping, up to its end. -/
def readBlockEntries (fuel : Nat) (ts : List Token) : Option (List (Node × Node) × List Token) :=
  match fuel, ts with
  | fuel + 1, .key :: rest => do
    let (key, rest) ← readUnless fuel [.key, .value, .blockEnd] true true rest
    let (value, rest) ← readBlockValue fuel rest
    let (entries, rest) ← readBlockEntries fuel rest
    return ((key, value) :: entries, rest)
  | _ + 1, .blockEnd :: rest => some ([], rest)
  | _, _ => none

/-- The value of a key in a block mapping. -/
def readBlockValue (fuel : Nat) (ts : List Token) : Option (Node × List Token) :=
  match fuel, ts with
  | 0, _ => none
  | fuel + 1, .value :: rest => readUnless fuel [.key, .value, .blockEnd] true true rest
  | _ + 1, rest => some (empty, rest)

/-- The items of a sequence between brackets. An item may be a single key with its value. -/
def readFlowItems (fuel : Nat) (first : Bool) (ts : List Token) :
    Option (List Node × List Token) :=
  match fuel, ts with
  | 0, _ => none
  | _ + 1, .flowSequenceEnd :: rest => some ([], rest)
  | fuel + 1, ts => do
    let rest ← if first then some ts else match ts with
      | .flowEntry :: rest => some rest
      | _ => none
    match rest with
    | .key :: rest =>
      let (key, rest) ← readUnless fuel [.value, .flowEntry, .flowSequenceEnd] false false rest
      let (value, rest) ← readFlowValue fuel .flowSequenceEnd rest
      let (items, rest) ← readFlowItems fuel false rest
      return (.mapping none [(key, value)] :: items, rest)
    | .flowSequenceEnd :: rest => return ([], rest)
    | rest =>
      let (item, rest) ← read fuel false false rest
      let (items, rest) ← readFlowItems fuel false rest
      return (item :: items, rest)

/-- The entries of a mapping between braces. A key may stand alone. -/
def readFlowEntries (fuel : Nat) (first : Bool) (ts : List Token) :
    Option (List (Node × Node) × List Token) :=
  match fuel, ts with
  | 0, _ => none
  | _ + 1, .flowMappingEnd :: rest => some ([], rest)
  | fuel + 1, ts => do
    let rest ← if first then some ts else match ts with
      | .flowEntry :: rest => some rest
      | _ => none
    match rest with
    | .key :: rest =>
      let (key, rest) ← readUnless fuel [.value, .flowEntry, .flowMappingEnd] false false rest
      let (value, rest) ← readFlowValue fuel .flowMappingEnd rest
      let (entries, rest) ← readFlowEntries fuel false rest
      return ((key, value) :: entries, rest)
    | .flowMappingEnd :: rest => return ([], rest)
    | rest =>
      let (key, rest) ← read fuel false false rest
      let (entries, rest) ← readFlowEntries fuel false rest
      return ((key, empty) :: entries, rest)

/-- The value of a key between brackets or braces. -/
def readFlowValue (fuel : Nat) (close : Token) (ts : List Token) : Option (Node × List Token) :=
  match fuel, ts with
  | 0, _ => none
  | fuel + 1, .value :: rest => readUnless fuel [.flowEntry, close] false false rest
  | _ + 1, rest => some (empty, rest)

end

/-- What the handles of tags stand for, one name for each. -/
abbrev Handles := List (String × String)

/-- What handles stand for as long as no directive says something else. -/
def standardHandles : Handles := [("!", "!"), ("!!", Kind.standardTag)]

/-- What directives say about handles, and the document behind them, which must begin with a start
mark. There is at most one version, and a handle is spoken of at most once. -/
def afterDirectives (version : Bool) (handles : Handles) :
    List Token → Option (Handles × List Token)
  | .directive .version :: rest =>
    if version then none else afterDirectives true handles rest
  | .directive (.handle name start) :: rest =>
    if (handles.lookup name).isSome then none
    else afterDirectives version (handles ++ [(name, start)]) rest
  | .directive .other :: rest => afterDirectives version handles rest
  | .documentStart :: rest => some (handles, rest)
  | _ => none

/-- A token in which a tag stands in full; the handle must be known. -/
def withFullTag (handles : Handles) : Token → Option Token
  | .tag (some handle) suffix =>
    ((handles ++ standardHandles).lookup handle).map fun start => .tag none (start ++ suffix)
  | token => some token

/-- Whether there is nothing before the next document or the end. -/
def isOver : List Token → Bool
  | [] => true
  | .directive _ :: _ | .documentStart :: _ | .documentEnd :: _ => true
  | _ => false

/-- **The document** of a list of tokens, or nothing if there is none. A second document is not
allowed. -/
def ofTokens? (ts : List Token) : Option (Option Node) := do
  let (isMarked, handles, content) ←
    match ts with
    | .directive _ :: _ | .documentStart :: _ =>
      (afterDirectives false [] ts).map fun (handles, content) => (true, handles, content)
    | _ => some (false, [], ts)
  let content ← content.mapM (withFullTag handles)
  let (node, rest) ←
    if isMarked && isOver content then some (some empty, content)
    else if content.isEmpty then some (none, [])
    else (read (4 * ts.length + 4) true false content).map fun (node, rest) => (some node, rest)
  if rest.all (· == .documentEnd) then some node else none

/-- **The node of a text**, or nothing if the text holds no document. -/
def ofText? (text : String) : Option (Option Node) :=
  (Token.ofText? text).bind ofTokens?

end Node

end SchemaAssembly.Yaml
