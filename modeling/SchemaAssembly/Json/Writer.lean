import SchemaAssembly.Json.Value
import SchemaAssembly.Text.Hex

/-!
# Writing JSON

Values are written over several lines: every item and member stands on a line of its own, indented
by its depth, and only an empty list or object is written without a line break. What is written is
ASCII: other characters are escaped, those beyond sixteen bits as a surrogate pair. -/

namespace SchemaAssembly.JsonValue

/-- A sixteen-bit unit, escaped. -/
def escapedUnit (unit : Nat) : List Char :=
  '\\' :: 'u' :: Text.hex 4 unit

/-- One character of a text as it is written. -/
def escapedChar (c : Char) : List Char :=
  if c = '"' then ['\\', '"']
  else if c = '\\' then ['\\', '\\']
  else if c = '\n' then ['\\', 'n']
  else if c = '\r' then ['\\', 'r']
  else if c = '\t' then ['\\', 't']
  else if c = '\x0c' then ['\\', 'f']
  else if c = '\x08' then ['\\', 'b']
  else if ' ' ≤ c ∧ c ≤ '~' then [c]
  else if c.toNat < 0x10000 then escapedUnit c.toNat
  else
    let beyond := c.toNat - 0x10000
    escapedUnit (0xD800 + beyond / 0x400) ++ escapedUnit (0xDC00 + beyond % 0x400)

/-- A text as it is written. -/
def writeText (value : String) : List Char :=
  '"' :: value.toList.flatMap escapedChar ++ ['"']

/-- A line break and the indentation of what follows. Without a positive indent lines are not
indented. -/
def lineBreak (indent : Int) (depth : Nat) : List Char :=
  '\n' :: List.replicate (indent.toNat * depth) ' '

mutual

/-- A value at a depth. -/
def writeAt (indent : Int) (depth : Nat) : JsonValue → List Char
  | null => "null".toList
  | bool true => "true".toList
  | bool false => "false".toList
  | text value => writeText value
  | list [] => ['[', ']']
  | list (item :: rest) =>
    '[' :: lineBreak indent (depth + 1) ++ writeAt indent (depth + 1) item ++
      writeItems indent (depth + 1) rest ++ lineBreak indent depth ++ [']']
  | object [] => ['\x7b', '\x7d']
  | object ((name, value) :: rest) =>
    '\x7b' :: lineBreak indent (depth + 1) ++ writeText name ++ [':', ' '] ++
      writeAt indent (depth + 1) value ++ writeMembers indent (depth + 1) rest ++
      lineBreak indent depth ++ ['\x7d']

/-- The items of a list after the first. -/
def writeItems (indent : Int) (depth : Nat) : List JsonValue → List Char
  | [] => []
  | item :: rest =>
    ',' :: lineBreak indent depth ++ writeAt indent depth item ++ writeItems indent depth rest

/-- The members of an object after the first. -/
def writeMembers (indent : Int) (depth : Nat) : List (String × JsonValue) → List Char
  | [] => []
  | (name, value) :: rest =>
    ',' :: lineBreak indent depth ++ writeText name ++ [':', ' '] ++ writeAt indent depth value ++
      writeMembers indent depth rest

end

/-- **Writing** a value. -/
def write (indent : Int) (value : JsonValue) : String :=
  String.ofList (writeAt indent 0 value)

end SchemaAssembly.JsonValue
