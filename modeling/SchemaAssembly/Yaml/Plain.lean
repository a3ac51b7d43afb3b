import SchemaAssembly.Yaml.Timestamp

/-!
# What plain scalars stand for

A tag says of which kind a node is. A scalar without quotes needs no tag to be something else than a
text: it is nothing, a truth value, a number or a moment by the way it is spelled. The spelling may
have a line feed at its end, as a block of text has, when a tag says that its quotes do not count.

- `Kind.ofPlain` is the kind of a plain scalar.
-/

namespace SchemaAssembly.Yaml

/-- The kinds of nodes that have a tag of their own. -/
inductive Kind where
  /-- nothing -/
  | null
  /-- a truth value -/
  | bool
  /-- a whole number -/
  | int
  /-- a number with a point -/
  | float
  /-- bytes written as letters -/
  | binary
  /-- a date or a time -/
  | timestamp
  /-- a text -/
  | str
  /-- a list -/
  | seq
  /-- a list of keys with their values -/
  | omap
  /-- the same, in which keys may come again -/
  | pairs
  /-- values without repetition -/
  | set
  /-- keys with their values -/
  | map
  /-- the key under which other mappings are merged in -/
  | merge
  /-- the key of what a mapping is when it is taken for a scalar -/
  | value
  /-- a character that marks a tag, a name or an alias where it is not text -/
  | mark
  deriving DecidableEq, Repr

namespace Kind

/-- What the tags of the standard begin with. -/
def standardTag : String := "tag:yaml.org,2002:"

/-- The kinds by the ends of their tags. -/
def names : List (String × Kind) :=
  [("null", null), ("bool", bool), ("int", int), ("float", float), ("binary", binary),
    ("timestamp", timestamp), ("str", str), ("seq", seq), ("omap", omap), ("pairs", pairs),
    ("set", set), ("map", map), ("merge", merge), ("value", value), ("yaml", mark)]

/-- The kind of a tag, if there is one. -/
def ofTag? (tag : String) : Option Kind :=
  (names.find? fun (name, _) => standardTag ++ name = tag).map (·.2)

end Kind

namespace Plain

/-- The spellings of nothing. -/
def nulls : List String := ["", "~", "null", "Null", "NULL"]

/-- The spellings of true. -/
def trues : List String := ["yes", "Yes", "YES", "true", "True", "TRUE", "on", "On", "ON"]

/-- The spellings of false. -/
def falses : List String := ["no", "No", "NO", "false", "False", "FALSE", "off", "Off", "OFF"]

/-- The spellings of marks. -/
def marks : List String := ["!", "&", "*"]

/-- What follows the sign of a number, if there is one. -/
def unsigned : List Char → List Char
  | '-' :: rest => rest
  | '+' :: rest => rest
  | cs => cs

/-- Whether a character is a digit or an underscore. -/
def isNumeric (c : Char) : Bool :=
  c.isDigit || c == '_'

/-- Whether all characters may stand in a number and there is at least one. -/
def allSome (allowed : Char → Bool) (cs : List Char) : Bool :=
  !cs.isEmpty && cs.all allowed

/-- A part of a number to the base sixty: one digit, or two of which the first is at most five. -/
def isSixtieth : List Char → Bool
  | [a] => a.isDigit
  | [a, b] => '0' ≤ a && a ≤ '5' && b.isDigit
  | _ => false

/-- Whether a text is a number to the base sixty with two parts or more. -/
def isSexagesimal (leading : Char → Bool) (cs : List Char) : Bool :=
  match cs.splitOn ':' with
  | first :: part :: parts =>
    (first.head?.map leading).getD false && first.all isNumeric && (part :: parts).all isSixtieth
  | _ => false

/-- Whether a text is a whole number: binary, octal behind a zero, hexadecimal, decimal, or to the
base sixty. -/
def isInteger (cs : List Char) : Bool :=
  let nonZero := fun c => '1' ≤ c && c ≤ '9'
  match unsigned cs with
  | '0' :: 'b' :: digits => allSome (fun c => c == '0' || c == '1' || c == '_') digits
  | '0' :: 'x' :: digits =>
    allSome (fun c => c.isDigit || ('a' ≤ c && c ≤ 'f') || ('A' ≤ c && c ≤ 'F') || c == '_') digits
  | ['0'] => true
  | '0' :: digits => allSome (fun c => ('0' ≤ c && c ≤ '7') || c == '_') digits
  | c :: rest => (nonZero c && rest.all isNumeric) || isSexagesimal nonZero (c :: rest)
  | [] => false

/-- Whether a text is nothing or an exponent with its sign. -/
def isExponent : List Char → Bool
  | [] => true
  | e :: sign :: digits =>
    (e == 'e' || e == 'E') && (sign == '+' || sign == '-') && allSome Char.isDigit digits
  | _ => false

/-- Whether a text is a number with a point. -/
def isDecimal (cs : List Char) : Bool :=
  let number := unsigned cs
  let whole := number.takeWhile (· != '.')
  let behind := (number.dropWhile (· != '.')).drop 1
  let ending := behind.dropWhile isNumeric
  let signed := number.length < cs.length
  if !number.contains '.' then false
  else if whole.isEmpty then
    [['i', 'n', 'f'], ['I', 'n', 'f'], ['I', 'N', 'F']].contains behind ||
      (!signed && [['n', 'a', 'n'], ['N', 'a', 'N'], ['N', 'A', 'N']].contains behind) ||
      (!signed && (behind.head?.map Char.isDigit).getD false && isExponent ending)
  else if whole.contains ':' then
    isSexagesimal Char.isDigit whole && behind.all isNumeric
  else
    (whole.head?.map Char.isDigit).getD false && whole.all isNumeric && isExponent ending

end Plain

/-- What the kind of a text depends on: a line feed at its end does not count, unless it is all of
the text. -/
def Plain.spelling (text : String) : String :=
  if text = "\n" then text else String.ofList (Text.withoutLineFeed text.toList)

/-- **The kind of a plain scalar.** -/
def Kind.ofPlain (text : String) : Kind :=
  let spelling := Plain.spelling text
  let cs := spelling.toList
  if Plain.nulls.contains spelling then null
  else if Plain.trues.contains spelling || Plain.falses.contains spelling then bool
  else if Plain.isDecimal cs then float
  else if Plain.isInteger cs then int
  else if spelling = "<<" then merge
  else if spelling = "=" then value
  else if Plain.marks.contains spelling then mark
  else if Timestamp.isMoment text.toList then timestamp
  else str

end SchemaAssembly.Yaml
