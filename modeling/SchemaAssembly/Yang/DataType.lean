import SchemaAssembly.Text.Base64
import SchemaAssembly.Text.PatternSource
import SchemaAssembly.Yang.Module

/-!
# Data types

The types of leaves and their values. A type is built in, or restricts another one; values are given
as texts, and a type decides which texts are its values.
-/

namespace SchemaAssembly.Yang

/-- A bound of an interval. -/
inductive Bound where
  /-- the least value -/
  | least
  /-- the greatest value -/
  | greatest
  /-- a value, as it is shown -/
  | at (value : Int) (shown : String)
  deriving Repr

namespace Bound

/-- The bound as a message names it. -/
def shown : Bound → String
  | least => "min"
  | greatest => "max"
  | .at _ shown => shown

/-- Whether a bound may stand before another one. -/
def isBefore : Bound → Bound → Bool
  | greatest, _ => false
  | _, least => false
  | _, greatest => true
  | least, _ => true
  | .at a _, .at b _ => a < b

/-- Whether a bound is larger than any length that can be stated. -/
def isTooLong : Bound → Bool
  | .at n _ => (Nat.pow 2 64 : Nat) ≤ n
  | _ => false

end Bound

/-- An interval, which may be a single value. -/
structure Interval where
  /-- where it begins -/
  low : Bound
  /-- where it ends, if it is more than a value -/
  high : Option Bound

/-- Whether an interval has a value. -/
def Interval.contains (i : Interval) (value : Int) : Bool :=
  let aboveLow := match i.low with
    | .at low _ => low ≤ value
    | _ => true
  let belowHigh := match i.high, i.low with
    | none, .at low _ => value = low
    | none, _ => false
    | some (.at high _), _ => value ≤ high
    | some .greatest, _ => true
    | some .least, _ => false
  aboveLow && belowHigh

/-- A pattern of a type. -/
structure TypePattern where
  /-- the pattern -/
  pattern : Text.Pattern
  /-- whether values must not match -/
  isInverted : Bool
  /-- where it is stated -/
  position : Position

/-- A type of data. -/
inductive DataType where
  /-- any text -/
  | string
  /-- bytes, written in a code -/
  | binary
  /-- true or false -/
  | boolean
  /-- no value -/
  | empty
  /-- whole numbers -/
  | integer (name : String) (low high : Int)
  /-- numbers with a number of digits behind the point -/
  | decimal (places : Nat)
  /-- named values, each with its number if that is known -/
  | enumeration (values : List (String × Option Int))
  /-- sets of named values, each with its position if that is known -/
  | bits (values : List (String × Option Int))
  /-- what another leaf has, and whether that leaf must be there -/
  | pointer (path : Site) (isRequired : Bool)
  /-- identities derived from all of some others, with their names -/
  | identity (bases : List (Site × String))
  /-- values of any of some types -/
  | union (members : List DataType)
  /-- a type whose values are not looked at -/
  | other (name : String)
  /-- the values of a type in some intervals -/
  | ranged (base : DataType) (intervals : List Interval) (position : Position)
  /-- the values of a type whose length is in some intervals -/
  | sized (base : DataType) (intervals : List Interval) (position : Position)
  /-- the values of a type that match some patterns -/
  | patterned (base : DataType) (patterns : List TypePattern)
  /-- a type that a definition gives a name to -/
  | named (base : DataType) (definition : Position)

/-- A value of a type. -/
inductive DataValue where
  /-- the least value -/
  | least
  /-- the greatest value -/
  | greatest
  /-- a number, as it is shown -/
  | number (value : Int) (shown : String)
  /-- true or false -/
  | truth (value : Bool)
  /-- a text -/
  | text (text : String)
  /-- bytes -/
  | bytes (content : List UInt8)
  /-- a set of names -/
  | names (names : List String)
  deriving DecidableEq, Repr

/-- Whether two values are the same one. How a number is shown does not matter. -/
def DataValue.isSame : DataValue → DataValue → Bool
  | .number a _, .number b _ => a = b
  | a, b => a = b

/-- Why a text is not a value. -/
structure ValueFault where
  /-- what is shown of the value -/
  shown : String
  /-- the definition of the type that it is no value of, unless the type has no name -/
  definition : Option Position
  /-- why -/
  reason : String

namespace DataType

/-- The bounds of numbers with a sign in a number of bits. -/
def signedBounds (bits : Nat) : Int × Int :=
  (-(Nat.pow 2 (bits - 1) : Nat), Nat.pow 2 (bits - 1) - 1)

/-- The bounds of numbers without a sign in a number of bits. -/
def unsignedBounds (bits : Nat) : Int × Int :=
  (0, Nat.pow 2 bits - 1)

/-- The built-in types that hold whole numbers. -/
def integers : List (String × Int × Int) :=
  [("int8", signedBounds 8), ("int16", signedBounds 16), ("int32", signedBounds 32),
    ("int64", signedBounds 64), ("uint8", unsignedBounds 8), ("uint16", unsignedBounds 16),
    ("uint32", unsignedBounds 32), ("uint64", unsignedBounds 64)]

/-- The built-in type of a name. -/
def builtIn (name : String) : DataType :=
  match integers.lookup name with
  | some (low, high) => integer name low high
  | none =>
    match name with
    | "string" => string
    | "binary" => binary
    | "boolean" => boolean
    | "empty" => empty
    | name => other name

/-- The statements that can restrict a type. -/
def restrictions : DataType → List String
  | string => ["pattern", "length"]
  | binary => ["length"]
  | integer .. => ["range"]
  | decimal _ => ["range"]
  | enumeration _ => ["enum"]
  | bits _ => ["bit"]
  | pointer .. => ["path", "require-instance"]
  | identity _ => ["base"]
  | other "instance-identifier" => ["require-instance"]
  | other "leafref" => ["path", "require-instance"]
  | other "enumeration" => ["enum"]
  | other "bits" => ["bit"]
  | boolean | empty | union _ | other _ => []
  | ranged base .. | sized base .. | patterned base _ | named base _ => base.restrictions

/-- A type without the name that a definition gives to it. -/
def unnamed : DataType → DataType
  | named base _ => base
  | type => type

/-- The definition that gives a type its name. -/
def definition? : DataType → Option Position
  | named _ definition => some definition
  | _ => none

/-- The number of a named value. -/
def numberOf? (name : String) : DataType → Option Int
  | enumeration values | bits values => (values.lookup name).join
  | named base _ => base.numberOf? name
  | _ => none

/-! ### Numbers -/

/-- The value of digits in a base. Single underscores may stand between them. -/
def digitsValue? (base : Nat) (cs : List Char) : Option Nat :=
  go 0 true cs
where
  /-- The value of the digits so far and of those that follow. -/
  go (value : Nat) (needsDigit : Bool) : List Char → Option Nat
    | [] => if needsDigit then none else some value
    | '_' :: rest => if needsDigit then none else go value true rest
    | c :: rest =>
      let digit? := if c.isDigit then some (c.toNat - '0'.toNat)
        else if c.isAlpha then some (c.toLower.toNat - 'a'.toNat + 10)
        else none
      match digit? with
      | some d => if d < base then go (base * value + d) false rest else none
      | none => none

/-- The number that a text without a sign is, in the base that it begins with. -/
def unsigned? (cs : List Char) : Option Nat :=
  match cs with
  | '0' :: mark :: rest =>
    let base? := [('x', 16), ('o', 8), ('b', 2)].lookup mark.toLower
    match base? with
    | some base =>
      match rest with
      | '_' :: digits => digitsValue? base digits
      | digits => digitsValue? base digits
    | none =>
      match digitsValue? 10 cs with
      | some 0 => some 0
      | _ => if rest.all Char.isDigit then digitsValue? 8 (mark :: rest) else none
  | cs => digitsValue? 10 cs

/-- The whole number that a text with or without a sign is. Blanks around it do not count. -/
def signed? (unsigned? : List Char → Option Nat) (text : String) : Option Int :=
  match Text.trimChars text.toList with
  | '-' :: rest => (unsigned? rest).map fun n => -(n : Int)
  | '+' :: rest => (unsigned? rest).map fun n => (n : Int)
  | cs => (unsigned? cs).map fun n => (n : Int)

/-- The whole number that a text is. Digits behind a zero are octal. -/
def wholeNumber? (text : String) : Option Int :=
  signed? unsigned? text

/-- A number with at most so many digits behind the point, in units of the last one. -/
def decimalNumber (places : Nat) (text : String) : Except String Int :=
  if !(Text.Pattern.followed Form.signed (.optional (.followed (.text ".")
      (.atLeastOne .digit)))).accepts text.toList then .error "not a decimal"
  else
    let (isNegative, cs) := match text.toList with
      | '-' :: rest => (true, rest)
      | '+' :: rest => (false, rest)
      | cs => (false, cs)
    let whole := cs.takeWhile (· != '.')
    let fraction := (cs.dropWhile (· != '.')).drop 1
    if places < fraction.length then .error "too many fraction digits"
    else
      let digits := whole ++ fraction ++ List.replicate (places - fraction.length) '0'
      let value : Int := ((digitsValue? 10 digits).getD 0 : Nat)
      .ok (if isNegative then -value else value)

/-! ### Values -/

/-- Whether a value is within the bounds of a type. -/
def isBetween (low high : Int) : DataValue → Bool
  | .number n _ => low ≤ n && n ≤ high
  | _ => true

/-- A value as it is shown. -/
def shownValue : DataValue → String
  | .least => "min"
  | .greatest => "max"
  | .number _ shown => shown
  | .truth value => if value then "True" else "False"
  | .text text => text
  | .bytes content => Text.quotedBytes content
  | .names names => "[" ++ ", ".intercalate (names.map Text.quoted) ++ "]"

/-- How long a value is, if it has a length. -/
def lengthOf? : DataValue → Option Nat
  | .text text => some text.length
  | .bytes content => some content.length
  | _ => none

/-- Why a number is outside of a range. -/
def rangeReason (note : String) (position : Position) : String :=
  "range error" ++ note ++ " for range defined at " ++ position.text

/-- Whether a value of a type's base is one of the type. The note says what kind of value it is, and
the definition is that of the type. -/
def checkIn (note : String) (value : DataValue) (definition : Option Position) :
    DataType → Except ValueFault Unit
  | integer _ low high =>
    if isBetween low high value then .ok ()
    else .error ⟨shownValue value, definition, "range error" ++ note⟩
  | decimal _ =>
    let (low, high) := signedBounds 64
    if isBetween low high value then .ok ()
    else .error ⟨shownValue value, definition, "range error" ++ note⟩
  | enumeration values =>
    if values.any fun v => v.1 = shownValue value then .ok ()
    else .error ⟨shownValue value, definition, "enum not defined" ++ note⟩
  | bits values =>
    match value with
    | .names given =>
      match given.find? fun name => values.all (·.1 != name) with
      | some name => .error ⟨name, definition, "bit not defined" ++ note⟩
      | none => .ok ()
    | _ => .ok ()
  | ranged base intervals position => do
    base.checkIn note value none
    match value with
    | .number n shown =>
      if intervals.any (·.contains n) then .ok ()
      else .error ⟨shown, definition, rangeReason note position⟩
    | _ => .ok ()
  | sized base intervals position => do
    base.checkIn note value none
    match lengthOf? value with
    | some length =>
      if intervals.any (·.contains length) then .ok ()
      else .error ⟨shownValue value, definition,
        "length error" ++ note ++ " for length defined at " ++ position.text⟩
    | none => .ok ()
  | patterned base patterns => do
    base.checkIn note value none
    match value with
    | .text text =>
      match patterns.find? fun p => p.pattern.accepts text.toList = p.isInverted with
      | some p => .error ⟨text, definition,
          "pattern mismatch " ++ note ++ " for pattern defined at " ++ p.position.text⟩
      | none => .ok ()
    | _ => .ok ()
  | named base own => base.checkIn note value (some own)
  | string | binary | boolean | empty | pointer .. | identity _ | union _ | other _ => .ok ()

/-- **Whether a value of a type's base is one of the type.** The note says what kind of value it is.
-/
def check (type : DataType) (note : String) (value : DataValue) : Except ValueFault Unit :=
  type.checkIn note value none

/-! ### Bounds -/

/-- The least number of a type, and how it is shown. -/
def least? : DataType → Option (Int × String)
  | integer _ low _ => some (low, toString low)
  | decimal _ => some ((signedBounds 64).1, toString (signedBounds 64).1)
  | ranged base intervals _ =>
    match (intervals.head?.map (·.low) : Option Bound) with
    | some (.at n shown) => some (n, shown)
    | _ => base.least?
  | named base _ => base.least?
  | _ => none

/-- The greatest number of a type, and how it is shown. -/
def greatest? : DataType → Option (Int × String)
  | integer _ _ high => some (high, toString high)
  | decimal _ => some ((signedBounds 64).2, toString (signedBounds 64).2)
  | ranged base intervals _ =>
    match (intervals.getLast?.map fun i => i.high.getD i.low : Option Bound) with
    | some (.at n shown) => some (n, shown)
    | _ => base.greatest?
  | named base _ => base.greatest?
  | _ => none

/-- Why an interval between two numbers of a type is not in the type: they are in different
intervals of a range. -/
def spanFault? (low high : Int) (shown : String) (definition : Option Position) :
    DataType → Option ValueFault
  | ranged base intervals position =>
    match base.spanFault? low high shown none with
    | some fault => some fault
    | none =>
      if intervals.any fun i => i.contains low && !i.contains high then
        some ⟨shown, definition, rangeReason "" position⟩
      else none
  | named base own => base.spanFault? low high shown (some own)
  | _ => none

end DataType

/-! ### Intervals as they are written -/

/-- The pieces of a text between separators of one character. -/
def piecesBetween (separator : Char) (cs : List Char) : List (List Char) :=
  cs.splitOn separator

/-- The bounds that an interval is written with: one, or two with dots between them. -/
def boundTexts (part : List Char) : String × Option String :=
  match go part with
  | (low, none) => (trimmed low, none)
  | (low, some high) => (trimmed low, some (trimmed high))
where
  /-- A bound without the blanks around it. -/
  trimmed (cs : List Char) : String :=
    String.ofList (Text.trimChars cs)
  /-- What stands before the dots and behind them. -/
  go : List Char → List Char × Option (List Char)
    | [] => ([], none)
    | '.' :: '.' :: rest => ([], some rest)
    | c :: rest =>
      let (low, high) := go rest
      (c :: low, high)

/-- The bounds of the intervals that an argument states. -/
def intervalTexts (argument : String) : List (String × Option String) :=
  (piecesBetween '|' argument.toList).map boundTexts

end SchemaAssembly.Yang
