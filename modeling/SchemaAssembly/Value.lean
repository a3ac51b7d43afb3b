import SchemaAssembly.Decimal
import SchemaAssembly.Moment
import SchemaAssembly.Text.Base64

/-!
# Values

The values of a settings file before it is known what they stand for. -/

namespace SchemaAssembly

/-- A value whose meaning is not known yet. -/
inductive Value where
  /-- nothing -/
  | null
  /-- a truth value -/
  | bool (value : Bool)
  /-- a whole number -/
  | integer (value : Int)
  /-- a number that is not written as a whole one -/
  | decimal (value : Float)
  /-- a date or a time -/
  | moment (value : Moment)
  /-- a text -/
  | text (value : String)
  /-- bytes that are no text -/
  | bytes (content : List UInt8)
  /-- a list of values -/
  | list (items : List Value)
  /-- a value that goes with another one -/
  | pair (first second : Value)
  /-- values without repetition -/
  | set (items : List Value)
  /-- keys with their values, in order -/
  | map (entries : List (Value × Value))
  deriving Inhabited, Repr

namespace Value

/-- **Truth** of a value: what is empty or zero is false. -/
def isTrue : Value → Bool
  | null => false
  | bool value => value
  | integer value => value != 0
  | decimal value => value != 0
  | moment _ => true
  | text value => value != ""
  | bytes content => !content.isEmpty
  | list items => !items.isEmpty
  | pair .. => true
  | set items => !items.isEmpty
  | map entries => !entries.isEmpty

/-- What a value is made of when it is taken for a list: a text of its characters, a map of its
keys. -/
def parts : Value → List Value
  | text value => value.toList.map fun c => text (String.singleton c)
  | list items => items
  | set items => items
  | map entries => entries.map (·.1)
  | _ => []

/-- A text, if the value is one. -/
def text? : Value → Option String
  | text value => some value
  | _ => none

/-- The number that a value is, if it is a whole one. Truth values are the numbers one and zero. -/
def wholeNumber? : Value → Option Int
  | bool value => some (if value then 1 else 0)
  | integer value => some value
  | decimal value => SchemaAssembly.wholeNumber? value
  | _ => none

/-- Whether two values are the same key. A number is the same key however it is written, and what is
not a number is the same as itself. -/
def sameKey (a b : Value) : Bool :=
  match a.wholeNumber?, b.wholeNumber? with
  | some m, some n => m = n
  | none, none =>
    match a, b with
    | null, null => true
    | decimal x, decimal y => x == y || (x.isNaN && y.isNaN)
    | moment x, moment y => x.same y
    | text x, text y => x = y
    | bytes x, bytes y => x = y
    | _, _ => false
  | _, _ => false

/-- Whether a value can be a key: what is made of other values cannot. -/
def isKey : Value → Bool
  | list _ | pair .. | set _ | map _ => false
  | _ => true

/-- A key as it is shown where it is no text. -/
def shownKey : Value → String
  | null => "None"
  | bool value => if value then "True" else "False"
  | integer value => toString value
  | decimal value => Decimal.textOf value
  | moment value => value.text
  | bytes content => Text.quotedBytes content
  | text value => value
  | _ => ""

/-- A list of texts. -/
def ofTexts (values : List String) : Value :=
  list (values.map text)

end Value

end SchemaAssembly
