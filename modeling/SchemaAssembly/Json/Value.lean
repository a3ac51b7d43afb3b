/-!
# JSON values

The values of JSON that a report is made of: everything but numbers. An object keeps its members in
order.
-/

namespace SchemaAssembly

/-- A JSON value without numbers. -/
inductive JsonValue where
  /-- nothing -/
  | null
  /-- a truth value -/
  | bool (value : Bool)
  /-- a text -/
  | text (value : String)
  /-- a list of values -/
  | list (items : List JsonValue)
  /-- named values, in order -/
  | object (members : List (String × JsonValue))
  deriving Repr

namespace JsonValue

/-- A text, or nothing. -/
def ofText? : Option String → JsonValue
  | some value => text value
  | none => null

/-- A list of texts. -/
def ofTexts (values : List String) : JsonValue :=
  list (values.map text)

end JsonValue

end SchemaAssembly
