import SchemaAssembly.Yang.Definitions

/-!
# Values of types

Which value a text is in a type, and whether it is one of the type. A value of a union is one of a
member, which is found out silently.

- `Check.valueOf` reads a default value.
- `Check.checkValue` checks a value against another type than the one it has been read in.
-/

namespace SchemaAssembly.Yang.Check

/-- Reports why a text is no value. -/
def reportValue (position : Position) (fault : ValueFault) : Check Unit :=
  let definition := match fault.definition with
    | some p => "at " ++ p.text ++ " "
    | none => ""
  report position (.typing (.badValue fault.shown definition fault.reason))

/-- The identity that a value names, if it is derived from all of some others. -/
def identityValue (depth : Nat) (bases : List (Site × String)) (home : Nat) (position : Position)
    (isSilent : Bool) (definition : Option Position) (text : String) :
    ExceptT (Option ValueFault) Check DataValue := do
  let r := Reference.ofText text
  match ← (moduleOf? home r.qualifier position isSilent : Check _) with
  | none => throw none
  | some m =>
    match m.definition? .identity r.name with
    | none => throw (some ⟨text, definition, "identityref not found"⟩)
    | some d =>
      for (base, name) in bases do
        if !(← (isDerived depth base d : Check _)) then
          throw (some ⟨text, definition, "identityref not derived from " ++ name⟩)
      return .text text

/-- The value that a text is in a type with some definition, without the restrictions of that type.
A fault without words has been reported already. -/
def readIn (depth : Nat) (home : Nat) (position : Position) (isSilent : Bool) (text : String)
    (definition : Option Position) : DataType → ExceptT (Option ValueFault) Check DataValue
  | .integer .. =>
    if text = "min" then return .least
    else if text = "max" then return .greatest
    else match DataType.wholeNumber? text with
      | some n => return .number n (toString n)
      | none => throw (some ⟨text, definition, "not an integer"⟩)
  | .decimal places =>
    if text = "min" then return .least
    else if text = "max" then return .greatest
    else match DataType.decimalNumber places text with
      | .ok n => return .number n text
      | .error reason => throw (some ⟨text, definition, reason⟩)
  | .boolean =>
    if text = "true" || text = "false" then return .truth (text = "true")
    else throw (some ⟨text, definition, "not a boolean"⟩)
  | .binary =>
    match Text.base64Bytes? text.toList with
    | some content => return .bytes content
    | none => throw (some ⟨text, definition, "bad base64 value"⟩)
  | .empty => do
    if !isSilent then
      (report position (.typing (.noDefault "empty")) : Check _)
    throw none
  | .bits _ => return .names (Text.wordsOf text)
  | .identity bases => identityValue depth bases home position isSilent definition text
  | .ranged base .. | .sized base .. | .patterned base _ =>
    readIn depth home position isSilent text none base
  | .named base own => readIn depth home position isSilent text (some own) base
  | .string | .enumeration _ | .pointer .. | .union _ | .other _ => return .text text

/-- The value that a text is in a type, without the restrictions of that type. A fault without words
has been reported already. -/
def read? (depth : Nat) (home : Nat) (position : Position) (isSilent : Bool) (text : String)
    (type : DataType) : ExceptT (Option ValueFault) Check DataValue :=
  readIn depth home position isSilent text none type

mutual

/-- Whether a text is a value of a type. -/
def isValue (depth home : Nat) (position : Position) (text : String) : DataType → Check Bool
  | .union members => isValueOfAny depth home position text members
  | .named base _ => isValue depth home position text base
  | type => do
    match ← (read? depth home position true text type).run with
    | .error _ => return false
    | .ok value => return (type.check "" value).isOk

/-- Whether a text is a value of any of some types. -/
def isValueOfAny (depth home : Nat) (position : Position) (text : String) :
    List DataType → Check Bool
  | [] => return false
  | type :: rest => do
    if ← isValue depth home position text type then return true
    isValueOfAny depth home position text rest

end

/-- Reports a value that is not one of a type. The note says what kind of value it is. -/
def checkValue (depth home : Nat) (position : Position) (note : String) (type : DataType)
    (value : DataValue) : Check Unit := do
  match type.unnamed with
  | .union members =>
    let text := DataType.shownValue value
    if !(← isValueOfAny depth home position text members) then
      reportValue position ⟨text, type.definition?, "no member type matched" ++ note⟩
  | _ =>
    match type.check note value with
    | .ok _ => return
    | .error fault => reportValue position fault

/-- **The value that a default is in a type.** What is wrong with it is reported. -/
def valueOf (home : Nat) (position : Position) (type : DataType) (text : String) :
    Check (Option DataValue) := do
  let depth ← depth
  match ← (read? depth home position false text type).run with
  | .error (some fault) =>
    reportValue position fault
    return none
  | .error none => return none
  | .ok value =>
    checkValue depth home position " for the default value" type value
    return some value

end SchemaAssembly.Yang.Check
