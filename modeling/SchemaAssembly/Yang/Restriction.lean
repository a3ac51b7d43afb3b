import SchemaAssembly.Yang.Values

/-!
# Restrictions of types

The ranges, lengths and named values that a type statement states. What is stated of a type that is
restricted already must be in that type.

- `Check.readRange` and `Check.lengthIntervals` read intervals.
- `Check.checkNamed` numbers named values.
-/

namespace SchemaAssembly.Yang.Check

/-! ### Intervals -/

/-- The bound that a text states for values of a type. -/
def rangeBound (home : Nat) (position : Position) (type : DataType) (text : String) :
    Check (Option Bound) := do
  match ← (read? (← depth) home position false text type).run with
  | .ok .least => return some .least
  | .ok .greatest => return some .greatest
  | .ok (.number n shown) => return some (.at n shown)
  | .ok _ => return none
  | .error (some fault) =>
    reportValue position fault
    return none
  | .error none => return none

/-- Whether a bound is a value of the type that it restricts. Reports one that is not. -/
def checkBound (position : Position) (type : DataType) : Option Bound → Check Bool
  | some (.at n shown) => do
    match type.check "" (.number n shown) with
    | .ok _ => return true
    | .error fault =>
      reportValue position fault
      return false
  | _ => return true

/-- Reports bounds between which a type does not have all values. -/
def checkBounds (position : Position) (type : DataType) (low high : Option Bound) :
    Check Unit := do
  let isLow ← checkBound position type low
  let isHigh ← checkBound position type high
  if isLow && isHigh then
    let first? := match low with
      | some (.at n shown) => some (n, shown)
      | some .least => type.least?
      | _ => none
    let last? := match high with
      | some (.at n shown) => some (n, shown)
      | some .greatest => type.greatest?
      | _ => none
    match first?, last? with
    | some (first, _), some (last, shown) =>
      (type.spanFault? first last shown none).forM (reportValue position)
    | _, _ => return

/-- The intervals that a range states: their bounds ascend and are values of the type. -/
def rangeIntervals (position : Position) (type : DataType) (before : Option Bound) :
    List (Option Bound × Option (Option Bound)) → Check (Option (List Interval))
  | [] => return some []
  | (low, high) :: rest => do
    checkBounds position type low high.join
    match low with
    | none => return none
    | some low =>
      if !(before.all (·.isBefore low)) then
        report position
          (.typing (.rangeBounds low.shown ((before.map (·.shown)).getD "None")))
        return none
      let high := high.join
      if !(high.all (low.isBefore ·)) then
        report position (.typing (.rangeBounds ((high.map (·.shown)).getD "None") low.shown))
        return none
      let more ← rangeIntervals position type (some (high.getD low)) rest
      return more.map (⟨low, high⟩ :: ·)

/-- The intervals of a range. -/
def readRange (s : Site) (type : DataType) : Check (Option (List Interval)) := do
  let position ← positionOf s
  let bounds ← (intervalTexts s.statement.name).mapM fun (low, high) => do
    let low ← rangeBound s.home position type low
    match high with
    | none => return (low, none)
    | some high => return (low, some (← rangeBound s.home position type high))
  rangeIntervals position type none bounds

/-- The bound of a length. -/
def lengthBound (text : String) : Bound :=
  match text with
  | "min" => .least
  | "max" => .greatest
  | text =>
    let n := ((DataType.digitsValue? 10 text.toList).getD 0)
    .at n (toString n)

/-- The intervals that a length states: their bounds ascend. -/
def lengthIntervals (position : Position) (before : Option Bound) :
    List (String × Option String) → Check (Option (List Interval))
  | [] => return some []
  | (low, high) :: rest => do
    let low := lengthBound low
    let high := high.map lengthBound
    match (low :: high.toList).find? Bound.isTooLong with
    | some bound =>
      reportValue position ⟨bound.shown, none, "lengths error"⟩
      return none
    | none => pure ()
    match low, high with
    | .at a _, some (.at b shown) =>
      if b < a then
        report position (.typing (.lengthBounds shown low.shown))
        return none
    | _, _ => pure ()
    if !(before.all (·.isBefore low)) then
      report position
        (.typing (.lengthBounds low.shown ((before.map (·.shown)).getD "None")))
      return none
    let more ← lengthIntervals position (some (high.getD low)) rest
    return more.map (⟨low, high⟩ :: ·)

/-! ### Named values -/

/-- How named values are numbered. -/
structure Numbering where
  /-- the value of a name alone -/
  value : String → DataValue
  /-- the statement that gives a number -/
  keyword : String
  /-- the least and the largest number -/
  bounds : Int × Int
  /-- a number is out of bounds -/
  badNumber : String → TypeDefect
  /-- a number has been used -/
  sameNumber : Int → Position → TypeDefect
  /-- a name has been used -/
  sameName : String → Position → TypeDefect
  /-- a number differs from that of the same name in the base type -/
  otherNumber : String → Int → TypeDefect

/-- The numbering of an enumeration. -/
def Numbering.ofEnum : Numbering :=
  ⟨.text, "value", DataType.signedBounds 32, .badEnumValue, .sameEnumValue, .sameEnumName,
    .otherEnumValue⟩

/-- The numbering of bits. -/
def Numbering.ofBits : Numbering :=
  ⟨fun name => .names [name], "position", DataType.unsignedBounds 32, .badBitPosition,
    .sameBitPosition, .sameBitName, .otherBitPosition⟩

/-- Reports a name that a type that is restricted does not have. -/
def checkNameIn (position : Position) (value : DataValue) (base : DataType) : Check Unit := do
  match base.check "" value with
  | .ok _ => return
  | .error fault => reportValue position fault

/-- Checks the names and numbers of named values, given the next number and the numbers and names
that have been used. Those of a type that restricts another one are those of its base. The answer
gives each name its number, if that is known. -/
def checkNamed (numbering : Numbering) (base : Option DataType) (next : Int)
    (numbers : List (Int × Position)) (names : List (String × Position)) :
    List Site → Check (List (String × Option Int))
  | [] => return []
  | s :: rest => do
    let position ← positionOf s
    let name := s.statement.name
    base.forM (checkNameIn position (numbering.value name))
    let inBase := base.bind (·.numberOf? name)
    let (next, number, numbers) ← match s.first? numbering.keyword with
      | some stated =>
        let text := stated.statement.name
        let place ← positionOf stated
        match DataType.signed? (DataType.digitsValue? 10) text with
        | none =>
          report place (.typing (numbering.badNumber text))
          pure (next, none, numbers)
        | some n =>
          match inBase with
          | some other =>
            if other != n then report place (.typing (numbering.otherNumber text other))
          | none => pure ()
          if n < numbering.bounds.1 || numbering.bounds.2 < n then
            report place (.typing (numbering.badNumber text))
            pure (next, none, numbers)
          else
            match numbers.lookup n with
            | some first =>
              report place (.typing (numbering.sameNumber n first))
              pure (max next (n + 1), some n, numbers)
            | none => pure (max next (n + 1), some n, (n, place) :: numbers)
      | none =>
        match inBase with
        | some n => pure (max next (n + 1), some n, (n, position) :: numbers)
        | none =>
          if numbering.bounds.2 < next then
            report position (.typing (numbering.badNumber (toString next)))
          pure (next + 1, some next, (next, position) :: numbers)
    let names ← match names.lookup name with
      | some first =>
        report position (.typing (numbering.sameName name first))
        pure names
      | none => pure ((name, position) :: names)
    return (name, number) :: (← checkNamed numbering base next numbers names rest)

end SchemaAssembly.Yang.Check
