import SchemaAssembly.Moment
import SchemaAssembly.Text.Lines

/-!
# Written moments

How YAML writes dates and times: the numbers of the day between dashes, those of the time between
colons, then perhaps a fraction of the second and the distance from the universal clock. A line feed
at the end does not matter.

- `Timestamp.moment?` is the moment that a text writes.
-/

namespace SchemaAssembly.Yaml

/-- The value of decimal digits. -/
def decimalValue (digits : List Char) : Nat :=
  digits.foldl (fun n c => n * 10 + (c.toNat - '0'.toNat)) 0

namespace Timestamp

/-- The number a text begins with, of `least` to `most` digits, and the rest. -/
def digits (least most : Nat) (cs : List Char) : Option (Nat × List Char) :=
  let digits := (cs.take most).takeWhile Char.isDigit
  if least ≤ digits.length then some (decimalValue digits, cs.drop digits.length) else none

/-- The rest behind a character that must come first. -/
def expect (c : Char) : List Char → Option (List Char)
  | d :: rest => if c = d then some rest else none
  | [] => none

/-- Whether a character may stand between a date and its time. -/
def isSpace (c : Char) : Bool :=
  c == ' ' || c == '\t'

/-- The day a text begins with, and the rest. -/
def day (cs : List Char) : Option (Day × List Char) := do
  let (year, cs) ← digits 4 4 cs
  let (month, cs) ← digits 1 2 (← expect '-' cs)
  let (day, cs) ← digits 1 2 (← expect '-' cs)
  return (⟨year, month, day⟩, cs)

/-- The millionths that the digits of a fraction stand for; what is smaller does not count. -/
def millionths (digits : List Char) : Nat :=
  decimalValue (digits.take 6 ++ List.replicate (6 - digits.length) '0')

/-- The time a text begins with, and the rest. -/
def clock (cs : List Char) : Option (Clock × List Char) := do
  let (hour, cs) ← digits 1 2 cs
  let (minute, cs) ← digits 2 2 (← expect ':' cs)
  let (second, cs) ← digits 2 2 (← expect ':' cs)
  match cs with
  | '.' :: rest =>
    let fraction := rest.takeWhile Char.isDigit
    return (⟨hour, minute, second, millionths fraction⟩, rest.drop fraction.length)
  | rest => return (⟨hour, minute, second, 0⟩, rest)

/-- The distance from the universal clock that is all of a text, if it is given. -/
def ahead (cs : List Char) : Option (Option Int) :=
  match cs.dropWhile isSpace with
  | [] => if cs.isEmpty then some none else none
  | ['Z'] => some (some 0)
  | sign :: rest => do
    let direction : Int ← if sign = '+' then some 1 else if sign = '-' then some (-1) else none
    let (hours, rest) ← digits 1 2 rest
    match rest with
    | [] => return some (direction * hours * 60)
    | ':' :: rest =>
      match ← digits 2 2 rest with
      | (minutes, []) => return some (direction * (hours * 60 + minutes))
      | _ => none
    | _ => none

/-- **The moment that a text writes**, whether or not it exists. -/
def moment? (cs : List Char) : Option Moment := do
  match ← day (Text.withoutLineFeed cs) with
  | (day, []) => return .day day
  | (day, c :: rest) =>
    let rest ← if c = 'T' || c = 't' then some rest
      else if isSpace c then some (rest.dropWhile isSpace) else none
    let (clock, rest) ← clock rest
    return .time day clock (← ahead rest)

/-- Whether a text is a moment without a tag that says so: a day alone then needs all its digits. -/
def isMoment (cs : List Char) : Bool :=
  match moment? cs with
  | some (.day _) => (Text.withoutLineFeed cs).length = 10
  | some (.time ..) => true
  | none => false

end Timestamp

end SchemaAssembly.Yaml
