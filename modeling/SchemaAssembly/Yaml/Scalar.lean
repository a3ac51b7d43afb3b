import SchemaAssembly.Text.Blank
import SchemaAssembly.Text.Digit
import SchemaAssembly.Text.LowerCase
import SchemaAssembly.Text.Quoted
import SchemaAssembly.Value
import SchemaAssembly.Yaml.Plain

/-!
# The values of scalars

The value that the text of a scalar has when its kind is known. A tag may say of any text that it is
a number or a date, so the text may turn out not to be one; then there is a `ScalarFault`.

- `Scalar.value` is the value of a text.
-/

namespace SchemaAssembly.Yaml

/-- Why a text is not of its kind. -/
inductive ScalarFault where
  /-- no word for a truth value -/
  | notTruth (word : String)
  /-- a number without digits -/
  | noDigits
  /-- no whole number to the base -/
  | notInteger (base : Nat) (text : String)
  /-- no number with a point -/
  | notDecimal (text : String)
  /-- no date -/
  | notMoment
  /-- numbers that the calendar does not have -/
  | calendar (fault : CalendarFault)
  deriving DecidableEq, Repr

/-- The fault in words. -/
def ScalarFault.message : ScalarFault → String
  | notTruth word => Text.quoted word
  | noDigits => "string index out of range"
  | notInteger base text =>
    "invalid literal for int() with base " ++ toString base ++ ": " ++ Text.quoted text
  | notDecimal text => "could not convert string to float: " ++ Text.quoted text
  | notMoment => "'NoneType' object has no attribute 'groupdict'"
  | calendar fault => fault.message

namespace Scalar

/-! ### Numbers -/

/-- The value of a digit in the bases up to sixteen; decimal digits may be of any script. -/
def digitValue? (c : Char) : Option Nat :=
  match Text.hexValue? c with
  | some d => some d
  | none =>
    (Text.digitZeros.find? fun first => first ≤ c.toNat && c.toNat < first + 10).map (c.toNat - ·)

/-- The number that digits stand for in a base, if they are digits of it. -/
def natural? (base : Nat) (digits : List Char) : Option Nat :=
  if digits.isEmpty then none
  else digits.foldlM (fun n c => do
    let d ← digitValue? c
    if d < base then some (n * base + d) else none) 0

/-- The digits behind the letters that may announce a base. -/
def behindBase (base : Nat) : List Char → List Char
  | '0' :: letter :: rest =>
    let letters := match base with
      | 2 => ['b', 'B']
      | 8 => ['o', 'O']
      | 16 => ['x', 'X']
      | _ => []
    if letters.contains letter then rest else '0' :: letter :: rest
  | cs => cs

/-- The whole number that a text is in a base, with a sign and blanks around it. -/
def integerIn (base : Nat) (text : List Char) : Except ScalarFault Int :=
  let number := Text.trimChars text
  let sign := if number.head? = some '-' then -1 else 1
  match natural? base (behindBase base (Plain.unsigned number)) with
  | some n => .ok (sign * n)
  | none => .error (.notInteger base (String.ofList text))

/-- A number without its underscores and its sign, and whether that is a minus. -/
def splitSign (text : List Char) : Except ScalarFault (Int × List Char) :=
  match text.filter (· != '_') with
  | [] => .error .noDigits
  | c :: rest => .ok (if c = '-' then -1 else 1, Plain.unsigned (c :: rest))

/-- The number whose parts to the base sixty are given, most significant first. -/
def ofSixtieths (parts : List Int) : Int :=
  parts.foldl (fun n part => n * 60 + part) 0

/-- **A whole number.** -/
def integer (text : List Char) : Except ScalarFault Int := do
  let (sign, number) ← splitSign text
  let size ← match number with
    | [] => throw .noDigits
    | ['0'] => pure 0
    | '0' :: 'b' :: digits => integerIn 2 digits
    | '0' :: 'x' :: digits => integerIn 16 digits
    | '0' :: digits => integerIn 8 ('0' :: digits)
    | number =>
      if number.contains ':' then
        return sign * ofSixtieths (← (number.splitOn ':').mapM (integerIn 10))
      else integerIn 10 number
  return sign * size

/-- The value of decimal digits of any script. -/
def digitsValue (digits : List Char) : Nat :=
  digits.foldl (fun n c => n * 10 + (digitValue? c).getD 0) 0

/-- The number nearest to digits times a power of ten. Beyond all numbers that there are it is
infinite or zero. -/
def ofDigits (digits : List Char) (exponent : Int) : Float :=
  let significand := digitsValue digits
  if significand = 0 || exponent + digits.length < -330 then 0
  else if 330 < exponent + (Nat.toDigits 10 significand).length then 1 / 0
  else Float.ofScientific significand (exponent < 0) exponent.natAbs

/-- The number that a text in small letters is, without a sign. -/
def unsignedDecimal? (number : List Char) : Option Float :=
  if number = "inf".toList || number = "infinity".toList then some (1 / 0)
  else if number = "nan".toList then some (0 / 0)
  else
    let whole := number.takeWhile Text.isDecimal
    let behind := number.drop whole.length
    let fraction := if behind.head? = some '.' then (behind.drop 1).takeWhile Text.isDecimal else []
    let ending := if behind.head? = some '.' then behind.drop (fraction.length + 1) else behind
    let exponent? : Option Int := match ending with
      | [] => some 0
      | 'e' :: exponent =>
        let digits := Plain.unsigned exponent
        if Plain.allSome Text.isDecimal digits then
          some ((if exponent.head? = some '-' then -1 else 1) * digitsValue digits)
        else none
      | _ => none
    if whole.isEmpty && fraction.isEmpty then none
    else exponent?.map fun exponent => ofDigits (whole ++ fraction) (exponent - fraction.length)

/-- The number that a text in small letters is, with a sign and blanks around it. -/
def decimalOf (text : List Char) : Except ScalarFault Float :=
  let number := Text.trimChars text
  match unsignedDecimal? (Plain.unsigned number) with
  | some x => .ok (if number.head? = some '-' then -x else x)
  | none => .error (.notDecimal (String.ofList text))

/-- **A number with a point.** -/
def decimal (text : List Char) : Except ScalarFault Float := do
  let (sign, number) ← splitSign (Text.lower (String.ofList text)).toList
  let sign : Float := if sign < 0 then -1 else 1
  if number = ".inf".toList then return sign / 0
  else if number = ".nan".toList then return 0 / 0
  else if number.contains ':' then
    let parts ← (number.splitOn ':').mapM decimalOf
    let (sum, _) := parts.reverse.foldl (fun (sum, base) part =>
      (sum + part * base, base * 60)) ((0 : Float), (1 : Float))
    return sign * sum
  else return sign * (← decimalOf number)

/-! ### Other scalars -/

/-- **A truth value**, by a word in letters of any size. -/
def truth (text : String) : Except ScalarFault Bool :=
  let word := Text.lower text
  if Plain.trues.contains word then .ok true
  else if Plain.falses.contains word then .ok false
  else .error (.notTruth word)

/-- **A moment.** -/
def moment (text : List Char) : Except ScalarFault Moment :=
  match Timestamp.moment? text with
  | some moment => moment.checked.mapError .calendar
  | none => .error .notMoment

end Scalar

end SchemaAssembly.Yaml
