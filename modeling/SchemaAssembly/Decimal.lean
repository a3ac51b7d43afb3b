/-!
# Shortest decimals

Which decimal stands for a binary floating-point number: of all decimals that are rounded to it, one
with the fewest digits, and of these the nearest. Sixteen digits before the point are written out,
and three zeros behind it; beyond that an exponent is used.

- `Decimal.shortest` is that decimal, `Decimal.textOf` its text.
-/

namespace SchemaAssembly

/-- A whole number times a power of two. -/
structure Dyadic where
  /-- the whole number -/
  significand : Nat
  /-- the exponent of two -/
  exponent : Int
  deriving DecidableEq, Repr

/-- The size of a finite number, its sign left out. -/
def Dyadic.ofFloat (x : Float) : Dyadic :=
  let bits := x.toBits.toNat
  let field := bits / Nat.pow 2 52 % Nat.pow 2 11
  let fraction := bits % Nat.pow 2 52
  if field = 0 then ⟨fraction, -1074⟩ else ⟨Nat.pow 2 52 + fraction, Int.ofNat field - 1075⟩

/-- The whole number that it is, if it is one. -/
def Dyadic.whole? (d : Dyadic) : Option Nat :=
  if 0 ≤ d.exponent then some (d.significand * Nat.pow 2 d.exponent.toNat)
  else
    let unit := Nat.pow 2 (-d.exponent).toNat
    if d.significand % unit = 0 then some (d.significand / unit) else none

/-- The whole number that a floating-point number is, if it is one. -/
def wholeNumber? (x : Float) : Option Int :=
  if x.isFinite then
    (Dyadic.ofFloat x).whole?.map fun n => if x < 0 then -(n : Int) else n
  else none

/-- A decimal: digits times a power of ten. -/
structure Decimal where
  /-- the digits as a whole number -/
  digits : Nat
  /-- the exponent of ten -/
  exponent : Int
  deriving DecidableEq, Repr

namespace Decimal

/-- A quotient of whole numbers. -/
structure Quotient where
  /-- the dividend -/
  dividend : Nat
  /-- the divisor -/
  divisor : Nat

/-- A quotient times a power of two. -/
def Quotient.ofDyadic (significand : Nat) (exponent : Int) : Quotient :=
  if 0 ≤ exponent then ⟨significand * Nat.pow 2 exponent.toNat, 1⟩
  else ⟨significand, Nat.pow 2 (-exponent).toNat⟩

/-- A quotient in units of a power of ten. -/
def Quotient.inUnits (q : Quotient) (exponent : Int) : Quotient :=
  if 0 ≤ exponent then ⟨q.dividend, q.divisor * Nat.pow 10 exponent.toNat⟩
  else ⟨q.dividend * Nat.pow 10 (-exponent).toNat, q.divisor⟩

/-- How many zeros follow the point in a quotient below one. -/
def leadingZeros (q : Quotient) : Nat :=
  ((List.range 400).find? fun k => q.divisor ≤ q.dividend * Nat.pow 10 (k + 1)).getD 0

/-- How many digits a quotient has before the point; none or fewer if zeros follow the point. -/
def magnitude (q : Quotient) : Int :=
  if q.divisor ≤ q.dividend then (Nat.toDigits 10 (q.dividend / q.divisor)).length
  else -Int.ofNat (leadingZeros q)

/-- The bounds between which numbers are rounded to a dyadic one, and whether they belong to it. -/
def bounds (d : Dyadic) : Quotient × Quotient × Bool :=
  let below := if d.significand = Nat.pow 2 52 ∧ -1074 < d.exponent then 1 else 2
  let low := Quotient.ofDyadic (4 * d.significand - below) (d.exponent - 2)
  let high := Quotient.ofDyadic (4 * d.significand + 2) (d.exponent - 2)
  (low, high, d.significand % 2 = 0)

/-- The nearest decimal in units of a power of ten that is rounded to a dyadic number, if there is
one. Of two that are equally near the even one is taken. -/
def nearest? (d : Dyadic) (exponent : Int) : Option Decimal :=
  let value := (Quotient.ofDyadic d.significand d.exponent).inUnits exponent
  let (low, high, closed) := bounds d
  let low := low.inUnits exponent
  let high := high.inUnits exponent
  let fits := fun (n : Nat) =>
    if closed then low.dividend ≤ n * low.divisor && n * high.divisor ≤ high.dividend
    else low.dividend < n * low.divisor && n * high.divisor < high.dividend
  let below := value.dividend / value.divisor
  let above := below + 1
  let twice := 2 * (value.dividend % value.divisor)
  let isBelow := twice < value.divisor || (twice = value.divisor && below % 2 = 0)
  let first := if isBelow then below else above
  let second := if first = below then above else below
  if fits first then some ⟨first, exponent⟩
  else if fits second then some ⟨second, exponent⟩
  else none

/-- **The shortest decimal** that is rounded to a positive dyadic number. Seventeen digits always
suffice. -/
def shortest (d : Dyadic) : Decimal :=
  let before := magnitude (.ofDyadic d.significand d.exponent)
  ((List.range 17).findSome? fun n => nearest? d (before - Int.ofNat (n + 1))).getD ⟨0, 0⟩

/-- The digits that are not zeros at the end, and how many digits stand before the point. -/
def placed (d : Decimal) : List Char × Int :=
  let digits := Nat.toDigits 10 d.digits
  ((digits.reverse.dropWhile (· = '0')).reverse, (digits.length : Int) + d.exponent)

/-- An exponent of at least two digits, with its sign. -/
def exponentText (e : Int) : List Char :=
  let digits := Nat.toDigits 10 e.natAbs
  (if e < 0 then '-' else '+') :: (if digits.length < 2 then '0' :: digits else digits)

/-- A decimal as it is written. -/
def written (d : Decimal) : List Char :=
  let (digits, before) := d.placed
  if before ≤ -4 || 16 < before then
    let behind := digits.drop 1
    digits.take 1 ++ (if behind.isEmpty then [] else '.' :: behind) ++
      'e' :: exponentText (before - 1)
  else if before ≤ 0 then '0' :: '.' :: (List.replicate (-before).toNat '0' ++ digits)
  else
    let whole := digits.take before.toNat
    let fraction := digits.drop before.toNat
    whole ++ List.replicate (before.toNat - whole.length) '0' ++
      '.' :: (if fraction.isEmpty then ['0'] else fraction)

/-- **The text** of a floating-point number. -/
def textOf (x : Float) : String :=
  if x.isNaN then "nan"
  else
    let sign := if x.toBits.toNat / Nat.pow 2 63 = 1 then "-" else ""
    if x.isInf then sign ++ "inf"
    else
      let d := Dyadic.ofFloat x
      sign ++ if d.significand = 0 then "0.0" else String.ofList (shortest d).written

end Decimal

end SchemaAssembly
