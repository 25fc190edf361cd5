import Rulebook.Power

/-!
The shortest decimal that reads back as a given binary float: a finite positive float is
`mantissa * 2 ^ exponent`, the reals that round to it form an interval around it, and the shortest
decimal is the first grid `10 ^ scale`, from coarse to fine, that has a point in the interval.
-/

namespace Rulebook.Decimal

structure Digits where
  negative : Bool
  digits : Nat
  scale : Int
  deriving Repr, DecidableEq

/-- A positive float as `mantissa * 2 ^ exponent`; `narrowBelow` says that the gap to the float
below is half the gap to the float above. -/
structure Binary where
  mantissa : Nat
  exponent : Int
  narrowBelow : Bool

def Binary.ofBits (bits : Nat) : Binary :=
  let fraction : Nat := bits % twoTo 52
  let field : Nat := bits / twoTo 52 % twoTo 11
  if field = 0 then ⟨fraction, -1074, false⟩
  else ⟨fraction + twoTo 52, (field : Int) - 1075, fraction == 0 && 1 < field⟩

structure Ratio where
  numerator : Nat
  denominator : Nat

def Ratio.ofPower (factor base : Nat) (exponent : Int) : Ratio :=
  if 0 ≤ exponent then ⟨factor * Nat.pow base exponent.toNat, 1⟩
  else ⟨factor, Nat.pow base (-exponent).toNat⟩

def Ratio.le (left right : Ratio) : Bool :=
  left.numerator * right.denominator ≤ right.numerator * left.denominator

def Ratio.lt (left right : Ratio) : Bool :=
  left.numerator * right.denominator < right.numerator * left.denominator

/-- The largest power of ten that is at most the ratio, found upwards from an estimate. -/
def leadingPower (value : Ratio) : Nat → Int → Int
  | 0, power => power
  | fuel + 1, power =>
    if (Ratio.ofPower 1 10 (power + 1)).le value then leadingPower value fuel (power + 1) else power

def leadingPowerOf (value : Ratio) : Int :=
  let estimate := ((value.numerator.log2 : Int) - value.denominator.log2) * 30103 / 100000 - 2
  leadingPower value 6 estimate

def Ratio.distance (left right : Ratio) : Ratio :=
  let first := left.numerator * right.denominator
  let second := right.numerator * left.denominator
  ⟨(first - second) + (second - first), left.denominator * right.denominator⟩

/-- The point of the grid `10 ^ scale` inside the interval and nearest to the value. -/
def gridPoint? (binary : Binary) (scale : Int) : Option Nat :=
  let value := Ratio.ofPower binary.mantissa 2 binary.exponent
  let quarter := binary.exponent - 2
  let lower := Ratio.ofPower (4 * binary.mantissa - if binary.narrowBelow then 1 else 2) 2 quarter
  let upper := Ratio.ofPower (4 * binary.mantissa + 2) 2 quarter
  let closed := binary.mantissa % 2 == 0
  let inside (point : Ratio) : Bool :=
    if closed then lower.le point && point.le upper else lower.lt point && point.lt upper
  let unit := Ratio.ofPower 1 10 scale
  let below := value.numerator * unit.denominator / (value.denominator * unit.numerator)
  let pointBelow := Ratio.ofPower below 10 scale
  let pointAbove := Ratio.ofPower (below + 1) 10 scale
  match inside pointBelow, inside pointAbove with
  | true, true =>
    some (if (value.distance pointAbove).lt (value.distance pointBelow) then below + 1 else below)
  | true, false => some below
  | false, true => some (below + 1)
  | false, false => none

def shortestFrom (binary : Binary) (leading : Int) : Nat → Nat → Nat × Int
  | 0, count => ((gridPoint? binary (leading - count)).getD 0, leading - count)
  | fuel + 1, count =>
    match gridPoint? binary (leading - count) with
    | some point => if point = 0 then shortestFrom binary leading fuel (count + 1)
      else (point, leading - count)
    | none => shortestFrom binary leading fuel (count + 1)

def stripZeros : Nat → Nat × Int → Nat × Int
  | 0, digits => digits
  | fuel + 1, (digits, scale) =>
    if digits % 10 = 0 ∧ digits ≠ 0 then stripZeros fuel (digits / 10, scale + 1)
    else (digits, scale)

def shortest (number : Float) : Digits :=
  let bits := number.toBits.toNat
  let magnitude := bits % twoTo 63
  let negative := twoTo 63 ≤ bits
  if magnitude = 0 then ⟨negative, 0, 0⟩
  else
    let binary := Binary.ofBits magnitude
    let leading := leadingPowerOf (Ratio.ofPower binary.mantissa 2 binary.exponent)
    let (digits, scale) := stripZeros 20 (shortestFrom binary leading 17 0)
    ⟨negative, digits, scale⟩

namespace Digits

def sign (number : Digits) : String :=
  if number.negative then "-" else ""

def count (number : Digits) : Nat :=
  (toString number.digits).length

/-- The exponent of the first digit: the number is `d.ddd * 10 ^ magnitude`. -/
def magnitude (number : Digits) : Int :=
  number.scale + number.count - 1

def positional (number : Digits) (pointed : Bool) : String :=
  let digits := (toString number.digits).toList
  let whole := if pointed then ".0" else ""
  if 0 ≤ number.scale then
    number.sign ++ String.ofList (digits ++ List.replicate number.scale.toNat '0') ++ whole
  else
    let places := (-number.scale).toNat
    let padded := List.replicate (places + 1 - digits.length) '0' ++ digits
    let split := padded.length - places
    number.sign ++ String.ofList (padded.take split ++ '.' :: padded.drop split)

/-- One digit before the point and an exponent after the mark; `plus` writes the sign of a
positive exponent. -/
def scientific (number : Digits) (plus : Bool) : String :=
  let exponent := number.magnitude
  let written := (if plus && 0 ≤ exponent then "+" else "") ++ toString exponent
  match (toString number.digits).toList with
  | [] => ""
  | [digit] => number.sign ++ String.ofList [digit, 'e'] ++ written
  | digit :: rest => number.sign ++ String.ofList (digit :: '.' :: rest ++ ['e']) ++ written

end Digits

structure Style where
  /-- Magnitudes from here on have an exponent. -/
  large : Int
  /-- Magnitudes below this have an exponent. -/
  small : Int
  plus : Bool
  nan : String
  infinity : String

def Style.write (style : Style) (number : Float) : String :=
  if number.isNaN then style.nan
  else if number.isInf then (if number < 0 then "-" else "") ++ style.infinity
  else
    let digits := shortest number
    if digits.digits = 0 then digits.sign ++ "0.0"
    else if style.large ≤ digits.magnitude ∨ digits.magnitude < style.small then
      digits.scientific style.plus
    else digits.positional true

def plain (number : Float) : String :=
  if number.isNaN then "NaN"
  else if number.isInf then (if number < 0 then "-inf" else "inf")
  else (shortest number).positional false

end Rulebook.Decimal
