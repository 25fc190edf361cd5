import Rulebook.Text.Numeral

/-!
Floats from decimal text: a sign, digits with or without a point, and an exponent. The float
nearest to the decimal is taken.
-/

namespace Rulebook.Decimal

/-- The float nearest to `digits * 10 ^ scale`. Decimals far out of reach are infinite or zero. -/
def nearest (digits : Nat) (scale : Int) : Float :=
  let magnitude : Int := (toString digits).length + scale
  if digits = 0 ∨ magnitude < -400 then 0
  else if 400 < magnitude then 1.0 / 0.0
  else if 0 ≤ scale then Float.ofScientific digits false scale.toNat
  else Float.ofScientific digits true (-scale).toNat

def exponent? (characters : List Char) : Option Int :=
  match characters with
  | '-' :: digits => (Text.natural? digits).map fun size => -(size : Int)
  | '+' :: digits => (Text.natural? digits).map fun size => (size : Int)
  | digits => (Text.natural? digits).map fun size => (size : Int)

def unsigned? (characters : List Char) : Option Float := do
  let isMark (character : Char) : Bool := character = 'e' || character = 'E'
  let significand := characters.takeWhile (!isMark ·)
  let exponent ← match characters.dropWhile (!isMark ·) with
    | [] => some 0
    | _ :: rest => exponent? rest
  let whole := significand.takeWhile (· ≠ '.')
  let fraction := (significand.dropWhile (· ≠ '.')).drop 1
  let digits ← Text.natural? (whole ++ fraction)
  return nearest digits (exponent - fraction.length)

def word? (characters : List Char) : Option Float :=
  match String.ofList (characters.map Char.toLower) with
  | "inf" | "infinity" => some (1.0 / 0.0)
  | "nan" => some (0.0 / 0.0)
  | _ => none

def float? (text : String) : Option Float :=
  let magnitude? (characters : List Char) : Option Float :=
    (word? characters).or (unsigned? characters)
  match text.toList with
  | '-' :: rest => (magnitude? rest).map fun magnitude => -magnitude
  | '+' :: rest => magnitude? rest
  | characters => magnitude? characters

end Rulebook.Decimal
