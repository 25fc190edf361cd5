import Rulebook.Decimal.Reading
import Rulebook.Script.Library.Native
import Rulebook.Text.Blank

/-!
Functions of numbers, truth values and single characters.
-/

namespace Rulebook.Script.Library

def pi : Float := 3.141592653589793

def digitOf? (character : Char) : Option Nat :=
  if character.isDigit then some (character.toNat - '0'.toNat)
  else if character.isLower then some (character.toNat - 'a'.toNat + 10)
  else if character.isUpper then some (character.toNat - 'A'.toNat + 10)
  else none

def digitsIn? (radix soFar : Nat) : List Char → Option Nat
  | [] => some soFar
  | character :: rest =>
    match digitOf? character with
    | some digit => if digit < radix then digitsIn? radix (soFar * radix + digit) rest else none
    | none => none

/-- A whole number in a base, or what is wrong with its text. -/
def readInt (radix : Nat) (text : String) : Except String Int :=
  let characters := (Text.trim text).toList
  let negative := characters.head? == some '-'
  let digits := match characters with
    | '-' :: rest | '+' :: rest => rest
    | _ => characters
  if characters.isEmpty then .error "cannot parse integer from empty string"
  else if digits.isEmpty then .error "invalid digit found in string"
  else match digitsIn? radix 0 digits with
    | none => .error "invalid digit found in string"
    | some size =>
      let value : Int := if negative then -(size : Int) else size
      if isInt64 value then .ok value
      else if negative then .error "number too small to fit in target type"
      else .error "number too large to fit in target type"

def parseInt (radix : Int) (text : String) : Except Problem Value :=
  if radix < 2 ∨ 36 < radix then throw (.arithmetic s!"Invalid radix: '{radix}'")
  else match readInt radix.toNat text with
    | .ok value => pure (.int value)
    | .error reason => throw (.arithmetic s!"Error parsing integer number '{text}': {reason}")

def parseFloat (text : String) : Except Problem Value :=
  match Decimal.float? (Text.trim text) with
  | some value => pure (.float value)
  | none =>
    let reason := if (Text.trim text).isEmpty then "cannot parse float from empty string"
      else "invalid float literal"
    throw (.arithmetic s!"Error parsing floating-point number '{text}': {reason}")

/-- The 64 bits of a number in a base that is a power of two. -/
def bitsText (base : Nat) (number : Int) : String :=
  String.ofList (Nat.toDigits base (number % twoTo 64).toNat)

def floatToInt (number : Float) : Except Problem Value :=
  match Number.truncated? number with
  | some value => pure (.int value)
  | none => throw (.arithmetic s!"Integer overflow: to_int({(Value.float number).toText})")

def floatSign (number : Float) : Except Problem Value :=
  if number.isNaN then throw (.arithmetic "Sign of NaN is undefined")
  else pure (.int (if number == 0 then 0 else if number < 0 then -1 else 1))

def whole (number : Float) : Float :=
  if number < 0 then number.ceil else number.floor

def ofInt? (name : String) (number : Int) : Option Native :=
  match name with
  | "-" => Native.attempt ((Number.negate number).map .int)
  | "+" => Native.value (.int number)
  | "abs" => Native.attempt ((Number.absolute number).map .int)
  | "sign" => Native.value (.int number.sign)
  | "is_zero" => Native.bool (number == 0)
  | "is_odd" => Native.bool (number % 2 == 1)
  | "is_even" => Native.bool (number % 2 == 0)
  | "to_float" => Native.value (.float (Float.ofInt number))
  | "to_int" => Native.value (.int number)
  | "to_hex" => Native.value (.text (bitsText 16 number))
  | "to_octal" => Native.value (.text (bitsText 8 number))
  | "to_binary" => Native.value (.text (bitsText 2 number))
  | "to_char" =>
    if Nat.isValidChar number.toNat ∧ 0 ≤ number then
      Native.value (.char (Char.ofNat number.toNat))
    else none
  | _ => none

def ofFloat? (name : String) (number : Float) : Option Native :=
  let float (value : Float) : Option Native := Native.value (.float value)
  match name with
  | "-" => float (-number)
  | "+" => float number
  | "abs" => float number.abs
  | "sign" => Native.attempt (floatSign number)
  | "is_zero" => Native.bool (number == 0)
  | "is_nan" => Native.bool number.isNaN
  | "is_finite" => Native.bool number.isFinite
  | "is_infinite" => Native.bool number.isInf
  | "to_int" => Native.attempt (floatToInt number)
  | "to_float" => float number
  | "floor" => float number.floor
  | "ceiling" => float number.ceil
  | "round" => float number.round
  | "int" => float (whole number)
  | "fraction" => float (number - whole number)
  | "sqrt" => float number.sqrt
  | "exp" => float number.exp
  | "ln" => float number.log
  | "log" => float number.log10
  | "sin" => float number.sin
  | "cos" => float number.cos
  | "tan" => float number.tan
  | "asin" => float number.asin
  | "acos" => float number.acos
  | "atan" => float number.atan
  | "sinh" => float number.sinh
  | "cosh" => float number.cosh
  | "tanh" => float number.tanh
  | "asinh" => float number.asinh
  | "acosh" => float number.acosh
  | "atanh" => float number.atanh
  | "to_degrees" => float (number * (180 / pi))
  | "to_radians" => float (number * (pi / 180))
  | _ => none

/-- The smaller or larger of two values of one kind. -/
def extreme? (name : String) (left right : Value) : Option Native :=
  let sign := if name = "max" then ">=" else "<="
  let pick (left right : Value) : Option Native :=
    match Operator.result? sign left right with
    | some (.ok (.bool true)) => Native.value left
    | _ => Native.value right
  match left, right with
  | .int _, .int _ | .float _, .float _ | .char _, .char _ | .text _, .text _ => pick left right
  | .int left, .float _ => pick (.float (Float.ofInt left)) right
  | .float _, .int right => pick left (.float (Float.ofInt right))
  | _, _ => none

def bit? (index : Int) : Except Problem Nat :=
  match indexOf? 64 index with
  | some place => pure place
  | none => throw (.bitBounds index)

def bitAt (number : Int) (place : Nat) : Bool :=
  Nat.testBit (number % twoTo 64).toNat place

def withBit (number : Int) (place : Nat) (value : Bool) : Int :=
  let cleared := (number % twoTo 64).toNat - if bitAt number place then twoTo place else 0
  wrap64 (cleared + if value then twoTo place else 0 : Nat)

def numbers? (name : String) (arguments : List Value) : Option Native :=
  match name, arguments with
  | "PI", [] => Native.value (.float pi)
  | "E", [] => Native.value (.float 2.718281828459045)
  | "!", [.bool value] => Native.bool (!value)
  | "parse_int", [.text value] => Native.attempt (parseInt 10 value)
  | "parse_int", [.text value, .int radix] => Native.attempt (parseInt radix value)
  | "parse_float", [.text value] => Native.attempt (parseFloat value)
  | "min", [left, right] => extreme? "min" left right
  | "max", [left, right] => extreme? "max" left right
  | "hypot", [.float left, .float right] =>
    Native.value (.float (left * left + right * right).sqrt)
  | "atan", [.float left, .float right] => Native.value (.float (left.atan2 right))
  | "log", [.float value, .float base] => Native.value (.float (value.log / base.log))
  | "get_bit", [.int number, .int index] =>
    Native.attempt ((bit? index).map fun place => .bool (bitAt number place))
  | "set_bit", [.int number, .int index, .bool value] =>
    some (.changes ((bit? index).mapError Interrupt.of |>.map fun place =>
      (.unit, .int (withBit number place value))))
  | name, [.int number] => ofInt? name number
  | name, [.float number] => ofFloat? name number
  | _, _ => none

end Rulebook.Script.Library
