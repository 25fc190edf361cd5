import Rulebook.Decimal.Shortest
import Rulebook.Script.Value
import Rulebook.Text.Quoted

/-!
Values as text. Scripts have one form for reading and one for inspection; records of what scripts
said use a form of their own, in which characters inside lists stand between quotes.
-/

namespace Rulebook.Script

/-- From here on numbers are shown with an exponent. -/
def largestPlain : Float := 9999999827968

/-- Below this numbers are shown with an exponent. -/
def smallestPlain : Float := 9.99999982451670044e-14

/-- Floats for reading: zero has no sign, and whole numbers end in a zero. -/
def floatText (number : Float) : String :=
  let size := number.abs
  if number.isNaN then "NaN"
  else if number.isInf then (if number < 0 then "-inf" else "inf")
  else if number == 0 then "0.0"
  else if largestPlain < size ∨ size < smallestPlain then
    (Decimal.shortest number).scientific false
  else (Decimal.shortest number).positional true

/-- Floats for inspection have an exponent from `1e16` on and below `1e-5`. -/
def inspectedFloat : Decimal.Style :=
  ⟨16, -5, false, "NaN", "inf"⟩

def quotedChar (character : Char) : String :=
  let shown := if character = '"' then ['"'] else if character = '\'' then ['\\', '\'']
    else Text.escaped character
  String.ofList ('\'' :: shown ++ ['\''])

def braced (inner : String) : String :=
  "#\x7b" ++ inner ++ "\x7d"

def blobText (bytes : List UInt8) : String :=
  let groups := bytes.zipIdx.flatMap fun (byte, index) =>
    (if 0 < index ∧ index % 8 = 0 then [' '] else []) ++ Text.hexDigits 2 byte.toNat
  "[" ++ String.ofList groups ++ "]"

def rangeText (first last : Int) (closed : Bool) : String :=
  toString first ++ (if closed then "..=" else "..") ++ toString last

namespace Value

mutual

def inspect : Value → String
  | .unit => "()"
  | .bool value => toString value
  | .int value => toString value
  | .float value => inspectedFloat.write value
  | .char value => value.toString
  | .text value => Text.quoted value
  | .list items => "[" ++ inspectItems items ++ "]"
  | .map fields => braced (inspectFields fields)
  | .blob bytes => blobText bytes
  | .range first last closed => rangeText first last closed
  | .function name _ => s!"Fn({name})"
  | value => value.fullTypeName

def inspectItems : List Value → String
  | [] => ""
  | [item] => item.inspect
  | item :: rest => item.inspect ++ ", " ++ inspectItems rest

def inspectFields : List (String × Value) → String
  | [] => ""
  | [(name, value)] => Text.quoted name ++ ": " ++ value.inspect
  | (name, value) :: rest =>
    Text.quoted name ++ ": " ++ value.inspect ++ ", " ++ inspectFields rest

end

def toText : Value → String
  | .unit => ""
  | .float value => floatText value
  | .text value => value
  | value => value.inspect

mutual

/-- For inspection in records. -/
def recordedInside : Value → String
  | .char value => quotedChar value
  | .list items => "[" ++ recordedItems items ++ "]"
  | .map fields => braced (recordedFields fields)
  | .function name bound => s!"Fn({Text.quoted name}{recordedBound bound})"
  | value => value.inspect

def recordedItems : List Value → String
  | [] => ""
  | [item] => item.recordedInside
  | item :: rest => item.recordedInside ++ ", " ++ recordedItems rest

def recordedFields : List (String × Value) → String
  | [] => ""
  | [(name, value)] => Text.quoted name ++ ": " ++ value.recordedInside
  | (name, value) :: rest =>
    Text.quoted name ++ ": " ++ value.recordedInside ++ ", " ++ recordedFields rest

def recordedBound : List Value → String
  | [] => ""
  | value :: rest => ", " ++ value.recordedInside ++ recordedBound rest

end

def recorded : Value → String
  | .list items => (Value.list items).recordedInside
  | .map fields => (Value.map fields).recordedInside
  | value => value.toText

end Value

end Rulebook.Script
