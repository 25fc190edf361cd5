import Rulebook.Decimal.Shortest
import Rulebook.Json.Value
import Rulebook.Text.Numeral

/-!
Compact JSON text of a value. Floats are written with the fewest digits that read back and always
with a point or an exponent; what is not a number becomes `null`.
-/

namespace Rulebook.Json

/-- Floats have an exponent from `1e16` on and below `1e-5`. -/
def floatStyle : Decimal.Style :=
  ⟨16, -5, true, "null", "null"⟩

def floatText (number : Float) : String :=
  if number.isNaN || number.isInf then "null" else floatStyle.write number

def escapedCharacter (character : Char) : List Char :=
  if character = '"' then ['\\', '"']
  else if character = '\\' then ['\\', '\\']
  else if character = '\n' then ['\\', 'n']
  else if character = '\r' then ['\\', 'r']
  else if character = '\t' then ['\\', 't']
  else if character = '\x08' then ['\\', 'b']
  else if character = '\x0c' then ['\\', 'f']
  else if character.toNat < 0x20 then '\\' :: 'u' :: Text.hexDigits 4 character.toNat
  else [character]

def stringText (text : String) : String :=
  String.ofList ('"' :: text.toList.flatMap escapedCharacter ++ ['"'])

mutual

def render : Json → String
  | .null => "null"
  | .bool true => "true"
  | .bool false => "false"
  | .int value => toString value
  | .float value => floatText value
  | .str text => stringText text
  | .arr elements => "[" ++ renderElements elements ++ "]"
  | .obj fields => "\x7b" ++ renderFields fields ++ "\x7d"

def renderElements : List Json → String
  | [] => ""
  | [element] => render element
  | element :: rest => render element ++ "," ++ renderElements rest

def renderFields : List (String × Json) → String
  | [] => ""
  | [(key, value)] => stringText key ++ ":" ++ render value
  | (key, value) :: rest => stringText key ++ ":" ++ render value ++ "," ++ renderFields rest

end

end Rulebook.Json
