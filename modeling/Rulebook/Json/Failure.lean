import Rulebook.Json.Value
import Rulebook.Json.Writer
import Rulebook.Text.Quoted

/-!
Why JSON text or a JSON value could not be read, and the wording of each reason.
-/

namespace Rulebook.Json

inductive Found where
  | null
  | bool (value : Bool)
  | integer (value : Int)
  | float (value : Float)
  | text (value : String)
  | sequence
  | map
  | newtype

def Found.describe : Found → String
  | .null => "null"
  | .bool value => s!"boolean `{value}`"
  | .integer value => s!"integer `{value}`"
  | .float value => s!"floating point `{floatText value}`"
  | .text value => s!"string {Text.quoted value}"
  | .sequence => "sequence"
  | .map => "map"
  | .newtype => "newtype variant"

def found : Json → Found
  | .null => .null
  | .bool value => .bool value
  | .int value => .integer value
  | .float value => .float value
  | .str text => .text text
  | .arr _ => .sequence
  | .obj _ => .map

inductive Problem where
  | endInList
  | endInObject
  | endInString
  | endInValue
  | expectedColon
  | expectedListComma
  | expectedObjectComma
  | expectedIdentifier
  | expectedValue
  | invalidEscape
  | invalidNumber
  | numberOutOfRange
  | controlCharacter
  | keyNotString
  | loneSurrogate
  | unfinishedSurrogate
  | trailingComma
  | trailingCharacters
  | tooDeep
  | wrongType (what : Found) (expected : String)
  | wrongValue (what : Found) (expected : String)
  | wrongLength (length : Nat) (expected : String)
  | missingField (name : String)
  | duplicateField (name : String)
  | unknownVariant (name : String) (variants : List String)
  | rejected (reason : String)

def choices : List String → String
  | [] => "there are no variants"
  | [only] => s!"expected `{only}`"
  | [first, second] => s!"expected `{first}` or `{second}`"
  | variants => "expected one of " ++ ", ".intercalate (variants.map fun name => s!"`{name}`")

def Problem.message : Problem → String
  | .endInList => "EOF while parsing a list"
  | .endInObject => "EOF while parsing an object"
  | .endInString => "EOF while parsing a string"
  | .endInValue => "EOF while parsing a value"
  | .expectedColon => "expected `:`"
  | .expectedListComma => "expected `,` or `]`"
  | .expectedObjectComma => "expected `,` or `\x7d`"
  | .expectedIdentifier => "expected ident"
  | .expectedValue => "expected value"
  | .invalidEscape => "invalid escape"
  | .invalidNumber => "invalid number"
  | .numberOutOfRange => "number out of range"
  | .controlCharacter => "control character (\\u0000-\\u001F) found while parsing a string"
  | .keyNotString => "key must be a string"
  | .loneSurrogate => "lone leading surrogate in hex escape"
  | .unfinishedSurrogate => "unexpected end of hex escape"
  | .trailingComma => "trailing comma"
  | .trailingCharacters => "trailing characters"
  | .tooDeep => "recursion limit exceeded"
  | .wrongType what expected => s!"invalid type: {what.describe}, expected {expected}"
  | .wrongValue what expected => s!"invalid value: {what.describe}, expected {expected}"
  | .wrongLength length expected => s!"invalid length {length}, expected {expected}"
  | .missingField name => s!"missing field `{name}`"
  | .duplicateField name => s!"duplicate field `{name}`"
  | .unknownVariant name variants => s!"unknown variant `{name}`, {choices variants}"
  | .rejected reason => reason

/-- Lines count from one; a column is the number of bytes of the line before the place. -/
structure Place where
  line : Nat
  column : Nat

structure Failure where
  problem : Problem
  place : Option Place

def Failure.message (failure : Failure) : String :=
  match failure.place with
  | some place =>
    s!"{failure.problem.message} at line {place.line} column {place.column}"
  | none => failure.problem.message

def Failure.locate (place : Place) (failure : Failure) : Failure :=
  match failure.place with
  | some _ => failure
  | none => { failure with place := some place }

end Rulebook.Json
