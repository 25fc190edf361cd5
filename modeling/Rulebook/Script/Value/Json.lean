import Rulebook.Power
import Rulebook.Script.Value

/-!
Values from JSON, and JSON from values. Functions, ranges and blobs have no JSON form.
-/

namespace Rulebook.Script.Value

mutual

/-- Whole numbers beyond 64 signed bits become floats. -/
def ofJson : Json → Value
  | .null => .unit
  | .bool value => .bool value
  | .int value => if value < signedLimit then .int value else .float (Float.ofInt value)
  | .float value => .float value
  | .str value => .text value
  | .arr elements => .list (ofElements elements)
  | .obj fields => .map (ofObject fields)

def ofElements : List Json → List Value
  | [] => []
  | element :: rest => ofJson element :: ofElements rest

def ofObject : List (String × Json) → List (String × Value)
  | [] => []
  | (name, value) :: rest => (name, ofJson value) :: ofObject rest

end

/-- Why a value has no JSON form. -/
def withoutJson : Value → String
  | .blob _ => "Syntax error: invalid type: byte array, expected any valid JSON value"
  | value => s!"Output type incorrect: {value.fullTypeName} (expecting serde_json::value::Value)"

mutual

/-- The JSON form of a value, or the reason why it has none. A float that is no finite number
becomes `null`. -/
def toJson : Value → Except String Json
  | .unit => .ok .null
  | .bool value => .ok (.bool value)
  | .int value => .ok (.int value)
  | .float value => .ok (if value.isNaN || value.isInf then .null else .float value)
  | .char value => .ok (.str value.toString)
  | .text value => .ok (.str value)
  | .list items => do return .arr (← toElements items)
  | .map fields => do return .obj (← toObject fields)
  | value => .error value.withoutJson

def toElements : List Value → Except String (List Json)
  | [] => .ok []
  | item :: rest => do return (← toJson item) :: (← toElements rest)

def toObject : List (String × Value) → Except String (List (String × Json))
  | [] => .ok []
  | (name, value) :: rest => do return (name, ← toJson value) :: (← toObject rest)

end

end Rulebook.Script.Value
