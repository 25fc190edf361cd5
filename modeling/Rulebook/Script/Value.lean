import Rulebook.Json.Value

/-!
The values that scripts compute with. Maps keep their fields in ascending order of the names, one
field a name.
-/

namespace Rulebook.Script

inductive Value where
  | unit
  | bool (value : Bool)
  | int (value : Int)
  | float (value : Float)
  | char (value : Char)
  | text (value : String)
  | list (items : List Value)
  | map (fields : List (String × Value))
  | blob (bytes : List UInt8)
  | range (first last : Int) (closed : Bool)
  /-- Numbers from the first on, a step apart, up to the last, which is left out. -/
  | steps (first last step : Int)
  | floatSteps (first last step : Float)
  /-- Values to be visited one after the other. -/
  | stream (items : List Value)
  /-- A function and the arguments that it already has. -/
  | function (name : String) (bound : List Value)
  /-- A variable that several functions share. -/
  | cell (index : Nat)
  deriving Inhabited

namespace Value

def typeName : Value → String
  | .unit => "()"
  | .bool _ => "bool"
  | .int _ => "i64"
  | .float _ => "f64"
  | .char _ => "char"
  | .text _ => "string"
  | .list _ => "array"
  | .map _ => "map"
  | .blob _ => "blob"
  | .range _ _ closed => if closed then "range=" else "range"
  | .steps _ _ _ | .floatSteps _ _ _ => "range"
  | .stream _ => "iterator"
  | .function _ _ => "Fn"
  | .cell _ => "shared"

def fullTypeName : Value → String
  | .range _ _ true => "core::ops::range::RangeInclusive<i64>"
  | .range _ _ false => "core::ops::range::Range<i64>"
  | value => value.typeName

def isUnit : Value → Bool
  | .unit => true
  | _ => false

def isMap : Value → Bool
  | .map _ => true
  | _ => false

/-! Fields of maps -/

def setField (name : String) (value : Value) : List (String × Value) → List (String × Value)
  | [] => [(name, value)]
  | (other, old) :: rest =>
    if name = other then (name, value) :: rest
    else if name < other then (name, value) :: (other, old) :: rest
    else (other, old) :: setField name value rest

def getField (name : String) : List (String × Value) → Option Value
  | [] => none
  | (other, value) :: rest => if other = name then some value else getField name rest

def dropField (name : String) (fields : List (String × Value)) : List (String × Value) :=
  fields.filter fun field => field.1 ≠ name

/-- A map of the given fields; of two values for a name the later one counts. -/
def ofFields (fields : List (String × Value)) : Value :=
  .map (fields.foldl (fun sorted field => setField field.1 field.2 sorted) [])

/-! Sameness, which tells numbers of different types apart -/

mutual

def same : Value → Value → Bool
  | .unit, .unit => true
  | .bool left, .bool right => left == right
  | .int left, .int right => left == right
  | .float left, .float right => left.toBits == right.toBits
  | .char left, .char right => left == right
  | .text left, .text right => left == right
  | .list left, .list right => sameItems left right
  | .map left, .map right => sameFields left right
  | .blob left, .blob right => left == right
  | .range first last closed, .range first' last' closed' =>
    first == first' && last == last' && closed == closed'
  | .function name bound, .function name' bound' => name == name' && sameItems bound bound'
  | _, _ => false

def sameItems : List Value → List Value → Bool
  | [], [] => true
  | left :: lefts, right :: rights => same left right && sameItems lefts rights
  | _, _ => false

def sameFields : List (String × Value) → List (String × Value) → Bool
  | [], [] => true
  | (name, left) :: lefts, (name', right) :: rights =>
    name == name' && same left right && sameFields lefts rights
  | _, _ => false

end

def sameType (left right : Value) : Bool :=
  left.fullTypeName == right.fullTypeName

/-! Sizes -/

/-- How many list items, map fields and bytes of text a value holds. -/
structure Size where
  items : Nat
  fields : Nat
  bytes : Nat

def Size.add (left right : Size) : Size :=
  ⟨left.items + right.items, left.fields + right.fields, left.bytes + right.bytes⟩

mutual

def size : Value → Size
  | .text value => ⟨0, 0, value.utf8ByteSize⟩
  | .list items => sizeOfItems items
  | .map fields => sizeOfFields fields
  | .blob bytes => ⟨bytes.length, 0, 0⟩
  | _ => ⟨0, 0, 0⟩

def sizeOfItems : List Value → Size
  | [] => ⟨0, 0, 0⟩
  | item :: rest => (item.size.add ⟨1, 0, 0⟩).add (sizeOfItems rest)

def sizeOfFields : List (String × Value) → Size
  | [] => ⟨0, 0, 0⟩
  | (_, value) :: rest => (value.size.add ⟨0, 1, 0⟩).add (sizeOfFields rest)

end

end Value

end Rulebook.Script
