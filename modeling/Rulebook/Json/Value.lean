/-!
JSON values. Objects keep their fields in ascending order of the keys, one field a key; a number
without fraction and exponent that fits 64 bits is an integer, any other is a float.
-/

namespace Rulebook

inductive Json where
  | null
  | bool (value : Bool)
  | int (value : Int)
  | float (value : Float)
  | str (value : String)
  | arr (elements : List Json)
  | obj (fields : List (String × Json))
  deriving Inhabited

namespace Json

/-- Sets a field; an older value of the key is lost. -/
def insertField (key : String) (value : Json) : List (String × Json) → List (String × Json)
  | [] => [(key, value)]
  | (name, old) :: rest =>
    if key = name then (key, value) :: rest
    else if key < name then (key, value) :: (name, old) :: rest
    else (name, old) :: insertField key value rest

/-- An object of the given fields; of two values for a key the later one counts. -/
def ofFields (fields : List (String × Json)) : Json :=
  .obj (fields.foldl (fun sorted field => insertField field.1 field.2 sorted) [])

def lookup (key : String) : List (String × Json) → Option Json
  | [] => none
  | (name, value) :: rest => if name = key then some value else lookup key rest

def field? (value : Json) (key : String) : Option Json :=
  match value with
  | .obj fields => lookup key fields
  | _ => none

def string? : Json → Option String
  | .str text => some text
  | _ => none

def typeName : Json → String
  | .null => "null"
  | .bool _ => "bool"
  | .int _ | .float _ => "number"
  | .str _ => "string"
  | .arr _ => "array"
  | .obj _ => "object"

/-- An optional field of an object under construction. -/
def fieldOf (name : String) (value : Option Json) : List (String × Json) :=
  match value with
  | some present => [(name, present)]
  | none => []

theorem lookup_insertField (key name : String) (value : Json) (fields : List (String × Json)) :
    lookup name (insertField key value fields) =
      if name = key then some value else lookup name fields := by
  induction fields with
  | nil => simp [insertField, lookup, eq_comm]
  | cons head rest ih =>
    obtain ⟨first, old⟩ := head
    simp only [insertField]
    split
    · next same =>
      subst same
      by_cases hit : name = key
      · simp [lookup, hit]
      · simp [lookup, hit, Ne.symm hit]
    · next different =>
      split
      · by_cases hit : name = key
        · simp [lookup, hit]
        · simp [lookup, hit, Ne.symm hit]
      · by_cases hit : name = key
        · subst hit
          simp [lookup, Ne.symm different, ih]
        · simp [lookup, hit, ih]

mutual

def mapTexts (change : String → String) : Json → Json
  | .str text => .str (change text)
  | .arr elements => .arr (mapElements change elements)
  | .obj fields => .obj (mapFields change fields)
  | other => other

def mapElements (change : String → String) : List Json → List Json
  | [] => []
  | element :: rest => mapTexts change element :: mapElements change rest

def mapFields (change : String → String) : List (String × Json) → List (String × Json)
  | [] => []
  | (name, value) :: rest => (name, mapTexts change value) :: mapFields change rest

end

end Json

end Rulebook
