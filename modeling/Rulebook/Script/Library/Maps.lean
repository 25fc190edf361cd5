import Rulebook.Script.Library.Native

/-!
Functions of maps.
-/

namespace Rulebook.Script.Library

/-- The fields of two maps; where both have one, the second counts. -/
def mixed (fields others : List (String × Value)) : List (String × Value) :=
  others.foldl (fun mixed field => Value.setField field.1 field.2 mixed) fields

def filled (fields others : List (String × Value)) : List (String × Value) :=
  mixed others fields

mutual

/-- A map as text in the form of JSON. -/
def jsonText : Value → String
  | .unit => "null"
  | .map fields => "\x7b" ++ jsonFields fields ++ "\x7d"
  | value => value.recordedInside

def jsonFields : List (String × Value) → String
  | [] => ""
  | [(name, value)] => Text.quoted name ++ ":" ++ jsonText value
  | (name, value) :: rest => Text.quoted name ++ ":" ++ jsonText value ++ "," ++ jsonFields rest

end

def ofMap? (name : String) (fields : List (String × Value)) : Option Native :=
  match name with
  | "len" => Native.int fields.length
  | "is_empty" => Native.bool fields.isEmpty
  | "clear" => Native.becomes (.map [])
  | "keys" => Native.list (fields.map fun field => .text field.1)
  | "values" => Native.list (fields.map Prod.snd)
  | "to_json" => Native.value (.text (jsonText (.map fields)))
  | _ => none

def ofMapKey? (name : String) (fields : List (String × Value)) (key : String) : Option Native :=
  match name with
  | "contains" => Native.bool (Value.getField key fields).isSome
  | "get" => Native.value ((Value.getField key fields).getD .unit)
  | "remove" =>
    Native.yields ((Value.getField key fields).getD .unit) (.map (Value.dropField key fields))
  | _ => none

def ofMaps? (name : String) (fields others : List (String × Value)) : Option Native :=
  match name with
  | "+" => Native.value (.map (mixed fields others))
  | "mixin" => Native.becomes (.map (mixed fields others))
  | "fill_with" => Native.becomes (.map (filled fields others))
  | "==" => Native.attempt ((Operator.equalFields fields others).map .bool)
  | "!=" => Native.attempt ((Operator.equalFields fields others).map fun same => .bool !same)
  | _ => none

def maps? (name : String) (arguments : List Value) : Option Native :=
  match name, arguments with
  | "set", [.map fields, .text key, value] =>
    Native.becomes (.map (Value.setField key value fields))
  | name, [.map fields] => ofMap? name fields
  | name, [.map fields, .text key] => ofMapKey? name fields key
  | name, [.map fields, .map others] => ofMaps? name fields others
  | _, _ => none

end Rulebook.Script.Library
