import Rulebook.Json.Value
import Rulebook.Text.Numeral

/-!
Looking up a part of a JSON value by a path: names of fields and indices of elements, with dots
between them.
-/

namespace Rulebook.Json

def step (value : Json) (name : String) : Option Json :=
  match value with
  | .obj fields => lookup name fields
  | .arr elements => (Text.unsigned? 64 name).bind fun index => elements[index]?
  | _ => none

def splitDots : List Char → List (List Char)
  | [] => [[]]
  | character :: rest =>
    if character = '.' then [] :: splitDots rest
    else match splitDots rest with
      | [] => [[character]]
      | piece :: pieces => (character :: piece) :: pieces

def steps (path : String) : List String :=
  (splitDots path.toList).map String.ofList

def walk (value : Json) : List String → Option Json
  | [] => some value
  | name :: names => (value.step name).bind (walk · names)

def find? (value : Json) (path : String) : Option Json :=
  value.walk (steps path)

end Rulebook.Json
