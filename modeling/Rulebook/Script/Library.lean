import Rulebook.Script.Library.Lists
import Rulebook.Script.Library.Maps
import Rulebook.Script.Library.Numbers
import Rulebook.Script.Library.Ranges
import Rulebook.Script.Library.Texts

/-!
The functions and properties that every script has.
-/

namespace Rulebook.Script.Library

def values? (name : String) (arguments : List Value) : Option Native :=
  match name, arguments with
  | "to_string", [value] => Native.value (.text value.toText)
  | "to_debug", [value] => Native.value (.text value.inspect)
  | "tag", [_] => Native.int 0
  | "name", [.function name _] => Native.value (.text name)
  | "is_anonymous", [.function name _] => Native.bool (name.startsWith "anon$")
  | "exit", [] => Native.refuse (.finish .unit)
  | "exit", [value] => Native.refuse (.finish value)
  | _, _ => none

/-- What a function of the library does; none if there is no such function for the arguments. -/
def find? (limits : Limits) (name : String) (arguments : List Value) : Option Native :=
  (lists? limits name arguments).or <| (maps? name arguments).or <|
    (numbers? name arguments).or <| (ranges? limits name arguments).or <|
      (texts? limits name arguments).or <| values? name arguments

/-- The properties of values; those of maps are their fields. -/
def properties : Value → List String
  | .text _ => ["len", "bytes", "is_empty", "chars"]
  | .list _ | .blob _ => ["len", "is_empty"]
  | .int _ => ["is_odd", "is_even", "is_zero"]
  | .float _ =>
    ["floor", "ceiling", "round", "int", "fraction", "is_nan", "is_finite", "is_infinite",
      "is_zero"]
  | .range _ _ _ => ["start", "end", "is_inclusive", "is_exclusive", "is_empty"]
  | .function _ _ => ["name", "is_anonymous"]
  | _ => []

def property (name : String) (value : Value) : Except Problem Value :=
  if name = "tag" ∨ (properties value).contains name then
    match find? ⟨0, 0, 0, 0, 0, 0, 0⟩ name [value] with
    | some (.gives (.ok result)) => pure result
    | _ => throw (.unknownProperty name value.typeName)
  else throw (.unknownProperty name value.typeName)

end Rulebook.Script.Library
