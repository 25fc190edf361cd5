/-!
Values of a settings file. Times are texts here.
-/

namespace Rulebook.Toml

inductive Scalar where
  | text (value : String)
  | whole (value : Int)
  | real (value : Float)
  | flag (value : Bool)

inductive Value where
  | scalar (value : Scalar)
  | list (items : List Value)
  | table (entries : List (String × Value))

end Rulebook.Toml
