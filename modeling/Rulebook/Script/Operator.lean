import Rulebook.Script.Number

/-!
What operators make of two values. Values of different types are different and in no order; all
else that is not listed here is left to functions.
-/

namespace Rulebook.Script

def withoutPart (text part : String) : String :=
  if part.isEmpty then text else text.replace part ""

namespace Operator

def arithmetic? (sign : String) (left right : Int) : Option (Except Problem Int) :=
  match sign with
  | "+" => some (Number.add left right)
  | "-" => some (Number.subtract left right)
  | "*" => some (Number.multiply left right)
  | "/" => some (Number.divide left right)
  | "%" => some (Number.remainder left right)
  | "**" => some (Number.power left right)
  | "<<" => some (pure (Number.shiftLeft left right))
  | ">>" => some (pure (Number.shiftRight left right))
  | "&" => some (pure (Number.bitwise (· &&& ·) left right))
  | "|" => some (pure (Number.bitwise (· ||| ·) left right))
  | "^" => some (pure (Number.bitwise (· ^^^ ·) left right))
  | _ => none

def floats? (sign : String) (left right : Float) : Option Value :=
  match sign with
  | "+" => some (.float (left + right))
  | "-" => some (.float (left - right))
  | "*" => some (.float (left * right))
  | "/" => some (.float (left / right))
  | "%" => some (.float (Number.floatRemainder left right))
  | "**" => some (.float (left.pow right))
  | "==" => some (.bool (Number.close left right))
  | "!=" => some (.bool (!Number.close left right))
  | "<" => some (.bool (left < right))
  | "<=" => some (.bool (left ≤ right))
  | ">" => some (.bool (right < left))
  | ">=" => some (.bool (right ≤ left))
  | _ => none

def ordered? (sign : String) (order : Ordering) : Option Bool :=
  match sign with
  | "==" => some (order == .eq)
  | "!=" => some (order != .eq)
  | "<" => some (order == .lt)
  | "<=" => some (order != .gt)
  | ">" => some (order == .gt)
  | ">=" => some (order != .lt)
  | _ => none

def texts? (sign : String) (left right : String) : Option Value :=
  match sign with
  | "+" => some (.text (left ++ right))
  | _ => (ordered? sign (compare left right)).map .bool

def bools? (sign : String) (left right : Bool) : Option Bool :=
  match sign with
  | "&" => some (left && right)
  | "|" => some (left || right)
  | "^" => some (left != right)
  | _ => ordered? sign (compare left right)

/-- How values of different types compare. -/
def unlike? (sign : String) : Option Bool :=
  match sign with
  | "!=" => some true
  | "==" | "<" | "<=" | ">" | ">=" => some false
  | _ => none

def value? (result : Option Value) : Option (Except Problem Value) :=
  result.map pure

def truth? (result : Option Bool) : Option (Except Problem Value) :=
  result.map fun value => pure (.bool value)

/-- What an operator makes of two values by itself. -/
def result? (sign : String) (left right : Value) : Option (Except Problem Value) :=
  match left, right with
  | .int left, .int right =>
    match arithmetic? sign left right with
    | some result => some (result.map .int)
    | none => truth? (ordered? sign (compare left right))
  | .float left, .float right => value? (floats? sign left right)
  | .int left, .float right => value? (floats? sign (Float.ofInt left) right)
  | .float left, .int right => value? (floats? sign left (Float.ofInt right))
  | .bool left, .bool right => truth? (bools? sign left right)
  | .text left, .text right =>
    if sign = "-" then some (pure (.text (withoutPart left right)))
    else value? (texts? sign left right)
  | .text left, .char right =>
    if sign = "-" then some (pure (.text (withoutPart left right.toString)))
    else value? (texts? sign left right.toString)
  | .char left, .text right => value? (texts? sign left.toString right)
  | .char left, .char right => value? (texts? sign left.toString right.toString)
  | .unit, .unit => truth? (ordered? sign .eq)
  | .range first last closed, .range first' last' closed' =>
    if closed != closed' then truth? (unlike? sign)
    else match sign with
      | "==" => some (pure (.bool (first == first' && last == last')))
      | "!=" => some (pure (.bool !(first == first' && last == last')))
      | _ => none
  | _, _ => if left.sameType right then none else truth? (unlike? sign)

def incomparable (left right : Value) : Problem :=
  .unknownFunction (signature "==" [left, right])

mutual

/-- Equality of values, which compares lists and maps part by part. -/
def equals : Value → Value → Except Problem Bool
  | .list left, .list right => equalItems left right
  | .map left, .map right => equalFields left right
  | .blob left, .blob right => pure (left == right)
  | left, right =>
    match result? "==" left right with
    | some result => result.map fun answer => (answer matches .bool true)
    | none => throw (incomparable left right)

def equalItems : List Value → List Value → Except Problem Bool
  | [], [] => pure true
  | left :: lefts, right :: rights => do
    if ← equals left right then equalItems lefts rights else pure false
  | _, _ => pure false

def equalFields : List (String × Value) → List (String × Value) → Except Problem Bool
  | [], [] => pure true
  | (name, left) :: lefts, (name', right) :: rights => do
    if name != name' then pure false
    else if ← equals left right then equalFields lefts rights
    else pure false
  | _, _ => pure false

end

end Operator

end Rulebook.Script
