import Rulebook.Power

/-!
Integers written in decimal with an optional sign. A sign alone, a blank or any other character
makes the text unreadable.
-/

namespace Rulebook.Text

def digitValue? (character : Char) : Option Nat :=
  if character.isDigit then some (character.toNat - '0'.toNat) else none

/-- The number that a run of decimal digits denotes, after the digits read so far. -/
def digitsValue? (soFar : Nat) : List Char → Option Nat
  | [] => some soFar
  | character :: rest =>
    match digitValue? character with
    | some digit => digitsValue? (soFar * 10 + digit) rest
    | none => none

def natural? (characters : List Char) : Option Nat :=
  if characters.isEmpty then none else digitsValue? 0 characters

/-- An unsigned number below `2 ^ bits`; a plus sign may stand in front. -/
def unsigned? (bits : Nat) (text : String) : Option Nat :=
  let digits := match text.toList with
    | '+' :: rest => rest
    | characters => characters
  match natural? digits with
  | some value => if value < twoTo bits then some value else none
  | none => none

/-- A signed number of `bits` bits; either sign may stand in front. -/
def signed? (bits : Nat) (text : String) : Option Int :=
  let negative := text.toList.head? == some '-'
  let digits := match text.toList with
    | '+' :: rest => rest
    | '-' :: rest => rest
    | characters => characters
  match natural? digits with
  | some value =>
    let number : Int := if negative then -(value : Int) else value
    if -(twoTo (bits - 1) : Int) ≤ number ∧ number < twoTo (bits - 1) then some number else none
  | none => none

def hexDigit? (character : Char) : Option Nat :=
  if character.isDigit then some (character.toNat - '0'.toNat)
  else if 'a' ≤ character ∧ character ≤ 'f' then some (character.toNat - 'a'.toNat + 10)
  else if 'A' ≤ character ∧ character ≤ 'F' then some (character.toNat - 'A'.toNat + 10)
  else none

def hexDigit (value : Nat) : Char :=
  if value < 10 then Char.ofNat ('0'.toNat + value) else Char.ofNat ('a'.toNat + value - 10)

/-- The last `count` hexadecimal digits of a number, the highest first. -/
def hexDigits : Nat → Nat → List Char
  | 0, _ => []
  | count + 1, value => hexDigits count (value / 16) ++ [hexDigit (value % 16)]

def zeroPadded (width value : Nat) : String :=
  let digits := toString value
  String.ofList (List.replicate (width - digits.length) '0') ++ digits

end Rulebook.Text
