import Rulebook.Config.Problem

/-!
What settings stand for. Numbers, truth values and texts are taken for each other wherever that
makes sense.
-/

namespace Rulebook.Config

def truthOf? (word : String) : Option Bool :=
  if ["true", "on", "yes"].contains word then some true
  else if ["false", "off", "no"].contains word then some false
  else none

/-- The nearest whole number that fits 64 bits; halves go up. -/
def roundedWord (number : Float) : Nat :=
  number.round.toUInt64.toNat

def wrong {α : Type} (found : Found) (expected : String) (source : Option String) :
    Except Problem α :=
  throw ⟨.wrongType found expected, none, source⟩

def readWord : Setting → Except Problem Nat
  | .scalar (.whole number) source =>
    if number < 0 then wrong (.signed number) "an unsigned 64 bit or less integer" source
    else return number.toNat
  | .scalar (.text text) source =>
    match truthOf? (Text.lower text), Text.unsigned? 64 text with
    | some true, _ => return 1
    | some false, _ => return 0
    | none, some number => return number
    | none, none => wrong (.text text) "an integer" source
  | .scalar (.flag value) _ => return if value then 1 else 0
  | .scalar (.real number) _ => return roundedWord number
  | .list _ source => wrong .list "an integer" source
  | .table _ => wrong .table "an integer" none

def readPort (setting : Setting) : Except Problem Nat := do
  let number ← readWord setting
  if number < twoTo 16 then return number
  else wrong (.unsigned number) "an unsigned 16 bit integer" none

def readFlag : Setting → Except Problem Bool
  | .scalar (.flag value) _ => return value
  | .scalar (.whole number) _ => return number ≠ 0
  | .scalar (.real number) _ => return number != 0
  | .scalar (.text text) source =>
    match Text.lower text with
    | "1" => return true
    | "0" => return false
    | word =>
      match truthOf? word with
      | some value => return value
      | none => wrong (.text word) "a boolean" source
  | .list _ source => wrong .list "a boolean" source
  | .table _ => wrong .table "a boolean" none

def readText : Setting → Except Problem String
  | .scalar (.text text) _ => return text
  | .scalar (.flag value) _ => return toString value
  | .scalar (.whole number) _ => return toString number
  | .scalar (.real number) _ => return Decimal.plain number
  | .list _ source => wrong .list "a string" source
  | .table _ => wrong .table "a string" none

/-- One of several named values: its name, or a table with the name as the only entry. -/
def readChoice {α : Type} (choice : String) (options : List (String × α)) (setting : Setting) :
    Except Problem α :=
  let named (name : String) : Except Problem α :=
    match options.lookup name with
    | some value => return value
    | none => throw ⟨.noVariant choice name, none, none⟩
  match setting with
  | .scalar (.text name) _ => named name
  | .table [(name, _)] => named name
  | _ => throw ⟨.noChoice choice, none, none⟩

/-! Sections -/

structure Part where
  name : String
  step : String
  setting : Setting

def foundIn : Toml.Scalar → Found
  | .text value => .text value
  | .whole value => .whole value
  | .real value => .real value
  | .flag value => .flag value

/-- The settings of a section: a table of them, or a list of them in the order of their names. -/
def partsOf (kind : String) (names : List String) : Setting → Except Problem (List Part)
  | .table entries => return entries.map fun (name, setting) => ⟨name, name, setting⟩
  | .list items _ =>
    return (names.zip items).zipIdx.map fun ((name, setting), index) =>
      ⟨name, s!"[{index}]", setting⟩
  | .scalar value _ => wrong (foundIn value) s!"struct {kind}" none

def read {α : Type} (parts : List Part) (name : String) (reading : Setting → Except Problem α)
    (default : α) : Except Problem α :=
  match parts.find? (·.name == name) with
  | some part => (reading part.setting).mapError (Problem.under part.step)
  | none => return default

end Rulebook.Config
