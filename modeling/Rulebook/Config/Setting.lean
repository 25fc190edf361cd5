import Rulebook.Decimal.Reading
import Rulebook.Text.LetterCase
import Rulebook.Toml.Document

/-!
Settings by name, collected from several places. Tables of settings are laid over each other, name
by name; anything else takes the place of what was there.
-/

namespace Rulebook

inductive Setting where
  | scalar (value : Toml.Scalar) (source : Option String)
  | list (items : List Setting) (source : Option String)
  | table (entries : List (String × Setting))

namespace Setting

abbrev Entries := List (String × Setting)

/-- Puts a setting in the place of what has its name, which `change` gets to see. -/
def adjust (name : String) (change : Option Setting → Setting) : Entries → Entries
  | [] => [(name, change none)]
  | (other, old) :: rest =>
    if other = name then (name, change (some old)) :: rest
    else (other, old) :: adjust name change rest

def entriesOf : Option Setting → Entries
  | some (.table entries) => entries
  | _ => []

mutual

def onto : Setting → Option Setting → Setting
  | .table entries, old => .table (entriesOnto entries (entriesOf old))
  | setting, _ => setting

def entriesOnto : Entries → Entries → Entries
  | [], below => below
  | (name, setting) :: rest, below => entriesOnto rest (adjust name (onto setting) below)

end

def put (setting : Setting) : List String → Option Setting → Setting
  | [], old => setting.onto old
  | name :: rest, old => .table (adjust name (setting.put rest) (entriesOf old))

/-! Names -/

def isNameChar (character : Char) : Bool :=
  character.isAlphanum || character = '-' || character = '_'

/-- The steps of a dotted name. A name that is not made of plain steps is a single step. -/
def stepsOf (name : String) : List String :=
  let steps := name.splitOn "."
  if steps.all fun step => !step.isEmpty && step.all isNameChar then steps else [name]

/-! Files -/

mutual

def ofValue (source : String) : Toml.Value → Setting
  | .scalar value => .scalar value (some source)
  | .list items => .list (ofValues source items) (some source)
  | .table entries => .table (ofEntries source entries)

def ofValues (source : String) : List Toml.Value → List Setting
  | [] => []
  | value :: rest => ofValue source value :: ofValues source rest

def ofEntries (source : String) : List (String × Toml.Value) → Entries
  | [] => []
  | (name, value) :: rest => (name, ofValue source value) :: ofEntries source rest

end

/-! Environment variables -/

def variablePrefix : String := "rule_engine_"

/-- Text as a truth value, a number or a string, whatever it can be read as first. -/
def scalarOf (text : String) : Toml.Scalar :=
  match Text.lower text, Text.signed? 64 text, Decimal.float? text with
  | "true", _, _ => .flag true
  | "false", _, _ => .flag false
  | _, some number, _ => .whole number
  | _, none, some number => .real number
  | _, none, none => .text text

/-- The name of the setting that a variable is for; two underscores separate steps. -/
def nameOf? (variableName : String) : Option String :=
  let name := Text.lower variableName
  if name.startsWith variablePrefix then
    some ((name.drop variablePrefix.length).toString.replace "__" ".")
  else none

def ofVariables (environment : List (String × String)) : Entries :=
  environment.filterMap fun (name, text) => do
    return (← nameOf? name, .scalar (scalarOf text) (some "the environment"))

/-! Layers -/

def layer (entries : Entries) (below : Setting) : Setting :=
  entries.foldl (fun settings (name, setting) => setting.put (stepsOf name) (some settings)) below

/-- The settings of several places; what comes later is laid over what comes before. -/
def ofLayers (layers : List Entries) : Setting :=
  layers.foldl (fun settings entries => layer entries settings) (.table [])

end Setting

end Rulebook
