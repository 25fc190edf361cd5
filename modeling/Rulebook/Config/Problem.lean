import Rulebook.Config.Setting
import Rulebook.Decimal.Shortest
import Rulebook.Text.Quoted

/-!
Why settings cannot be used, and the wording of each reason.
-/

namespace Rulebook.Config

inductive Found where
  | signed (value : Int)
  | unsigned (value : Nat)
  | whole (value : Int)
  | real (value : Float)
  | flag (value : Bool)
  | text (value : String)
  | list
  | table

def Found.describe : Found → String
  | .signed value => s!"64-bit integer `{value}`"
  | .unsigned value => s!"64-bit unsigned integer `{value}`"
  | .whole value => s!"integer `{value}`"
  | .real value => s!"floating point `{Decimal.plain value}`"
  | .flag value => s!"boolean `{value}`"
  | .text value => s!"string {Text.quoted value}"
  | .list => "sequence"
  | .table => "map"

inductive Cause where
  | wrongType (found : Found) (expected : String)
  | noVariant (choice name : String)
  | noChoice (choice : String)
  | unreadable (complaint : String)

def Cause.message : Cause → String
  | .wrongType found expected => s!"invalid type: {found.describe}, expected {expected}"
  | .noVariant choice name => s!"enum {choice} does not have variant constructor {name}"
  | .noChoice choice =>
    s!"value of enum {choice} should be represented by either string or table with exactly one key"
  | .unreadable complaint => complaint

/-- A cause, the setting that it is about, and the place that the setting was read from. -/
structure Problem where
  cause : Cause
  name : Option String
  source : Option String

def Problem.message (problem : Problem) : String :=
  let name := match problem.name with
    | some name => s!" for key `{name}`"
    | none => ""
  let source := match problem.source with
    | some source => s!" in {source}"
    | none => ""
  problem.cause.message ++ name ++ source

/-- The problem of a part as a problem of the whole; a step leads from the whole to the part. -/
def Problem.under (step : String) (problem : Problem) : Problem :=
  let name := match problem.name with
    | none => step
    | some name => if name.startsWith "[" then step ++ name else s!"{step}.{name}"
  { problem with name := some name }

end Rulebook.Config
