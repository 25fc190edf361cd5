import Rulebook.Sandbox.Context

/-!
What scripts send to the log of the program that runs them.
-/

namespace Rulebook

inductive TraceLevel where
  | debug
  | info
  | warn
  | error
  deriving DecidableEq, Inhabited

structure TraceEntry where
  level : TraceLevel
  message : String
  rule : Option Uuid := none
  action : Option Uuid := none
  /-- The level that the script named, where it is none of those above. -/
  named : String := ""
  deriving DecidableEq, Inhabited

namespace TraceLevel

def code : TraceLevel → String
  | .debug => "DEBUG"
  | .info => "INFO"
  | .warn => "WARN"
  | .error => "ERROR"

/-- The level that a script means by a name, if it is a level of its own. -/
def ofName? : String → Option TraceLevel
  | "debug" => some .debug
  | "warn" | "warning" => some .warn
  | "error" => some .error
  | _ => none

end TraceLevel

namespace TraceEntry

def ofScript (invocation : Invocation) (level message : String) : TraceEntry :=
  match TraceLevel.ofName? level with
  | some known => { level := known, message, rule := invocation.rule, action := invocation.action }
  | none =>
    { level := .info, message, rule := invocation.rule, action := invocation.action,
      named := level }

def toJson (entry : TraceEntry) : Json :=
  .ofFields ([("level", .str entry.level.code), ("message", .str entry.message)] ++
    Json.fieldOf "rule_id" (entry.rule.map Uuid.toJson) ++
    Json.fieldOf "action_id" (entry.action.map Uuid.toJson) ++
    if entry.named.isEmpty then [] else [("script_level", .str entry.named)])

end TraceEntry

end Rulebook
