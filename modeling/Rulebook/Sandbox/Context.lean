import Rulebook.Json.Value
import Rulebook.Uuid

/-!
What a script gets to see when it runs, and what comes out of it.
-/

namespace Rulebook

/-- What a script may do besides computing a value. -/
inductive Capability where
  | readOnly
  | effects
  deriving DecidableEq, Inhabited

/-- On whose behalf a script runs. -/
structure Invocation where
  rule : Option Uuid := none
  trigger : Option Uuid := none
  action : Option Uuid := none
  deriving DecidableEq, Inhabited

structure ScriptContext where
  values : List (String × Json) := []
  capability : Capability
  invocation : Invocation := {}
  deriving Inhabited

structure ScriptOutput where
  value : Json
  logs : List String
  deriving Inhabited

namespace ScriptContext

def withVariable (context : ScriptContext) (name : String) (value : Json) : ScriptContext :=
  { context with values := Json.insertField name value context.values }

def ofEvent (payload : Json) : ScriptContext :=
  ({ capability := .readOnly } : ScriptContext).withVariable "event" payload

def withRule (context : ScriptContext) (rule : Uuid) : ScriptContext :=
  let context := context.withVariable "rule_id" rule.toJson
  { context with invocation := { context.invocation with rule := some rule } }

def withTrigger (context : ScriptContext) (trigger : Uuid) : ScriptContext :=
  let context := context.withVariable "trigger_id" trigger.toJson
  { context with invocation := { context.invocation with trigger := some trigger } }

def withAction (context : ScriptContext) (action : Uuid) : ScriptContext :=
  let context := context.withVariable "action_id" action.toJson
  { context with invocation := { context.invocation with action := some action } }

end ScriptContext

end Rulebook
