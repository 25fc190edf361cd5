import Rulebook.Analytics.Dashboard
import Rulebook.Evaluation.Pass
import Rulebook.Rules.Change

/-!
The engine holds the current rules and the archive of what they came to. Changes of the rules and
evaluations of events go through it one after the other.
-/

namespace Rulebook

structure Engine (World : Type) where
  evaluator : Evaluator World
  graph : RuleGraph
  archive : Archive
  /-- What has been counted, the latest first. -/
  metrics : List Metric
  world : World

/-- Something that an engine does. What it has done stays done if it is refused later on. -/
abbrev EngineM (World : Type) := ExceptT Refusal (StateM (Engine World))

structure ScriptTrial where
  result : Except Script.Failure ScriptOutput
  milliseconds : Float

namespace ScriptTrial

def toJson (trial : ScriptTrial) : Json :=
  let duration := [("duration_ms", .float trial.milliseconds)]
  match trial.result with
  | .ok output =>
    let logs := if output.logs.isEmpty then [] else [("logs", .arr (output.logs.map .str))]
    .ofFields ([("success", .bool true), ("result", output.value)] ++ logs ++ duration)
  | .error failure =>
    .ofFields ([("success", .bool false), ("error", failure.toJson)] ++ duration)

end ScriptTrial

def Evaluator.ofSettings {World : Type} (platform : Platform World) (settings : EngineSettings) :
    Evaluator World :=
  ⟨platform, settings.limits, settings.failurePolicy, settings.evaluationDeadline * 1000000⟩

namespace Engine

variable {World α : Type}

def create (platform : Platform World) (settings : EngineSettings) (world : World) :
    Engine World :=
  ⟨.ofSettings platform settings, {}, .empty settings.retention, [], world⟩

def withWorld (action : Platform World → World → α × World) : EngineM World α := do
  let engine ← get
  let (value, world) := action engine.evaluator.platform engine.world
  set { engine with world }
  return value

def now : EngineM World Instant :=
  withWorld Platform.now

def fresh : EngineM World Uuid :=
  withWorld Platform.fresh

def evaluation (part : Evaluator World → Evaluation World α) : EngineM World α := do
  let engine ← get
  let (value, progress) := part engine.evaluator ⟨engine.world, engine.metrics⟩
  set { engine with world := progress.world, metrics := progress.metrics }
  return value

/-! Rules -/

def check : EngineM World ScriptCheck := do
  let engine ← get
  return engine.evaluator.platform.check engine.world

def change (change : Change α) : EngineM World α := do
  let engine ← get
  match change engine.graph with
  | .ok (value, graph) =>
    set { engine with graph }
    return value
  | .error refusal => throw refusal

def createRule (new : NewRule) : EngineM World Rule := do
  change (Change.createRule (← check) (← fresh) (← now) new)

def updateRule (id : Uuid) (patch : RulePatch) : EngineM World Rule := do
  change (Change.updateRule (← check) (← now) id patch)

def deleteRule (id : Uuid) : EngineM World RuleDeletion :=
  change (Change.deleteRule id)

def createTrigger (new : NewTrigger) : EngineM World Trigger := do
  change (Change.createTrigger (← check) (← fresh) (← now) new)

def updateTrigger (id : Uuid) (patch : TriggerPatch) : EngineM World Trigger := do
  change (Change.updateTrigger (← check) (← now) id patch)

def deleteTrigger (id : Uuid) : EngineM World Unit :=
  change (Change.deleteTrigger id)

def createAction (new : NewAction) : EngineM World Action := do
  change (Change.createAction (← check) (← fresh) (← now) new)

def updateAction (id : Uuid) (patch : ActionPatch) : EngineM World Action := do
  change (Change.updateAction (← check) (← now) id patch)

def deleteAction (id : Uuid) : EngineM World Unit :=
  change (Change.deleteAction id)

def bind (trigger action : Uuid) : EngineM World Unit :=
  change (Change.bind trigger action)

def unbind (trigger action : Uuid) : EngineM World Unit :=
  change (Change.unbind trigger action)

def addRuleAction (rule action : Uuid) : EngineM World Rule := do
  change (Change.addRuleAction (← now) rule action)

def removeRuleAction (rule action : Uuid) : EngineM World Rule := do
  change (Change.removeRuleAction (← now) rule action)

def look (question : RuleGraph → Except Refusal α) : EngineM World α := do
  MonadExcept.ofExcept (question (← get).graph)

/-! Events -/

def receive (id : Option Uuid) (payload : Json) : EngineM World Event := do
  let generated ← fresh
  return ⟨id.getD generated, payload, ← now⟩

/-- Evaluates an event by the rules of some graph, and keeps no records of it. -/
def evaluateOn (graph : RuleGraph) (event : Event) : EngineM World (List ExecutionRecord) :=
  evaluation fun evaluator => evaluator.evaluate graph event

def evaluate (event : Event) : EngineM World (List ExecutionRecord) := do
  let records ← evaluateOn (← get).graph event
  let time ← now
  modify fun engine => { engine with archive := engine.archive.add time records }
  return records

/-- The context of a script that is run by itself: the fields of an object as variables, and the
whole of it as the event. -/
def trialContext (context : Json) : Except Refusal ScriptContext := do
  let fields ← match context with
    | .obj fields => .ok fields
    | .null => .ok []
    | _ => .error (.invalid "context" "必须是 JSON 对象")
  let start : ScriptContext := { capability := .effects }
  let filled := fields.foldl (fun context field => context.withVariable field.1 field.2) start
  return if (Json.lookup "event" fields).isSome then filled
    else filled.withVariable "event" (.obj fields)

def tryScript (script : String) (context : Json) : EngineM World ScriptTrial := do
  let context ← MonadExcept.ofExcept (trialContext context)
  let start ← withWorld Platform.clock
  let limits := (← get).evaluator.limits
  let result ← withWorld fun platform => platform.run (Text.trim script) context limits
  let duration := (← withWorld Platform.clock) - start
  return ⟨result.mapError Script.Fault.toFailure, milliseconds duration⟩

def dashboard (range : String) : EngineM World Dashboard := do
  let range ← MonadExcept.ofExcept (TimeRange.parse range)
  let time ← now
  return (← get).archive.dashboard range time

end Engine

end Rulebook
