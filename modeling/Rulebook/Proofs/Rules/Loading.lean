import Rulebook.Proofs.Rules.Steps
import Rulebook.Startup

/-!
What a seed leaves behind that cannot be loaded. Each thing of a seed is made by an operation of
its own, and nothing is taken back. So the rules stay as they are only if the very first thing is
refused already.
-/

namespace Rulebook

variable {World α β : Type}

namespace Engine

def creating (creation : ScriptCheck → Uuid → Instant → Change α) : EngineM World α := do
  change (creation (← check) (← fresh) (← Engine.now))

theorem creating_run (creation : ScriptCheck → Uuid → Instant → Change α) (engine : Engine World) :
    ∃ id now world,
      (creating creation).run engine =
        match creation (engine.evaluator.platform.check engine.world) id now engine.graph with
        | .ok (value, graph) => (.ok value, { engine with world, graph })
        | .error refusal => (.error refusal, { engine with world }) := by
  let platform := engine.evaluator.platform
  let drawn := platform.fresh engine.world
  let read := platform.now drawn.2
  refine ⟨drawn.1, read.1, read.2, ?_⟩
  exact change_run (creation (platform.check engine.world) drawn.1 read.1)
    { engine with world := read.2 }

/-- Whether something is made just if what is given is fine, by one change. -/
structure Makes (creation : ScriptCheck → Uuid → Instant → Change α)
    (fine : ScriptCheck → Prop) : Prop where
  made : ∀ check id now graph, fine check → ∃ value next,
    creation check id now graph = .ok (value, next)
  only : ∀ check id now graph value next, creation check id now graph = .ok (value, next) →
    fine check ∧ next.version = graph.version + 1

/-- Whatever follows when something has been made, the rules stay as they are only if it is refused
to be made. -/
theorem Makes.graph_eq_iff {creation : ScriptCheck → Uuid → Instant → Change α}
    {fine : ScriptCheck → Prop} {rest : α → EngineM World β} (makes : Makes creation fine)
    (leads : ∀ value, Leads (rest value)) (engine : Engine World) :
    ((creating creation >>= rest).run engine).2.graph = engine.graph ↔
      ¬ fine (engine.evaluator.platform.check engine.world) := by
  obtain ⟨id, now, world, run⟩ := creating_run creation engine
  rw [EngineM.run_bind, run]
  cases result : creation (engine.evaluator.platform.check engine.world) id now engine.graph with
  | error refusal =>
      refine iff_of_true rfl fun fits => ?_
      obtain ⟨value, next, done⟩ := makes.made _ id now engine.graph fits
      rw [result] at done
      cases done
  | ok pair =>
      obtain ⟨value, next⟩ := pair
      obtain ⟨fits, older⟩ := makes.only _ _ _ _ _ _ result
      have further := (leads value { engine with world, graph := next }).version_le
      refine iff_of_false (fun same => ?_) (fun wrong => wrong fits)
      have kept : ((rest value).run { engine with world, graph := next }).2.graph =
          engine.graph := same
      rw [kept] at further
      change next.version ≤ engine.graph.version at further
      omega

theorem createRule_makes (new : NewRule) :
    Makes (fun check id now => Change.createRule check id now new)
      fun check => IsName new.name ∧ IsScript check new.script where
  made _ _ _ _ fits := ⟨_, _, Change.createRule_eq_ok.mpr ⟨fits, rfl, rfl⟩⟩
  only _ _ _ _ _ _ done := by
    obtain ⟨fits, _, rfl⟩ := Change.createRule_eq_ok.mp done
    exact ⟨fits, rfl⟩

theorem createAction_makes (new : NewAction) :
    Makes (fun check id now => Change.createAction check id now new)
      fun check => IfGiven IsName new.name ∧ IsScript check new.script where
  made _ _ _ _ fits := ⟨_, _, Change.createAction_eq_ok.mpr ⟨fits, rfl, rfl⟩⟩
  only _ _ _ _ _ _ done := by
    obtain ⟨fits, _, rfl⟩ := Change.createAction_eq_ok.mp done
    exact ⟨fits, rfl⟩

end Engine

namespace Seed

theorem loadActions_leads (keys : Keys) (actions : List SeedAction) :
    Leads (loadActions keys actions : EngineM World Keys) := by
  induction actions generalizing keys with
  | nil => exact .pure _
  | cons action rest ih =>
      rw [loadActions]
      split
      · exact (Leads.throw _).bind fun _ => (Engine.createAction_leads _).bind fun _ => ih _
      · exact (Engine.createAction_leads _).bind fun _ => ih _

theorem loadTrigger_leads (keys : Keys) (rule : Uuid) (trigger : SeedTrigger) :
    Leads (loadTrigger keys rule trigger : EngineM World Unit) := by
  refine (Engine.createTrigger_leads _).bind fun created => .forM fun _ => ?_
  exact (Leads.ofExcept _).bind fun action => Engine.bind_leads created.id action

def loadParts (keys : Keys) (rule : SeedRule) (id : Uuid) : EngineM World Unit := do
  rule.actions.forM fun key => do
    let action ← MonadExcept.ofExcept (resolve keys key)
    let _ ← Engine.addRuleAction id action
  rule.triggers.forM (loadTrigger keys id)

theorem loadParts_leads (keys : Keys) (rule : SeedRule) (id : Uuid) :
    Leads (loadParts keys rule id : EngineM World Unit) := by
  refine Leads.bind (.forM fun _ => ?_) fun _ => .forM (loadTrigger_leads keys id)
  exact (Leads.ofExcept _).bind fun action => (Engine.addRuleAction_leads id action).bind
    fun _ => .pure _

theorem loadRules_leads (keys : Keys) (rules : List SeedRule) (summary : SeedSummary) :
    Leads (do
      rules.forM (loadRule keys)
      return summary : EngineM World SeedSummary) := by
  refine Leads.bind (.forM fun rule => ?_) fun _ => .pure _
  exact (Engine.createRule_leads _).bind fun created => loadParts_leads keys rule created.id

/-- Whether the very first thing that a seed would make is refused. -/
def FailsAtOnce (check : ScriptCheck) (seed : Seed) : Prop :=
  match seed.actions, seed.rules with
  | action :: _, _ =>
    ¬ (IsName (action.name.getD action.key) ∧ IsScript check action.script)
  | [], rule :: _ => ¬ (IsName rule.name ∧ IsScript check rule.script)
  | [], [] => False

theorem load_graph_eq_iff (seed : Seed) (engine : Engine World)
    (failed : ∃ refusal after, seed.load.run engine = (.error refusal, after)) :
    (seed.load.run engine).2.graph = engine.graph ↔
      seed.FailsAtOnce (engine.evaluator.platform.check engine.world) := by
  obtain ⟨actions, rules⟩ := seed
  cases actions with
  | cons action rest =>
      let later (created : Action) : EngineM World SeedSummary := do
        let keys ← loadActions [(action.key, created.id)] rest
        rules.forM (loadRule keys)
        return summary ⟨action :: rest, rules⟩
      have split : load ⟨action :: rest, rules⟩ =
          Engine.createAction (newAction action) >>= later := by
        simp only [later, load, loadActions, List.lookup_nil, Option.isSome_none, bind_assoc,
          Bool.false_eq_true, if_false]
      have leads (created : Action) : Leads (later created) :=
        (loadActions_leads _ rest).bind fun keys => loadRules_leads keys rules _
      rw [split]
      refine ((Engine.createAction_makes _).graph_eq_iff leads engine).trans ?_
      simp [FailsAtOnce, IfGiven, newAction]
  | nil =>
      cases rules with
      | nil =>
          obtain ⟨refusal, after, failed⟩ := failed
          cases failed
      | cons rule rest =>
          let later (created : Rule) : EngineM World SeedSummary := do
            loadParts [] rule created.id
            rest.forM (loadRule [])
            return summary ⟨[], rule :: rest⟩
          have split : load ⟨[], rule :: rest⟩ =
              Engine.createRule ⟨rule.name, rule.script, rule.priority, rule.enabled⟩ >>=
                later := by
            simp only [later, load, loadActions, pure_bind, List.forM, loadRule, loadParts,
              bind_assoc]
          have leads (created : Rule) : Leads (later created) :=
            (loadParts_leads [] rule created.id).bind fun _ => loadRules_leads [] rest _
          rw [split]
          exact (Engine.createRule_makes _).graph_eq_iff leads engine

theorem loadText_run (text : String) (engine : Engine World) :
    (loadText text).run engine =
      match codec.parse text with
      | .ok seed => seed.load.run engine
      | .error problem => (.error (Refusal.ofJson problem), engine) := by
  let reply (parsed : Except Json.Failure Seed) : EngineM World SeedSummary := do
    let seed ← MonadExcept.ofExcept (parsed.mapError Refusal.ofJson)
    seed.load
  change (reply (codec.parse text)).run engine = _
  cases codec.parse text <;> rfl

/-- Whether a text holds no seed, or one of which the very first thing is refused. -/
def IsRefusedAtOnce (check : ScriptCheck) (text : String) : Prop :=
  ∀ seed, codec.parse text = .ok seed → seed.FailsAtOnce check

theorem loadText_graph_eq_iff {text : String} {engine after : Engine World} {refusal : Refusal}
    (failed : (loadText text).run engine = (.error refusal, after)) :
    after.graph = engine.graph ↔
      IsRefusedAtOnce (engine.evaluator.platform.check engine.world) text := by
  rw [loadText_run] at failed
  cases parsed : codec.parse text with
  | error problem =>
      rw [parsed] at failed
      cases failed
      refine iff_of_true rfl fun seed same => ?_
      rw [parsed] at same
      cases same
  | ok seed =>
      rw [parsed] at failed
      have loaded := load_graph_eq_iff seed engine ⟨refusal, after, failed⟩
      change seed.load.run engine = _ at failed
      rw [failed] at loaded
      refine loaded.trans ⟨fun atOnce other same => ?_, fun atOnce => atOnce seed parsed⟩
      rw [parsed] at same
      cases same
      exact atOnce

end Seed

namespace Startup

theorem loadRules_run {settings : EngineSettings} {path text : String}
    {file : String → Except String String} (configured : settings.rulesFile = some path)
    (readable : file path = .ok text) (engine : Engine World) :
    (loadRules settings file).run engine =
      match (Seed.loadText text).run engine with
      | (.ok summary, after) => (.ok (some summary), after)
      | (.error refusal, after) => (.error refusal, after) := by
  simp only [loadRules, configured, readable]
  rw [EngineM.run_bind]
  obtain ⟨_ | summary, after⟩ := (Seed.loadText text).run engine <;> rfl

end Startup

/-- A failed load leaves the rules as they were if and only if it failed before anything was made
of its text, and so does a failed load when the program starts. -/
theorem failed_load_traceless_iff (text : String) :
    (∀ (World : Type) (engine after : Engine World) (refusal : Refusal),
      (Seed.loadText text).run engine = (.error refusal, after) →
        (after.graph = engine.graph ↔
          Seed.IsRefusedAtOnce (engine.evaluator.platform.check engine.world) text)) ∧
      ∀ (settings : EngineSettings) (path : String) (file : String → Except String String)
        (world : SandboxWorld) (refusal : Refusal) (after : Engine SandboxWorld),
        settings.rulesFile = some path → file path = .ok text →
          (Startup.loadRules settings file).run
            (Engine.create SandboxWorld.platform settings world) = (.error refusal, after) →
          ((Startup.engineOf settings file world).graph = {} ↔
            Seed.IsRefusedAtOnce (SandboxWorld.platform.check world) text) := by
  refine ⟨fun World engine after refusal failed => Seed.loadText_graph_eq_iff failed, ?_⟩
  intro settings path file world refusal after configured readable failed
  have same : (Startup.engineOf settings file world).graph = after.graph := by
    rw [Startup.engineOf, failed]
  rw [Startup.loadRules_run configured readable] at failed
  split at failed
  · cases failed
  · rename_i problem reached loaded
    cases failed
    rw [same]
    exact Seed.loadText_graph_eq_iff loaded

/-- A seed of two rules, of which only the second one is refused. -/
def halfGoodSeed : String :=
  "\x7b\"rules\":[\x7b\"name\":\"r\",\"script\":\"true\"\x7d,\x7b\"name\":\" \",\"script\":\"true\"\x7d]\x7d"

def seededSettings : EngineSettings := { rulesFile := some "rules.json" }

def newWorld : SandboxWorld where
  sandbox := SandboxWorld.sandboxOf Http.silent seededSettings
  beginning := ⟨0, 0⟩
  supply := ⟨0⟩

theorem halfGoodSeed_leaves_rule :
    let start := Engine.create SandboxWorld.platform seededSettings newWorld
    let loaded := (Seed.loadText halfGoodSeed).run start
    loaded.1.isOk = false ∧ loaded.2.graph ≠ start.graph ∧
      ((Startup.engineOf seededSettings (fun _ => .ok halfGoodSeed) newWorld).graph.rules.values.map
        (·.name)) = ["r"] := by
  decide +kernel

theorem halfGoodSeed_traced :
    let start := Engine.create SandboxWorld.platform seededSettings newWorld
    let file : String → Except String String := fun _ => .ok halfGoodSeed
    (∃ refusal after, (Seed.loadText halfGoodSeed).run start = (.error refusal, after) ∧
      (after.graph = start.graph ↔
        Seed.IsRefusedAtOnce (SandboxWorld.platform.check newWorld) halfGoodSeed)) ∧
      ((Startup.engineOf seededSettings file newWorld).graph = {} ↔
        Seed.IsRefusedAtOnce (SandboxWorld.platform.check newWorld) halfGoodSeed) := by
  intro start file
  have refused : ((Seed.loadText halfGoodSeed).run start).1.isOk = false := by decide +kernel
  have missed : ((Startup.loadRules seededSettings file).run start).1.isOk = false := by
    decide +kernel
  obtain ⟨ofLoad, ofStart⟩ := failed_load_traceless_iff halfGoodSeed
  constructor
  · cases loaded : (Seed.loadText halfGoodSeed).run start with
    | mk result after =>
        cases result with
        | ok summary =>
            rw [loaded] at refused
            cases refused
        | error refusal => exact ⟨refusal, after, rfl, ofLoad _ start after refusal loaded⟩
  · cases loaded : (Startup.loadRules seededSettings file).run start with
    | mk result after =>
        cases result with
        | ok summary =>
            rw [loaded] at missed
            cases missed
        | error refusal =>
            exact ofStart seededSettings "rules.json" file newWorld refusal after rfl rfl loaded

end Rulebook
