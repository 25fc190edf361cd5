import Mathlib.Data.Option.Basic
import Rulebook.Proofs.Engine.Likeness
import Rulebook.Proofs.Engine.Publishing
import Rulebook.Proofs.Rules.Validity
import Rulebook.Startup

/-!
Whatever is asked of an engine, it does with a few parts only: it takes something from its
platform, changes its rules by an operation, runs a script by itself, or evaluates an event. So what
these parts keep, everything keeps that an engine does.
-/

namespace Rulebook

variable {World Seen α β : Type}

/-- What an engine does, put together from its parts. Scripts are checked in an allowed way, and
whether events are evaluated is told beforehand. -/
inductive Composed (passes : Bool) (allowed : ScriptCheck → Prop) :
    {α : Type} → EngineM World α → Prop where
  | pure {α : Type} (value : α) : Composed passes allowed (Pure.pure value)
  | refuse {α : Type} (refusal : Refusal) :
      Composed passes allowed (throw refusal : EngineM World α)
  | bind {α β : Type} {part : EngineM World α} {rest : α → EngineM World β} :
      Composed passes allowed part → (∀ value, Composed passes allowed (rest value)) →
      Composed passes allowed (part >>= rest)
  | check {α : Type} {rest : ScriptCheck → EngineM World α} :
      (∀ check, allowed check → Composed passes allowed (rest check)) →
      Composed passes allowed (Engine.check >>= rest)
  | fresh : Composed passes allowed Engine.fresh
  | now : Composed passes allowed Engine.now
  | change {α : Type} {change : Change α} (operation : Operation) :
      (∀ graph, operation.outcome graph = (change graph).map (·.2)) →
      operation.ChecksBy allowed → Composed passes allowed (Engine.change change)
  | look {α : Type} (question : RuleGraph → Except Refusal α) :
      Composed passes allowed (Engine.look question)
  | tryScript (script : String) (context : Json) :
      Composed passes allowed (Engine.tryScript script context)
  | dashboard (range : String) : Composed passes allowed (Engine.dashboard range)
  | evaluate (event : Event) : passes = true → Composed passes allowed (Engine.evaluate event)

/-! What the parts come to -/

namespace Engine

theorem evaluate_run (event : Event) (engine : Engine World) :
    let pass := engine.evaluator.evaluate engine.graph event ⟨engine.world, engine.metrics⟩
    let read := engine.evaluator.platform.now pass.2.world
    (evaluate event).run engine = (.ok pass.1, { engine with
      world := read.2
      metrics := pass.2.metrics
      archive := engine.archive.add read.1 pass.1 }) := rfl

theorem dashboard_run (range : String) (engine : Engine World) :
    (dashboard range).run engine =
      match TimeRange.parse range with
      | .ok range =>
        let read := engine.evaluator.platform.now engine.world
        (.ok (engine.archive.dashboard range read.1), engine.within read.2)
      | .error refusal => (.error refusal, engine) := by
  rw [dashboard, EngineM.run_bind]
  cases TimeRange.parse range with
  | ok range => rfl
  | error refusal => rfl

/-- A script that is run by itself leaves its mark in the world, and nowhere else. -/
theorem tryScript_run {fits : World → Prop} (script : String) (context : Json)
    {engine : Engine World} (kept : engine.evaluator.platform.Keeps (fun _ => True) fits)
    (fit : fits engine.world) :
    ∃ answer world, (tryScript script context).run engine = (answer, engine.within world) ∧
      fits world := by
  rw [tryScript, EngineM.run_bind]
  cases trialContext context with
  | error refusal => exact ⟨_, engine.world, rfl, fit⟩
  | ok made =>
      have started := kept.clock engine.world fit
      have ran := kept.run (Text.trim script) made engine.evaluator.limits _ trivial started
      exact ⟨_, _, rfl, kept.clock _ ran⟩

/-- What has become of an engine, its world and its rules. Without evaluations, there are no more
records and counts than before. -/
structure Evolves (passes : Bool) (fits : World → Prop) (good : RuleGraph → Prop)
    (engine next : Engine World) : Prop where
  evaluator : next.evaluator = engine.evaluator
  world : fits next.world
  graph : good next.graph
  books : passes = false → next.archive = engine.archive ∧ next.metrics = engine.metrics

theorem Evolves.trans {passes : Bool} {fits : World → Prop} {good : RuleGraph → Prop}
    {engine between last : Engine World} (early : engine.Evolves passes fits good between)
    (late : between.Evolves passes fits good last) : engine.Evolves passes fits good last where
  evaluator := late.evaluator.trans early.evaluator
  world := late.world
  graph := late.graph
  books nothing := by
    obtain ⟨archive, metrics⟩ := early.books nothing
    obtain ⟨lateArchive, lateMetrics⟩ := late.books nothing
    exact ⟨lateArchive.trans archive, lateMetrics.trans metrics⟩

end Engine

/-- What a platform keeps of a world, and operations keep of rules, is kept by all that an engine
does. -/
theorem Composed.evolves {passes : Bool} {allowed : ScriptCheck → Prop} {part : EngineM World α}
    (composed : Composed passes allowed part) {platform : Platform World} {fits : World → Prop}
    {good : RuleGraph → Prop} (kept : platform.Keeps (fun _ => True) fits)
    (checks : ∀ world, fits world → allowed (platform.check world))
    (step : ∀ {operation : Operation} {graph next}, good graph → operation.ChecksBy allowed →
      operation.outcome graph = .ok next → good next)
    (engine : Engine World) (same : engine.evaluator.platform = platform)
    (fit : fits engine.world) (fine : good engine.graph) :
    engine.Evolves passes fits good (part.run engine).2 := by
  have still : engine.Evolves passes fits good engine := ⟨rfl, fit, fine, fun _ => ⟨rfl, rfl⟩⟩
  induction composed generalizing engine with
  | pure value => exact still
  | refuse refusal => exact still
  | @bind α β part rest first next ihFirst ihNext =>
      have early := ihFirst engine same fit fine still
      rw [EngineM.run_bind]
      generalize part.run engine = reached at early ⊢
      obtain ⟨_ | value, between⟩ := reached
      · exact early
      · have samePlatform : between.evaluator.platform = platform := by
          rw [early.evaluator]
          exact same
        exact early.trans (ihNext value between samePlatform early.world early.graph
          ⟨rfl, early.world, early.graph, fun _ => ⟨rfl, rfl⟩⟩)
  | @check α rest next ih =>
      have allowedHere : allowed (engine.evaluator.platform.check engine.world) := by
        rw [same]
        exact checks engine.world fit
      exact ih _ allowedHere engine same fit fine still
  | fresh =>
      subst same
      exact ⟨rfl, kept.fresh engine.world fit, fine, fun _ => ⟨rfl, rfl⟩⟩
  | now =>
      subst same
      exact ⟨rfl, kept.now engine.world fit, fine, fun _ => ⟨rfl, rfl⟩⟩
  | @change α change operation alike checked =>
      rw [Engine.change_run]
      cases done : change engine.graph with
      | error refusal => exact still
      | ok pair =>
          have outcome := alike engine.graph
          rw [done] at outcome
          exact ⟨rfl, fit, step fine checked outcome, fun _ => ⟨rfl, rfl⟩⟩
  | look question =>
      rw [Engine.look_run]
      exact still
  | tryScript script context =>
      subst same
      obtain ⟨answer, world, run, fitAfter⟩ := Engine.tryScript_run script context kept fit
      rw [run]
      exact ⟨rfl, fitAfter, fine, fun _ => ⟨rfl, rfl⟩⟩
  | dashboard range =>
      subst same
      rw [Engine.dashboard_run]
      split
      · exact ⟨rfl, kept.now engine.world fit, fine, fun _ => ⟨rfl, rfl⟩⟩
      · exact still
  | evaluate event allowed =>
      subst same
      rw [Engine.evaluate_run]
      have evaluated := engine.evaluator.evaluate_keeps kept engine.graph event
        (fun _ _ => trivial) ⟨engine.world, engine.metrics⟩ fit
      exact ⟨rfl, kept.now _ evaluated, fine, fun nothing =>
        absurd (allowed.symm.trans nothing) (by simp)⟩

/-! What is composed of these parts -/

namespace Composed

variable {passes : Bool} {allowed : ScriptCheck → Prop}

theorem ofExcept (answer : Except Refusal α) :
    Composed passes allowed (MonadExcept.ofExcept answer : EngineM World α) := by
  cases answer with
  | ok value => exact .pure value
  | error refusal => exact .refuse refusal

theorem forM {values : List α} {part : α → EngineM World PUnit}
    (each : ∀ value, Composed passes allowed (part value)) :
    Composed passes allowed (values.forM part) := by
  induction values with
  | nil => exact .pure _
  | cons value rest ih => exact (each value).bind fun _ => ih

theorem answer {part : EngineM World α} (composed : Composed passes allowed part) (form : α → β) :
    Composed passes allowed (do return form (← part)) :=
  composed.bind fun value => .pure (form value)

end Composed

namespace Engine

variable {passes : Bool} {allowed : ScriptCheck → Prop}

theorem createRule_composed (new : NewRule) :
    Composed passes allowed (createRule new : EngineM World Rule) :=
  .check fun check fine => .bind .fresh fun id => .bind .now fun now =>
    .change (.createRule check id now new) (fun _ => rfl) fine

theorem updateRule_composed (id : Uuid) (patch : RulePatch) :
    Composed passes allowed (updateRule id patch : EngineM World Rule) :=
  .check fun check fine => .bind .now fun now =>
    .change (.updateRule check now id patch) (fun _ => rfl) fine

theorem deleteRule_composed (id : Uuid) :
    Composed passes allowed (deleteRule id : EngineM World RuleDeletion) :=
  .change (.deleteRule id) (fun _ => rfl) trivial

theorem createTrigger_composed (new : NewTrigger) :
    Composed passes allowed (createTrigger new : EngineM World Trigger) :=
  .check fun check fine => .bind .fresh fun id => .bind .now fun now =>
    .change (.createTrigger check id now new) (fun _ => rfl) fine

theorem updateTrigger_composed (id : Uuid) (patch : TriggerPatch) :
    Composed passes allowed (updateTrigger id patch : EngineM World Trigger) :=
  .check fun check fine => .bind .now fun now =>
    .change (.updateTrigger check now id patch) (fun _ => rfl) fine

theorem deleteTrigger_composed (id : Uuid) :
    Composed passes allowed (deleteTrigger id : EngineM World Unit) :=
  .change (.deleteTrigger id) (fun _ => rfl) trivial

theorem createAction_composed (new : NewAction) :
    Composed passes allowed (createAction new : EngineM World Action) :=
  .check fun check fine => .bind .fresh fun id => .bind .now fun now =>
    .change (.createAction check id now new) (fun _ => rfl) fine

theorem updateAction_composed (id : Uuid) (patch : ActionPatch) :
    Composed passes allowed (updateAction id patch : EngineM World Action) :=
  .check fun check fine => .bind .now fun now =>
    .change (.updateAction check now id patch) (fun _ => rfl) fine

theorem deleteAction_composed (id : Uuid) :
    Composed passes allowed (deleteAction id : EngineM World Unit) :=
  .change (.deleteAction id) (fun _ => rfl) trivial

theorem bind_composed (trigger action : Uuid) :
    Composed passes allowed (bind trigger action : EngineM World Unit) :=
  .change (.bind trigger action) (fun _ => rfl) trivial

theorem unbind_composed (trigger action : Uuid) :
    Composed passes allowed (unbind trigger action : EngineM World Unit) :=
  .change (.unbind trigger action) (fun _ => rfl) trivial

theorem addRuleAction_composed (rule action : Uuid) :
    Composed passes allowed (addRuleAction rule action : EngineM World Rule) :=
  .bind .now fun now => .change (.addRuleAction now rule action) (fun _ => rfl) trivial

theorem removeRuleAction_composed (rule action : Uuid) :
    Composed passes allowed (removeRuleAction rule action : EngineM World Rule) :=
  .bind .now fun now => .change (.removeRuleAction now rule action) (fun _ => rfl) trivial

theorem receive_composed (id : Option Uuid) (payload : Json) :
    Composed passes allowed (receive id payload : EngineM World Event) :=
  .bind .fresh fun _ => .bind .now fun _ => .pure _

end Engine

theorem Command.perform_composed {passes : Bool} {allowed : ScriptCheck → Prop}
    (command : Command Seen) :
    Composed passes allowed (command.perform : EngineM World (Answer Seen)) := by
  cases command with
  | createRule new => exact (Engine.createRule_composed new).answer _
  | updateRule id patch => exact (Engine.updateRule_composed id patch).answer _
  | deleteRule id => exact (Engine.deleteRule_composed id).answer _
  | createTrigger new => exact (Engine.createTrigger_composed new).answer _
  | updateTrigger id patch => exact (Engine.updateTrigger_composed id patch).answer _
  | deleteTrigger id => exact (Engine.deleteTrigger_composed id).answer _
  | createAction new => exact (Engine.createAction_composed new).answer _
  | updateAction id patch => exact (Engine.updateAction_composed id patch).answer _
  | deleteAction id => exact (Engine.deleteAction_composed id).answer _
  | bind trigger action => exact (Engine.bind_composed trigger action).answer _
  | unbind trigger action => exact (Engine.unbind_composed trigger action).answer _
  | addRuleAction rule action => exact (Engine.addRuleAction_composed rule action).answer _
  | removeRuleAction rule action => exact (Engine.removeRuleAction_composed rule action).answer _
  | look question => exact (Composed.look question).answer _

/-! Seeds -/

namespace Seed

variable {passes : Bool} {allowed : ScriptCheck → Prop}

theorem loadActions_composed (keys : Keys) (actions : List SeedAction) :
    Composed passes allowed (loadActions keys actions : EngineM World Keys) := by
  induction actions generalizing keys with
  | nil => exact .pure _
  | cons action rest ih =>
      have creating : Composed passes allowed (do
          let created ← Engine.createAction (newAction action)
          loadActions ((action.key, created.id) :: keys) rest : EngineM World Keys) :=
        (Engine.createAction_composed _).bind fun _ => ih _
      rw [loadActions]
      split
      · exact (Composed.refuse _).bind fun _ => creating
      · exact creating

theorem loadTrigger_composed (keys : Keys) (rule : Uuid) (trigger : SeedTrigger) :
    Composed passes allowed (loadTrigger keys rule trigger : EngineM World Unit) := by
  refine (Engine.createTrigger_composed _).bind fun created => .forM fun key => ?_
  exact (Composed.ofExcept _).bind fun action => Engine.bind_composed created.id action

theorem loadRule_composed (keys : Keys) (rule : SeedRule) :
    Composed passes allowed (loadRule keys rule : EngineM World Unit) := by
  refine (Engine.createRule_composed _).bind fun created => ?_
  refine Composed.bind (.forM fun key => ?_) fun _ => .forM (loadTrigger_composed keys created.id)
  exact (Composed.ofExcept _).bind fun action =>
    (Engine.addRuleAction_composed created.id action).bind fun _ => .pure _

theorem loadText_composed (text : String) :
    Composed passes allowed (loadText text : EngineM World SeedSummary) := by
  refine (Composed.ofExcept _).bind fun seed => ?_
  refine (loadActions_composed [] seed.actions).bind fun keys => ?_
  exact Composed.bind (.forM (loadRule_composed keys)) fun _ => .pure _

end Seed

/-! Calls of clients -/

namespace Service

variable {passes : Bool} {allowed : ScriptCheck → Prop} {call : Call}

theorem whenValid_composed {check : Check} {action : EngineM World α}
    (composed : Composed passes allowed action) :
    Composed passes allowed (whenValid check action) :=
  (Composed.ofExcept check).bind fun _ => composed

namespace Call

theorem read_composed (codec : Json.Codec α) :
    Composed passes allowed (call.read codec : EngineM World α) :=
  .ofExcept _

theorem readChecked_composed (codec : Json.Codec α) (check : α → Check) :
    Composed passes allowed (call.readChecked codec check : EngineM World α) := by
  rw [readChecked_eq]
  exact .ofExcept _

theorem withId_composed {action : Uuid → EngineM World Json} {part : EngineM World Json}
    (composed : ∀ id, Composed passes allowed (action id))
    (known : call.withId action = some part) : Composed passes allowed part := by
  obtain ⟨id, _, rfl⟩ := Option.map_eq_some_iff.mp known
  exact composed id

theorem withIds_composed {action : Uuid → Uuid → EngineM World Json} {part : EngineM World Json}
    (composed : ∀ id other, Composed passes allowed (action id other))
    (known : call.withIds action = some part) : Composed passes allowed part := by
  obtain ⟨id, _, known⟩ := Option.bind_eq_some_iff.mp known
  obtain ⟨other, _, known⟩ := Option.bind_eq_some_iff.mp known
  cases known
  exact composed id other

variable {part : EngineM World Json}

theorem ruleOperation_composed (known : call.ruleOperation = some part) :
    Composed passes allowed part := by
  unfold ruleOperation at known
  split at known
  · cases known
    exact (readChecked_composed _ _).bind fun request =>
      (whenValid_composed (Engine.createRule_composed _)).answer _
  · cases known
    exact (readChecked_composed _ _).bind fun query => (whenValid_composed (.look _)).answer _
  · exact withId_composed (fun id => (Composed.look _).answer _) known
  · refine withId_composed (fun id => ?_) known
    exact (readChecked_composed _ _).bind fun patch =>
      (whenValid_composed (Engine.updateRule_composed id patch)).answer _
  · exact withId_composed (fun id => (Engine.deleteRule_composed id).answer _) known
  · refine withId_composed (fun id => ?_) known
    exact (read_composed _).bind fun action => (Engine.addRuleAction_composed id action).answer _
  · exact withIds_composed
      (fun rule action => (Engine.removeRuleAction_composed rule action).answer _) known
  · cases known

theorem actionOperation_composed (known : call.actionOperation = some part) :
    Composed passes allowed part := by
  unfold actionOperation at known
  split at known
  · cases known
    exact (readChecked_composed _ _).bind fun request =>
      (whenValid_composed (Engine.createAction_composed _)).answer _
  · cases known
    exact (read_composed _).bind fun filter => (Composed.look _).answer _
  · exact withId_composed (fun id => (Composed.look _).answer _) known
  · refine withId_composed (fun id => ?_) known
    exact (readChecked_composed _ _).bind fun patch =>
      (whenValid_composed (Engine.updateAction_composed id patch)).answer _
  · exact withId_composed (fun id => (Engine.deleteAction_composed id).answer _) known
  · cases known

theorem triggerOperation_composed (known : call.triggerOperation = some part) :
    Composed passes allowed part := by
  unfold triggerOperation at known
  split at known
  · cases known
    exact (readChecked_composed _ _).bind fun request =>
      (whenValid_composed (Engine.createTrigger_composed _)).answer _
  · cases known
    exact (read_composed _).bind fun filter => (Composed.look _).answer _
  · exact withId_composed (fun id => (Composed.look _).answer _) known
  · refine withId_composed (fun id => ?_) known
    exact (readChecked_composed _ _).bind fun patch =>
      (whenValid_composed (Engine.updateTrigger_composed id patch)).answer _
  · exact withId_composed (fun id => (Engine.deleteTrigger_composed id).answer _) known
  · refine withId_composed (fun id => Composed.answer ?_ _) known
    exact (read_composed _).bind fun action => Engine.bind_composed id action
  · exact withIds_composed
      (fun trigger action => (Engine.unbind_composed trigger action).answer _) known
  · cases known

theorem otherOperation_composed (known : call.otherOperation = some part) :
    Composed true allowed part := by
  unfold otherOperation at known
  split at known
  · cases known
    exact (read_composed _).bind fun request => Composed.answer
      ((Engine.receive_composed _ _).bind fun event => .evaluate event rfl) _
  · cases known
    exact (readChecked_composed _ _).bind fun request =>
      (whenValid_composed (.tryScript _ _)).answer _
  · cases known
    exact (read_composed _).bind fun range => (Composed.dashboard range).answer _
  · cases known

theorem perform_composed (known : call.perform = some part) : Composed true allowed part := by
  rcases (Option.orElse_eq_some _ _ _).mp known with rule | ⟨_, known⟩
  · exact ruleOperation_composed rule
  rcases (Option.orElse_eq_some _ _ _).mp known with action | ⟨_, known⟩
  · exact actionOperation_composed action
  rcases (Option.orElse_eq_some _ _ _).mp known with trigger | ⟨_, other⟩
  · exact triggerOperation_composed trigger
  · exact otherOperation_composed other

end Call

end Service

end Rulebook
