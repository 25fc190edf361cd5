import Rulebook.Proofs.Evaluation.Keeping
import Rulebook.Proofs.Rules.Steps
import Rulebook.Service.Call

/-!
Two engines that differ in nothing but their worlds, which are alike. Whatever clients ask of them
has one answer, and leaves them so.
-/

namespace Rulebook

variable {World α β : Type} {platform : Platform World} {onBehalf : Option Uuid → Prop}
  {kin : World → World → Prop}

/-- An engine with another world. -/
def Engine.within (engine : Engine World) (world : World) : Engine World :=
  { engine with world }

/-- Worlds that are alike cannot be told apart by what an engine asks of its platform. Scripts may
run on behalf of certain rules only. -/
structure Platform.Hides (platform : Platform World) (onBehalf : Option Uuid → Prop)
    (kin : World → World → Prop) : Prop extends platform.Respects onBehalf kin where
  check : ∀ left right, kin left right → platform.check left = platform.check right

/-- In worlds that are alike, an engine does the same and leaves them alike. -/
def EngineM.Respects (platform : Platform World) (kin : World → World → Prop)
    (part : EngineM World α) : Prop :=
  ∀ (engine : Engine World) (world : World), engine.evaluator.platform = platform →
    kin engine.world world → ∃ answer next after, part.run engine = (answer, next) ∧
      part.run (engine.within world) = (answer, next.within after) ∧
      next.evaluator = engine.evaluator ∧ kin next.world after

namespace EngineM.Respects

theorem pure (value : α) : EngineM.Respects platform kin (Pure.pure value) :=
  fun engine world _ alike => ⟨.ok value, engine, world, rfl, rfl, rfl, alike⟩

theorem throw (refusal : Refusal) :
    EngineM.Respects platform kin (MonadExcept.throw refusal : EngineM World α) :=
  fun engine world _ alike => ⟨.error refusal, engine, world, rfl, rfl, rfl, alike⟩

theorem ofExcept (answer : Except Refusal α) :
    EngineM.Respects platform kin (MonadExcept.ofExcept answer : EngineM World α) := by
  cases answer with
  | ok value => exact pure value
  | error refusal => exact throw refusal

theorem bind {part : EngineM World α} {rest : α → EngineM World β}
    (first : EngineM.Respects platform kin part)
    (next : ∀ value, EngineM.Respects platform kin (rest value)) :
    EngineM.Respects platform kin (part >>= rest) := by
  intro engine world same alike
  obtain ⟨answer, between, middle, ended, otherEnded, kept, alike⟩ := first engine world same alike
  rw [run_bind, run_bind, ended, otherEnded]
  cases answer with
  | error refusal => exact ⟨.error refusal, between, middle, rfl, rfl, kept, alike⟩
  | ok value =>
      obtain ⟨result, last, after, done, otherDone, stillKept, alike⟩ :=
        next value between middle (kept ▸ same) alike
      exact ⟨result, last, after, done, otherDone, stillKept.trans kept, alike⟩

theorem ofExcept_bind {answer : Except Refusal α} {rest : α → EngineM World β}
    (next : ∀ value, answer = .ok value → EngineM.Respects platform kin (rest value)) :
    EngineM.Respects platform kin (MonadExcept.ofExcept answer >>= rest) := by
  cases answer with
  | ok value => exact next value rfl
  | error refusal =>
      exact fun engine world _ alike => ⟨.error refusal, engine, world, rfl, rfl, rfl, alike⟩

theorem withWorld {action : Platform World → World → α × World}
    (agreeing : Agreeing kin (action platform)) :
    EngineM.Respects platform kin (Engine.withWorld action) := by
  rintro engine world rfl alike
  obtain ⟨same, alike⟩ := agreeing engine.world world alike
  refine ⟨_, _, _, rfl, ?_, rfl, alike⟩
  rw [same]
  rfl

theorem evaluation {part : Evaluator World → Evaluation World α}
    (respects : ∀ evaluator : Evaluator World, evaluator.platform = platform →
      Rulebook.Respects kin (part evaluator)) :
    EngineM.Respects platform kin (Engine.evaluation part) := by
  intro engine world same alike
  obtain ⟨value, first, second, counted, ended, otherEnded, alike⟩ :=
    respects engine.evaluator same engine.world world engine.metrics alike
  refine ⟨.ok value, { engine with world := first, metrics := counted }, second, ?_, ?_, rfl, alike⟩
  · change (Except.ok (part engine.evaluator ⟨engine.world, engine.metrics⟩).1,
      { engine with
        world := (part engine.evaluator ⟨engine.world, engine.metrics⟩).2.world
        metrics := (part engine.evaluator ⟨engine.world, engine.metrics⟩).2.metrics }) = _
    rw [ended]
  · change (Except.ok (part engine.evaluator ⟨world, engine.metrics⟩).1,
      { engine with
        world := (part engine.evaluator ⟨world, engine.metrics⟩).2.world
        metrics := (part engine.evaluator ⟨world, engine.metrics⟩).2.metrics }) = _
    rw [otherEnded]
    rfl

/-- Looking at anything of an engine but its world. -/
theorem reading (view : Engine World → β) {rest : β → EngineM World α}
    (hidden : ∀ engine world, view (engine.within world) = view engine)
    (next : ∀ value, EngineM.Respects platform kin (rest value)) :
    EngineM.Respects platform kin (get >>= fun engine => rest (view engine)) := by
  intro engine world same alike
  obtain ⟨answer, last, after, ended, otherEnded, kept⟩ := next (view engine) engine world same alike
  refine ⟨answer, last, after, ended, ?_, kept⟩
  rw [run_bind]
  change (rest (view (engine.within world))).run (engine.within world) = _
  rw [hidden, otherEnded]

end EngineM.Respects

namespace Engine

theorem change_respects (change : Change α) :
    EngineM.Respects platform kin (Engine.change change) := by
  intro engine world _ alike
  have sameGraph : (engine.within world).graph = engine.graph := rfl
  rw [change_run, change_run, sameGraph]
  cases change engine.graph with
  | ok pair => exact ⟨.ok pair.1, _, world, rfl, rfl, rfl, alike⟩
  | error refusal => exact ⟨.error refusal, engine, world, rfl, rfl, rfl, alike⟩

theorem look_respects (question : RuleGraph → Except Refusal α) :
    EngineM.Respects platform kin (look question) :=
  .reading (·.graph) (fun _ _ => rfl) fun graph => .ofExcept (question graph)

variable (hides : platform.Hides onBehalf kin)

include hides

theorem check_respects : EngineM.Respects platform kin check := by
  rintro engine world rfl alike
  refine ⟨_, engine, world, rfl, ?_, rfl, alike⟩
  rw [hides.check engine.world world alike]
  rfl

theorem now_respects : EngineM.Respects platform kin now :=
  .withWorld hides.now

theorem fresh_respects : EngineM.Respects platform kin fresh :=
  .withWorld hides.fresh

/-! Rules -/

theorem createRule_respects (new : NewRule) : EngineM.Respects platform kin (createRule new) :=
  (check_respects hides).bind fun _ => (fresh_respects hides).bind fun _ =>
    (now_respects hides).bind fun _ => change_respects _

theorem updateRule_respects (id : Uuid) (patch : RulePatch) :
    EngineM.Respects platform kin (updateRule id patch) :=
  (check_respects hides).bind fun _ => (now_respects hides).bind fun _ => change_respects _

theorem createTrigger_respects (new : NewTrigger) :
    EngineM.Respects platform kin (createTrigger new) :=
  (check_respects hides).bind fun _ => (fresh_respects hides).bind fun _ =>
    (now_respects hides).bind fun _ => change_respects _

theorem updateTrigger_respects (id : Uuid) (patch : TriggerPatch) :
    EngineM.Respects platform kin (updateTrigger id patch) :=
  (check_respects hides).bind fun _ => (now_respects hides).bind fun _ => change_respects _

theorem createAction_respects (new : NewAction) :
    EngineM.Respects platform kin (createAction new) :=
  (check_respects hides).bind fun _ => (fresh_respects hides).bind fun _ =>
    (now_respects hides).bind fun _ => change_respects _

theorem updateAction_respects (id : Uuid) (patch : ActionPatch) :
    EngineM.Respects platform kin (updateAction id patch) :=
  (check_respects hides).bind fun _ => (now_respects hides).bind fun _ => change_respects _

theorem addRuleAction_respects (rule action : Uuid) :
    EngineM.Respects platform kin (addRuleAction rule action) :=
  (now_respects hides).bind fun _ => change_respects _

theorem removeRuleAction_respects (rule action : Uuid) :
    EngineM.Respects platform kin (removeRuleAction rule action) :=
  (now_respects hides).bind fun _ => change_respects _

/-! Events -/

theorem receive_respects (id : Option Uuid) (payload : Json) :
    EngineM.Respects platform kin (receive id payload) :=
  (fresh_respects hides).bind fun _ => (now_respects hides).bind fun _ => .pure _

theorem evaluateOn_respects (ruled : ∀ rule, onBehalf (some rule)) (graph : RuleGraph)
    (event : Event) : EngineM.Respects platform kin (evaluateOn graph event) := by
  refine EngineM.Respects.evaluation fun evaluator same => ?_
  subst same
  exact evaluator.evaluate_respects hides.toRespects graph event fun rule _ => ruled rule.id

theorem evaluate_respects (ruled : ∀ rule, onBehalf (some rule)) (event : Event) :
    EngineM.Respects platform kin (evaluate event) := by
  have rest (graph : RuleGraph) : EngineM.Respects platform kin (do
      let records ← evaluateOn graph event
      let time ← now
      modify fun engine => { engine with archive := engine.archive.add time records }
      return records) := by
    refine (evaluateOn_respects hides ruled graph event).bind fun records => ?_
    refine (now_respects hides).bind fun time engine world _ alike => ?_
    exact ⟨.ok records, { engine with archive := engine.archive.add time records }, world, rfl, rfl,
      rfl, alike⟩
  exact .reading (·.graph) (fun _ _ => rfl) rest

theorem dashboard_respects (range : String) :
    EngineM.Respects platform kin (dashboard range) :=
  (EngineM.Respects.ofExcept _).bind fun range => (now_respects hides).bind fun time =>
    .reading (·.archive) (fun _ _ => rfl) fun archive => .pure (archive.dashboard range time)

omit hides in
theorem trialContext_invocation {context : Json} {made : ScriptContext}
    (done : trialContext context = .ok made) : made.invocation = {} := by
  have filled (fields : List (String × Json)) : ∀ start : ScriptContext, start.invocation = {} →
      (fields.foldl (fun context field => context.withVariable field.1 field.2) start).invocation =
        {} := by
    induction fields with
    | nil => exact fun _ free => free
    | cons field rest ih => exact fun start free => ih _ free
  have ofFields (fields : List (String × Json)) : ∀ start : ScriptContext, start.invocation = {} →
      (if (Json.lookup "event" fields).isSome then
          fields.foldl (fun context field => context.withVariable field.1 field.2) start
        else (fields.foldl (fun context field => context.withVariable field.1 field.2)
          start).withVariable "event" (.obj fields)).invocation = {} := by
    intro start free
    split
    · exact filled fields start free
    · exact filled fields start free
  cases context with
  | obj fields =>
      cases done
      exact ofFields fields _ rfl
  | null =>
      cases done
      exact ofFields [] _ rfl
  | _ => cases done

theorem tryScript_respects (free : onBehalf none) (script : String) (context : Json) :
    EngineM.Respects platform kin (tryScript script context) := by
  refine EngineM.Respects.ofExcept_bind fun made filled => ?_
  have allowed : onBehalf made.invocation.rule := by
    rw [trialContext_invocation filled]
    exact free
  have rest (start : Nat) (limits : Script.Limits) : EngineM.Respects platform kin (do
      let result ← withWorld fun platform => platform.run (Text.trim script) made limits
      let duration := (← withWorld Platform.clock) - start
      return (⟨result.mapError Script.Fault.toFailure, milliseconds duration⟩ : ScriptTrial)) :=
    (EngineM.Respects.withWorld (hides.run _ made limits allowed)).bind fun _ =>
      (EngineM.Respects.withWorld hides.clock).bind fun _ => .pure _
  exact (EngineM.Respects.withWorld hides.clock).bind fun start =>
    .reading (·.evaluator.limits) (fun _ _ => rfl) (rest start)

end Engine

namespace Service

variable {call : Call}

theorem whenValid_respects {check : Check} {action : EngineM World α}
    (respects : EngineM.Respects platform kin action) :
    EngineM.Respects platform kin (whenValid check action) :=
  (EngineM.Respects.ofExcept check).bind fun _ => respects

namespace Call

theorem read_respects (codec : Json.Codec α) :
    EngineM.Respects platform kin (call.read codec : EngineM World α) :=
  .ofExcept _

theorem readChecked_eq (codec : Json.Codec α) (check : α → Check) :
    (call.readChecked codec check : EngineM World α) =
      MonadExcept.ofExcept (if call.checked then parseRequest codec check call.body
        else (codec.parse call.body).mapError Refusal.ofJson) := by
  rw [readChecked]
  split
  · rfl
  · rfl

theorem readChecked_respects (codec : Json.Codec α) (check : α → Check) :
    EngineM.Respects platform kin (call.readChecked codec check : EngineM World α) := by
  rw [readChecked_eq]
  exact .ofExcept _

theorem unit_respects {action : EngineM World Unit}
    (respects : EngineM.Respects platform kin action) :
    EngineM.Respects platform kin (unit action) :=
  respects.bind fun _ => .pure _

theorem withId_respects {action : Uuid → EngineM World Json} {part : EngineM World Json}
    (respects : ∀ id, EngineM.Respects platform kin (action id))
    (known : call.withId action = some part) : EngineM.Respects platform kin part := by
  obtain ⟨id, _, rfl⟩ := Option.map_eq_some_iff.mp known
  exact respects id

theorem withIds_respects {action : Uuid → Uuid → EngineM World Json} {part : EngineM World Json}
    (respects : ∀ id other, EngineM.Respects platform kin (action id other))
    (known : call.withIds action = some part) : EngineM.Respects platform kin part := by
  rw [withIds] at known
  cases first : call.id with
  | none => simp [first] at known
  | some id =>
      cases second : call.action with
      | none => simp [first, second] at known
      | some other =>
          simp only [first, second, Option.bind_eq_bind, Option.bind_some, Option.pure_def,
            Option.some.injEq] at known
          exact known ▸ respects id other

variable {part : EngineM World Json} (hides : platform.Hides onBehalf kin)

include hides

theorem ruleOperation_respects (known : call.ruleOperation = some part) :
    EngineM.Respects platform kin part := by
  unfold ruleOperation at known
  split at known
  · cases known
    exact (readChecked_respects _ _).bind fun request =>
      (whenValid_respects (Engine.createRule_respects hides _)).bind fun _ => .pure _
  · cases known
    exact (readChecked_respects _ _).bind fun query =>
      (whenValid_respects (Engine.look_respects _)).bind fun _ => .pure _
  · exact withId_respects (fun _ => (Engine.look_respects _).bind fun _ => .pure _) known
  · refine withId_respects (fun id => ?_) known
    exact (readChecked_respects _ _).bind fun patch =>
      (whenValid_respects (Engine.updateRule_respects hides id patch)).bind fun _ => .pure _
  · exact withId_respects (fun _ => (Engine.change_respects _).bind fun _ => .pure _) known
  · refine withId_respects (fun id => ?_) known
    exact (read_respects _).bind fun action =>
      (Engine.addRuleAction_respects hides id action).bind fun _ => .pure _
  · refine withIds_respects (fun rule action => ?_) known
    exact (Engine.removeRuleAction_respects hides rule action).bind fun _ => .pure _
  · cases known

theorem actionOperation_respects (known : call.actionOperation = some part) :
    EngineM.Respects platform kin part := by
  unfold actionOperation at known
  split at known
  · cases known
    exact (readChecked_respects _ _).bind fun request =>
      (whenValid_respects (Engine.createAction_respects hides _)).bind fun _ => .pure _
  · cases known
    exact (read_respects _).bind fun filter => (Engine.look_respects _).bind fun _ => .pure _
  · exact withId_respects (fun _ => (Engine.look_respects _).bind fun _ => .pure _) known
  · refine withId_respects (fun id => ?_) known
    exact (readChecked_respects _ _).bind fun patch =>
      (whenValid_respects (Engine.updateAction_respects hides id patch)).bind fun _ => .pure _
  · exact withId_respects (fun _ => unit_respects (Engine.change_respects _)) known
  · cases known

theorem triggerOperation_respects (known : call.triggerOperation = some part) :
    EngineM.Respects platform kin part := by
  unfold triggerOperation at known
  split at known
  · cases known
    exact (readChecked_respects _ _).bind fun request =>
      (whenValid_respects (Engine.createTrigger_respects hides _)).bind fun _ => .pure _
  · cases known
    exact (read_respects _).bind fun filter => (Engine.look_respects _).bind fun _ => .pure _
  · exact withId_respects (fun _ => (Engine.look_respects _).bind fun _ => .pure _) known
  · refine withId_respects (fun id => ?_) known
    exact (readChecked_respects _ _).bind fun patch =>
      (whenValid_respects (Engine.updateTrigger_respects hides id patch)).bind fun _ => .pure _
  · exact withId_respects (fun _ => unit_respects (Engine.change_respects _)) known
  · refine withId_respects (fun id => unit_respects ?_) known
    exact (read_respects _).bind fun action => Engine.change_respects _
  · exact withIds_respects (fun _ _ => unit_respects (Engine.change_respects _)) known
  · cases known

theorem otherOperation_respects (ruled : ∀ rule, onBehalf (some rule))
    (free : call.operation = "evaluate_script" → onBehalf none)
    (known : call.otherOperation = some part) : EngineM.Respects platform kin part := by
  unfold otherOperation at known
  split at known
  · cases known
    exact (read_respects _).bind fun request =>
      (EngineM.Respects.bind (Engine.receive_respects hides _ _) fun event =>
        Engine.evaluate_respects hides ruled event).bind fun _ => .pure _
  · rename_i operation
    cases known
    exact (readChecked_respects _ _).bind fun request =>
      (whenValid_respects (Engine.tryScript_respects hides (free operation) _ _)).bind fun _ =>
        .pure _
  · cases known
    exact (read_respects _).bind fun range =>
      (Engine.dashboard_respects hides range).bind fun _ => .pure _
  · cases known

/-- What clients ask of an engine does not tell worlds apart that are alike. Scripts that run by
themselves are those of one operation only. -/
theorem perform_respects (ruled : ∀ rule, onBehalf (some rule))
    (free : call.operation = "evaluate_script" → onBehalf none)
    (known : call.perform = some part) : EngineM.Respects platform kin part := by
  have choice {first second : Option (EngineM World Json)}
      (either : (first <|> second) = some part) : first = some part ∨ second = some part := by
    cases first with
    | some other => exact .inl either
    | none => exact .inr either
  rcases choice known with rule | known
  · exact ruleOperation_respects hides rule
  rcases choice known with action | known
  · exact actionOperation_respects hides action
  rcases choice known with trigger | other
  · exact triggerOperation_respects hides trigger
  · exact otherOperation_respects hides ruled free other

end Call

end Service

end Rulebook
