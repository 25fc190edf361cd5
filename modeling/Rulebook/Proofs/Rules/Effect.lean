import Rulebook.Proofs.Rules.Table
import Rulebook.Rules.Change

/-!
When a change goes through, what it answers, and which graph it leads to.
-/

namespace Rulebook

structure IsName (name : String) : Prop where
  notBlank : (Text.trim name).isEmpty = false
  notLong : name.length ≤ longestName

structure IsScript (check : ScriptCheck) (script : String) : Prop where
  notBlank : (Text.trim script).isEmpty = false
  notLong : script.length ≤ longestScript
  compiles : ∃ done, check script = .ok done

/-- A trigger has a condition if and only if it is conditional. -/
def IsCondition (check : ScriptCheck) : TriggerKind → Option String → Prop
  | .conditional, some script => IsScript check script
  | .unconditional, none => True
  | _, _ => False

/-- A text that may be absent, and is fine if it is not. -/
def IfGiven (good : String → Prop) (text : Option String) : Prop :=
  ∀ given, text = some given → good given

namespace RuleGraph

def aged (graph : RuleGraph) : RuleGraph :=
  { graph with version := graph.version + 1 }

def Lacks (graph : RuleGraph) (id : Uuid) : Prop :=
  graph.rules.get? id = none ∧ graph.triggers.get? id = none ∧ graph.actions.get? id = none

theorem rule_eq_ok {graph : RuleGraph} {id : Uuid} {found : Rule} :
    graph.rule id = .ok found ↔ graph.rules.get? id = some found := by
  rw [rule]
  cases graph.rules.get? id <;> simp

theorem trigger_eq_ok {graph : RuleGraph} {id : Uuid} {found : Trigger} :
    graph.trigger id = .ok found ↔ graph.triggers.get? id = some found := by
  rw [trigger]
  cases graph.triggers.get? id <;> simp

theorem action_eq_ok {graph : RuleGraph} {id : Uuid} {found : Action} :
    graph.action id = .ok found ↔ graph.actions.get? id = some found := by
  rw [action]
  cases graph.actions.get? id <;> simp

end RuleGraph

namespace Change

variable {α β : Type} {graph next : RuleGraph} {check : ScriptCheck} {now : Instant}
  {id trigger action rule : Uuid}

/-! Steps of changes -/

theorem chain_eq_ok {change : Change α} {rest : α → Change β} {result : β} :
    (change >>= rest) graph = .ok (result, next) ↔
      ∃ value between, change graph = .ok (value, between) ∧
        rest value between = .ok (result, next) := by
  change (change graph >>= fun pair => rest pair.1 pair.2) = _ ↔ _
  cases change graph with
  | error refusal =>
      change Except.error refusal = _ ↔ _
      simp
  | ok pair =>
      obtain ⟨value, between⟩ := pair
      change rest value between = _ ↔ _
      simp only [Except.ok.injEq, Prod.mk.injEq]
      constructor
      · exact fun done => ⟨value, between, ⟨rfl, rfl⟩, done⟩
      · rintro ⟨_, _, ⟨rfl, rfl⟩, done⟩
        exact done

theorem pure_eq_ok {value result : α} :
    (pure value : Change α) graph = .ok (result, next) ↔ result = value ∧ next = graph := by
  change Except.ok (value, graph) = _ ↔ _
  simp [eq_comm]

theorem throw_eq_ok {refusal : Refusal} {result : α} :
    ¬ (throw refusal : Change α) graph = .ok (result, next) := by
  change ¬ Except.error refusal = _
  simp

theorem get_eq_ok {result : RuleGraph} :
    (get : Change RuleGraph) graph = .ok (result, next) ↔ result = graph ∧ next = graph := by
  change Except.ok (graph, graph) = _ ↔ _
  simp [eq_comm]

theorem set_eq_ok {result : PUnit} {value : RuleGraph} :
    (set value : Change PUnit) graph = .ok (result, next) ↔ next = value := by
  change Except.ok (PUnit.unit, value) = _ ↔ _
  simp [eq_comm]

theorem modify_eq_ok {result : PUnit} {change : RuleGraph → RuleGraph} :
    (modify change : Change PUnit) graph = .ok (result, next) ↔ next = change graph := by
  change Except.ok (PUnit.unit, change graph) = _ ↔ _
  simp [eq_comm]

theorem published_eq_ok {change : Change α} {result : α} :
    published change graph = .ok (result, next) ↔
      ∃ between, change graph = .ok (result, between) ∧ next = between.aged := by
  simp only [published, chain_eq_ok, modify_eq_ok, pure_eq_ok, RuleGraph.aged]
  constructor
  · rintro ⟨value, between, done, _, _, rfl, rfl, rfl⟩
    exact ⟨between, done, rfl⟩
  · rintro ⟨between, done, rfl⟩
    exact ⟨result, between, done, PUnit.unit, _, rfl, rfl, rfl⟩

theorem nextSequence_eq_ok {sequence : Nat} :
    nextSequence graph = .ok (sequence, next) ↔
      sequence = graph.lastSequence + 1 ∧
        next = { graph with lastSequence := graph.lastSequence + 1 } := by
  simp only [nextSequence, chain_eq_ok, modify_eq_ok, get_eq_ok, pure_eq_ok]
  constructor
  · rintro ⟨_, _, rfl, _, _, ⟨rfl, rfl⟩, rfl, rfl⟩
    exact ⟨rfl, rfl⟩
  · rintro ⟨rfl, rfl⟩
    exact ⟨PUnit.unit, _, rfl, _, _, ⟨rfl, rfl⟩, rfl, rfl⟩

theorem ofExcept_eq_ok {answer : Except Refusal α} {result : α} :
    (MonadExcept.ofExcept answer : Change α) graph = .ok (result, next) ↔
      answer = .ok result ∧ next = graph := by
  cases answer with
  | ok value =>
      change Except.ok (value, graph) = _ ↔ _
      simp [eq_comm]
  | error refusal =>
      change Except.error refusal = _ ↔ _
      simp

theorem unless_eq_ok {wrong : Prop} [Decidable wrong] {refusal : Refusal} {rest : Change α}
    {result : α} :
    (do if wrong then throw refusal
        rest : Change α) graph = .ok (result, next) ↔
      ¬ wrong ∧ rest graph = .ok (result, next) := by
  by_cases holds : wrong
  · simp only [holds, if_true, chain_eq_ok, throw_eq_ok, false_and, exists_false, not_true]
  · simp only [holds, if_false, not_false_eq_true, true_and]

/-! Look-ups -/

theorem findRule_eq_ok {found : Rule} :
    findRule id graph = .ok (found, next) ↔
      graph.rules.get? id = some found ∧ next = graph := by
  simp only [findRule, chain_eq_ok, get_eq_ok, ofExcept_eq_ok, RuleGraph.rule_eq_ok]
  constructor
  · rintro ⟨_, _, ⟨rfl, rfl⟩, held, rfl⟩
    exact ⟨held, rfl⟩
  · rintro ⟨held, rfl⟩
    exact ⟨_, _, ⟨rfl, rfl⟩, held, rfl⟩

theorem findTrigger_eq_ok {found : Trigger} :
    findTrigger id graph = .ok (found, next) ↔
      graph.triggers.get? id = some found ∧ next = graph := by
  simp only [findTrigger, chain_eq_ok, get_eq_ok, ofExcept_eq_ok, RuleGraph.trigger_eq_ok]
  constructor
  · rintro ⟨_, _, ⟨rfl, rfl⟩, held, rfl⟩
    exact ⟨held, rfl⟩
  · rintro ⟨held, rfl⟩
    exact ⟨_, _, ⟨rfl, rfl⟩, held, rfl⟩

theorem findAction_eq_ok {found : Action} :
    findAction id graph = .ok (found, next) ↔
      graph.actions.get? id = some found ∧ next = graph := by
  simp only [findAction, chain_eq_ok, get_eq_ok, ofExcept_eq_ok, RuleGraph.action_eq_ok]
  constructor
  · rintro ⟨_, _, ⟨rfl, rfl⟩, held, rfl⟩
    exact ⟨held, rfl⟩
  · rintro ⟨held, rfl⟩
    exact ⟨_, _, ⟨rfl, rfl⟩, held, rfl⟩

/-! Requirements -/

theorem requireText_eq_ok {field text : String} {longest : Nat} {result : Unit} :
    requireText field longest text graph = .ok (result, next) ↔
      ((Text.trim text).isEmpty = false ∧ text.length ≤ longest) ∧ next = graph := by
  rw [requireText]
  split
  · rename_i wrong
    have refused : ¬ ((Text.trim text).isEmpty = false ∧ text.length ≤ longest) := by
      rintro ⟨notBlank, notLong⟩
      rcases wrong with blank | long
      · simp [blank] at notBlank
      · omega
    simp only [refused, false_and, iff_false]
    exact throw_eq_ok
  · rename_i fine
    rw [not_or, Bool.not_eq_true, Nat.not_lt] at fine
    simp [pure_eq_ok, fine]

theorem requireName_eq_ok {name : String} {result : Unit} :
    requireName name graph = .ok (result, next) ↔ IsName name ∧ next = graph := by
  rw [requireName, requireText_eq_ok]
  exact and_congr_left' ⟨fun fine => ⟨fine.1, fine.2⟩, fun fine => ⟨fine.1, fine.2⟩⟩

theorem requireScript_eq_ok {field script : String} {result : Unit} :
    requireScript check field script graph = .ok (result, next) ↔
      IsScript check script ∧ next = graph := by
  simp only [requireScript, chain_eq_ok, requireText_eq_ok]
  constructor
  · rintro ⟨_, _, ⟨⟨notBlank, notLong⟩, rfl⟩, done⟩
    cases compiled : check script with
    | ok value =>
        rw [compiled] at done
        exact ⟨⟨notBlank, notLong, value, compiled⟩, (pure_eq_ok.mp done).2⟩
    | error fault =>
        rw [compiled] at done
        exact (throw_eq_ok done).elim
  · rintro ⟨⟨notBlank, notLong, value, compiled⟩, rfl⟩
    refine ⟨(), _, ⟨⟨notBlank, notLong⟩, rfl⟩, ?_⟩
    rw [compiled]
    rfl

theorem whenGiven_eq_ok {requirement : String → Change Unit} {good : String → Prop}
    (spec : ∀ text (result : Unit),
      requirement text graph = .ok (result, next) ↔ good text ∧ next = graph)
    {text : Option String} {result : Unit} :
    whenGiven requirement text graph = .ok (result, next) ↔
      IfGiven good text ∧ next = graph := by
  cases text with
  | none => simp [whenGiven, IfGiven, pure_eq_ok]
  | some given => simp [whenGiven, IfGiven, spec]

theorem whenGiven_requireName_eq_ok {name : Option String} {result : Unit} :
    whenGiven requireName name graph = .ok (result, next) ↔
      IfGiven IsName name ∧ next = graph :=
  whenGiven_eq_ok fun _ _ => requireName_eq_ok

theorem whenGiven_requireScript_eq_ok {field : String} {script : Option String} {result : Unit} :
    whenGiven (requireScript check field) script graph = .ok (result, next) ↔
      IfGiven (IsScript check) script ∧ next = graph :=
  whenGiven_eq_ok fun _ _ => requireScript_eq_ok

theorem requireCondition_eq_ok {new : NewTrigger} {result : Unit} :
    requireCondition check new graph = .ok (result, next) ↔
      IsCondition check new.kind new.condition ∧ next = graph := by
  rw [requireCondition]
  cases new.kind <;> cases new.condition <;>
    simp only [IsCondition, requireScript_eq_ok, throw_eq_ok, pure_eq_ok, false_and, true_and]

/-! Rules -/

theorem createRule_eq_ok {new : NewRule} {made : Rule} :
    createRule check id now new graph = .ok (made, next) ↔
      (IsName new.name ∧ IsScript check new.script) ∧
        made = ⟨id, new.name, new.script, new.priority, new.enabled, [], [], now, now,
          graph.lastSequence + 1⟩ ∧
        next = { graph with
          version := graph.version + 1
          lastSequence := graph.lastSequence + 1
          rules := graph.rules.put id made } := by
  simp only [createRule, chain_eq_ok, requireName_eq_ok, requireScript_eq_ok, published_eq_ok,
    nextSequence_eq_ok, putRule, modify_eq_ok, pure_eq_ok, RuleGraph.aged]
  constructor
  · rintro ⟨_, _, ⟨name, rfl⟩, _, _, ⟨script, rfl⟩, _, ⟨_, _, ⟨rfl, rfl⟩, _, _, rfl, rfl, rfl⟩, rfl⟩
    exact ⟨⟨name, script⟩, rfl, rfl⟩
  · rintro ⟨⟨name, script⟩, rfl, rfl⟩
    exact ⟨(), _, ⟨name, rfl⟩, (), _, ⟨script, rfl⟩, _,
      ⟨_, _, ⟨rfl, rfl⟩, PUnit.unit, _, rfl, rfl, rfl⟩, rfl⟩

theorem updateRule_eq_ok {patch : RulePatch} {made : Rule} :
    updateRule check now id patch graph = .ok (made, next) ↔
      (IfGiven IsName patch.name ∧ IfGiven (IsScript check) patch.script) ∧
        ∃ old, graph.rules.get? id = some old ∧
          if patch.isEmpty then made = old ∧ next = graph
          else made = applyRulePatch patch now old ∧
            next = { graph with
              version := graph.version + 1
              rules := graph.rules.put made.id made } := by
  simp only [updateRule, chain_eq_ok, whenGiven_requireName_eq_ok, whenGiven_requireScript_eq_ok]
  constructor
  · rintro ⟨_, _, ⟨name, rfl⟩, _, _, ⟨script, rfl⟩, done⟩
    refine ⟨⟨name, script⟩, ?_⟩
    by_cases nothing : patch.isEmpty = true
    · rw [if_pos nothing, findRule_eq_ok] at done
      obtain ⟨held, rfl⟩ := done
      exact ⟨made, held, by simp [nothing]⟩
    · rw [if_neg nothing] at done
      simp only [published_eq_ok, chain_eq_ok, findRule_eq_ok, putRule, modify_eq_ok,
        pure_eq_ok] at done
      obtain ⟨_, ⟨old, _, ⟨held, rfl⟩, _, _, rfl, rfl, rfl⟩, rfl⟩ := done
      refine ⟨old, held, ?_⟩
      rw [if_neg nothing]
      exact ⟨rfl, rfl⟩
  · rintro ⟨⟨name, script⟩, old, held, done⟩
    refine ⟨(), _, ⟨name, rfl⟩, (), _, ⟨script, rfl⟩, ?_⟩
    by_cases nothing : patch.isEmpty = true
    · rw [if_pos nothing] at done
      rw [if_pos nothing, findRule_eq_ok]
      exact ⟨done.1 ▸ held, done.2⟩
    · rw [if_neg nothing] at done
      obtain ⟨rfl, rfl⟩ := done
      rw [if_neg nothing]
      simp only [published_eq_ok, chain_eq_ok, findRule_eq_ok, putRule, modify_eq_ok, pure_eq_ok]
      exact ⟨_, ⟨old, _, ⟨held, rfl⟩, PUnit.unit, _, rfl, rfl, rfl⟩, rfl⟩

theorem deleteRule_eq_ok {deletion : RuleDeletion} :
    deleteRule id graph = .ok (deletion, next) ↔
      ∃ old, graph.rules.get? id = some old ∧
        let without := dropTriggers old.triggers { graph with rules := graph.rules.erase id }
        let candidates := old.actions ++ old.triggers.flatMap graph.boundActions
        deletion = ⟨id, old.triggers, (dropUnreferenced candidates without).1⟩ ∧
          next = (dropUnreferenced candidates without).2.aged := by
  simp only [deleteRule, published_eq_ok, chain_eq_ok, findRule_eq_ok, get_eq_ok, set_eq_ok,
    pure_eq_ok]
  constructor
  · rintro ⟨_, ⟨old, _, ⟨held, rfl⟩, _, _, ⟨rfl, rfl⟩, _, _, rfl, rfl, rfl⟩, rfl⟩
    exact ⟨old, held, rfl, rfl⟩
  · rintro ⟨old, held, rfl, rfl⟩
    exact ⟨_, ⟨old, _, ⟨held, rfl⟩, _, _, ⟨rfl, rfl⟩, PUnit.unit, _, rfl, rfl, rfl⟩, rfl⟩

/-! Triggers -/

theorem createTrigger_eq_ok {new : NewTrigger} {made : Trigger} :
    createTrigger check id now new graph = .ok (made, next) ↔
      IsCondition check new.kind new.condition ∧
        made = ⟨id, new.rule, new.kind, new.condition, new.enabled, now, now⟩ ∧
        ∃ owner, graph.rules.get? new.rule = some owner ∧
          next = { graph with
            version := graph.version + 1
            rules := graph.rules.put owner.id { owner with triggers := owner.triggers ++ [id] }
            triggers := graph.triggers.put id made } := by
  simp only [createTrigger, chain_eq_ok, requireCondition_eq_ok, published_eq_ok, findRule_eq_ok,
    putRule, putTrigger, modify_eq_ok, pure_eq_ok]
  constructor
  · rintro ⟨_, _, ⟨condition, rfl⟩, _, ⟨owner, _, ⟨held, rfl⟩, _, _, rfl, _, _, rfl, rfl, rfl⟩, rfl⟩
    exact ⟨condition, rfl, owner, held, rfl⟩
  · rintro ⟨condition, rfl, owner, held, rfl⟩
    exact ⟨(), _, ⟨condition, rfl⟩, _,
      ⟨owner, _, ⟨held, rfl⟩, PUnit.unit, _, rfl, PUnit.unit, _, rfl, rfl, rfl⟩, rfl⟩

def applyTriggerPatch (patch : TriggerPatch) (now : Instant) (trigger : Trigger) : Trigger :=
  { trigger with
    condition := patch.condition.or trigger.condition
    enabled := patch.enabled.getD trigger.enabled
    updatedAt := now }

theorem updateTrigger_eq_ok {patch : TriggerPatch} {made : Trigger} :
    updateTrigger check now id patch graph = .ok (made, next) ↔
      IfGiven (IsScript check) patch.condition ∧
        ∃ old, graph.triggers.get? id = some old ∧
          ¬ (patch.condition.isSome ∧ old.kind ≠ .conditional) ∧
          made = applyTriggerPatch patch now old ∧
          next = { graph with
            version := graph.version + 1
            triggers := graph.triggers.put made.id made } := by
  simp only [updateTrigger, chain_eq_ok, whenGiven_requireScript_eq_ok, published_eq_ok,
    findTrigger_eq_ok, putTrigger, modify_eq_ok, pure_eq_ok, unless_eq_ok]
  constructor
  · rintro ⟨_, _, ⟨script, rfl⟩, _, ⟨old, _, ⟨held, rfl⟩, fits, _, _, rfl, rfl, rfl⟩, rfl⟩
    exact ⟨script, old, held, fits, rfl, rfl⟩
  · rintro ⟨script, old, held, fits, rfl, rfl⟩
    exact ⟨(), _, ⟨script, rfl⟩, _, ⟨old, _, ⟨held, rfl⟩, fits, PUnit.unit, _, rfl, rfl, rfl⟩, rfl⟩

theorem deleteTrigger_eq_ok {result : Unit} :
    deleteTrigger id graph = .ok (result, next) ↔
      ∃ old, graph.triggers.get? id = some old ∧
        next = { graph with
          version := graph.version + 1
          rules := graph.rules.modify old.rule fun rule =>
            { rule with triggers := rule.triggers.filter (· ≠ id) }
          triggers := graph.triggers.erase id
          bindings := graph.bindings.filter (·.trigger ≠ id) } := by
  simp only [deleteTrigger, published_eq_ok, chain_eq_ok, findTrigger_eq_ok, modify_eq_ok]
  constructor
  · rintro ⟨_, ⟨old, _, ⟨held, rfl⟩, rfl⟩, rfl⟩
    exact ⟨old, held, rfl⟩
  · rintro ⟨old, held, rfl⟩
    exact ⟨_, ⟨old, _, ⟨held, rfl⟩, rfl⟩, rfl⟩

/-! Actions -/

theorem createAction_eq_ok {new : NewAction} {made : Action} :
    createAction check id now new graph = .ok (made, next) ↔
      (IfGiven IsName new.name ∧ IsScript check new.script) ∧
        made = ⟨id, new.name, new.script, new.enabled, now, now⟩ ∧
        next = { graph with
          version := graph.version + 1
          actions := graph.actions.put id made } := by
  simp only [createAction, chain_eq_ok, whenGiven_requireName_eq_ok, requireScript_eq_ok,
    published_eq_ok, putAction, modify_eq_ok, pure_eq_ok]
  constructor
  · rintro ⟨_, _, ⟨name, rfl⟩, _, _, ⟨script, rfl⟩, _, ⟨_, _, rfl, rfl, rfl⟩, rfl⟩
    exact ⟨⟨name, script⟩, rfl, rfl⟩
  · rintro ⟨⟨name, script⟩, rfl, rfl⟩
    exact ⟨(), _, ⟨name, rfl⟩, (), _, ⟨script, rfl⟩, _, ⟨PUnit.unit, _, rfl, rfl, rfl⟩, rfl⟩

def applyActionPatch (patch : ActionPatch) (now : Instant) (action : Action) : Action :=
  { action with
    name := patch.name.or action.name
    script := patch.script.getD action.script
    enabled := patch.enabled.getD action.enabled
    updatedAt := now }

theorem updateAction_eq_ok {patch : ActionPatch} {made : Action} :
    updateAction check now id patch graph = .ok (made, next) ↔
      (IfGiven IsName patch.name ∧ IfGiven (IsScript check) patch.script) ∧
        ∃ old, graph.actions.get? id = some old ∧
          made = applyActionPatch patch now old ∧
          next = { graph with
            version := graph.version + 1
            actions := graph.actions.put made.id made } := by
  simp only [updateAction, chain_eq_ok, whenGiven_requireName_eq_ok,
    whenGiven_requireScript_eq_ok, published_eq_ok, findAction_eq_ok, putAction, modify_eq_ok,
    pure_eq_ok]
  constructor
  · rintro ⟨_, _, ⟨name, rfl⟩, _, _, ⟨script, rfl⟩, _, ⟨old, _, ⟨held, rfl⟩, _, _, rfl, rfl, rfl⟩,
      rfl⟩
    exact ⟨⟨name, script⟩, old, held, rfl, rfl⟩
  · rintro ⟨⟨name, script⟩, old, held, rfl, rfl⟩
    exact ⟨(), _, ⟨name, rfl⟩, (), _, ⟨script, rfl⟩, _,
      ⟨old, _, ⟨held, rfl⟩, PUnit.unit, _, rfl, rfl, rfl⟩, rfl⟩

theorem deleteAction_eq_ok {result : Unit} :
    deleteAction id graph = .ok (result, next) ↔
      (∃ old, graph.actions.get? id = some old) ∧ graph.isReferenced id = false ∧
        next = { graph with
          version := graph.version + 1
          actions := graph.actions.erase id } := by
  simp only [deleteAction, published_eq_ok, chain_eq_ok, findAction_eq_ok, get_eq_ok,
    unless_eq_ok, modify_eq_ok, Bool.not_eq_true]
  constructor
  · rintro ⟨_, ⟨old, _, ⟨held, rfl⟩, _, _, ⟨rfl, rfl⟩, free, rfl⟩, rfl⟩
    exact ⟨⟨old, held⟩, free, rfl⟩
  · rintro ⟨⟨old, held⟩, free, rfl⟩
    exact ⟨_, ⟨old, _, ⟨held, rfl⟩, _, _, ⟨rfl, rfl⟩, free, rfl⟩, rfl⟩

/-! Bindings, and the actions of rules -/

theorem bind_eq_ok {result : Unit} :
    bind trigger action graph = .ok (result, next) ↔
      (∃ held, graph.triggers.get? trigger = some held) ∧
        (∃ held, graph.actions.get? action = some held) ∧
        isBound graph trigger action = false ∧
        next = { graph with
          version := graph.version + 1
          lastSequence := graph.lastSequence + 1
          bindings := graph.bindings ++ [⟨trigger, action, graph.lastSequence + 1⟩] } := by
  simp only [bind, published_eq_ok, chain_eq_ok, findTrigger_eq_ok, findAction_eq_ok, get_eq_ok,
    unless_eq_ok, nextSequence_eq_ok, modify_eq_ok, Bool.not_eq_true]
  constructor
  · rintro ⟨_, ⟨target, _, ⟨known, rfl⟩, bound, _, ⟨held, rfl⟩, _, _, ⟨rfl, rfl⟩, free, _, _,
      ⟨rfl, rfl⟩, rfl⟩, rfl⟩
    exact ⟨⟨target, known⟩, ⟨bound, held⟩, free, rfl⟩
  · rintro ⟨⟨target, known⟩, ⟨bound, held⟩, free, rfl⟩
    exact ⟨_, ⟨target, _, ⟨known, rfl⟩, bound, _, ⟨held, rfl⟩, _, _, ⟨rfl, rfl⟩, free, _, _,
      ⟨rfl, rfl⟩, rfl⟩, rfl⟩

theorem unbind_eq_ok {result : Unit} :
    unbind trigger action graph = .ok (result, next) ↔
      isBound graph trigger action = true ∧
        next = { graph with
          version := graph.version + 1
          bindings := graph.bindings.filter fun binding =>
            ¬ (binding.trigger = trigger ∧ binding.action = action) } := by
  simp only [unbind, published_eq_ok, chain_eq_ok, get_eq_ok, unless_eq_ok, modify_eq_ok,
    Bool.not_eq_true', Bool.not_eq_false]
  constructor
  · rintro ⟨_, ⟨_, _, ⟨rfl, rfl⟩, bound, rfl⟩, rfl⟩
    exact ⟨bound, rfl⟩
  · rintro ⟨bound, rfl⟩
    exact ⟨_, ⟨_, _, ⟨rfl, rfl⟩, bound, rfl⟩, rfl⟩

theorem addRuleAction_eq_ok {made : Rule} :
    addRuleAction now rule action graph = .ok (made, next) ↔
      (∃ held, graph.actions.get? action = some held) ∧
        ∃ old, graph.rules.get? rule = some old ∧ action ∉ old.actions ∧
          made = { old with actions := old.actions ++ [action], updatedAt := now } ∧
          next = { graph with
            version := graph.version + 1
            rules := graph.rules.put made.id made } := by
  simp only [addRuleAction, published_eq_ok, chain_eq_ok, findRule_eq_ok, findAction_eq_ok,
    unless_eq_ok, putRule, modify_eq_ok, pure_eq_ok, List.contains_iff_mem]
  constructor
  · rintro ⟨_, ⟨held, _, ⟨known, rfl⟩, old, _, ⟨found, rfl⟩, free, _, _, rfl, rfl, rfl⟩, rfl⟩
    exact ⟨⟨held, known⟩, old, found, free, rfl, rfl⟩
  · rintro ⟨⟨held, known⟩, old, found, free, rfl, rfl⟩
    exact ⟨_, ⟨held, _, ⟨known, rfl⟩, old, _, ⟨found, rfl⟩, free, PUnit.unit, _, rfl, rfl, rfl⟩,
      rfl⟩

theorem removeRuleAction_eq_ok {made : Rule} :
    removeRuleAction now rule action graph = .ok (made, next) ↔
      ∃ old, graph.rules.get? rule = some old ∧ action ∈ old.actions ∧
        made = { old with actions := old.actions.filter (· ≠ action), updatedAt := now } ∧
        next = { graph with
          version := graph.version + 1
          rules := graph.rules.put made.id made } := by
  simp only [removeRuleAction, published_eq_ok, chain_eq_ok, findRule_eq_ok, unless_eq_ok,
    putRule, modify_eq_ok, pure_eq_ok, Bool.not_eq_true', Bool.not_eq_false,
    List.contains_iff_mem]
  constructor
  · rintro ⟨_, ⟨old, _, ⟨found, rfl⟩, listed, _, _, rfl, rfl, rfl⟩, rfl⟩
    exact ⟨old, found, listed, rfl, rfl⟩
  · rintro ⟨old, found, listed, rfl, rfl⟩
    exact ⟨_, ⟨old, _, ⟨found, rfl⟩, listed, PUnit.unit, _, rfl, rfl, rfl⟩, rfl⟩

end Change

end Rulebook
