import Mathlib.Data.List.TakeWhile
import Rulebook.Proofs.Rules.Origin

/-!
Whatever is stored in a graph has passed its checks: names and scripts are texts of a proper
length, and every script is one that the check of scripts accepts. What a trigger is and which rule
it belongs to stays as it was made.
-/

namespace Rulebook

/-! Texts -/

namespace Text

theorem trimChars_eq_nil {characters : List Char} :
    trimChars characters = [] ↔ ∀ character ∈ characters, isBlank character = true := by
  have ends (rest : List Char) : trimCharsEnd rest = [] ↔
      ∀ character ∈ rest, isBlank character = true := by
    rw [trimCharsEnd, List.reverse_eq_nil_iff, List.dropWhile_eq_nil_iff]
    simp only [List.mem_reverse]
  rw [trimChars, ends]
  constructor
  · intro blank character held
    rw [← List.takeWhile_append_dropWhile (p := isBlank) (l := characters)] at held
    rcases List.mem_append.mp held with before | behind
    · exact List.mem_takeWhile_imp before
    · exact blank character behind
  · intro blank character held
    exact blank character ((List.dropWhile_sublist isBlank).subset held)

theorem trim_isEmpty_iff {text : String} :
    (trim text).isEmpty = true ↔ ∀ character ∈ text.toList, isBlank character = true := by
  rw [trim, String.isEmpty_iff, String.ofList_eq_empty_iff, trimChars_eq_nil]

end Text

/-- A text of at least one and at most so many characters, not all of which are blank. -/
structure IsProper (longest : Nat) (text : String) : Prop where
  notEmpty : 1 ≤ text.length
  notLong : text.length ≤ longest
  notBlank : ∃ character ∈ text.toList, Text.isBlank character = false

theorem IsProper.of_trim {longest : Nat} {text : String}
    (notBlank : (Text.trim text).isEmpty = false) (notLong : text.length ≤ longest) :
    IsProper longest text := by
  have inked : ∃ character ∈ text.toList, Text.isBlank character = false := by
    by_contra none
    have blank : (Text.trim text).isEmpty = true := by
      refine Text.trim_isEmpty_iff.mpr fun character held => ?_
      by_contra other
      exact none ⟨character, held, Bool.eq_false_iff.mpr other⟩
    rw [notBlank] at blank
    cases blank
  have length : 0 < text.toList.length := by
    obtain ⟨character, held, _⟩ := inked
    exact List.length_pos_of_mem held
  rw [String.length_toList] at length
  exact ⟨length, notLong, inked⟩

/-- A proper text that the check of scripts accepts. -/
structure IsRunnable (check : ScriptCheck) (script : String) : Prop where
  proper : IsProper 10000 script
  accepted : check script = .ok ()

theorem IsName.proper {name : String} (fine : IsName name) : IsProper 255 name :=
  .of_trim fine.notBlank fine.notLong

theorem IsScript.runnable {check : ScriptCheck} {script : String}
    (fine : IsScript check script) : IsRunnable check script := by
  obtain ⟨done, compiles⟩ := fine.compiles
  exact ⟨.of_trim fine.notBlank fine.notLong, compiles⟩

/-! What is stored -/

/-- Everything in a graph is fine by a check of scripts. -/
structure RuleGraph.IsValid (check : ScriptCheck) (graph : RuleGraph) : Prop where
  rules : ∀ rule ∈ graph.rules.values, IsProper 255 rule.name ∧ IsRunnable check rule.script
  actions : ∀ action ∈ graph.actions.values,
    (∀ name, action.name = some name → IsProper 255 name) ∧ IsRunnable check action.script
  conditions : ∀ trigger ∈ graph.triggers.values, ∀ script, trigger.condition = some script →
    IsRunnable check script
  conditional : ∀ trigger ∈ graph.triggers.values,
    trigger.condition.isSome = true ↔ trigger.kind = .conditional

/-- Whether an operation that is given scripts checks them in an allowed way. -/
def Operation.ChecksBy (allowed : ScriptCheck → Prop) : Operation → Prop
  | .createRule check .. | .updateRule check .. | .createTrigger check ..
  | .updateTrigger check .. | .createAction check .. | .updateAction check .. => allowed check
  | _ => True

/-- The triggers that are there before and after an operation have one kind and one rule, unless
the operation puts a new trigger in the place of an old one. -/
def Operation.Fixes (operation : Operation) (graph next : RuleGraph) : Prop :=
  ∀ id old trigger, graph.triggers.get? id = some old → next.triggers.get? id = some trigger →
    (trigger.kind = old.kind ∧ trigger.rule = old.rule) ∨
      ∃ check now new, operation = .createTrigger check id now new

namespace RuleGraph

variable {check : ScriptCheck} {operation : Operation} {graph next : RuleGraph}

theorem IsKeyed.fixes (keyed : graph.IsKeyed) (done : operation.outcome graph = .ok next) :
    operation.Fixes graph next := by
  intro id old trigger before after
  have key : trigger.id = id := (keyed.outcome done).triggers.own id trigger after
  rcases Operation.triggers_outcome done after with kept | made
  · rw [before] at kept
    cases kept
    exact .inl ⟨rfl, rfl⟩
  · cases made with
    | created _ _ => exact .inr ⟨_, _, _, rfl⟩
    | @updated _ _ place _ patched held _ _ same =>
        have patchedKey : patched.id = place := keyed.triggers.own place patched held
        have ownKey : trigger.id = patched.id := by rw [same]; rfl
        have here : id = place := by rw [← key, ownKey, patchedKey]
        rw [← here, before] at held
        cases held
        rw [same]
        exact .inl ⟨rfl, rfl⟩

/-- What is stored has been checked, and can be found by its identifier. -/
structure IsChecked (check : ScriptCheck) (graph : RuleGraph) : Prop extends graph.IsKeyed where
  rulesFine : ∀ id rule, graph.rules.get? id = some rule →
    IsName rule.name ∧ IsScript check rule.script
  triggersFine : ∀ id trigger, graph.triggers.get? id = some trigger →
    IsCondition check trigger.kind trigger.condition
  actionsFine : ∀ id action, graph.actions.get? id = some action →
    IfGiven IsName action.name ∧ IsScript check action.script

namespace IsChecked

theorem empty : IsChecked check {} where
  toIsKeyed := .empty
  rulesFine _ _ found := nomatch found
  triggersFine _ _ found := nomatch found
  actionsFine _ _ found := nomatch found

theorem makesRule (checked : graph.IsChecked check) (checks : operation.ChecksBy (· = check))
    {key : Uuid} {rule : Rule} (made : operation.MakesRule graph key rule) :
    IsName rule.name ∧ IsScript check rule.script := by
  cases made with
  | created name script _ sameName sameScript =>
      cases checks
      rw [sameName, sameScript]
      exact ⟨name, script⟩
  | @updated _ _ id patch old held name script _ same =>
      cases checks
      obtain ⟨oldName, oldScript⟩ := checked.rulesFine id old held
      rw [same]
      constructor
      · change IsName (patch.name.getD old.name)
        cases given : patch.name with
        | none => exact oldName
        | some other => exact name other given
      · change IsScript _ (patch.script.getD old.script)
        cases given : patch.script with
        | none => exact oldScript
        | some other => exact script other given
  | @relisted _ id old held _ _ sameName sameScript =>
      rw [sameName, sameScript]
      exact checked.rulesFine id old held

theorem makesTrigger (checked : graph.IsChecked check) (checks : operation.ChecksBy (· = check))
    {key : Uuid} {trigger : Trigger} (made : operation.MadeTrigger graph key trigger) :
    IsCondition check trigger.kind trigger.condition := by
  cases made with
  | created condition same =>
      cases checks
      rw [same]
      exact condition
  | @updated _ _ id patch old held script allowed same =>
      cases checks
      have before := checked.triggersFine id old held
      rw [same]
      change IsCondition _ old.kind (patch.condition.or old.condition)
      cases given : patch.condition with
      | none => exact before
      | some other =>
          have conditional : old.kind = .conditional := by
            by_contra wrong
            exact allowed ⟨by rw [given]; rfl, wrong⟩
          rw [conditional]
          exact script other given

theorem makesAction (checked : graph.IsChecked check) (checks : operation.ChecksBy (· = check))
    {key : Uuid} {action : Action} (made : operation.MakesAction graph key action) :
    IfGiven IsName action.name ∧ IsScript check action.script := by
  cases made with
  | created name script same =>
      cases checks
      rw [same]
      exact ⟨name, script⟩
  | @updated _ _ id patch old held name script _ same =>
      cases checks
      obtain ⟨oldName, oldScript⟩ := checked.actionsFine id old held
      rw [same]
      constructor
      · change IfGiven IsName (patch.name.or old.name)
        cases given : patch.name with
        | none => exact oldName
        | some other =>
            rw [given] at name
            exact name
      · change IsScript _ (patch.script.getD old.script)
        cases given : patch.script with
        | none => exact oldScript
        | some other => exact script other given

theorem outcome (checked : graph.IsChecked check) (checks : operation.ChecksBy (· = check))
    (done : operation.outcome graph = .ok next) : next.IsChecked check where
  toIsKeyed := checked.toIsKeyed.outcome done
  rulesFine id rule found := by
    rcases (Operation.outcome_reworks done).rules.found found with kept | made
    · exact checked.rulesFine id rule kept
    · exact checked.makesRule checks made
  triggersFine id trigger found := by
    rcases Operation.triggers_outcome done found with kept | made
    · exact checked.triggersFine id trigger kept
    · exact checked.makesTrigger checks made
  actionsFine id action found := by
    rcases (Operation.outcome_reworks done).actions.found found with kept | made
    · exact checked.actionsFine id action kept
    · exact checked.makesAction checks made

theorem valid (checked : graph.IsChecked check) : graph.IsValid check where
  rules rule held := by
    obtain ⟨name, script⟩ := checked.rulesFine _ rule (checked.rules.mem_values_iff.mp held)
    exact ⟨name.proper, script.runnable⟩
  actions action held := by
    obtain ⟨name, script⟩ :=
      checked.actionsFine _ action (checked.actions.mem_values_iff.mp held)
    exact ⟨fun given same => (name given same).proper, script.runnable⟩
  conditions trigger held script given := by
    have fine := checked.triggersFine _ trigger (checked.triggers.mem_values_iff.mp held)
    rw [given] at fine
    cases kind : trigger.kind with
    | unconditional => rw [kind] at fine; cases fine
    | conditional => rw [kind] at fine; exact fine.runnable
  conditional trigger held :=
    (checked.triggersFine _ trigger (checked.triggers.mem_values_iff.mp held)).isSome_iff

end IsChecked

end RuleGraph

end Rulebook
