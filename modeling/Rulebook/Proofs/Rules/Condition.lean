import Rulebook.Proofs.Rules.History

/-!
A trigger has a condition if and only if it is conditional, whatever operations led to it.
-/

namespace Rulebook

/-- Where a trigger comes from that is there after an operation, if it was not there before. -/
inductive Operation.MadeTrigger (graph : RuleGraph) (key : Uuid) (trigger : Trigger) :
    Operation → Prop where
  | created {check : ScriptCheck} {now : Instant} {new : NewTrigger} :
      IsCondition check new.kind new.condition →
      trigger = ⟨key, new.rule, new.kind, new.condition, new.enabled, now, now⟩ →
      MadeTrigger graph key trigger (.createTrigger check key now new)
  | updated {check : ScriptCheck} {now : Instant} {id : Uuid} {patch : TriggerPatch}
      {old : Trigger} :
      graph.triggers.get? id = some old → IfGiven (IsScript check) patch.condition →
      ¬ (patch.condition.isSome ∧ old.kind ≠ .conditional) →
      trigger = Change.applyTriggerPatch patch now old →
      MadeTrigger graph key trigger (.updateTrigger check now id patch)

theorem Operation.triggers_outcome {operation : Operation} {graph next : RuleGraph} {key : Uuid}
    {trigger : Trigger} (done : operation.outcome graph = .ok next)
    (found : next.triggers.get? key = some trigger) :
    graph.triggers.get? key = some trigger ∨ operation.MadeTrigger graph key trigger := by
  cases operation with
  | createTrigger check id now new =>
      obtain ⟨made, done⟩ := map_snd_eq_ok.mp done
      obtain ⟨condition, changed, owner, _, rfl⟩ := Change.createTrigger_eq_ok.mp done
      simp only [Table.get?_put] at found
      split at found
      · rename_i same
        cases found
        subst same
        exact .inr (.created condition changed)
      · exact .inl found
  | updateTrigger check now id patch =>
      obtain ⟨made, done⟩ := map_snd_eq_ok.mp done
      obtain ⟨script, old, held, allowed, changed, rfl⟩ := Change.updateTrigger_eq_ok.mp done
      simp only [Table.get?_put] at found
      split at found
      · cases found
        exact .inr (.updated held script allowed changed)
      · exact .inl found
  | deleteRule id =>
      obtain ⟨made, done⟩ := map_snd_eq_ok.mp done
      obtain ⟨old, _, rfl, rfl⟩ := Change.deleteRule_eq_ok.mp done
      change (graph.triggers.eraseAll old.triggers).get? key = _ at found
      rw [Table.get?_eraseAll] at found
      split at found
      · cases found
      · exact .inl found
  | deleteTrigger id =>
      obtain ⟨made, done⟩ := map_snd_eq_ok.mp done
      obtain ⟨old, _, rfl⟩ := Change.deleteTrigger_eq_ok.mp done
      rw [Table.get?_erase] at found
      split at found
      · cases found
      · exact .inl found
  | createRule check id now new =>
      obtain ⟨made, done⟩ := map_snd_eq_ok.mp done
      obtain ⟨_, _, rfl⟩ := Change.createRule_eq_ok.mp done
      exact .inl found
  | updateRule check now id patch =>
      obtain ⟨made, done⟩ := map_snd_eq_ok.mp done
      obtain ⟨_, old, _, changed⟩ := Change.updateRule_eq_ok.mp done
      split at changed
      · exact .inl (changed.2 ▸ found)
      · obtain ⟨_, rfl⟩ := changed
        exact .inl found
  | createAction check id now new =>
      obtain ⟨made, done⟩ := map_snd_eq_ok.mp done
      obtain ⟨_, _, rfl⟩ := Change.createAction_eq_ok.mp done
      exact .inl found
  | updateAction check now id patch =>
      obtain ⟨made, done⟩ := map_snd_eq_ok.mp done
      obtain ⟨_, old, _, _, rfl⟩ := Change.updateAction_eq_ok.mp done
      exact .inl found
  | deleteAction id =>
      obtain ⟨made, done⟩ := map_snd_eq_ok.mp done
      obtain ⟨_, _, rfl⟩ := Change.deleteAction_eq_ok.mp done
      exact .inl found
  | bind trigger action =>
      obtain ⟨made, done⟩ := map_snd_eq_ok.mp done
      obtain ⟨_, _, _, rfl⟩ := Change.bind_eq_ok.mp done
      exact .inl found
  | unbind trigger action =>
      obtain ⟨made, done⟩ := map_snd_eq_ok.mp done
      obtain ⟨_, rfl⟩ := Change.unbind_eq_ok.mp done
      exact .inl found
  | addRuleAction now rule action =>
      obtain ⟨made, done⟩ := map_snd_eq_ok.mp done
      obtain ⟨_, old, _, _, _, rfl⟩ := Change.addRuleAction_eq_ok.mp done
      exact .inl found
  | removeRuleAction now rule action =>
      obtain ⟨made, done⟩ := map_snd_eq_ok.mp done
      obtain ⟨old, _, _, _, rfl⟩ := Change.removeRuleAction_eq_ok.mp done
      exact .inl found

/-- Whether a trigger has a condition just if it needs one. -/
def Trigger.IsFit (trigger : Trigger) : Prop :=
  trigger.condition.isSome = true ↔ trigger.kind = .conditional

theorem IsCondition.isSome_iff {check : ScriptCheck} {kind : TriggerKind}
    {condition : Option String} (fits : IsCondition check kind condition) :
    condition.isSome = true ↔ kind = .conditional := by
  cases kind <;> cases condition <;> simp_all [IsCondition]

theorem Trigger.IsFit.applyPatch {old : Trigger} {patch : TriggerPatch} (now : Instant)
    (fit : old.IsFit) (allowed : ¬ (patch.condition.isSome ∧ old.kind ≠ .conditional)) :
    (Change.applyTriggerPatch patch now old).IsFit := by
  change (patch.condition.or old.condition).isSome = true ↔ old.kind = .conditional
  rw [Option.isSome_or, Bool.or_eq_true]
  constructor
  · rintro (given | kept)
    · by_contra other
      exact allowed ⟨given, other⟩
    · exact fit.mp kept
  · exact fun conditional => .inr (fit.mpr conditional)

namespace RuleGraph

def IsFit (graph : RuleGraph) : Prop :=
  ∀ id trigger, graph.triggers.get? id = some trigger → trigger.IsFit

theorem IsFit.outcome {graph next : RuleGraph} {operation : Operation} (fit : graph.IsFit)
    (done : operation.outcome graph = .ok next) : next.IsFit := by
  intro key trigger found
  rcases Operation.triggers_outcome done found with before | made
  · exact fit key trigger before
  · cases made with
    | created condition same =>
        rw [same]
        exact condition.isSome_iff
    | updated held _ allowed same =>
        rw [same]
        exact (fit _ _ held).applyPatch _ allowed

theorem IsFit.ofHistory {operations : List Operation} {graph : RuleGraph}
    (history : History operations graph) : graph.IsFit := by
  induction history with
  | start => exact fun _ _ found => nomatch found
  | next _ _ ih => exact Operation.apply_keeps ih fun _ done => ih.outcome done

end RuleGraph

end Rulebook
