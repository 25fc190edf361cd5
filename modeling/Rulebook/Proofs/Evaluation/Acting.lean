import Rulebook.Proofs.Evaluation.Reference

/-!
The scripts of actions are told apart from those that are only asked. Of a pass, cut short or not,
the runs with effects are those of the actions that its records call executed, one for one, and
every one of these was run for a trigger that fired.
-/

namespace Rulebook

variable {World : Type}

/-- Whether a script was run as an action. -/
def ScriptRun.acts (run : ScriptRun World) : Bool :=
  run.context.invocation.action.isSome

def logsOf : Except Script.Fault ScriptOutput → List String
  | .ok output => output.logs
  | .error _ => []

/-- An action of a rule, with what became of it. -/
structure Deed where
  rule : Uuid
  outcome : ActionOutcome

def ExecutionRecord.deeds (record : ExecutionRecord) : List Deed :=
  record.actions.map (Deed.mk record.rule)

/-- What a run with effects leaves in the records. -/
structure ScriptRun.Did (run : ScriptRun World) (deed : Deed) : Prop where
  invocation : run.context.invocation =
    ⟨some deed.rule, some deed.outcome.trigger, some deed.outcome.action⟩
  logs : deed.outcome.logs = logsOf run.result

/-- What is said of an action: its trigger fired, and it has logged nothing unless it was
executed. -/
structure ActionOutcome.IsBacked (triggers : List TriggerOutcome) (outcome : ActionOutcome) : Prop where
  fired : ∃ trigger ∈ triggers, trigger.trigger = outcome.trigger ∧ trigger.fired = true
  logs : outcome.executed = false → outcome.logs = []

/-- The runs that act are those of the executed actions, and the others may only read. -/
structure Acted (runs : List (ScriptRun World)) (deeds : List Deed) : Prop where
  did : List.Forall₂ ScriptRun.Did (runs.filter (·.acts)) (deeds.filter (·.outcome.executed))
  asked : ∀ run ∈ runs, run.acts = false → run.context.capability = .readOnly

namespace Acted

variable {runs others : List (ScriptRun World)} {deeds more : List Deed}

theorem nothing : Acted ([] : List (ScriptRun World)) [] :=
  ⟨.nil, fun _ held => nomatch held⟩

theorem append (first : Acted runs deeds) (second : Acted others more) :
    Acted (runs ++ others) (deeds ++ more) := by
  constructor
  · rw [List.filter_append, List.filter_append]
    exact List.rel_append first.did second.did
  · intro run held
    rcases List.mem_append.mp held with earlier | later
    · exact first.asked run earlier
    · exact second.asked run later

theorem act {run : ScriptRun World} {deed : Deed} (did : run.Did deed)
    (executed : deed.outcome.executed = true) : Acted [run] [deed] := by
  have acts : run.acts = true := by rw [ScriptRun.acts, did.invocation, Option.isSome_some]
  constructor
  · simpa [acts, executed] using did
  · intro other held asks
    rw [List.mem_singleton.mp held, acts] at asks
    cases asks

theorem ask {run : ScriptRun World} (action : run.context.invocation.action = none)
    (capability : run.context.capability = .readOnly) : Acted [run] [] := by
  have asks : run.acts = false := by rw [ScriptRun.acts, action, Option.isSome_none]
  constructor
  · simp [asks]
  · intro other held _
    rw [List.mem_singleton.mp held]
    exact capability

theorem skip (unexecuted : ∀ deed ∈ deeds, deed.outcome.executed = false) :
    Acted ([] : List (ScriptRun World)) deeds := by
  constructor
  · have none : deeds.filter (·.outcome.executed) = [] := by
      rw [List.filter_eq_nil_iff]
      intro deed held executed
      rw [unexecuted deed held] at executed
      cases executed
    rw [none]
    exact .nil
  · exact fun _ held => nomatch held

/-- A run that acts is the run of an executed action. -/
theorem of_acts {run : ScriptRun World} (acted : Acted runs deeds) (held : run ∈ runs)
    (acts : run.acts = true) :
    ∃ deed ∈ deeds, deed.outcome.executed = true ∧ run.Did deed := by
  have among : run ∈ runs.filter (·.acts) := List.mem_filter.mpr ⟨held, acts⟩
  obtain ⟨index, bound, rfl⟩ := List.mem_iff_getElem.mp among
  have same := acted.did.length_eq
  have did := acted.did.get bound (same ▸ bound)
  obtain ⟨member, executed⟩ := List.mem_filter.mp (List.getElem_mem (same ▸ bound))
  exact ⟨_, member, executed, did⟩

theorem outcome_of_acts {run : ScriptRun World} {records : List ExecutionRecord}
    (acted : Acted runs (records.flatMap ExecutionRecord.deeds)) (held : run ∈ runs)
    (acts : run.acts = true) : ∃ record ∈ records, ∃ outcome ∈ record.actions,
      outcome.executed = true ∧ run.Did ⟨record.rule, outcome⟩ := by
  obtain ⟨deed, member, executed, did⟩ := acted.of_acts held acts
  obtain ⟨record, listed, among⟩ := List.mem_flatMap.mp member
  obtain ⟨outcome, own, rfl⟩ := List.mem_map.mp among
  exact ⟨record, listed, outcome, own, executed, did⟩

end Acted

namespace Evaluator

variable {evaluator : Evaluator World} {deadline : Nat} {graph : RuleGraph} {event : Event}
  {context : ScriptContext} {seen : List (Observation World)}

theorem AskCourse.acted {script : String} {verdict : Verdict}
    (course : AskCourse evaluator deadline script context verdict seen)
    (action : context.invocation.action = none) (capability : context.capability = .readOnly) :
    Acted (scriptRuns seen) [] := by
  obtain ⟨run, runs, ofScript, _⟩ := course.answers
  rw [runs]
  exact .ask (ofScript.context ▸ action) (ofScript.context ▸ capability)

theorem ActionCourse.acted {rule trigger : Uuid} {action : Action} {outcome : ActionOutcome}
    {failure : Option Script.Fault}
    (course : ActionCourse evaluator deadline trigger context action outcome failure seen)
    (invocation : context.invocation = ⟨some rule, some trigger, none⟩) :
    Acted (scriptRuns seen) [⟨rule, outcome⟩] := by
  obtain ⟨run, duration, runs, ofScript, ended⟩ := course.run
  rw [runs]
  have same : run.context.invocation = ⟨some rule, some trigger, some action.id⟩ := by
    rw [ofScript.context]
    change { context.invocation with action := some action.id } = _
    rw [invocation]
  cases failure with
  | none =>
      obtain ⟨output, result, rfl⟩ := ended
      exact .act ⟨same, by rw [result]; rfl⟩ rfl
  | some fault =>
      obtain ⟨result, rfl⟩ := ended
      exact .act ⟨same, by rw [result]; rfl⟩ rfl

theorem acted_skipActions (rule trigger : Uuid) (actions : List Action) :
    Acted ([] : List (ScriptRun World)) ((skipActions trigger actions).map (Deed.mk rule)) := by
  apply Acted.skip
  intro deed held
  simp only [skipActions, List.map_map, List.mem_map] at held
  obtain ⟨action, _, rfl⟩ := held
  rfl

theorem ActionsCourse.acted {rule trigger : Uuid} {actions : List Action} {batch : ActionBatch}
    (course : ActionsCourse evaluator deadline trigger context actions batch seen)
    (invocation : context.invocation = ⟨some rule, some trigger, none⟩) :
    Acted (scriptRuns seen) (batch.outcomes.map (Deed.mk rule)) := by
  induction course with
  | done => exact .nothing
  | late checked =>
      rw [checked.noRuns]
      exact acted_skipActions rule trigger _
  | succeeded checked ran _ ih =>
      rw [scriptRuns_append, scriptRuns_append, checked.noRuns]
      exact (ran.acted invocation).append ih
  | cutOff checked ran cutOff =>
      rw [scriptRuns_append, scriptRuns_append, checked.noRuns, cutOff.noRuns]
      exact (ran.acted invocation).append (acted_skipActions rule trigger _)
  | aborted checked ran cutOff =>
      rw [scriptRuns_append, scriptRuns_append, checked.noRuns, cutOff.noRuns]
      exact (ran.acted invocation).append (acted_skipActions rule trigger _)
  | failed checked ran cutOff _ _ ih =>
      rw [scriptRuns_append, scriptRuns_append, scriptRuns_append, checked.noRuns, cutOff.noRuns,
        List.append_nil]
      exact (ran.acted invocation).append ih

theorem VerdictCourse.acted {trigger : Trigger} {verdict : Verdict}
    (course : VerdictCourse evaluator deadline context trigger verdict seen)
    (action : context.invocation.action = none) (capability : context.capability = .readOnly) :
    Acted (scriptRuns seen) [] := by
  cases course with
  | unconditional => exact .nothing
  | conditional _ _ asked => exact asked.acted action capability
  | unasked => exact .nothing

theorem TriggersCourse.acted {rule : Uuid} {triggers : List Trigger} {batch : TriggerBatch}
    (course : TriggersCourse evaluator deadline graph context triggers batch seen)
    (invocation : context.invocation = ⟨some rule, none, none⟩)
    (capability : context.capability = .readOnly) :
    Acted (scriptRuns seen) (batch.actions.map (Deed.mk rule)) := by
  induction course with
  | done => exact .nothing
  | late checked =>
      rw [checked.noRuns]
      exact .nothing
  | @judged trigger _ _ _ _ _ _ _ _ checked judged running _ ih =>
      have inner : (context.withTrigger trigger.id).invocation =
          ⟨some rule, some trigger.id, none⟩ := by
        change { context.invocation with trigger := some trigger.id } = _
        rw [invocation]
      have asked := judged.acted (by rw [inner]) capability
      rw [scriptRuns_append, scriptRuns_append, scriptRuns_append, checked.noRuns, List.map_append]
      refine .append (asked.append ?_) ih
      cases running with
      | fired _ running => exact running.acted inner
      | quiet => exact .nothing

theorem RuleCourse.acted {rule : Rule} {record : ExecutionRecord} {interrupted : Bool}
    (course : RuleCourse evaluator deadline graph event rule record interrupted seen) :
    Acted (scriptRuns seen) record.deeds := by
  cases course with
  | skipped _ _ checked =>
      rw [scriptRuns_append, checked.noRuns]
      exact .nothing
  | @judged check asked judged verdict batch start stop key timestamp checked answered judging =>
      rw [scriptRuns_judged checked.noRuns]
      have first : Acted (scriptRuns asked) [] := answered.acted rfl rfl
      refine first.append ?_
      cases judging with
      | matched _ judging => exact judging.acted rfl rfl
      | unmatched => exact .nothing

theorem RulesCourse.acted {rules : List Rule} {records : List ExecutionRecord}
    {interrupted : Bool}
    (course : RulesCourse evaluator deadline graph event rules records interrupted seen) :
    Acted (scriptRuns seen) (records.flatMap ExecutionRecord.deeds) := by
  induction course with
  | done => exact .nothing
  | next judged _ ih =>
      rw [scriptRuns_append, List.flatMap_cons]
      exact judged.acted.append ih

theorem PassCourse.acted {records : List ExecutionRecord}
    (course : PassCourse evaluator graph event records seen) :
    Acted (scriptRuns seen) (records.flatMap ExecutionRecord.deeds) := by
  cases course with
  | pass _ course =>
      rw [List.flatMap_map]
      exact course.acted

/-! What records say of actions -/

theorem ActionCourse.reports {trigger : Uuid} {action : Action} {outcome : ActionOutcome}
    {failure : Option Script.Fault}
    (course : ActionCourse evaluator deadline trigger context action outcome failure seen) :
    outcome.trigger = trigger ∧ outcome.executed = true := by
  cases course <;> exact ⟨rfl, rfl⟩

theorem ActionsCourse.reports {trigger : Uuid} {actions : List Action} {batch : ActionBatch}
    (course : ActionsCourse evaluator deadline trigger context actions batch seen) :
    ∀ outcome ∈ batch.outcomes, outcome.trigger = trigger ∧
      (outcome.executed = false → outcome.logs = []) := by
  have skipped (others : List Action) : ∀ outcome ∈ skipActions trigger others,
      outcome.trigger = trigger ∧ (outcome.executed = false → outcome.logs = []) := by
    intro outcome held
    obtain ⟨action, _, rfl⟩ := List.mem_map.mp held
    exact ⟨rfl, fun _ => rfl⟩
  have first {action : Action} {outcome : ActionOutcome} {failure : Option Script.Fault}
      {part : List (Observation World)}
      (ran : ActionCourse evaluator deadline trigger context action outcome failure part) :
      outcome.trigger = trigger ∧ (outcome.executed = false → outcome.logs = []) :=
    ⟨ran.reports.1, fun not => absurd (ran.reports.2.symm.trans not) (by simp)⟩
  induction course with
  | done => exact fun _ held => nomatch held
  | late => exact skipped _
  | succeeded _ ran _ ih => exact List.forall_mem_cons.mpr ⟨first ran, ih⟩
  | cutOff _ ran => exact List.forall_mem_cons.mpr ⟨first ran, skipped _⟩
  | aborted _ ran => exact List.forall_mem_cons.mpr ⟨first ran, skipped _⟩
  | failed _ ran _ _ _ ih => exact List.forall_mem_cons.mpr ⟨first ran, ih⟩

theorem TriggersCourse.backed {triggers : List Trigger} {batch : TriggerBatch}
    (course : TriggersCourse evaluator deadline graph context triggers batch seen) :
    ∀ outcome ∈ batch.actions, outcome.IsBacked batch.outcomes := by
  induction course with
  | done => exact fun _ held => nomatch held
  | late => exact fun _ held => nomatch held
  | @judged trigger _ _ _ _ _ verdict batch _ _ _ running _ ih =>
      intro outcome held
      rcases List.mem_append.mp held with own | later
      · cases running with
        | fired holds running =>
            obtain ⟨same, logs⟩ := running.reports outcome own
            exact ⟨⟨_, List.mem_cons_self, same.symm, holds⟩, logs⟩
        | quiet => cases own
      · obtain ⟨⟨firing, listed, same, fired⟩, logs⟩ := ih outcome later
        exact ⟨⟨firing, List.mem_cons_of_mem _ listed, same, fired⟩, logs⟩

theorem RuleCourse.backed {rule : Rule} {record : ExecutionRecord} {interrupted : Bool}
    (course : RuleCourse evaluator deadline graph event rule record interrupted seen) :
    ∀ outcome ∈ record.actions, outcome.IsBacked record.triggers := by
  cases course with
  | skipped => exact fun _ held => nomatch held
  | judged _ _ _ _ _ _ judging =>
      cases judging with
      | matched _ judging => exact judging.backed
      | unmatched => exact fun _ held => nomatch held

theorem RulesCourse.backed {rules : List Rule} {records : List ExecutionRecord}
    {interrupted : Bool}
    (course : RulesCourse evaluator deadline graph event rules records interrupted seen) :
    ∀ record ∈ records, ∀ outcome ∈ record.actions, outcome.IsBacked record.triggers := by
  induction course with
  | done => exact fun _ held => nomatch held
  | next judged _ ih => exact List.forall_mem_cons.mpr ⟨judged.backed, ih⟩

theorem PassCourse.backed {records : List ExecutionRecord}
    (course : PassCourse evaluator graph event records seen) :
    ∀ record ∈ records, ∀ outcome ∈ record.actions, outcome.IsBacked record.triggers := by
  cases course with
  | pass _ course =>
      intro record held
      obtain ⟨made, member, rfl⟩ := List.mem_map.mp held
      exact course.backed made member

end Evaluator

end Rulebook
