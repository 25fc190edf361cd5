import Rulebook.Proofs.Evaluation.Coherence
import Rulebook.Proofs.Evaluation.Counting

/-!
Why a pass is partial. Either the deadline kept something from being done or left a script less time
than there is for scripts, or a script took all of that time and was seen to be out of it no sooner
than at the deadline. The last is no loss, but a second look at the clock cannot tell it from one.
-/

namespace Rulebook

variable {World : Type}

/-! Who is told that time is up -/

/-- A script that ran out of time, and the reading of the clock that was to tell why. -/
structure Telling (World : Type) where
  run : ScriptRun World
  reading : Nat

/-- The reading that tells why a script failed. Behind an action the clock is first read to see how
long it took. -/
def ScriptRun.noticed (run : ScriptRun World) (later : List (Observation World)) : Option Nat :=
  (readings later)[if run.acts then 1 else 0]?

def tellings : List (Observation World) → List (Telling World)
  | .run run :: later =>
    (if run.RanOut then (run.noticed later).toList.map (Telling.mk run) else []) ++ tellings later
  | .clock _ :: later | .now _ :: later | .fresh _ :: later => tellings later
  | [] => []

def ToldLate (deadline : Nat) (told : List (Telling World)) : Prop :=
  ∃ telling ∈ told, deadline ≤ telling.reading

/-- What is told in a part of an evaluation, whatever may come behind it. -/
def Tells (seen : List (Observation World)) (told : List (Telling World)) : Prop :=
  ∀ later, tellings (seen ++ later) = told ++ tellings later

theorem toldLate_append {deadline : Nat} {earlier later : List (Telling World)} :
    ToldLate deadline (earlier ++ later) ↔ ToldLate deadline earlier ∨ ToldLate deadline later := by
  simp only [ToldLate, List.mem_append, or_and_right, exists_or]

theorem Tells.append {earlier later : List (Observation World)} {told others : List (Telling World)}
    (first : Tells earlier told) (second : Tells later others) :
    Tells (earlier ++ later) (told ++ others) := by
  intro rest
  rw [List.append_assoc, first, second, List.append_assoc]

theorem tells_nothing {seen : List (Observation World)} (noRuns : scriptRuns seen = []) :
    Tells seen [] := by
  intro later
  induction seen with
  | nil => rfl
  | cons observation rest ih =>
      cases observation with
      | run run => cases noRuns
      | clock reading => exact ih noRuns
      | now instant => exact ih noRuns
      | fresh id => exact ih noRuns

theorem tellings_ranOut {telling : Telling World} {seen : List (Observation World)}
    (held : telling ∈ tellings seen) : telling.run ∈ scriptRuns seen ∧ telling.run.RanOut := by
  induction seen with
  | nil => cases held
  | cons observation rest ih =>
      cases observation with
      | run run =>
          rcases List.mem_append.mp held with own | later
          · by_cases out : run.RanOut
            · rw [if_pos out] at own
              obtain ⟨reading, _, rfl⟩ := List.mem_map.mp own
              exact ⟨List.mem_cons_self, out⟩
            · rw [if_neg out] at own
              cases own
          · obtain ⟨member, out⟩ := ih later
            exact ⟨List.mem_cons_of_mem _ member, out⟩
      | clock reading => exact ih held
      | now instant => exact ih held
      | fresh id => exact ih held

/-! What is left out -/

/-- Some action was not executed, and no failure of an action before it is the reason. -/
def LeavesAction (policy : FailurePolicy) (outcomes : List ActionOutcome) : Prop :=
  ∃ outcome ∈ outcomes, outcome.executed = false ∧
    (policy = .abort → ∀ other ∈ outcomes, other.trigger = outcome.trigger →
      other.executed = true → other.succeeded = true)

def LeavesTrigger (triggers : List Trigger) (outcomes : List TriggerOutcome) : Prop :=
  ∃ trigger ∈ triggers, ∀ outcome ∈ outcomes, outcome.trigger ≠ trigger.id

/-- The rule of a record was skipped, or it matched but a trigger of it has no outcome, or an action
was left out. -/
def ExecutionRecord.Lacks (policy : FailurePolicy) (graph : RuleGraph)
    (seen : List (Observation World)) (record : ExecutionRecord) : Prop :=
  some record.rule ∉ judgedRules seen ∨
    (record.matched = true ∧ ∃ rule ∈ graph.rules.get? record.rule,
      LeavesTrigger (Evaluator.enabledTriggers graph rule) record.triggers) ∨
    LeavesAction policy record.actions

instance (policy : FailurePolicy) (outcomes : List ActionOutcome) :
    Decidable (LeavesAction policy outcomes) :=
  inferInstanceAs (Decidable (∃ outcome ∈ outcomes, outcome.executed = false ∧
    (policy = .abort → ∀ other ∈ outcomes, other.trigger = outcome.trigger →
      other.executed = true → other.succeeded = true)))

instance (triggers : List Trigger) (outcomes : List TriggerOutcome) :
    Decidable (LeavesTrigger triggers outcomes) :=
  inferInstanceAs (Decidable (∃ trigger ∈ triggers, ∀ outcome ∈ outcomes,
    outcome.trigger ≠ trigger.id))

instance (policy : FailurePolicy) (graph : RuleGraph) (seen : List (Observation World))
    (record : ExecutionRecord) : Decidable (record.Lacks policy graph seen) :=
  inferInstanceAs (Decidable (_ ∨ _ ∨ _))

theorem leavesAction_cons {policy : FailurePolicy} {outcome : ActionOutcome}
    {outcomes : List ActionOutcome} (executed : outcome.executed = true)
    (fine : policy = .abort → outcome.succeeded = true) :
    LeavesAction policy (outcome :: outcomes) ↔ LeavesAction policy outcomes := by
  constructor
  · rintro ⟨other, held, left, others⟩
    rcases List.mem_cons.mp held with rfl | later
    · rw [executed] at left
      cases left
    · exact ⟨other, later, left, fun aborts each listed => others aborts each (.tail _ listed)⟩
  · rintro ⟨other, held, left, others⟩
    refine ⟨other, .tail _ held, left, fun aborts => ?_⟩
    exact List.forall_mem_cons.mpr ⟨fun _ _ => fine aborts, others aborts⟩

theorem leavesAction_append {policy : FailurePolicy} {own later : List ActionOutcome}
    (apart : ∀ first ∈ own, ∀ second ∈ later, first.trigger ≠ second.trigger) :
    LeavesAction policy (own ++ later) ↔ LeavesAction policy own ∨ LeavesAction policy later := by
  constructor
  · rintro ⟨outcome, held, left, others⟩
    rcases List.mem_append.mp held with first | second
    · refine .inl ⟨outcome, first, left, fun aborts other listed => ?_⟩
      exact others aborts other (List.mem_append_left _ listed)
    · refine .inr ⟨outcome, second, left, fun aborts other listed => ?_⟩
      exact others aborts other (List.mem_append_right _ listed)
  · rintro (⟨outcome, held, left, others⟩ | ⟨outcome, held, left, others⟩)
    · refine ⟨outcome, List.mem_append_left _ held, left, fun aborts other listed same => ?_⟩
      rcases List.mem_append.mp listed with first | second
      · exact others aborts other first same
      · exact absurd same.symm (apart outcome held other second)
    · refine ⟨outcome, List.mem_append_right _ held, left, fun aborts other listed same => ?_⟩
      rcases List.mem_append.mp listed with first | second
      · exact absurd same (apart other first outcome held)
      · exact others aborts other second same

theorem ExecutionRecord.lacks_iff_of_judged {policy : FailurePolicy} {graph : RuleGraph}
    {seen : List (Observation World)} {record : ExecutionRecord} {rule : Rule}
    (judged : some record.rule ∈ judgedRules seen)
    (found : graph.rules.get? record.rule = some rule) :
    record.Lacks policy graph seen ↔
      (record.matched = true ∧
        LeavesTrigger (Evaluator.enabledTriggers graph rule) record.triggers) ∨
        LeavesAction policy record.actions := by
  simp [Lacks, judged, found]

theorem ExecutionRecord.lacks_congr {policy : FailurePolicy} {graph : RuleGraph}
    {seen others : List (Observation World)} {record : ExecutionRecord}
    (same : some record.rule ∈ judgedRules seen ↔ some record.rule ∈ judgedRules others) :
    record.Lacks policy graph seen ↔ record.Lacks policy graph others := by
  rw [Lacks, Lacks, same]

/-! What cuts an evaluation short -/

/-- A part of an evaluation was cut short if and only if there was a loss, or someone was told no
sooner than at the deadline that time was up. -/
def Explained (deadline : Nat) (cut : Bool) (loss : Prop)
    (seen : List (Observation World)) : Prop :=
  ∃ told, Tells seen told ∧ (cut = true ↔ loss ∨ ToldLate deadline told)

namespace Explained

variable {deadline : Nat} {cut others : Bool} {loss more : Prop}
  {seen earlier later : List (Observation World)}

theorem quiet (noRuns : scriptRuns seen = []) (same : cut = true ↔ loss) :
    Explained deadline cut loss seen := by
  refine ⟨[], tells_nothing noRuns, ?_⟩
  simp only [ToldLate, List.not_mem_nil, false_and, exists_false, or_false]
  exact same

theorem congr (explained : Explained deadline cut loss seen) (same : loss ↔ more) :
    Explained deadline cut more seen := by
  obtain ⟨told, tells, cause⟩ := explained
  exact ⟨told, tells, by rw [cause, same]⟩

theorem append (first : Explained deadline cut loss earlier)
    (second : Explained deadline others more later) :
    Explained deadline (cut || others) (loss ∨ more) (earlier ++ later) := by
  obtain ⟨told, tells, cause⟩ := first
  obtain ⟨toldLater, tellsLater, causeLater⟩ := second
  refine ⟨told ++ toldLater, tells.append tellsLater, ?_⟩
  rw [Bool.or_eq_true, cause, causeLater, toldLate_append]
  tauto

theorem behind (noRuns : scriptRuns earlier = []) (explained : Explained deadline cut loss seen) :
    Explained deadline cut loss (earlier ++ seen) := by
  have silent : Explained deadline false False earlier := quiet noRuns (by simp)
  simpa using silent.append explained

theorem before (explained : Explained deadline cut loss seen) (noRuns : scriptRuns later = []) :
    Explained deadline cut loss (seen ++ later) := by
  have silent : Explained deadline false False later := quiet noRuns (by simp)
  simpa using explained.append silent

end Explained

namespace Evaluator

variable {evaluator : Evaluator World} {deadline : Nat} {graph : RuleGraph} {event : Event}
  {context : ScriptContext} {seen : List (Observation World)}

theorem RunCourse.explained_fine {script : String} {result : Except Script.Fault ScriptOutput}
    (course : RunCourse evaluator deadline script context result seen)
    (fine : ∀ fault, result = .error fault → fault.isTimeout = false) :
    Explained deadline false False seen := by
  cases course with
  | ran reading world answered =>
      refine ⟨[], fun later => ?_, by simp [ToldLate]⟩
      have inTime : ¬ScriptRun.RanOut ⟨world, script, context,
          evaluator.limits.clamped deadline reading, result⟩ := by
        rintro ⟨fault, failed, timeout⟩
        rw [fine fault failed] at timeout
        cases timeout
      simp only [List.cons_append, List.nil_append, tellings, if_neg inTime]

/-- A script fails, and between it and the reading that tells why, only the end of an action is
noted. -/
theorem RunCourse.explained_failed {script : String} {fault : Script.Fault} {cut : Bool}
    {between later : List (Observation World)}
    (course : RunCourse evaluator deadline script context (.error fault) seen)
    (noRuns : scriptRuns between = [])
    (readingsBetween : (readings between).length =
      if context.invocation.action.isSome then 1 else 0)
    (cutOff : CutOffCourse deadline fault cut later) :
    Explained deadline cut False (seen ++ between ++ later) := by
  cases cutOff with
  | other notTimeout =>
      rw [List.append_nil]
      refine (course.explained_fine ?_).before noRuns
      rintro _ ⟨⟩
      exact notTimeout
  | @timeout cut later timeout checked =>
      obtain ⟨reading, rfl, cause⟩ : ∃ reading, later = [.clock reading] ∧
          (cut = true ↔ deadline ≤ reading) := by
        cases checked with
        | inTime early => exact ⟨_, rfl, by simpa using early⟩
        | past reached => exact ⟨_, rfl, by simpa using reached⟩
      cases course with
      | ran start world answered =>
          let run : ScriptRun World :=
            ⟨world, script, context, evaluator.limits.clamped deadline start, .error fault⟩
          have out : run.RanOut := ⟨fault, rfl, timeout⟩
          refine ⟨[⟨run, reading⟩], fun rest => ?_, by simpa [ToldLate] using cause⟩
          have noticed : run.noticed (between ++ [.clock reading] ++ rest) = some reading := by
            have place : (if run.acts then 1 else 0) = (readings between).length :=
              readingsBetween.symm
            rw [ScriptRun.noticed, place, List.append_assoc, readings_append,
              List.getElem?_append_right (Nat.le_refl _), Nat.sub_self]
            rfl
          have silent : Tells (between ++ [.clock reading]) ([] : List (Telling World)) :=
            tells_nothing (by rw [scriptRuns_append, noRuns]; rfl)
          have whole : tellings (.run run :: (between ++ [.clock reading] ++ rest)) =
              [⟨run, reading⟩] ++ tellings rest := by
            rw [tellings, if_pos out, noticed, silent rest]
            rfl
          simpa [tellings] using whole

theorem AskCourse.explained {script : String} {verdict : Verdict}
    (course : AskCourse evaluator deadline script context verdict seen)
    (asks : context.invocation.action = none) :
    Explained deadline verdict.interrupted False seen := by
  cases course with
  | answered ran answered =>
      apply ran.explained_fine
      rintro fault rfl
      cases answered
  | @failed result seen later fault cut ran failed cutOff =>
      cases result with
      | error other =>
          cases failed
          have whole : Explained deadline cut False (seen ++ [] ++ later) :=
            ran.explained_failed rfl (by rw [asks]; rfl) cutOff
          rwa [List.append_nil] at whole
      | ok output =>
          -- An answer of a wrong shape is a fault, too, but not one of time.
          have misshapen : fault.isTimeout = false := by
            obtain ⟨_, rfl⟩ := answerOf_eq_error.mp failed
            rfl
          cases cutOff with
          | other =>
              rw [List.append_nil]
              exact ran.explained_fine nofun
          | timeout timeout _ =>
              rw [misshapen] at timeout
              cases timeout

/-! Actions -/

theorem ActionCourse.explained_succeeded {trigger : Uuid} {action : Action}
    {outcome : ActionOutcome}
    (course : ActionCourse evaluator deadline trigger context action outcome none seen) :
    Explained deadline false False seen := by
  cases course with
  | @succeeded output seen start stop ran =>
      have started : scriptRuns ([.clock start] : List (Observation World)) = [] := rfl
      have quiet : Explained deadline false False seen := ran.explained_fine nofun
      exact (quiet.behind started).before rfl

theorem ActionCourse.explained_failed {trigger : Uuid} {action : Action} {outcome : ActionOutcome}
    {fault : Script.Fault} {cut : Bool} {later : List (Observation World)}
    (course : ActionCourse evaluator deadline trigger context action outcome (some fault) seen)
    (cutOff : CutOffCourse deadline fault cut later) :
    Explained deadline cut False (seen ++ later) := by
  cases course with
  | @failed _ seen start stop ran =>
      have started : scriptRuns ([.clock start] : List (Observation World)) = [] := rfl
      have failed : Explained deadline cut False (seen ++ [.clock stop] ++ later) :=
        ran.explained_failed rfl rfl cutOff
      exact (failed.behind started :)

theorem ActionCourse.succeeded_eq {trigger : Uuid} {action : Action} {outcome : ActionOutcome}
    {failure : Option Script.Fault}
    (course : ActionCourse evaluator deadline trigger context action outcome failure seen) :
    outcome.succeeded = failure.isNone := by
  cases course <;> rfl

theorem skipActions_executed {trigger : Uuid} {actions : List Action} {outcome : ActionOutcome}
    (held : outcome ∈ skipActions trigger actions) :
    outcome.executed = false ∧ outcome.trigger = trigger := by
  obtain ⟨action, _, rfl⟩ := List.mem_map.mp held
  exact ⟨rfl, rfl⟩

theorem ActionsCourse.explained {trigger : Uuid} {actions : List Action} {batch : ActionBatch}
    (course : ActionsCourse evaluator deadline trigger context actions batch seen) :
    Explained deadline batch.deadlineReached (LeavesAction evaluator.policy batch.outcomes)
      seen := by
  induction course with
  | done => exact .quiet rfl (by simp [LeavesAction])
  | @late action rest check checked =>
      refine .quiet checked.noRuns ⟨fun _ => ?_, fun _ => rfl⟩
      refine ⟨.skipped action.id trigger, List.mem_cons_self, rfl, fun _ other held _ done => ?_⟩
      rw [(skipActions_executed held).1] at done
      cases done
  | @succeeded action rest check seen later outcome batch checked ran _ ih =>
      have own := (ran.explained_succeeded.behind checked.noRuns).append ih
      rw [Bool.false_or] at own
      refine own.congr ?_
      rw [leavesAction_cons ran.reports.2 fun _ => ran.succeeded_eq, false_or]
  | @cutOff action rest check seen later outcome fault checked ran cutOff =>
      obtain ⟨told, tells, cause⟩ := (ran.explained_failed cutOff).behind checked.noRuns
      rw [← List.append_assoc] at tells
      have late : ToldLate deadline told := by simpa using cause
      exact ⟨told, tells, fun _ => .inr late, fun _ => rfl⟩
  | @aborted action rest check seen later outcome fault checked ran cutOff aborts =>
      have executed := ran.reports.2
      have own := (ran.explained_failed cutOff).behind checked.noRuns
      rw [← List.append_assoc] at own
      refine own.congr ⟨False.elim, ?_⟩
      rintro ⟨other, held, left, others⟩
      rcases List.mem_cons.mp held with rfl | held
      · rw [executed] at left
        cases left
      · have same : outcome.trigger = other.trigger :=
          ran.reports.1.trans (skipActions_executed held).2.symm
        have succeeded := others aborts outcome List.mem_cons_self same executed
        rw [ran.succeeded_eq] at succeeded
        cases succeeded
  | @failed action rest check seen cut later outcome fault batch checked ran cutOff goesOn _ ih =>
      have own := ((ran.explained_failed cutOff).behind checked.noRuns).append ih
      rw [← List.append_assoc check, Bool.false_or] at own
      refine own.congr ?_
      rw [leavesAction_cons ran.reports.2 fun aborts => absurd aborts goesOn, false_or]

/-! Triggers -/

theorem VerdictCourse.explained {trigger : Trigger} {verdict : Verdict}
    (course : VerdictCourse evaluator deadline context trigger verdict seen)
    (asks : context.invocation.action = none) :
    Explained deadline verdict.interrupted False seen := by
  cases course with
  | unconditional => exact .quiet rfl (by simp)
  | conditional _ _ asked => exact asked.explained asks
  | unasked => exact .quiet rfl (by simp)

theorem FiringCourse.explained {trigger : Trigger} {verdict : Verdict} {batch : ActionBatch}
    (course : FiringCourse evaluator deadline graph context trigger verdict batch seen) :
    Explained deadline batch.deadlineReached (LeavesAction evaluator.policy batch.outcomes)
      seen := by
  cases course with
  | fired _ running => exact running.explained
  | quiet => exact .quiet rfl (by simp [LeavesAction])

theorem FiringCourse.trigger_eq {trigger : Trigger} {verdict : Verdict} {batch : ActionBatch}
    (course : FiringCourse evaluator deadline graph context trigger verdict batch seen) :
    ∀ outcome ∈ batch.outcomes, outcome.trigger = trigger.id := by
  cases course with
  | fired _ running => exact fun outcome held => (running.reports outcome held).1
  | quiet => exact fun _ held => nomatch held

theorem TriggersCourse.triggers_subset {triggers : List Trigger} {batch : TriggerBatch}
    (course : TriggersCourse evaluator deadline graph context triggers batch seen) :
    ∀ outcome ∈ batch.outcomes, outcome.trigger ∈ triggers.map (·.id) := by
  induction course with
  | done => exact fun _ held => nomatch held
  | late => exact fun _ held => nomatch held
  | judged _ _ _ _ ih =>
      refine List.forall_mem_cons.mpr ⟨List.mem_cons_self, fun outcome held => ?_⟩
      exact List.mem_cons_of_mem _ (ih outcome held)

theorem leavesTrigger_cons {first : Trigger} {triggers : List Trigger} {outcome : TriggerOutcome}
    {outcomes : List TriggerOutcome} (own : outcome.trigger = first.id)
    (apart : first.id ∉ triggers.map (·.id)) :
    LeavesTrigger (first :: triggers) (outcome :: outcomes) ↔ LeavesTrigger triggers outcomes := by
  constructor
  · rintro ⟨trigger, held, left⟩
    obtain ⟨notFirst, others⟩ := List.forall_mem_cons.mp left
    rcases List.mem_cons.mp held with rfl | later
    · exact absurd own notFirst
    · exact ⟨trigger, later, others⟩
  · rintro ⟨trigger, held, left⟩
    refine ⟨trigger, List.mem_cons_of_mem _ held, List.forall_mem_cons.mpr ⟨?_, left⟩⟩
    rw [own]
    exact fun same => apart (same ▸ List.mem_map_of_mem held)

theorem TriggersCourse.explained {triggers : List Trigger} {batch : TriggerBatch}
    (course : TriggersCourse evaluator deadline graph context triggers batch seen)
    (asks : context.invocation.action = none) (distinct : (triggers.map (·.id)).Nodup) :
    Explained deadline batch.interrupted
      (LeavesTrigger triggers batch.outcomes ∨ LeavesAction evaluator.policy batch.actions)
      seen := by
  induction course with
  | done => exact .quiet rfl (by simp [LeavesTrigger, LeavesAction])
  | @late trigger rest check checked =>
      refine .quiet checked.noRuns ⟨fun _ => .inl ?_, fun _ => rfl⟩
      exact ⟨trigger, List.mem_cons_self, fun _ held => nomatch held⟩
  | @judged trigger rest check asked ran later verdict batch others checked judged running judging
      ih =>
      obtain ⟨apart, distinct⟩ := List.nodup_cons.mp distinct
      have ownActions := running.trigger_eq
      -- What an action comes to stands with its own trigger, which no later one is.
      have actionsApart : ∀ first ∈ batch.outcomes, ∀ second ∈ others.actions,
          first.trigger ≠ second.trigger := by
        intro first own second foreign same
        obtain ⟨outcome, listed, fired, _⟩ := (judging.backed second foreign).fired
        have known := judging.triggers_subset outcome listed
        rw [fired, ← same, ownActions first own] at known
        exact apart known
      have verdictExplained : Explained deadline verdict.interrupted False asked :=
        judged.explained asks
      have whole := ((verdictExplained.behind checked.noRuns).append running.explained).append
        (ih distinct)
      refine whole.congr ?_
      rw [leavesTrigger_cons rfl apart, leavesAction_append actionsApart]
      tauto

/-! Rules -/

theorem MatchCourse.explained {rule : Rule} {verdict : Verdict} {batch : TriggerBatch}
    (course : MatchCourse evaluator deadline graph context rule verdict batch seen)
    (asks : context.invocation.action = none)
    (distinct : ((enabledTriggers graph rule).map (·.id)).Nodup) :
    Explained deadline batch.interrupted
      ((verdict.holds = true ∧ LeavesTrigger (enabledTriggers graph rule) batch.outcomes) ∨
        LeavesAction evaluator.policy batch.actions) seen := by
  cases course with
  | matched holds judging =>
      refine (judging.explained asks distinct).congr ?_
      simp only [holds, true_and]
  | unmatched fails => exact .quiet rfl (by simp [fails, LeavesAction])

theorem RuleCourse.explained {rule : Rule} {record : ExecutionRecord} {interrupted : Bool}
    (course : RuleCourse evaluator deadline graph event rule record interrupted seen)
    (intact : graph.Intact) (found : graph.rules.get? rule.id = some rule) :
    Explained deadline interrupted (record.Lacks evaluator.policy graph seen) seen := by
  have whole := course
  cases course with
  | @skipped check key timestamp checked =>
      have notJudged := whole.judgedRules_eq checked rfl
      refine .quiet ?_ ⟨fun _ => .inl ?_, fun _ => rfl⟩
      · rw [scriptRuns_append, checked.noRuns]
        rfl
      · rw [notJudged]
        exact List.not_mem_nil
  | @judged check asked judged verdict batch start stop key timestamp checked answered judging =>
      let tail : List (Observation World) := [.clock stop, .fresh key, .now timestamp]
      have started : scriptRuns ([.clock start] : List (Observation World)) = [] := rfl
      have split : check ++ .clock start :: asked ++ judged ++ tail =
          check ++ ([.clock start] ++ (asked ++ (judged ++ tail))) := by
        simp only [List.append_assoc, List.cons_append, List.nil_append]
      have own : some rule.id ∈ judgedRules (check ++ .clock start :: asked ++ judged ++ tail) := by
        rw [whole.judgedRules_eq checked split]
        exact List.mem_singleton_self _
      have distinct := enabledTriggers_nodup intact found
      have first : Explained deadline verdict.interrupted False asked := answered.explained rfl
      have second : Explained deadline batch.interrupted _ (judged ++ tail) :=
        (judging.explained rfl distinct).before rfl
      have parts := ((first.append second).behind started).behind checked.noRuns
      rw [← split] at parts
      refine parts.congr (Iff.trans ?_ (ExecutionRecord.lacks_iff_of_judged own found).symm)
      rw [false_or]

theorem RuleCourse.judgedRules_subset {rule : Rule} {record : ExecutionRecord} {interrupted : Bool}
    (course : RuleCourse evaluator deadline graph event rule record interrupted seen) :
    ∀ judged ∈ judgedRules seen, judged = some rule.id := by
  have whole := course
  cases course with
  | skipped _ _ checked =>
      rw [whole.judgedRules_eq checked rfl]
      exact fun _ held => nomatch held
  | judged _ _ _ _ checked =>
      rw [whole.judgedRules_eq checked (by simp only [List.append_assoc]; rfl)]
      exact fun _ held => List.mem_singleton.mp held

theorem RulesCourse.judgedRules_subset {rules : List Rule} {records : List ExecutionRecord}
    {interrupted : Bool}
    (course : RulesCourse evaluator deadline graph event rules records interrupted seen) :
    ∀ id, some id ∈ judgedRules seen → id ∈ rules.map (·.id) := by
  induction course with
  | done => exact fun _ held => nomatch held
  | next judged _ ih =>
      intro id held
      rw [judgedRules_append] at held
      rcases List.mem_append.mp held with first | later
      · cases judged.judgedRules_subset _ first
        exact List.mem_cons_self
      · exact List.mem_cons_of_mem _ (ih id later)

theorem RulesCourse.explained {rules : List Rule} {records : List ExecutionRecord}
    {interrupted : Bool}
    (course : RulesCourse evaluator deadline graph event rules records interrupted seen)
    (intact : graph.Intact) (known : ∀ rule ∈ rules, graph.rules.get? rule.id = some rule)
    (distinct : (rules.map (·.id)).Nodup) :
    Explained deadline interrupted (∃ record ∈ records, record.Lacks evaluator.policy graph seen)
      seen := by
  induction course with
  | done => exact .quiet rfl (by simp)
  | @next rule rest record records interrupted others seen later judged judging ih =>
      obtain ⟨found, othersFound⟩ := List.forall_mem_cons.mp known
      obtain ⟨apart, distinct⟩ := List.nodup_cons.mp distinct
      refine ((judged.explained intact found).append (ih othersFound distinct)).congr ?_
      -- Whether a rule was judged can be seen in its own part of what was seen.
      have own : record.Lacks evaluator.policy graph seen ↔
          record.Lacks evaluator.policy graph (seen ++ later) := by
        apply ExecutionRecord.lacks_congr
        rw [judgedRules_append, List.mem_append, judged.rule_eq]
        exact ⟨.inl, fun held => held.resolve_right fun foreign =>
          apart (judging.judgedRules_subset _ foreign)⟩
      have foreign (other : ExecutionRecord) (member : other ∈ records) :
          other.Lacks evaluator.policy graph later ↔
            other.Lacks evaluator.policy graph (seen ++ later) := by
        apply ExecutionRecord.lacks_congr
        rw [judgedRules_append, List.mem_append]
        refine ⟨.inr, fun held => held.resolve_left fun early => ?_⟩
        have same : other.rule = rule.id := Option.some.inj (judged.judgedRules_subset _ early)
        have listed : other.rule ∈ rest.map (·.id) := by
          rw [← judging.rules_eq]
          exact List.mem_map_of_mem member
        rw [same] at listed
        exact apart listed
      rw [List.exists_mem_cons_iff, own]
      exact or_congr_right (exists_congr fun other => and_congr_right (foreign other))

end Evaluator

/-! Passes -/

/-- The deadline kept something from being done, or a script ran out of a time that the deadline had
cut short. -/
def CutShort (evaluator : Evaluator World) (graph : RuleGraph) (records : List ExecutionRecord)
    (seen : List (Observation World)) : Prop :=
  (∃ record ∈ records, record.Lacks evaluator.policy graph seen) ∨
    ∃ run ∈ scriptRuns seen, run.RanOut ∧ run.limits.timeout < evaluator.limits.timeout

instance (evaluator : Evaluator World) (graph : RuleGraph) (records : List ExecutionRecord)
    (seen : List (Observation World)) : Decidable (CutShort evaluator graph records seen) :=
  inferInstanceAs (Decidable (_ ∨ _))

/-- A script had all the time that there is for a script, and was told no sooner than at the
deadline that it was up. -/
def ToldTooLate (evaluator : Evaluator World) (seen : List (Observation World)) : Prop :=
  ∃ start later, seen = .clock start :: later ∧ ∃ telling ∈ tellings later,
    evaluator.limits.timeout ≤ telling.run.limits.timeout ∧
      start + evaluator.allowance ≤ telling.reading

namespace Evaluator

variable {evaluator : Evaluator World} {deadline : Nat} {graph : RuleGraph} {event : Event}
  {seen : List (Observation World)}

theorem RulesCourse.partial_iff {rules : List Rule} {records : List ExecutionRecord}
    {interrupted : Bool}
    (course : RulesCourse evaluator deadline graph event rules records interrupted seen) :
    (∃ record ∈ records.map fun record => { record with status := passStatus interrupted },
      record.status = .partiallyEvaluated) ↔ interrupted = true := by
  constructor
  · rintro ⟨_, held, cut⟩
    obtain ⟨record, _, rfl⟩ := List.mem_map.mp held
    cases interrupted with
    | true => rfl
    | false => cases cut
  · rintro rfl
    cases records with
    | nil => cases course.uncut_of_nil
    | cons record rest => exact ⟨_, List.mem_cons_self, rfl⟩

theorem PassCourse.partial_iff {records : List ExecutionRecord}
    (course : PassCourse evaluator graph event records seen) (timely : Timely seen)
    (intact : graph.Intact) :
    (∃ record ∈ records, record.status = .partiallyEvaluated) ↔
      CutShort evaluator graph records seen ∨ ToldTooLate evaluator seen := by
  have known : ∀ rule ∈ graph.rulesInOrder true, graph.rules.get? rule.id = some rule :=
    fun rule held => intact.rules.mem_values_iff.mp (RuleGraph.mem_rulesInOrder.mp held).1
  have distinct := RuleGraph.rulesInOrder_nodup intact.rules true
  cases course with
  | @pass records interrupted seen start course =>
      rw [course.partial_iff]
      obtain ⟨told, tells, cause⟩ := course.explained intact known distinct
      have all : tellings seen = told := by
        have whole := tells []
        rwa [List.append_nil, tellings, List.append_nil] at whole
      rw [← all] at cause
      have marked : (∃ record ∈ records.map fun record =>
            { record with status := passStatus interrupted },
          record.Lacks evaluator.policy graph (.clock start :: seen)) ↔
            ∃ record ∈ records, record.Lacks evaluator.policy graph seen := by
        simp only [List.mem_map, exists_exists_and_eq_and]
        rfl
      rw [CutShort, marked]
      constructor
      · intro cut
        rcases cause.mp cut with lacking | ⟨telling, held, late⟩
        · exact .inl (.inl lacking)
        · obtain ⟨ran, out⟩ := tellings_ranOut held
          rcases Nat.lt_or_ge telling.run.limits.timeout evaluator.limits.timeout with less | full
          · exact .inl (.inr ⟨telling.run, ran, out, less⟩)
          · exact .inr ⟨start, seen, rfl, telling, held, full, late⟩
      · rintro ((lacking | ⟨run, ran, out, less⟩) | ⟨_, _, ⟨⟩, telling, held, _, late⟩)
        · exact cause.mpr (.inl lacking)
        -- Without a cut, whoever ran out of time had all of it.
        · by_contra uncut
          have whole : Timely ([.clock start] ++ seen) := timely
          have completed : interrupted = false := by simpa using uncut
          have enough := course.notHurried whole.append.2 completed run ran out
          omega
        · exact cause.mpr (.inr ⟨telling, held, late⟩)

end Evaluator

/-- A pass is partial if and only if it was cut short, or a script that had all the time there is
for scripts was told only at the deadline or later that its time was up. -/
theorem partial_iff_cutShort_or_toldTooLate (evaluator : Evaluator World) (graph : RuleGraph)
    (event : Event) (progress : Progress World) (reachable : graph.Reachable)
    (timely : Timely (evaluator.observations graph event progress)) :
    let seen := evaluator.observations graph event progress
    let records := (evaluator.evaluate graph event progress).1
    (∃ record ∈ records, record.status = .partiallyEvaluated) ↔
      CutShort evaluator graph records seen ∨ ToldTooLate evaluator seen := by
  obtain ⟨operations, history⟩ := reachable
  have course := evaluator.observations_course graph event progress
  exact course.partial_iff timely (RuleGraph.Intact.ofHistory history)

/-- An evaluator whose scripts go on until long after their time is up. -/
def dawdlingEvaluator : Evaluator Nat where
  platform := { tickingEvaluator.platform with
    run := fun _ _ limits time => (.error (.timeout limits.timeout), time + 60) }
  limits := tickingEvaluator.limits
  policy := .goOn
  allowance := 50

def loneRule : List Operation :=
  [.createRule (fun _ => .ok ()) ⟨1⟩ ⟨0, 0⟩ ⟨"lone", "true", 0, true⟩]

/-- The lone rule runs out of the time that every script has. Nothing is left out, and yet the pass
is partial. -/
theorem loneRule_partial_not_cutShort :
    let graph := Operation.run loneRule {}
    let event : Event := ⟨⟨4⟩, .null, ⟨0, 0⟩⟩
    let seen := dawdlingEvaluator.observations graph event ⟨0, []⟩
    let records := (dawdlingEvaluator.evaluate graph event ⟨0, []⟩).1
    graph.Reachable ∧ Timely seen ∧ (∃ record ∈ records, record.status = .partiallyEvaluated) ∧
      ¬CutShort dawdlingEvaluator graph records seen := by
  intro graph event seen records
  have reachable : graph.Reachable := ⟨loneRule, History.ofFresh (by decide)⟩
  exact ⟨reachable, by decide +kernel, by decide +kernel, by decide +kernel⟩

theorem loneRule_toldTooLate :
    let graph := Operation.run loneRule {}
    let event : Event := ⟨⟨4⟩, .null, ⟨0, 0⟩⟩
    let seen := dawdlingEvaluator.observations graph event ⟨0, []⟩
    graph.Reachable ∧ Timely seen ∧ ToldTooLate dawdlingEvaluator seen := by
  intro graph event seen
  have reachable : graph.Reachable := ⟨loneRule, History.ofFresh (by decide)⟩
  have timely : Timely seen := by decide +kernel
  have explained :=
    partial_iff_cutShort_or_toldTooLate dawdlingEvaluator graph event ⟨0, []⟩ reachable timely
  exact ⟨reachable, timely, (explained.mp (by decide +kernel)).resolve_left (by decide +kernel)⟩

end Rulebook
