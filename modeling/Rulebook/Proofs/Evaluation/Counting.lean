import Rulebook.Proofs.Evaluation.Completion

/-!
What is counted during an evaluation, and what its records say, are the same: each outcome is
counted once, by what became of it. The rules themselves are counted when they are judged, so those
that are skipped are not; whether a rule was judged can be seen by the run of its script.
-/

namespace Rulebook

variable {World α β : Type}

/-! What there is to count -/

def TriggerOutcome.metrics (outcome : TriggerOutcome) : List Metric :=
  (outcome.error.toList.map fun failure => .scriptFailed .trigger failure.kind) ++
    [.triggerEvaluated outcome.kind outcome.fired]

/-- Actions that are skipped are not counted. -/
def ActionOutcome.metrics (outcome : ActionOutcome) : List Metric :=
  (outcome.error.toList.map fun failure => .scriptFailed .action failure.kind) ++
    if outcome.executed then [.actionExecuted outcome.succeeded] else []

/-- What is counted for a record, but for the rule itself. -/
def ExecutionRecord.metrics (record : ExecutionRecord) : List Metric :=
  (record.error.toList.map fun failure => .scriptFailed .predicate failure.kind) ++
    record.triggers.flatMap TriggerOutcome.metrics ++ record.actions.flatMap ActionOutcome.metrics

/-- Whether a script was run to tell if its rule matches. -/
def ScriptRun.isPredicate (run : ScriptRun World) : Bool :=
  run.context.invocation.trigger.isNone

def predicateRuns (seen : List (Observation World)) : List (ScriptRun World) :=
  (scriptRuns seen).filter (·.isPredicate)

/-- The rules whose own script was seen to run. -/
def judgedRules (seen : List (Observation World)) : List (Option Uuid) :=
  (predicateRuns seen).map (·.context.invocation.rule)

/-- The records of rules that were judged, and not skipped. -/
def judgedIn (seen : List (Observation World)) (records : List ExecutionRecord) :
    List ExecutionRecord :=
  records.filter fun record => some record.rule ∈ judgedRules seen

/-! Counting along an evaluation -/

/-- What a part of an evaluation counts goes with its value. -/
def Counts (part : Evaluation World α) (spec : α → List Metric → Prop) : Prop :=
  ∀ progress, ∃ counted, (part progress).2.metrics = counted.reverse ++ progress.metrics ∧
    spec (part progress).1 counted

/-- A part of an evaluation that counts nothing. -/
def CountsNothing (part : Evaluation World α) : Prop :=
  Counts part fun _ counted => counted = []

namespace Counts

theorem pure {value : α} {spec : α → List Metric → Prop} (holds : spec value []) :
    Counts (Pure.pure value : Evaluation World α) spec :=
  fun _ => ⟨[], rfl, holds⟩

theorem value (value : α) :
    Counts (Pure.pure value : Evaluation World α) fun result counted =>
      result = value ∧ counted = [] :=
  pure ⟨rfl, rfl⟩

theorem nothing (value : α) : CountsNothing (Pure.pure value : Evaluation World α) :=
  pure rfl

theorem bind {part : Evaluation World α} {rest : α → Evaluation World β}
    {firstSpec : α → List Metric → Prop} {spec : β → List Metric → Prop}
    (first : Counts part firstSpec)
    (next : ∀ value earlier, firstSpec value earlier →
      Counts (rest value) fun result later => spec result (earlier ++ later)) :
    Counts (part >>= rest) spec := by
  intro progress
  obtain ⟨earlier, sameFirst, holdsFirst⟩ := first progress
  obtain ⟨later, sameRest, holdsRest⟩ :=
    next (part progress).1 earlier holdsFirst (part progress).2
  refine ⟨earlier ++ later, ?_, holdsRest⟩
  change (rest (part progress).1 (part progress).2).2.metrics = _
  rw [sameRest, sameFirst, List.reverse_append, List.append_assoc]

/-- What comes behind a part that counts nothing, counts the same with it. -/
theorem behind {part : Evaluation World α} {rest : α → Evaluation World β}
    {spec : β → List Metric → Prop} (first : CountsNothing part)
    (next : ∀ value, Counts (rest value) spec) : Counts (part >>= rest) spec :=
  first.bind fun value earlier none => by
    subst none
    exact next value

theorem withWorld (action : World → α × World) : CountsNothing (Evaluation.withWorld action) :=
  fun _ => ⟨[], rfl, rfl⟩

theorem count (metric : Metric) :
    Counts (Evaluation.count metric : Evaluation World Unit) fun _ counted => counted = [metric] :=
  fun _ => ⟨[metric], rfl, rfl⟩

end Counts

theorem perm_of_counts {left right : List Metric}
    (same : ∀ metric, left.count metric = right.count metric) : left.Perm right :=
  List.perm_iff_count.mpr same

namespace Evaluator

variable (evaluator : Evaluator World) (deadline : Nat)

theorem clock_counts : CountsNothing evaluator.clock :=
  .withWorld _

theorem isPast_counts : CountsNothing (evaluator.isPast deadline) :=
  Counts.behind (clock_counts evaluator) fun _ => .nothing _

theorem isCutOff_counts (fault : Script.Fault) :
    CountsNothing (evaluator.isCutOff fault deadline) := by
  rw [isCutOff]
  split
  · exact isPast_counts evaluator deadline
  · exact .nothing _

theorem runScript_counts (script : String) (context : ScriptContext) :
    CountsNothing (evaluator.runScript script context deadline) :=
  Counts.behind (clock_counts evaluator) fun _ => .withWorld _

theorem ask_counts (stage : ScriptStage) (script : String) (context : ScriptContext) :
    Counts (evaluator.ask stage script context deadline) fun verdict counted =>
      counted = verdict.fault.toList.map fun fault => .scriptFailed stage fault.kind := by
  refine Counts.behind (runScript_counts evaluator deadline script context) fun result => ?_
  cases result.bind fun output => answerOf output.value with
  | ok answer => exact .pure rfl
  | error fault =>
      refine (Counts.count _).bind fun _ _ once => ?_
      refine Counts.behind (isCutOff_counts evaluator deadline fault) fun cut => .pure ?_
      rw [once]
      rfl

theorem judgeTrigger_counts (context : ScriptContext) (trigger : Trigger) :
    Counts (evaluator.judgeTrigger context deadline trigger) fun verdict counted =>
      counted = verdict.fault.toList.map fun fault => .scriptFailed .trigger fault.kind := by
  rw [judgeTrigger]
  split
  · exact .pure rfl
  · exact ask_counts evaluator deadline .trigger _ context
  · exact .pure rfl

theorem runAction_counts (trigger : Uuid) (context : ScriptContext) (action : Action) :
    Counts (evaluator.runAction trigger context deadline action) fun value counted =>
      counted = value.1.metrics := by
  refine Counts.behind (clock_counts evaluator) fun start => ?_
  refine Counts.behind (runScript_counts evaluator deadline _ _) fun result => ?_
  refine Counts.behind (clock_counts evaluator) fun stop => ?_
  cases result with
  | ok output =>
      refine (Counts.count _).bind fun _ _ once => .pure ?_
      rw [once]
      rfl
  | error fault =>
      refine (Counts.count _).bind fun _ _ failed => (Counts.count _).bind fun _ _ ran => ?_
      refine .pure ?_
      rw [failed, ran]
      rfl

theorem skipActions_metrics (trigger : Uuid) (actions : List Action) :
    (skipActions trigger actions).flatMap ActionOutcome.metrics = [] := by
  refine List.flatMap_eq_nil_iff.mpr fun outcome held => ?_
  obtain ⟨action, _, rfl⟩ := List.mem_map.mp held
  rfl

theorem runActions_counts (trigger : Uuid) (context : ScriptContext) (actions : List Action) :
    Counts (evaluator.runActions trigger context deadline actions) fun batch counted =>
      counted = batch.outcomes.flatMap ActionOutcome.metrics := by
  induction actions with
  | nil => exact .pure rfl
  | cons action rest ih =>
      refine Counts.behind (isPast_counts evaluator deadline) fun past => ?_
      split
      · refine .pure ?_
        rw [skipActions_metrics]
      · refine (runAction_counts evaluator deadline trigger context action).bind
          fun value counted own => ?_
        have alone : counted ++ [] =
            (value.1 :: skipActions trigger rest).flatMap ActionOutcome.metrics := by
          rw [List.flatMap_cons, skipActions_metrics, own]
        have others : Counts (do
            let batch ← evaluator.runActions trigger context deadline rest
            return (⟨value.1 :: batch.outcomes, batch.deadlineReached⟩ : ActionBatch))
            fun batch later =>
              counted ++ later = batch.outcomes.flatMap ActionOutcome.metrics := by
          refine ih.bind fun batch later counted => .pure ?_
          rw [List.append_nil, List.flatMap_cons, own, counted]
        obtain ⟨outcome, _ | fault⟩ := value
        · exact others
        · refine Counts.behind (isCutOff_counts evaluator deadline fault) fun cut => ?_
          split
          · exact .pure alone
          · split
            · exact .pure alone
            · exact others

theorem judgeTriggers_counts (graph : RuleGraph) (context : ScriptContext)
    (triggers : List Trigger) :
    Counts (evaluator.judgeTriggers graph context deadline triggers) fun batch counted =>
      counted.Perm (batch.outcomes.flatMap TriggerOutcome.metrics ++
        batch.actions.flatMap ActionOutcome.metrics) := by
  induction triggers with
  | nil => exact .pure .rfl
  | cons trigger rest ih =>
      refine Counts.behind (isPast_counts evaluator deadline) fun past => ?_
      split
      · exact .pure .rfl
      · let inner := context.withTrigger trigger.id
        refine (judgeTrigger_counts evaluator deadline inner trigger).bind
          fun verdict asked failed => ?_
        refine (Counts.count _).bind fun _ judged once => ?_
        have own : asked ++ judged = (outcomeOf trigger verdict).metrics := by
          rw [failed, once, outcomeOf, TriggerOutcome.metrics]
          cases verdict.fault <;> rfl
        have others (batch : ActionBatch) (ran : List Metric)
            (counted : ran = batch.outcomes.flatMap ActionOutcome.metrics) : Counts (do
              let others ← evaluator.judgeTriggers graph context deadline rest
              return (⟨outcomeOf trigger verdict :: others.outcomes,
                batch.outcomes ++ others.actions,
                verdict.interrupted || batch.deadlineReached || others.interrupted⟩ :
                TriggerBatch)) fun batch later =>
            (asked ++ (judged ++ (ran ++ later))).Perm
              (batch.outcomes.flatMap TriggerOutcome.metrics ++
                batch.actions.flatMap ActionOutcome.metrics) := by
          refine ih.bind fun others later judging => .pure ?_
          rw [List.append_nil, ← List.append_assoc, own, counted]
          refine perm_of_counts fun metric => ?_
          have same := judging.count_eq metric
          simp only [List.count_append, List.flatMap_cons, List.flatMap_append] at same ⊢
          omega
        cases holds : verdict.holds with
        | true =>
            refine (runActions_counts evaluator deadline trigger.id inner _).bind
              fun batch ran counted => ?_
            simpa only [outcomeOf, holds] using others batch ran counted
        | false =>
            refine (Counts.value _).bind fun batch ran quiet => ?_
            obtain ⟨rfl, rfl⟩ := quiet
            simpa only [outcomeOf, holds] using others ⟨[], false⟩ [] rfl

theorem judgeRule_counts (graph : RuleGraph) (event : Event) (rule : Rule) :
    Counts (evaluator.judgeRule graph event deadline rule) fun value counted =>
      counted.Perm (.ruleEvaluated value.1.matched :: value.1.metrics) := by
  refine Counts.behind (clock_counts evaluator) fun start => ?_
  refine (ask_counts evaluator deadline .predicate rule.script _).bind
    fun verdict asked failed => ?_
  have failures : asked = (verdict.fault.map (·.toFailure)).toList.map fun failure =>
      .scriptFailed .predicate failure.kind := by
    rw [failed]
    cases verdict.fault <;> rfl
  have ending (batch : TriggerBatch) (judged : List Metric)
      (counted : judged.Perm (batch.outcomes.flatMap TriggerOutcome.metrics ++
        batch.actions.flatMap ActionOutcome.metrics)) : Counts (do
          let duration := milliseconds ((← evaluator.clock) - start)
          Evaluation.count (.ruleEvaluated verdict.holds)
          let id ← Evaluation.withWorld evaluator.platform.fresh
          let timestamp ← Evaluation.withWorld evaluator.platform.now
          let failure := verdict.fault.map (·.toFailure)
          return ((⟨id, event.id, rule.id, rule.name, verdict.holds, failure, batch.outcomes,
            batch.actions, duration, timestamp, .completed⟩ : ExecutionRecord),
            verdict.interrupted || batch.interrupted)) fun value later =>
        (asked ++ (judged ++ later)).Perm (.ruleEvaluated value.1.matched :: value.1.metrics) := by
    refine Counts.behind (clock_counts evaluator) fun stop => ?_
    refine (Counts.count _).bind fun _ last once => ?_
    refine Counts.behind (.withWorld _) fun id => ?_
    refine Counts.behind (.withWorld _) fun timestamp => .pure ?_
    rw [once]
    refine perm_of_counts fun metric => ?_
    have same := counted.count_eq metric
    simp only [List.count_append, List.count_cons, List.count_nil, ExecutionRecord.metrics,
      ← failures] at same ⊢
    omega
  cases holds : verdict.holds with
  | true =>
      refine (judgeTriggers_counts evaluator deadline graph _ _).bind fun batch judged counted => ?_
      simpa only [holds] using ending batch judged counted
  | false =>
      refine (Counts.value _).bind fun batch judged quiet => ?_
      obtain ⟨rfl, rfl⟩ := quiet
      simpa only [holds] using ending ⟨[], [], false⟩ [] .rfl

theorem skipRule_counts (event : Event) (rule : Rule) :
    Counts (evaluator.skipRule event rule) fun record counted =>
      counted = [] ∧ record.metrics = [] := by
  refine Counts.behind (.withWorld _) fun id => ?_
  exact Counts.behind (.withWorld _) fun timestamp => .pure ⟨rfl, rfl⟩

/-! Which rules are judged -/

variable {evaluator} {deadline} {graph : RuleGraph} {event : Event} {context : ScriptContext}
  {seen : List (Observation World)}

theorem predicateRuns_append (earlier later : List (Observation World)) :
    predicateRuns (earlier ++ later) = predicateRuns earlier ++ predicateRuns later := by
  rw [predicateRuns, scriptRuns_append, List.filter_append]
  rfl

theorem judgedRules_append (earlier later : List (Observation World)) :
    judgedRules (earlier ++ later) = judgedRules earlier ++ judgedRules later := by
  rw [judgedRules, predicateRuns_append, List.map_append]
  rfl

theorem predicateRuns_of_noRuns (none : scriptRuns seen = []) : predicateRuns seen = [] := by
  rw [predicateRuns, none]
  rfl

/-- A script that runs for a trigger is not the script of a rule. -/
theorem AskCourse.forTrigger {script : String} {verdict : Verdict}
    (course : AskCourse evaluator deadline script context verdict seen)
    (inner : context.invocation.trigger.isNone = false) : predicateRuns seen = [] := by
  obtain ⟨run, runs, ofScript, _⟩ := course.answers
  have other : run.isPredicate = false := by
    rw [ScriptRun.isPredicate, ofScript.context]
    exact inner
  simp [predicateRuns, runs, other]

theorem ActionCourse.forTrigger {trigger : Uuid} {action : Action} {outcome : ActionOutcome}
    {failure : Option Script.Fault}
    (course : ActionCourse evaluator deadline trigger context action outcome failure seen)
    (inner : context.invocation.trigger.isNone = false) : predicateRuns seen = [] := by
  obtain ⟨run, _, runs, ofScript, _⟩ := course.run
  have other : run.isPredicate = false := by
    rw [ScriptRun.isPredicate, ofScript.context]
    exact inner
  simp [predicateRuns, runs, other]

theorem ActionsCourse.forTrigger {trigger : Uuid} {actions : List Action} {batch : ActionBatch}
    (course : ActionsCourse evaluator deadline trigger context actions batch seen)
    (inner : context.invocation.trigger.isNone = false) : predicateRuns seen = [] := by
  induction course with
  | done => rfl
  | late checked => exact predicateRuns_of_noRuns checked.noRuns
  | succeeded checked ran _ ih =>
      simp [predicateRuns_append, predicateRuns_of_noRuns checked.noRuns, ran.forTrigger inner, ih]
  | cutOff checked ran cutOff =>
      simp [predicateRuns_append, predicateRuns_of_noRuns checked.noRuns, ran.forTrigger inner,
        predicateRuns_of_noRuns cutOff.noRuns]
  | aborted checked ran cutOff =>
      simp [predicateRuns_append, predicateRuns_of_noRuns checked.noRuns, ran.forTrigger inner,
        predicateRuns_of_noRuns cutOff.noRuns]
  | failed checked ran cutOff _ _ ih =>
      simp [predicateRuns_append, predicateRuns_of_noRuns checked.noRuns, ran.forTrigger inner,
        predicateRuns_of_noRuns cutOff.noRuns, ih]

theorem TriggersCourse.forTriggers {triggers : List Trigger} {batch : TriggerBatch}
    (course : TriggersCourse evaluator deadline graph context triggers batch seen) :
    predicateRuns seen = [] := by
  induction course with
  | done => rfl
  | late checked => exact predicateRuns_of_noRuns checked.noRuns
  | @judged trigger rest check asked ran later verdict batch others checked judged running _ ih =>
      have inner : (context.withTrigger trigger.id).invocation.trigger.isNone = false := rfl
      have verdictRuns : predicateRuns asked = [] := by
        cases judged with
        | unconditional => rfl
        | conditional _ _ answered => exact answered.forTrigger inner
        | unasked => rfl
      have actionRuns : predicateRuns ran = [] := by
        cases running with
        | fired _ running => exact running.forTrigger inner
        | quiet => rfl
      simp [predicateRuns_append, predicateRuns_of_noRuns checked.noRuns, verdictRuns, actionRuns,
        ih]

/-- The script of a rule runs once if the rule is judged in time, and not at all otherwise. -/
theorem RuleCourse.judgedRules_eq {rule : Rule} {record : ExecutionRecord} {interrupted : Bool}
    (course : RuleCourse evaluator deadline graph event rule record interrupted seen)
    {check later : List (Observation World)} {past : Bool}
    (checked : CheckCourse deadline past check) (split : seen = check ++ later) :
    judgedRules seen = if past then [] else [some rule.id] := by
  cases course with
  | @skipped early id timestamp late =>
      cases late with
      | @past reading reached =>
          cases checked with
          | inTime inTime =>
              injection split with head
              injection head with same
              omega
          | past => rfl
  | @judged early asked judged verdict batch start stop id timestamp inTime answered matching =>
      have noRuns := inTime.noRuns
      cases inTime with
      | @inTime reading before =>
          cases checked with
          | past reached =>
              injection split with head
              injection head with same
              omega
          | inTime =>
              obtain ⟨run, runs, ofScript, _⟩ := answered.answers
              have own : run.isPredicate = true := by
                rw [ScriptRun.isPredicate, ofScript.context]
                rfl
              have others : predicateRuns judged = [] := by
                cases matching with
                | matched _ judging => exact judging.forTriggers
                | unmatched => rfl
              have whole : predicateRuns ([Observation.clock reading] ++
                  .clock start :: asked ++ judged ++ [.clock stop, .fresh id, .now timestamp]) =
                  [run] := by
                rw [predicateRuns, scriptRuns_judged noRuns, List.filter_append, runs]
                change _ ++ predicateRuns judged = _
                simp [own, others]
              rw [judgedRules, whole, List.map_singleton, ofScript.context]
              rfl

end Evaluator

/-! What is seen and what is counted -/

/-- Watched and unwatched, a part of an evaluation does the same, and its value goes with what is
seen and counted on the way. -/
def Accounts (watched : Evaluation (Observed World) α) (plain : Evaluation World α)
    (spec : α → List (Observation World) → List Metric → Prop) : Prop :=
  ∀ progress seen, ∃ more counted,
    watched (progress.observed seen) =
        ((plain progress).1, (plain progress).2.observed (seen ++ more)) ∧
      (plain progress).2.metrics = counted.reverse ++ progress.metrics ∧
      spec (plain progress).1 more counted

namespace Accounts

theorem both {watched : Evaluation (Observed World) α} {plain : Evaluation World α}
    {seeing : α → List (Observation World) → Prop} {counting : α → List Metric → Prop}
    (observes : Observes watched plain seeing) (counts : Counts plain counting) :
    Accounts watched plain fun value seen counted =>
      seeing value seen ∧ counting value counted := by
  intro progress seen
  obtain ⟨more, same, holds⟩ := observes progress seen
  obtain ⟨counted, metrics, alsoHolds⟩ := counts progress
  exact ⟨more, counted, same, metrics, holds, alsoHolds⟩

theorem pure {value : α} {spec : α → List (Observation World) → List Metric → Prop}
    (holds : spec value [] []) :
    Accounts (Pure.pure value) (Pure.pure value : Evaluation World α) spec := by
  intro progress seen
  refine ⟨[], [], ?_, rfl, holds⟩
  rw [List.append_nil]
  rfl

theorem bind {watched : Evaluation (Observed World) α} {plain : Evaluation World α}
    {watchedRest : α → Evaluation (Observed World) β} {plainRest : α → Evaluation World β}
    {firstSpec : α → List (Observation World) → List Metric → Prop}
    {spec : β → List (Observation World) → List Metric → Prop}
    (first : Accounts watched plain firstSpec)
    (rest : ∀ value earlier counted, firstSpec value earlier counted →
      Accounts (watchedRest value) (plainRest value) fun result later further =>
        spec result (earlier ++ later) (counted ++ further)) :
    Accounts (watched >>= watchedRest) (plain >>= plainRest) spec := by
  intro progress seen
  obtain ⟨earlier, counted, sameFirst, metrics, holdsFirst⟩ := first progress seen
  obtain ⟨later, further, sameRest, furtherMetrics, holdsRest⟩ :=
    rest (plain progress).1 earlier counted holdsFirst (plain progress).2 (seen ++ earlier)
  refine ⟨earlier ++ later, counted ++ further, ?_, ?_, holdsRest⟩
  · change watchedRest (watched (progress.observed seen)).1 (watched (progress.observed seen)).2 = _
    rw [sameFirst, sameRest, List.append_assoc]
    rfl
  · change (plainRest (plain progress).1 (plain progress).2).2.metrics = _
    rw [furtherMetrics, metrics, List.reverse_append, List.append_assoc]

end Accounts

/-- The records of rules in a row, and what was seen and counted while they were made. -/
structure AreCounted (rules : List Rule) (records : List ExecutionRecord)
    (seen : List (Observation World)) (counted : List Metric) : Prop where
  ofRules : records.map (·.rule) = rules.map (·.id)
  judged : ∀ rule ∈ judgedRules seen, ∃ id ∈ rules.map (·.id), rule = some id
  counted : counted.Perm
    ((judgedIn seen records).map (fun record => .ruleEvaluated record.matched) ++
      records.flatMap ExecutionRecord.metrics)

/-- Which records are of judged rules, when one more rule comes before others that it is none of. -/
theorem judgedIn_cons {rule : Uuid} {record : ExecutionRecord} {records : List ExecutionRecord}
    {early later : List (Observation World)} {past : Bool} (own : record.rule = rule)
    (judged : judgedRules early = if past then [] else [some rule])
    (notLater : some rule ∉ judgedRules later)
    (foreign : ∀ other ∈ records, other.rule ≠ rule) :
    judgedIn (early ++ later) (record :: records) =
      (if past then [] else [record]) ++ judgedIn later records := by
  have notEarly (other : ExecutionRecord) (held : other ∈ records) :
      some other.rule ∉ judgedRules early := by
    intro member
    rw [judged] at member
    cases past with
    | true => cases member
    | false => exact foreign other held (Option.some.inj (List.mem_singleton.mp member))
  have mine : judgedIn (early ++ later) [record] = if past then [] else [record] := by
    rw [judgedIn, Evaluator.judgedRules_append, judged]
    cases past <;> simp [own, notLater]
  have theirs : judgedIn (early ++ later) records = judgedIn later records := by
    refine List.filter_congr fun other held => ?_
    simp [Evaluator.judgedRules_append, notEarly other held]
  rw [← mine, ← theirs, judgedIn, judgedIn, judgedIn, ← List.filter_append]
  rfl

theorem AreCounted.cons {rule : Rule} {rest : List Rule} {record : ExecutionRecord}
    {records : List ExecutionRecord} {early later : List (Observation World)}
    {counted further : List Metric} {past : Bool} (own : record.rule = rule.id)
    (judged : judgedRules early = if past then [] else [some rule.id])
    (once : counted.Perm
      ((if past then [] else [.ruleEvaluated record.matched]) ++ record.metrics))
    (distinct : ((rule :: rest).map (·.id)).Nodup)
    (others : AreCounted rest records later further) :
    AreCounted (rule :: rest) (record :: records) (early ++ later) (counted ++ further) := by
  have unlike : rule.id ∉ rest.map (·.id) := (List.nodup_cons.mp distinct).1
  have notLater : some rule.id ∉ judgedRules later := by
    intro held
    obtain ⟨id, member, same⟩ := others.judged _ held
    exact unlike (Option.some.inj same ▸ member)
  have foreign (other : ExecutionRecord) (held : other ∈ records) : other.rule ≠ rule.id := by
    intro same
    have listed : other.rule ∈ rest.map (·.id) := by
      rw [← others.ofRules]
      exact List.mem_map_of_mem held
    exact unlike (same ▸ listed)
  refine ⟨?_, ?_, ?_⟩
  · rw [List.map_cons, List.map_cons, own, others.ofRules]
  · intro other held
    rw [Evaluator.judgedRules_append] at held
    rcases List.mem_append.mp held with first | second
    · rw [judged] at first
      cases past with
      | true => cases first
      | false => exact ⟨rule.id, List.mem_cons_self, List.mem_singleton.mp first⟩
    · obtain ⟨id, member, same⟩ := others.judged other second
      exact ⟨id, List.mem_cons_of_mem _ member, same⟩
  · rw [judgedIn_cons own judged notLater foreign, List.map_append, List.flatMap_cons]
    refine perm_of_counts fun metric => ?_
    have first := once.count_eq metric
    have second := others.counted.count_eq metric
    cases past <;> simp only [List.count_append, List.map_cons, List.map_nil, Bool.false_eq_true,
      if_true, if_false] at first second ⊢ <;> omega

namespace Evaluator

variable (evaluator : Evaluator World) (deadline : Nat)

theorem judgeRules_accounts (graph : RuleGraph) (event : Event) (rules : List Rule)
    (distinct : (rules.map (·.id)).Nodup) :
    Accounts (evaluator.observed.judgeRules graph event deadline rules)
      (evaluator.judgeRules graph event deadline rules) fun value seen counted =>
        AreCounted rules value.1 seen counted ∧ (value.1 = [] → value.2 = false) := by
  induction rules with
  | nil =>
      have nothing : AreCounted [] [] ([] : List (Observation World)) [] :=
        ⟨rfl, fun _ held => (nomatch held), .rfl⟩
      exact .pure ⟨nothing, fun _ => rfl⟩
  | cons rule rest ih =>
      have others := ih (List.nodup_cons.mp distinct).2
      refine (Accounts.both (isPast_observes evaluator deadline)
        (isPast_counts evaluator deadline)).bind fun past check none checking => ?_
      obtain ⟨checked, rfl⟩ := checking
      cases past with
      | true =>
          refine (Accounts.both (skipRule_observes evaluator deadline graph event rule checked)
            (skipRule_counts evaluator event rule)).bind fun record seen counted skipping => ?_
          obtain ⟨judged, rfl, quiet⟩ := skipping
          refine (Accounts.both (Observes.value _) (Counts.nothing _)).bind
            fun _ _ _ late => ?_
          obtain ⟨⟨rfl, rfl⟩, rfl⟩ := late
          refine others.bind fun value later further counted => .pure ⟨?_, nofun⟩
          have own := judged.judgedRules_eq checked rfl
          have once : [].Perm ((if true then [] else [.ruleEvaluated record.matched]) ++
              record.metrics) := by
            rw [quiet]
            exact .rfl
          simpa using counted.1.cons judged.rule_eq own once distinct
      | false =>
          refine (Accounts.both (judgeRule_observes evaluator deadline graph event rule checked)
            (judgeRule_counts evaluator deadline graph event rule)).bind
            fun value seen ownCount judging => ?_
          obtain ⟨judged, once⟩ := judging
          refine others.bind fun value later further counted => .pure ⟨?_, nofun⟩
          have own := judged.judgedRules_eq checked rfl
          simpa using counted.1.cons judged.rule_eq own once distinct

end Evaluator

/-! Whole passes -/

/-- What came of an event, and what was seen meanwhile. -/
structure Pass (World : Type) where
  records : List ExecutionRecord
  seen : List (Observation World)

namespace Pass

/-- The records of rules that were judged in a pass, and not skipped. -/
def judged (pass : Pass World) : List ExecutionRecord :=
  judgedIn pass.seen pass.records

/-- All records of a pass say how it ended; one without any records is complete. -/
def status (pass : Pass World) : EvaluationStatus :=
  (pass.records.head?.map (·.status)).getD .completed

def metrics (pass : Pass World) : List Metric :=
  pass.judged.map (fun record => .ruleEvaluated record.matched) ++
    pass.records.flatMap ExecutionRecord.metrics ++ [.eventEvaluated pass.status]

end Pass

theorem AreCounted.pass {rules : List Rule} {records : List ExecutionRecord} {interrupted : Bool}
    {seen : List (Observation World)} {counted : List Metric} (start : Nat)
    (judging : AreCounted rules records seen counted) (uncut : records = [] → interrupted = false) :
    let status := Evaluator.passStatus interrupted
    let marked := records.map fun record => { record with status := status }
    (counted ++ [Metric.eventEvaluated status]).Perm
      (Pass.metrics ⟨marked, .clock start :: seen⟩) := by
  intro status _
  let mark (record : ExecutionRecord) : ExecutionRecord := { record with status := status }
  let pass : Pass World := ⟨records.map mark, .clock start :: seen⟩
  have judged : pass.judged = (judgedIn seen records).map mark := List.filter_map
  have ended : pass.status = status := by
    cases records with
    | nil =>
        have complete : interrupted = false := uncut rfl
        simp [pass, Pass.status, status, complete, Evaluator.passStatus]
    | cons first rest => rfl
  have evaluated : (pass.judged.map fun record => Metric.ruleEvaluated record.matched) =
      (judgedIn seen records).map fun record => .ruleEvaluated record.matched := by
    rw [judged, List.map_map]
    rfl
  have outcomes : pass.records.flatMap ExecutionRecord.metrics =
      records.flatMap ExecutionRecord.metrics :=
    List.flatMap_map mark _ _
  change (counted ++ _).Perm pass.metrics
  rw [Pass.metrics, evaluated, outcomes, ended]
  exact judging.counted.append_right _

theorem RuleGraph.rulesInOrder_nodup {graph : RuleGraph} (keyed : graph.rules.KeyedBy Rule.id)
    (enabledOnly : Bool) : ((graph.rulesInOrder enabledOnly).map (·.id)).Nodup := by
  have all : (graph.rules.values.map (·.id)).Nodup := by
    rw [keyed.map_values]
    exact keyed.nodup
  rw [rulesInOrder, ((List.mergeSort_perm _ _).map _).nodup_iff]
  exact all.sublist (List.filter_sublist.map _)

theorem Evaluator.evaluate_accounts (evaluator : Evaluator World) {graph : RuleGraph}
    (event : Event) (keyed : graph.rules.KeyedBy Rule.id) :
    Accounts (evaluator.observed.evaluate graph event) (evaluator.evaluate graph event)
      fun records seen counted => counted.Perm (Pass.metrics ⟨records, seen⟩) := by
  have distinct := RuleGraph.rulesInOrder_nodup keyed true
  refine (Accounts.both (clock_observes evaluator) (clock_counts evaluator)).bind
    fun start early _ read => ?_
  obtain ⟨rfl, rfl⟩ := read
  refine (judgeRules_accounts evaluator _ graph event _ distinct).bind
    fun value seen counted judging => ?_
  obtain ⟨judging, uncut⟩ := judging
  refine (Accounts.both (Observes.count _) (Counts.count _)).bind fun _ _ once counting => .pure ?_
  obtain ⟨rfl, rfl⟩ := counting
  simpa [passStatus] using judging.pass start uncut

end Rulebook
