import Rulebook.Proofs.Evaluation.Acting
import Rulebook.Proofs.Sandbox.Separation

/-!
What an evaluation in a sandbox leaves alone. Scripts that are only asked change nothing, send
nothing and log nothing. So whatever an evaluation does outside of its records, an action did that
was executed for a trigger that fired.
-/

namespace Rulebook

open Script (Fault Host Limits Program Value)

namespace HostFunctions

/-- The request that goes over the network when a function is called, if one does. -/
def request? (limits : Limits) (http : Option HttpAccess) (name : String)
    (arguments : List Value) : Option Http.Request :=
  match http, order? name arguments with
  | some access, some (.ok order) =>
    if min limits.timeout access.timeout = 0 then none else order.request.toOption
  | _, _ => none

def sends (limits : Limits) (http : Option HttpAccess) (name : String)
    (arguments : List Value) : Bool :=
  (request? limits http name arguments).isSome

theorem send_of_silent {limits : Limits} {access : HttpAccess} {name : String}
    {arguments : List Value} {order : Except String Http.Order}
    (silent : sends limits (some access) name arguments = false)
    (ordered : order? name arguments = some order) (network : Http.Network) :
    send access limits order = send { access with network } limits order := by
  cases order with
  | error message => rfl
  | ok order =>
      simp only [sends, request?, ordered] at silent
      simp only [send, Except.bind, Http.send]
      by_cases noTime : min limits.timeout access.timeout = 0
      · simp [noTime]
      · rw [if_neg noTime] at silent
        cases formed : order.request with
        | error reason => simp [noTime]
        | ok request =>
            rw [formed] at silent
            cases silent

theorem readOnly_isClear (now : Instant) (limits : Limits) (http : Option HttpAccess) :
    (readOnly now).IsClear (sends limits http) := by
  intro name arguments known
  simp only [readOnly, ne_eq, Option.map_eq_none_iff] at known
  have noOrder : order? name arguments = none := by
    unfold clock? at known
    split at known
    · rfl
    · rfl
    · rfl
    · exact absurd rfl known
  simp only [sends, request?, noOrder, Option.isSome_none]

theorem effect?_missing {invocation : Invocation} {limits : Limits} {access other : HttpAccess}
    {name : String} {arguments : List Value} :
    effect? invocation limits (some access) name arguments = none ↔
      effect? invocation limits (some other) name arguments = none := by
  unfold effect?
  split
  · simp
  · simp
  · simp
  · simp
  · cases order? name arguments <;> simp

theorem effect?_offline {invocation : Invocation} {limits : Limits} {access : HttpAccess}
    {network : Http.Network} {name : String} {arguments : List Value}
    {call other : Effects → Except Script.Problem Value × Effects}
    (silent : sends limits (some access) name arguments = false)
    (here : effect? invocation limits (some access) name arguments = some call)
    (there : effect? invocation limits (some { access with network }) name arguments = some other) :
    call = other := by
  cases ordered : order? name arguments with
  | none =>
      simp only [effect?, ordered] at here there
      rw [here] at there
      exact Option.some.inj there
  | some order =>
      have online := send_of_silent silent ordered network
      unfold order? at ordered
      split at ordered
      case h_5 => cases ordered
      all_goals
        cases ordered
        cases here
        cases there
        rw [online]

theorem withEffects_offline (now : Instant) (invocation : Invocation) (limits : Limits)
    (access : HttpAccess) (network : Http.Network) :
    (withEffects now invocation limits (some access)).Agree (sends limits (some access)) Eq
      (withEffects now invocation limits (some { access with network })) where
  print text left right same := by rw [same]; rfl
  debug text left right same := by rw [same]; rfl
  missing name arguments := by
    simp only [withEffects]
    cases clock? now name arguments with
    | some value => simp
    | none => exact effect?_missing
  function name arguments call other silent here there left right same := by
    subst same
    simp only [withEffects] at here there
    cases told : clock? now name arguments with
    | some value =>
        simp only [told, Option.some.injEq] at here there
        subst here there
        exact ⟨rfl, rfl⟩
    | none =>
        simp only [told] at here there
        cases effect?_offline silent here there
        exact ⟨rfl, rfl⟩

end HostFunctions

namespace Sandbox

variable (now : Instant) (script : String) (context : ScriptContext) (limits : Limits)
  (sandbox : Sandbox)

def programSends (program : Program) : Bool :=
  let sends := HostFunctions.sends limits sandbox.settings.http
  match context.capability with
  | .readOnly =>
    program.calls sends limits (HostFunctions.readOnly now) (constantsOf context) sandbox.trace
  | .effects =>
    program.calls sends limits
      (HostFunctions.withEffects now context.invocation limits sandbox.settings.http)
      (constantsOf context) ⟨[], sandbox.trace, sandbox.data.shelf context.invocation.scope⟩

/-- Whether a request goes over the network when a script runs. -/
def sends : Bool :=
  match (sandbox.compile script).1 with
  | .ok program => sandbox.programSends now context limits program
  | .error _ => false

variable {now script context limits sandbox}

/-- A script that may only read leaves all data as it is, sends nothing and logs nothing. -/
theorem run_readOnly (capability : context.capability = .readOnly) :
    (sandbox.run now script context limits).2.data = sandbox.data ∧
      sandbox.sends now script context limits = false ∧
      logsOf (sandbox.run now script context limits).1 = [] := by
  have kept := compile_keeps sandbox script
  rw [run_eq, sends]
  cases (sandbox.compile script).1 with
  | error fault =>
      refine ⟨?_, rfl, rfl⟩
      change (sandbox.compile script).2.data = sandbox.data
      rw [kept]
  | ok program =>
      simp only [runProgram, programSends, capability]
      refine ⟨?_, ?_, ?_⟩
      · change (sandbox.compile script).2.data = sandbox.data
        rw [kept]
      · exact program.calls_eq_false limits (HostFunctions.readOnly_isClear now limits _) _ _
      · simp only [runReadOnly]
        cases resultOf limits _ <;> rfl

/-- The same sandbox, in which scripts reach another network. -/
def withAccess (access : HttpAccess) (sandbox : Sandbox) : Sandbox :=
  { sandbox with settings := { sandbox.settings with http := some access } }

theorem compile_withAccess (access : HttpAccess) (script : String) (sandbox : Sandbox) :
    (sandbox.withAccess access).compile script =
      ((sandbox.compile script).1, (sandbox.compile script).2.withAccess access) := by
  have kept : (sandbox.withAccess access).kept? script = sandbox.kept? script := rfl
  have anew : compileAnew (sandbox.withAccess access).settings script =
      compileAnew sandbox.settings script := rfl
  unfold compile
  rw [kept, anew]
  cases sandbox.kept? script with
  | some program => rfl
  | none => cases compileAnew sandbox.settings script <;> rfl

/-- Where no request goes out, it does not matter which network there is. -/
theorem run_offline {access : HttpAccess} (network : Http.Network)
    (online : sandbox.settings.http = some access)
    (silent : sandbox.sends now script context limits = false) :
    (sandbox.withAccess { access with network }).run now script context limits =
      ((sandbox.run now script context limits).1,
        (sandbox.run now script context limits).2.withAccess { access with network }) := by
  have kept := compile_keeps sandbox script
  rw [run_eq, run_eq, compile_withAccess]
  unfold sends at silent
  cases compiled : (sandbox.compile script).1 with
  | error fault => rfl
  | ok program =>
      simp only [compiled] at silent ⊢
      unfold programSends at silent
      unfold runProgram
      cases capability : context.capability with
      | readOnly => rfl
      | effects =>
          simp only [capability, online] at silent
          obtain ⟨results, times, effects⟩ := Program.run_agree_same
            (HostFunctions.withEffects_offline now context.invocation limits access network) program
            (constantsOf context) rfl silent
          rw [kept]
          simp only [runWithEffects, withAccess, online, results, times, effects]

end Sandbox

/-! What an evaluation does -/

def ScriptRun.sends (run : ScriptRun SandboxWorld) : Bool :=
  run.world.sandbox.sends run.world.timeOfDay run.script run.context run.limits

/-- The run comes to the same, and leaves the same behind, whatever is said to requests. -/
def ScriptRun.IsOffline (run : ScriptRun SandboxWorld) : Prop :=
  ∀ (access : HttpAccess) (network : Http.Network),
    run.world.sandbox.settings.http = some access →
    (run.world.sandbox.withAccess { access with network }).run run.world.timeOfDay run.script
        run.context run.limits =
      (run.result,
        (run.after SandboxWorld.platform).sandbox.withAccess { access with network })

theorem ScriptRun.offline {run : ScriptRun SandboxWorld}
    (answered : run.result =
      (SandboxWorld.platform.run run.script run.context run.limits run.world).1)
    (silent : run.sends = false) : run.IsOffline := by
  intro access network online
  rw [Sandbox.run_offline network online silent, answered]
  rfl

structure ScriptRun.IsHarmless (run : ScriptRun SandboxWorld) : Prop where
  data : (run.after SandboxWorld.platform).sandbox.data = run.world.sandbox.data
  silent : run.sends = false
  quiet : logsOf run.result = []

section Acted

variable {records : List ExecutionRecord} {runs : List (ScriptRun SandboxWorld)}
  {run : ScriptRun SandboxWorld}
  (acted : Acted runs (records.flatMap ExecutionRecord.deeds))
  (answered : ∀ run ∈ runs, run.result =
    (SandboxWorld.platform.run run.script run.context run.limits run.world).1)

include acted answered

theorem Acted.harmless (held : run ∈ runs) (asks : run.acts = false) : run.IsHarmless := by
  obtain ⟨data, silent, quiet⟩ := Sandbox.run_readOnly (acted.asked run held asks)
  exact ⟨data, silent, by rw [answered run held]; exact quiet⟩

/-- Scripts change data on behalf of triggers that fired, if at all. -/
theorem Acted.fired_of_changed
    (backed : ∀ record ∈ records, ∀ outcome ∈ record.actions, outcome.IsBacked record.triggers)
    (held : run ∈ runs) {scope : DataScope}
    (changed : (run.after SandboxWorld.platform).sandbox.data.shelf scope ≠
      run.world.sandbox.data.shelf scope) : ∃ record ∈ records, ∃ trigger ∈ record.triggers,
      trigger.fired = true ∧ scope = ⟨some record.rule, some trigger.trigger⟩ := by
  cases acts : run.acts with
  | false => exact absurd (by rw [(acted.harmless answered held acts).data]) changed
  | true =>
      obtain ⟨record, listed, outcome, own, _, did⟩ := acted.outcome_of_acts held acts
      obtain ⟨trigger, among, same, fired⟩ := (backed record listed outcome own).fired
      refine ⟨record, listed, trigger, among, fired, ?_⟩
      by_contra foreign
      refine changed (Sandbox.run_shelf run.world.timeOfDay run.limits fun own => foreign ?_)
      rw [← own, Invocation.scope, did.invocation, same]

end Acted

/-- What an evaluation may do to data, to the network and to logs, told by its records. -/
structure OnlyFiredAct (before after : DataStore) (records : List ExecutionRecord)
    (runs : List (ScriptRun SandboxWorld)) : Prop where
  data : ∀ scope, after.shelf scope ≠ before.shelf scope → ∃ record ∈ records,
    ∃ trigger ∈ record.triggers, trigger.fired = true ∧
      scope = ⟨some record.rule, some trigger.trigger⟩
  still : (∀ record ∈ records, ∀ trigger ∈ record.triggers, trigger.fired = false) →
    after = before
  effects : ∀ run ∈ runs, run.sends = true ∨ logsOf run.result ≠ [] → ∃ record ∈ records,
    ∃ outcome ∈ record.actions, outcome.executed = true ∧ run.Did ⟨record.rule, outcome⟩
  /-- That a run sends nothing means that the network has no part in it. -/
  offline : ∀ run ∈ runs, run.sends = false → run.IsOffline
  /-- The runs of actions are those of the outcomes that say executed, one for one. -/
  acted : List.Forall₂ ScriptRun.Did (runs.filter (·.acts))
    ((records.flatMap ExecutionRecord.deeds).filter (·.outcome.executed))
  asked : ∀ run ∈ runs, run.acts = false → run.IsHarmless
  backed : ∀ record ∈ records, ∀ outcome ∈ record.actions, outcome.IsBacked record.triggers

/-- Of all that scripts do in an evaluation, only actions that were executed for a trigger that
fired change data, send requests or log anything, and data only in the scope of that trigger. What
sends no requests comes to the same with any network. -/
theorem only_fired_triggers_act (limits : Limits) (policy : FailurePolicy) (allowance : Nat)
    (graph : RuleGraph) (event : Event) (progress : Progress SandboxWorld) :
    let evaluator := SandboxWorld.evaluator limits policy allowance
    let ended := evaluator.evaluate graph event progress
    OnlyFiredAct progress.world.sandbox.data ended.2.world.sandbox.data ended.1
      (scriptRuns (evaluator.observations graph event progress)) := by
  intro evaluator ended
  have course : Evaluator.PassCourse evaluator graph event ended.1 _ :=
    evaluator.observations_course graph event progress
  have acted := course.acted
  have backed := course.backed
  have results := evaluator.evaluate_worlds graph event progress
    (⟨fun _ _ _ _ _ _ => trivial, fun _ _ => trivial, fun _ _ => trivial, fun _ _ => trivial⟩ :
      evaluator.platform.Keeps (fun _ => True) fun _ => True) trivial
  have thread {View : Type} (view : DataStore → View) :=
    evaluator.evaluate_threaded graph event progress
      (⟨fun _ => rfl, fun _ => rfl, fun _ => rfl⟩ :
        evaluator.platform.OnlyScripts fun world => view world.sandbox.data)
  generalize scriptRuns (evaluator.observations graph event progress) = runs at *
  have answered : ∀ run ∈ runs, run.result =
      (SandboxWorld.platform.run run.script run.context run.limits run.world).1 :=
    fun run held => (results run held).2
  refine ⟨?_, ?_, ?_, fun run held => ScriptRun.offline (answered run held), acted.did,
    fun run held asks => acted.harmless answered held asks, backed⟩
  · intro scope changed
    by_contra none
    refine changed (Threaded.eq_of_still (fun run held => ?_) (thread (·.shelf scope)))
    by_contra other
    exact none (acted.fired_of_changed answered backed held other)
  · intro noneFired
    refine Threaded.eq_of_still (fun run held => ?_) (thread id)
    cases acts : run.acts with
    | false => exact (acted.harmless answered held acts).data
    | true =>
        obtain ⟨record, listed, outcome, own, _, _⟩ := acted.outcome_of_acts held acts
        obtain ⟨trigger, among, _, fired⟩ := (backed record listed outcome own).fired
        rw [noneFired record listed trigger among] at fired
        cases fired
  · intro run held effect
    cases acts : run.acts with
    | false =>
        have harmless := acted.harmless answered held acts
        rw [harmless.silent, harmless.quiet] at effect
        simp at effect
    | true => exact acted.outcome_of_acts held acts

end Rulebook
