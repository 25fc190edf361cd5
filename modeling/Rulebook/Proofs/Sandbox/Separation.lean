import Rulebook.Proofs.Evaluation.Isolation
import Rulebook.Proofs.Sandbox.Confinement
import Rulebook.Sandbox.World

/-!
In a sandbox rules do not get in the way of one another: of all that scripts leave behind, a rule
sees nothing but the data of its own scopes.
-/

namespace Rulebook

open Script (Limits)

/-- A sandbox with certain settings, after it was used in any way, whatever data it began with. -/
inductive Sandbox.Reached (settings : SandboxSettings) : Sandbox → Prop where
  | start (data : DataStore) : Reached settings { settings, data }
  | check {sandbox : Sandbox} (script : String) :
      Reached settings sandbox → Reached settings (sandbox.check script).2
  | run {sandbox : Sandbox} (now : Instant) (script : String) (context : ScriptContext)
      (limits : Limits) :
      Reached settings sandbox → Reached settings (sandbox.run now script context limits).2
  | takeTrace {sandbox : Sandbox} : Reached settings sandbox → Reached settings sandbox.takeTrace.2

structure Sandbox.Has (settings : SandboxSettings) (sandbox : Sandbox) : Prop where
  settings : sandbox.settings = settings
  sound : sandbox.IsSound

theorem Sandbox.Reached.has {settings : SandboxSettings} {sandbox : Sandbox}
    (reached : sandbox.Reached settings) : sandbox.Has settings := by
  induction reached with
  | start data => exact ⟨rfl, fun _ held => nomatch held⟩
  | @check sandbox script _ ih =>
      refine ⟨?_, ih.sound.compile script⟩
      change (sandbox.compile script).2.settings = settings
      rw [compile_keeps]
      exact ih.settings
  | run now script context limits _ ih =>
      exact ⟨(run_settings now limits).trans ih.settings, ih.sound.run now script context limits⟩
  | takeTrace _ ih => exact ⟨ih.settings, ih.sound⟩

namespace SandboxWorld

/-- The data of a rule: what is stored for each of its triggers, and for the rule without one. -/
def dataOf (rule : Uuid) (world : SandboxWorld) (trigger : Option Uuid) : Shelf :=
  world.sandbox.data.shelf ⟨some rule, trigger⟩

def evaluator (limits : Limits) (policy : FailurePolicy) (allowance : Nat) :
    Evaluator SandboxWorld :=
  ⟨platform, limits, policy, allowance⟩

end SandboxWorld

def ScriptRun.timedOut (run : ScriptRun SandboxWorld) : Bool :=
  match run.result with
  | .ok _ => false
  | .error fault => fault.isTimeout

theorem ScriptRun.ne_timeout {run : ScriptRun SandboxWorld} (inTime : run.timedOut = false)
    (time : Nat) : run.result ≠ .error (.timeout time) := by
  intro late
  rw [timedOut, late] at inTime
  cases inTime

/-- Whether a script told the time or reached for the network when it ran. -/
def ScriptRun.reachesOut (run : ScriptRun SandboxWorld) : Bool :=
  run.world.sandbox.reachesOut run.world.timeOfDay run.script run.context run.limits

/-- A run in a sandbox that had time enough, and made use of nothing outside. -/
structure ScriptRun.IsSteady (settings : SandboxSettings) (run : ScriptRun SandboxWorld) :
    Prop where
  sandbox : run.world.sandbox.Has settings
  inTime : run.timedOut = false
  inward : run.reachesOut = false

/-- An evaluation that does not reach its deadline, in which no script of a rule runs out of time,
tells the time or reaches for the network. -/
structure Evaluator.IsQuiet (evaluator : Evaluator SandboxWorld) (rule : Uuid) (graph : RuleGraph)
    (event : Event) (progress : Progress SandboxWorld) : Prop where
  onTime : OnTime evaluator.allowance (evaluator.observations graph event progress)
  inTime : ∀ run ∈ scriptRuns (evaluator.observations graph event progress),
    run.context.invocation.rule = some rule → run.timedOut = false
  inward : ∀ run ∈ scriptRuns (evaluator.observations graph event progress),
    run.context.invocation.rule = some rule → run.reachesOut = false

namespace SandboxWorld

variable (settings : SandboxSettings) (bounds : Limits) (policy : FailurePolicy) (allowance : Nat)

theorem platform_keeps :
    platform.Keeps (fun _ => True) fun world => world.sandbox.Has settings where
  run script context limits world _ has :=
    ⟨(Sandbox.run_settings world.timeOfDay limits).trans has.settings,
      has.sound.run world.timeOfDay script context limits⟩
  clock _ has := has
  now _ has := has
  fresh _ has := has

theorem evaluator_isolates (rule : Uuid) :
    (evaluator bounds policy allowance).Isolates rule (dataOf rule)
      (ScriptRun.IsSteady settings) where
  only := ⟨fun _ => rfl, fun _ => rfl, fun _ => rfl⟩
  foreign run other := by
    funext trigger
    refine Sandbox.run_shelf run.world.timeOfDay run.limits fun same => other ?_
    exact congrArg DataScope.rule same
  own _ _ left right known otherKnown own steady otherSteady same := by
    obtain ⟨world, _, _, limits, result⟩ := left
    obtain ⟨otherWorld, script, context, others, otherResult⟩ := right
    obtain ⟨rfl, rfl, limited, answer⟩ := known
    obtain ⟨rfl, rfl, otherLimited, otherAnswer⟩ := otherKnown
    change limits = { bounds with timeout := limits.timeout } at limited
    change result = (run script context limits world).1 at answer
    change otherResult = (run script context others otherWorld).1 at otherAnswer
    subst answer otherAnswer
    have scope : context.invocation.scope = ⟨some rule, context.invocation.trigger⟩ := by
      rw [← own]
      rfl
    have sameLimits : others = { limits with timeout := others.timeout } := by
      rw [limited]
      exact otherLimited
    have sameShelf : world.sandbox.data.shelf context.invocation.scope =
        otherWorld.sandbox.data.shelf context.invocation.scope := by
      rw [scope]
      exact congrFun same context.invocation.trigger
    obtain ⟨results, shelves⟩ := Sandbox.run_agree world.timeOfDay otherWorld.timeOfDay limits
      sameLimits (otherSteady.sandbox.settings.trans steady.sandbox.settings.symm) sameShelf script
      steady.sandbox.sound otherSteady.sandbox.sound steady.inward
      (ScriptRun.ne_timeout steady.inTime) (ScriptRun.ne_timeout otherSteady.inTime)
    refine ⟨results, funext fun trigger => ?_⟩
    by_cases here : context.invocation.scope = ⟨some rule, trigger⟩
    · rw [here] at shelves
      exact shelves
    · have first : dataOf rule (run script context limits world).2 trigger =
          dataOf rule world trigger := Sandbox.run_shelf world.timeOfDay limits here
      have second : dataOf rule (run script context others otherWorld).2 trigger =
          dataOf rule otherWorld trigger := Sandbox.run_shelf otherWorld.timeOfDay others here
      exact first.trans ((congrFun same trigger).trans second.symm)

theorem quiet_steady {rule : Uuid} {graph : RuleGraph} {event : Event}
    {progress : Progress SandboxWorld} {evaluator : Evaluator SandboxWorld}
    (platform : evaluator.platform = SandboxWorld.platform)
    (quiet : evaluator.IsQuiet rule graph event progress)
    (reached : progress.world.sandbox.Reached settings) :
    ∀ run ∈ scriptRuns (evaluator.observations graph event progress),
      run.context.invocation.rule = some rule → run.IsSteady settings := by
  have worlds := evaluator.evaluate_worlds graph event progress
    (platform ▸ platform_keeps settings) reached.has
  exact fun run held own =>
    ⟨(worlds run held).1, quiet.inTime run held own, quiet.inward run held own⟩

end SandboxWorld

/-- Rules do not interfere. Where two graphs agree on a rule and two worlds on its data, the rule
comes to the same and leaves the same data, whatever other rules there are and whatever other data,
as long as time and the network are kept out of it. -/
theorem rules_isolated {settings : SandboxSettings} (limits : Limits) (policy : FailurePolicy)
    (allowance : Nat) {first second : RuleGraph} {left right : Rule}
    (agree : first.AgreeOn second left right) (reachable : first.Reachable)
    (otherReachable : second.Reachable) (event : Event) (progress other : Progress SandboxWorld)
    (reached : progress.world.sandbox.Reached settings)
    (otherReached : other.world.sandbox.Reached settings)
    (sameData : progress.world.dataOf left.id = other.world.dataOf left.id)
    (quiet : (SandboxWorld.evaluator limits policy allowance).IsQuiet left.id first event progress)
    (otherQuiet :
      (SandboxWorld.evaluator limits policy allowance).IsQuiet left.id second event other) :
    let evaluator := SandboxWorld.evaluator limits policy allowance
    let ended := evaluator.evaluate first event progress
    let otherEnded := evaluator.evaluate second event other
    ∃ record otherRecord, ended.1.filter (·.rule = left.id) = [record] ∧
      otherEnded.1.filter (·.rule = left.id) = [otherRecord] ∧ record.Alike otherRecord ∧
      ended.2.world.dataOf left.id = otherEnded.2.world.dataOf left.id :=
  (SandboxWorld.evaluator_isolates settings limits policy allowance left.id).evaluate agree
    reachable otherReachable progress other sameData quiet.onTime otherQuiet.onTime
    (SandboxWorld.quiet_steady settings rfl quiet reached)
    (SandboxWorld.quiet_steady settings rfl otherQuiet otherReached)

/-- A rule with a trigger, to which an action is bound that stores something. -/
def keptOperations : List Operation :=
  let check : ScriptCheck := fun _ => .ok ()
  let now : Instant := ⟨0, 0⟩
  [.createRule check ⟨1⟩ now ⟨"keeper", "true", 0, true⟩,
    .createTrigger check ⟨2⟩ now ⟨⟨1⟩, .unconditional, none, true⟩,
    .createAction check ⟨3⟩ now ⟨none, "store_data(\"k\", 1)", true⟩,
    .bind ⟨2⟩ ⟨3⟩]

/-- The same rule behind another one, which fails. -/
def crowdedOperations : List Operation :=
  .createRule (fun _ => .ok ()) ⟨9⟩ ⟨0, 0⟩ ⟨"noise", "lost", 5, true⟩ :: keptOperations

def worldWith (data : DataStore) : SandboxWorld where
  sandbox := { settings := ⟨64, 8, none⟩, data }
  beginning := ⟨0, 0⟩
  supply := ⟨0⟩

/-- Sorting is not carried out by evaluation, and there is nothing to sort. -/
theorem crowdedOperations_inOrder :
    (Operation.run crowdedOperations {}).rulesInOrder true =
      (Operation.run crowdedOperations {}).rules.values :=
  List.mergeSort_of_pairwise (by decide)

theorem crowdedOperations_isolated :
    let first := Operation.run keptOperations {}
    let second := Operation.run crowdedOperations {}
    let evaluator := SandboxWorld.evaluator ({} : EngineSettings).limits .goOn 2000000000
    let event : Event := ⟨⟨4⟩, .null, ⟨0, 0⟩⟩
    let progress : Progress SandboxWorld := ⟨worldWith {}, []⟩
    let other : Progress SandboxWorld := ⟨worldWith ⟨[(⟨some ⟨9⟩, none⟩, [("k", .int 2)])]⟩, []⟩
    let ended := evaluator.evaluate first event progress
    let otherEnded := evaluator.evaluate second event other
    first.Reachable ∧ second.Reachable ∧ first ≠ second ∧
      evaluator.IsQuiet ⟨1⟩ first event progress ∧ evaluator.IsQuiet ⟨1⟩ second event other ∧
      ∃ record otherRecord, ended.1.filter (·.rule = ⟨1⟩) = [record] ∧
        otherEnded.1.filter (·.rule = ⟨1⟩) = [otherRecord] ∧ record.Alike otherRecord ∧
        ended.2.world.dataOf ⟨1⟩ = otherEnded.2.world.dataOf ⟨1⟩ := by
  intro first second evaluator event progress other ended otherEnded
  have reachable : first.Reachable := ⟨keptOperations, .ofFresh (by decide)⟩
  have otherReachable : second.Reachable := ⟨crowdedOperations, .ofFresh (by decide)⟩
  let left : Rule := ⟨⟨1⟩, "keeper", "true", 0, true, [⟨2⟩], [], ⟨0, 0⟩, ⟨0, 0⟩, 1⟩
  let right : Rule := { left with sequence := 2 }
  have agree : first.AgreeOn second left right := by
    constructor
    case held => decide
    case otherHeld => decide
    case eachTrigger =>
      intro key listed
      cases List.mem_singleton.mp listed
      have found : first.triggers.get? ⟨2⟩ = second.triggers.get? ⟨2⟩ := by decide
      rw [found]
      exact .some ⟨rfl, rfl, rfl, rfl⟩
    case bindings => decide +kernel
    case eachAction =>
      intro key listed
      have bound : first.boundActions ⟨2⟩ = [⟨3⟩] := by decide +kernel
      obtain ⟨⟨⟩⟩ | ⟨trigger, listed, held⟩ := listed
      cases List.mem_singleton.mp listed
      rw [bound] at held
      cases List.mem_singleton.mp held
      have found : first.actions.get? ⟨3⟩ = second.actions.get? ⟨3⟩ := by decide
      rw [found]
      exact .some ⟨rfl, rfl, rfl⟩
    all_goals rfl
  have quiet : evaluator.IsQuiet ⟨1⟩ first event progress :=
    ⟨by decide +kernel, by decide +kernel, by decide +kernel⟩
  have otherQuiet : evaluator.IsQuiet ⟨1⟩ second event other := by
    constructor <;> rw [Evaluator.observations, Evaluator.evaluate, crowdedOperations_inOrder]
    all_goals decide +kernel
  exact ⟨reachable, otherReachable, by decide, quiet, otherQuiet,
    rules_isolated _ _ _ agree reachable otherReachable event progress other (.start _) (.start _)
      rfl quiet otherQuiet⟩

end Rulebook
