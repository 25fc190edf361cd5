import Rulebook.Proofs.Engine.Likeness
import Rulebook.Proofs.Sandbox.Separation

/-!
What is left of a script that was run by itself. It keeps data for the scripts that are run by
themselves later on; other than by those, it cannot be told from a while in which nothing was done.
-/

namespace Rulebook

/-- Two worlds in which nothing differs but the programs that are kept, the trace, and the data of
scopes that do not matter. -/
structure SandboxWorld.AlikeOn (scopes : DataScope → Prop) (left right : SandboxWorld) : Prop where
  settings : right.sandbox.settings = left.sandbox.settings
  sound : left.sandbox.IsSound
  otherSound : right.sandbox.IsSound
  shelf : ∀ scope, scopes scope →
    left.sandbox.data.shelf scope = right.sandbox.data.shelf scope
  elapsed : left.elapsed = right.elapsed
  beginning : left.beginning = right.beginning
  supply : left.supply = right.supply

namespace SandboxWorld

variable {scopes : DataScope → Prop} {onBehalf : Option Uuid → Prop}

theorem AlikeOn.timeOfDay {left right : SandboxWorld} (alike : left.AlikeOn scopes right) :
    left.timeOfDay = right.timeOfDay := by
  rw [SandboxWorld.timeOfDay, SandboxWorld.timeOfDay, alike.beginning, alike.elapsed]

theorem run_agreeing (script : String) {context : ScriptContext} (limits : Script.Limits)
    (own : scopes context.invocation.scope) :
    Agreeing (AlikeOn scopes) (run script context limits) := by
  intro left right alike
  obtain ⟨spent, results, time, otherTime, shelves⟩ :=
    Sandbox.run_same left.timeOfDay limits alike.settings (alike.shelf _ own) script alike.sound
      alike.otherSound
  simp only [run, ← alike.timeOfDay]
  refine ⟨results, ?_, ?_, ?_, ?_, ?_, alike.beginning, alike.supply⟩
  · rw [Sandbox.run_settings, Sandbox.run_settings, alike.settings]
  · exact alike.sound.run _ script context limits
  · exact alike.otherSound.run _ script context limits
  · intro scope matters
    by_cases here : context.invocation.scope = scope
    · exact here ▸ shelves
    · rw [Sandbox.run_shelf _ limits here, Sandbox.run_shelf _ limits here]
      exact alike.shelf scope matters
  · have same := alike.elapsed
    simp only [elapsed] at same ⊢
    omega

theorem platform_hides (own : ∀ invocation : Invocation, onBehalf invocation.rule →
    scopes invocation.scope) : platform.Hides onBehalf (AlikeOn scopes) where
  run script context limits allowed := run_agreeing script limits (own context.invocation allowed)
  clock left right alike := ⟨alike.elapsed, alike⟩
  now left right alike := by
    refine ⟨alike.timeOfDay, { alike with elapsed := ?_ }⟩
    have same := alike.elapsed
    simp only [platform, readTime, elapsed] at same ⊢
    omega
  fresh left right alike := by
    simp only [platform, takeId, alike.supply, true_and]
    exact { alike with supply := rfl }
  check left right alike := by
    funext script
    simp only [platform, Sandbox.check, alike.sound.compile_eq, alike.otherSound.compile_eq,
      alike.settings]

end SandboxWorld

namespace Engine

/-- An engine that nothing was asked of for a while, in nanoseconds. -/
def waiting (time : Nat) (engine : Engine SandboxWorld) : Engine SandboxWorld :=
  engine.within { engine.world with idle := engine.world.idle + time }

/-- What is asked of an engine, by its clients or by the program that it is part of. Meanwhile
time may go by. -/
inductive Step where
  | call (call : Service.Call)
  | evaluate (event : Event)
  | tryScript (script : String) (context : Json)
  | wait (time : Nat)

namespace Step

def part : Step → Option (EngineM SandboxWorld Json)
  | .call asked => asked.perform
  | .evaluate event => some do
    return .arr ((← Engine.evaluate event).map ExecutionRecord.toJson)
  | .tryScript script context => some do return (← Engine.tryScript script context).toJson
  | .wait time => some do
    modify (waiting time)
    return .null

def take (step : Step) (engine : Engine SandboxWorld) :
    Option (Except Refusal Json) × Engine SandboxWorld :=
  match step.part with
  | some part => ((part.run engine).1, (part.run engine).2)
  | none => (none, engine)

/-- Whether a script is run by itself. -/
def isTrial : Step → Bool
  | .call asked => asked.operation == "evaluate_script"
  | .tryScript _ _ => true
  | .evaluate _ => false
  | .wait _ => false

end Step

/-- The answers to what is asked of an engine, and what becomes of the engine. -/
def serve : List Step → Engine SandboxWorld →
    List (Option (Except Refusal Json)) × Engine SandboxWorld
  | [], engine => ([], engine)
  | step :: rest, engine =>
    let (answer, next) := step.take engine
    let (answers, last) := next.serve rest
    (answer :: answers, last)

/-- Engines that differ in their worlds at most. -/
def IsLike (engine other : Engine SandboxWorld) : Prop :=
  other = engine.within other.world

/-- One engine serves as another one does, and comes to the same rules, records and counts. -/
structure ServesAs (engine other : Engine SandboxWorld) (steps : List Step) : Prop where
  answers : (engine.serve steps).1 = (other.serve steps).1
  like : (engine.serve steps).2.IsLike (other.serve steps).2

/-- The steps of an engine, with some waiting in place of each script that is run by itself. -/
def muted : List Step → Engine SandboxWorld → List Step
  | [], _ => []
  | step :: rest, engine =>
    let next := (step.take engine).2
    let time := next.world.elapsed - engine.world.elapsed
    (if step.isTrial then .wait time else step) :: next.muted rest

/-- The answers to steps, but to scripts that are run by themselves the one that waiting has. -/
def masked (steps : List Step) (answers : List (Option (Except Refusal Json))) :
    List (Option (Except Refusal Json)) :=
  List.zipWith (fun step answer => if step.isTrial then some (.ok .null) else answer) steps answers

theorem Step.take_wait (time : Nat) (engine : Engine SandboxWorld) :
    (Step.wait time).take engine = (some (.ok .null), engine.waiting time) := rfl

section Cons

variable (step : Step) (rest : List Step) (engine : Engine SandboxWorld)

theorem serve_cons :
    engine.serve (step :: rest) =
      ((step.take engine).1 :: ((step.take engine).2.serve rest).1,
        ((step.take engine).2.serve rest).2) := rfl

theorem muted_cons :
    engine.muted (step :: rest) =
      (if step.isTrial then
        .wait ((step.take engine).2.world.elapsed - engine.world.elapsed) else step) ::
        (step.take engine).2.muted rest := rfl

theorem masked_cons (answer : Option (Except Refusal Json))
    (answers : List (Option (Except Refusal Json))) :
    masked (step :: rest) (answer :: answers) =
      (if step.isTrial then some (.ok .null) else answer) :: masked rest answers := rfl

end Cons

/-- An engine whose scripts run in a sandbox, whatever its rules are and whatever was stored. -/
structure IsSandboxed (engine : Engine SandboxWorld) : Prop where
  platform : engine.evaluator.platform = SandboxWorld.platform
  sound : engine.world.sandbox.IsSound

/-! Two engines side by side -/

section Lockstep

variable {scopes : DataScope → Prop} {onBehalf : Option Uuid → Prop}
  (hides : SandboxWorld.platform.Hides onBehalf (SandboxWorld.AlikeOn scopes))
  (ruled : ∀ rule, onBehalf (some rule))

include hides ruled

theorem Step.part_respects {step : Step} (free : step.isTrial = true → onBehalf none)
    {part : EngineM SandboxWorld Json} (known : step.part = some part) :
    EngineM.Respects SandboxWorld.platform (SandboxWorld.AlikeOn scopes) part := by
  cases step with
  | call asked =>
      exact Service.Call.perform_respects hides ruled
        (fun operation => free (beq_iff_eq.mpr operation)) known
  | evaluate event =>
      cases known
      exact (evaluate_respects hides ruled event).bind fun _ => .pure _
  | tryScript script context =>
      cases known
      exact (tryScript_respects hides (free rfl) script context).bind fun _ => .pure _
  | wait time =>
      cases known
      refine EngineM.Respects.bind (fun engine world _ alike => ?_) fun _ => .pure _
      refine ⟨.ok (), engine.waiting time, { world with idle := world.idle + time }, rfl, rfl, rfl,
        { alike with elapsed := ?_ }⟩
      have same := alike.elapsed
      simp only [waiting, within, SandboxWorld.elapsed] at same ⊢
      omega

variable {engine : Engine SandboxWorld} {world : SandboxWorld}

theorem Step.take_alike {step : Step} (free : step.isTrial = true → onBehalf none)
    (platform : engine.evaluator.platform = SandboxWorld.platform)
    (alike : engine.world.AlikeOn scopes world) : ∃ answer next after,
      step.take engine = (answer, next) ∧
        step.take (engine.within world) = (answer, next.within after) ∧
        next.evaluator = engine.evaluator ∧ next.world.AlikeOn scopes after := by
  unfold take
  cases known : step.part with
  | none => exact ⟨none, engine, world, rfl, rfl, rfl, alike⟩
  | some part =>
      obtain ⟨answer, next, after, ended, otherEnded, kept⟩ :=
        part_respects hides ruled free known engine world platform alike
      refine ⟨some answer, next, after, ?_, ?_, kept⟩
      · simp only [ended]
      · simp only [otherEnded]

theorem serve_alike {steps : List Step} (free : ∀ step ∈ steps, step.isTrial = true → onBehalf none)
    (platform : engine.evaluator.platform = SandboxWorld.platform)
    (alike : engine.world.AlikeOn scopes world) : ∃ answers last after,
      engine.serve steps = (answers, last) ∧
        (engine.within world).serve steps = (answers, last.within after) ∧
        last.evaluator = engine.evaluator ∧ last.world.AlikeOn scopes after := by
  induction steps generalizing engine world with
  | nil => exact ⟨[], engine, world, rfl, rfl, rfl, alike⟩
  | cons step rest ih =>
      obtain ⟨allowed, restAllowed⟩ := List.forall_mem_cons.mp free
      obtain ⟨answer, next, after, first, otherFirst, kept, alike⟩ :=
        step.take_alike hides ruled allowed platform alike
      obtain ⟨answers, last, final, further, otherFurther, stillKept, alike⟩ :=
        ih restAllowed (kept ▸ platform) alike
      refine ⟨answer :: answers, last, final, ?_, ?_, stillKept.trans kept, alike⟩
      · rw [serve_cons, first, further]
      · rw [serve_cons, otherFirst, otherFurther]

end Lockstep

theorem IsSandboxed.alike {engine : Engine SandboxWorld} (sandboxed : engine.IsSandboxed)
    (scopes : DataScope → Prop) : engine.world.AlikeOn scopes engine.world :=
  ⟨rfl, sandboxed.sound, sandboxed.sound, fun _ _ => rfl, rfl, rfl, rfl⟩

theorem platform_hides_all :
    SandboxWorld.platform.Hides (fun _ => True) (SandboxWorld.AlikeOn fun _ => True) :=
  SandboxWorld.platform_hides fun _ _ => trivial

theorem IsSandboxed.serve {engine : Engine SandboxWorld} (sandboxed : engine.IsSandboxed)
    (steps : List Step) : (engine.serve steps).2.IsSandboxed := by
  obtain ⟨_, last, _, served, _, kept, alike⟩ := serve_alike platform_hides_all
    (fun _ => trivial) (fun _ _ _ => trivial) sandboxed.platform (sandboxed.alike _)
  rw [served]
  exact ⟨kept ▸ sandboxed.platform, alike.sound⟩

/-! One script that is run by itself -/

/-- The data that scripts see that are run by themselves. -/
def ownShelf (engine : Engine SandboxWorld) : Shelf :=
  engine.world.sandbox.data.shelf ⟨none, none⟩

/-- What may change of an engine while a script is run by itself. -/
structure IsTried (engine ended : Engine SandboxWorld) : Prop where
  only : ∃ sandbox, ended = engine.within { engine.world with sandbox }
  settings : ended.world.sandbox.settings = engine.world.sandbox.settings
  sound : ended.world.sandbox.IsSound
  time : engine.world.sandbox.time ≤ ended.world.sandbox.time
  shelf : ∀ scope : DataScope, scope ≠ ⟨none, none⟩ →
    ended.world.sandbox.data.shelf scope = engine.world.sandbox.data.shelf scope

variable {engine ended : Engine SandboxWorld}

theorem IsTried.isSandboxed (tried : engine.IsTried ended) (sandboxed : engine.IsSandboxed) :
    ended.IsSandboxed := by
  obtain ⟨sandbox, rfl⟩ := tried.only
  exact ⟨sandboxed.platform, tried.sound⟩

theorem IsSandboxed.isTried (sandboxed : engine.IsSandboxed) : engine.IsTried engine :=
  ⟨⟨_, rfl⟩, rfl, sandboxed.sound, Nat.le_refl _, fun _ _ => rfl⟩

theorem tryScript_isTried (sandboxed : engine.IsSandboxed) (script : String) (context : Json) :
    engine.IsTried ((tryScript script context).run engine).2 := by
  cases filled : trialContext context with
  | error refusal =>
      rw [tryScript, filled]
      exact sandboxed.isTried
  | ok made =>
      obtain ⟨⟨_, limits, policy, allowance⟩, graph, archive, metrics, world⟩ := engine
      obtain ⟨platform, sound⟩ := sandboxed
      cases platform
      have scope : made.invocation.scope = ⟨none, none⟩ := by
        rw [trialContext_invocation filled]
        rfl
      rw [tryScript, filled]
      exact {
        only := ⟨_, rfl⟩
        settings := Sandbox.run_settings world.timeOfDay limits
        sound := sound.run world.timeOfDay (Text.trim script) made limits
        time := Sandbox.run_time_le world.timeOfDay limits
        shelf other foreign :=
          Sandbox.run_shelf world.timeOfDay limits fun same => foreign (same ▸ scope) }

theorem ofExcept_bind_isTried {α β : Type} (sandboxed : engine.IsSandboxed)
    {answer : Except Refusal α} {rest : α → EngineM SandboxWorld β}
    (next : ∀ value, engine.IsTried ((rest value).run engine).2) :
    engine.IsTried ((MonadExcept.ofExcept answer >>= rest).run engine).2 := by
  cases answer with
  | ok value => exact next value
  | error refusal => exact sandboxed.isTried

theorem map_isTried {α β : Type} {part : EngineM SandboxWorld α} {form : α → β}
    (tried : engine.IsTried (part.run engine).2) :
    engine.IsTried ((part >>= fun value => pure (form value)).run engine).2 := by
  rw [EngineM.run_bind]
  generalize part.run engine = reached at tried ⊢
  obtain ⟨_ | value, after⟩ := reached
  · exact tried
  · exact tried

theorem Step.take_isTried (sandboxed : engine.IsSandboxed) {step : Step}
    (isTrial : step.isTrial = true) : engine.IsTried (step.take engine).2 := by
  cases step with
  | evaluate event => cases isTrial
  | wait time => cases isTrial
  | tryScript script context => exact map_isTried (tryScript_isTried sandboxed script context)
  | call asked =>
      obtain ⟨operation, id, action, body, checked⟩ := asked
      cases beq_iff_eq.mp isTrial
      change engine.IsTried (((Service.Call.readChecked _ _ _ : EngineM SandboxWorld _) >>= _).run
        engine).2
      rw [Service.Call.readChecked_eq]
      refine ofExcept_bind_isTried sandboxed fun request => map_isTried ?_
      exact ofExcept_bind_isTried sandboxed fun _ => tryScript_isTried sandboxed _ _

theorem IsTried.waited (tried : engine.IsTried ended) {scopes : DataScope → Prop}
    {world : SandboxWorld} (alike : engine.world.AlikeOn scopes world)
    (unseen : scopes ⟨none, none⟩ → ended.ownShelf = engine.ownShelf) : ∃ after,
    (engine.within world).waiting (ended.world.elapsed - engine.world.elapsed) =
        ended.within after ∧ ended.world.AlikeOn scopes after := by
  obtain ⟨sandbox, rfl⟩ := tried.only
  refine ⟨_, rfl, alike.settings.trans tried.settings.symm, tried.sound, alike.otherSound, ?_, ?_,
    alike.beginning, alike.supply⟩
  · intro scope matters
    refine Eq.trans ?_ (alike.shelf scope matters)
    by_cases own : scope = ⟨none, none⟩
    · exact own ▸ unseen (own ▸ matters)
    · exact tried.shelf scope own
  · have later := tried.time
    have same := alike.elapsed
    simp only [within, SandboxWorld.elapsed] at later same ⊢
    omega

/-- If scripts that are run by themselves are left out, all other answers stay as they are. -/
theorem serve_muted {steps : List Step} {world : SandboxWorld} (sandboxed : engine.IsSandboxed)
    (alike : engine.world.AlikeOn (·.rule ≠ none) world) : ∃ after,
    (engine.within world).serve (engine.muted steps) =
      (masked steps (engine.serve steps).1, (engine.serve steps).2.within after) := by
  have hides : SandboxWorld.platform.Hides (· ≠ none) (SandboxWorld.AlikeOn (·.rule ≠ none)) :=
    SandboxWorld.platform_hides fun _ allowed => allowed
  induction steps generalizing engine world with
  | nil => exact ⟨world, rfl⟩
  | cons step rest ih =>
      cases trial : step.isTrial with
      | true =>
          -- What the script stored is of no account, since scripts of rules do not see it.
          have tried := Step.take_isTried sandboxed trial
          obtain ⟨after, waited, alike⟩ := tried.waited alike fun own => absurd rfl own
          obtain ⟨final, served⟩ := ih (tried.isSandboxed sandboxed) alike
          refine ⟨final, ?_⟩
          rw [muted_cons, trial, if_pos rfl, serve_cons, Step.take_wait, waited, served]
          simp only [serve_cons, masked_cons, trial, if_true]
      | false =>
          obtain ⟨answer, next, after, first, otherFirst, kept, alike⟩ :=
            step.take_alike hides (fun _ => Option.some_ne_none _)
              (fun isTrial => absurd isTrial (by simp [trial])) sandboxed.platform alike
          obtain ⟨final, served⟩ := ih ⟨kept ▸ sandboxed.platform, alike.sound⟩ alike
          refine ⟨final, ?_⟩
          rw [muted_cons, trial, if_neg Bool.false_ne_true, serve_cons, first, otherFirst, served]
          simp only [serve_cons, masked_cons, trial, first, Bool.false_eq_true, if_false]

/-- A script that stores nothing leaves all later answers as they are. -/
theorem idle_trial_unnoticed (sandboxed : engine.IsSandboxed) {trial : Step}
    (isTrial : trial.isTrial = true) (later : List Step)
    (idle : (trial.take engine).2.ownShelf = engine.ownShelf) :
    let ended := (trial.take engine).2
    ended.ServesAs (engine.waiting (ended.world.elapsed - engine.world.elapsed)) later := by
  intro ended
  have tried : engine.IsTried ended := Step.take_isTried sandboxed isTrial
  obtain ⟨after, waited, alike⟩ := tried.waited (sandboxed.alike fun _ => True) fun _ => idle
  obtain ⟨answers, last, final, served, otherServed, _⟩ := serve_alike platform_hides_all
    (fun _ => trivial) (fun step (_ : step ∈ later) _ => trivial) (tried.isSandboxed sandboxed).platform alike
  change engine.waiting _ = _ at waited
  constructor
  · rw [waited, served, otherServed]
  · rw [waited, served, otherServed]
    rfl

/-- Scripts that are run by themselves are hardly noticed. Without them, and with some waiting
instead, all other answers would be the same, and so would be the rules, the records and the counts
in the end. And if such a script leaves the data as it was that the others see, these would not come
to anything else without it. -/
theorem trials_hardly_noticed (sandboxed : engine.IsSandboxed) :
    (∀ steps : List Step, (engine.serve (engine.muted steps)).1 = masked steps (engine.serve steps).1 ∧
      (engine.serve steps).2.IsLike (engine.serve (engine.muted steps)).2) ∧
    ∀ (before : List Step) (trial : Step) (later : List Step), trial.isTrial = true →
      let reached := (engine.serve before).2
      let ended := (trial.take reached).2
      ended.ownShelf = reached.ownShelf →
        ended.ServesAs (reached.waiting (ended.world.elapsed - reached.world.elapsed)) later := by
  constructor
  · intro steps
    obtain ⟨after, served⟩ := serve_muted sandboxed (sandboxed.alike _)
    change engine.serve (engine.muted steps) = _ at served
    rw [served]
    exact ⟨rfl, rfl⟩
  · intro before trial later isTrial reached ended idle
    exact idle_trial_unnoticed (sandboxed.serve before) isTrial later idle

def keeping : Engine SandboxWorld :=
  { create SandboxWorld.platform {} (worldWith {}) with
    graph := Operation.run keptOperations {} }

def storing : Step :=
  .tryScript "store_data(\"k\", 1)" .null

theorem keeping_hardly_tried :
    let event : Step := .evaluate ⟨⟨4⟩, .null, ⟨0, 0⟩⟩
    let summing : Step := .tryScript "1 + 1" .null
    let reached := (keeping.serve [event]).2
    let ended := (summing.take reached).2
    keeping.IsSandboxed ∧ ended.ownShelf = reached.ownShelf ∧
      (keeping.serve (keeping.muted [storing, event])).1 =
        masked [storing, event] (keeping.serve [storing, event]).1 ∧
      ended.ServesAs (reached.waiting (ended.world.elapsed - reached.world.elapsed))
        [storing, event] := by
  intro event summing reached ended
  have sandboxed : keeping.IsSandboxed := ⟨rfl, fun _ held => nomatch held⟩
  have before : reached.ownShelf = [] := List.isEmpty_iff.mp (by decide +kernel)
  have after : ended.ownShelf = [] := List.isEmpty_iff.mp (by decide +kernel)
  have idle : ended.ownShelf = reached.ownShelf := after.trans before.symm
  obtain ⟨muted, unnoticed⟩ := trials_hardly_noticed sandboxed
  exact ⟨sandboxed, idle, (muted [storing, event]).1,
    unnoticed [event] summing [storing, event] rfl idle⟩

/-- What a script came to, whatever time it took. -/
def shown (answer : Except Refusal ScriptTrial) : Option String :=
  answer.toOption.bind fun trial => trial.result.toOption.map (·.value.render)

/-- What a script stored that was run by itself is there for the next one. If it had not been run,
there would be nothing. -/
theorem storing_noticed :
    let fresh := create SandboxWorld.platform {} (worldWith {})
    let asking := tryScript "get_stored_data(\"k\")" .null
    shown (asking.run (storing.take fresh).2).1 = some "1" ∧
      shown (asking.run fresh).1 = some "null" := by
  decide +kernel

end Engine

end Rulebook
