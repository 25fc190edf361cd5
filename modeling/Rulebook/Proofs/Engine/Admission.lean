import Mathlib.Data.List.Chain
import Mathlib.Data.List.Induction
import Rulebook.Proofs.Engine.Composition
import Rulebook.Proofs.Rules.Loading
import Rulebook.Proofs.Sandbox.Separation

/-!
Nothing gets into the rules of an engine that has not been checked, whichever way it comes: by what
the program asks for, by what its clients ask for, or with the rules to start with.
-/

namespace Rulebook

variable {World Seen : Type}

/-! Graphs that are published -/

/-- Graphs that are published one after the other, each by an operation that goes through. They
begin without any rules, and all of them are valid. -/
structure Publications (check : ScriptCheck) (graphs : List RuleGraph) (current : RuleGraph) :
    Prop where
  first : graphs.head? = some {}
  last : graphs.getLast? = some current
  steps : graphs.IsChain fun graph next =>
    ∃ operation : Operation, operation.outcome graph = .ok next ∧ operation.Fixes graph next
  valid : ∀ graph ∈ graphs, graph.IsValid check

namespace Publications

variable {check : ScriptCheck} {graphs : List RuleGraph} {graph next : RuleGraph}

theorem start : Publications check [{}] {} where
  first := rfl
  last := rfl
  steps := List.isChain_singleton _
  valid _ held := by
    rw [List.mem_singleton.mp held]
    exact RuleGraph.IsChecked.empty.valid

theorem publish {operation : Operation} (publications : Publications check graphs graph)
    (checked : graph.IsChecked check) (checks : operation.ChecksBy (· = check))
    (done : operation.outcome graph = .ok next) :
    Publications check (graphs ++ [next]) next where
  first := by
    rw [List.head?_append, publications.first]
    rfl
  last := List.getLast?_concat
  steps := by
    refine publications.steps.append (List.isChain_singleton next) ?_
    intro before last after single
    rw [publications.last] at last
    cases last
    cases single
    exact ⟨operation, done, checked.toIsKeyed.fixes done⟩
  valid other held := by
    rcases List.mem_append.mp held with earlier | latest
    · exact publications.valid other earlier
    · rw [List.mem_singleton.mp latest]
      exact (checked.outcome checks done).valid

end Publications

/-! What an engine is asked for -/

/-- A platform whose check of scripts says the same in all worlds that are fit, whatever scripts
and clocks do to them. -/
structure Platform.Judges (platform : Platform World) (fits : World → Prop)
    (verdict : ScriptCheck) : Prop extends platform.Keeps (fun _ => True) fits where
  check : ∀ world, fits world → platform.check world = verdict

/-- What the program asks for itself, what its clients ask for, and rules to load. -/
inductive Errand (Seen : Type) where
  | command (command : Command Seen)
  | call (call : Service.Call)
  | load (text : String)

namespace Errand

def part : Errand Seen → EngineM World Unit
  | .command given => do
    let _ ← given.perform
  | .call asked =>
    match asked.perform with
    | some part => do
      let _ ← part
    | none => pure ()
  | .load text => do
    let _ ← Seed.loadText text

theorem part_composed {allowed : ScriptCheck → Prop} (errand : Errand Seen) :
    Composed true allowed (errand.part : EngineM World Unit) := by
  cases errand with
  | command given => exact given.perform_composed.answer _
  | call asked =>
      rw [part]
      split
      · rename_i known
        exact (Service.Call.perform_composed known).answer _
      · exact .pure ()
  | load text => exact (Seed.loadText_composed text).answer _

end Errand

namespace Engine

/-- What becomes of an engine by errands, one after the other, whether they are refused or not. -/
def after (errands : List (Errand Seen)) (engine : Engine World) : Engine World :=
  errands.foldl (fun engine errand => (errand.part.run engine).2) engine

theorem after_append (errands : List (Errand Seen)) (errand : Errand Seen)
    (engine : Engine World) :
    engine.after (errands ++ [errand]) = (errand.part.run (engine.after errands)).2 := by
  rw [after, List.foldl_concat]
  rfl

variable {platform : Platform World} {fits : World → Prop} {verdict : ScriptCheck}

/-- An engine whose rules are checked, and got so by certain publications. -/
structure Admits (platform : Platform World) (fits : World → Prop) (verdict : ScriptCheck)
    (graphs : List RuleGraph) (engine : Engine World) : Prop where
  platform : engine.evaluator.platform = platform
  fit : fits engine.world
  publications : Publications verdict graphs engine.graph
  checked : engine.graph.IsChecked verdict

theorem Admits.part {engine : Engine World} {graphs : List RuleGraph}
    (judges : platform.Judges fits verdict) (admits : engine.Admits platform fits verdict graphs)
    (errand : Errand Seen) :
    ∃ more, (errand.part.run engine).2.Admits platform fits verdict (graphs ++ more) := by
  let good (graph : RuleGraph) : Prop :=
    (∃ more, Publications verdict (graphs ++ more) graph) ∧ graph.IsChecked verdict
  have step {operation : Operation} {graph next : RuleGraph} (fine : good graph)
      (checks : operation.ChecksBy (· = verdict)) (done : operation.outcome graph = .ok next) :
      good next := by
    obtain ⟨⟨more, publications⟩, checked⟩ := fine
    refine ⟨⟨more ++ [next], ?_⟩, checked.outcome checks done⟩
    rw [← List.append_assoc]
    exact publications.publish checked checks done
  have begun : good engine.graph := by
    refine ⟨⟨[], ?_⟩, admits.checked⟩
    rw [List.append_nil]
    exact admits.publications
  have evolved := errand.part_composed.evolves judges.toKeeps judges.check step engine
    admits.platform admits.fit begun
  obtain ⟨⟨more, publications⟩, checked⟩ := evolved.graph
  refine ⟨more, ?_, evolved.world, publications, checked⟩
  rw [evolved.evaluator]
  exact admits.platform

theorem after_admits (judges : platform.Judges fits verdict) (settings : EngineSettings)
    {world : World} (fit : fits world) (errands : List (Errand Seen)) :
    let start := create platform settings world
    ∃ graphs, (start.after errands).Admits platform fits verdict graphs ∧
      ∀ earlier, earlier <+: errands → (start.after earlier).graph ∈ graphs := by
  intro start
  induction errands using List.reverseRecOn with
  | nil =>
      refine ⟨[{}], ⟨rfl, fit, .start, .empty⟩, fun earlier before => ?_⟩
      rw [List.prefix_nil.mp before]
      exact List.mem_singleton_self _
  | append_singleton errands errand ih =>
      obtain ⟨graphs, admits, visited⟩ := ih
      obtain ⟨more, further⟩ := admits.part judges errand
      rw [← after_append] at further
      refine ⟨graphs ++ more, further, fun earlier before => ?_⟩
      rcases List.prefix_concat_iff.mp before with whole | within
      · rw [whole]
        exact List.mem_of_getLast? further.publications.last
      · exact List.mem_append_left _ (visited earlier within)

end Engine

namespace SandboxWorld

theorem platform_judges (settings : SandboxSettings) :
    platform.Judges (fun world => world.sandbox.Has settings) fun script =>
      (Sandbox.compileAnew settings script).map fun _ => () where
  toKeeps := platform_keeps settings
  check world has := by
    funext script
    simp only [platform, Sandbox.check, has.sound.compile_eq, has.settings]

end SandboxWorld

open Engine

/-- Whatever an engine is asked for, all the graphs that it publishes are valid by the check of its
sandbox, which does not change meanwhile; and no trigger becomes one of another kind or rule. -/
theorem published_graphs_valid (settings : EngineSettings) {world : SandboxWorld}
    (sound : world.sandbox.IsSound) (errands : List (Errand Seen)) :
    let check := SandboxWorld.platform.check world
    let start := create SandboxWorld.platform settings world
    (∃ graphs, Publications check graphs (start.after errands).graph ∧
      ∀ earlier, earlier <+: errands → (start.after earlier).graph ∈ graphs) ∧
      SandboxWorld.platform.check (start.after errands).world = check := by
  intro check start
  have judges := SandboxWorld.platform_judges world.sandbox.settings
  have fit : world.sandbox.Has world.sandbox.settings := ⟨rfl, sound⟩
  obtain ⟨graphs, admits, visited⟩ := after_admits judges settings fit errands
  have checkHere := judges.check world fit
  have checkThere := judges.check _ admits.fit
  refine ⟨⟨graphs, ?_, visited⟩, checkThere.trans checkHere.symm⟩
  rw [← checkHere] at admits
  exact admits.publications

/-- One rule of a seed is stored before another one is refused; it is a valid rule. -/
theorem halfGoodSeed_published_valid :
    let start := create SandboxWorld.platform seededSettings newWorld
    let errands : List (Errand Nat) := [.load halfGoodSeed, .command (.deleteRule ⟨7⟩)]
    newWorld.sandbox.IsSound ∧
      (start.after errands).graph.rules.values.map (·.name) = ["r"] ∧
      ∃ graphs, Publications (SandboxWorld.platform.check newWorld) graphs
        (start.after errands).graph := by
  intro start errands
  have sound : newWorld.sandbox.IsSound := fun _ held => nomatch held
  obtain ⟨⟨graphs, publications, _⟩, _⟩ := published_graphs_valid seededSettings sound errands
  exact ⟨sound, by decide +kernel, graphs, publications⟩

end Rulebook
