import Rulebook.Proofs.Evaluation.Reference

/-!
The runs of scripts in an evaluation, with what they leave behind for one another. What is looked
at of the world is a view of it. As long as nothing but scripts changes the view, the runs are
threaded: each begins with what the one before it has left.
-/

namespace Rulebook

variable {World View : Type}

def ScriptRun.after (platform : Platform World) (run : ScriptRun World) : World :=
  (platform.run run.script run.context run.limits run.world).2

/-- Runs that lead from a view of the world to another one. -/
inductive Threaded (platform : Platform World) (view : World → View) :
    View → List (ScriptRun World) → View → Prop where
  | done (value : View) : Threaded platform view value [] value
  | ran {run : ScriptRun World} {rest : List (ScriptRun World)} {last : View} :
      Threaded platform view (view (run.after platform)) rest last →
      Threaded platform view (view run.world) (run :: rest) last

namespace Threaded

variable {platform : Platform World} {view : World → View} {start last : View}

theorem nil_iff : Threaded platform view start [] last ↔ last = start := by
  constructor
  · rintro ⟨⟩
    rfl
  · rintro rfl
    exact .done last

theorem cons_iff {run : ScriptRun World} {rest : List (ScriptRun World)} :
    Threaded platform view start (run :: rest) last ↔
      start = view run.world ∧ Threaded platform view (view (run.after platform)) rest last := by
  constructor
  · rintro ⟨⟩
    exact ⟨rfl, ‹_›⟩
  · rintro ⟨rfl, thread⟩
    exact .ran thread

theorem append_iff {earlier later : List (ScriptRun World)} :
    Threaded platform view start (earlier ++ later) last ↔
      ∃ middle, Threaded platform view start earlier middle ∧
        Threaded platform view middle later last := by
  induction earlier generalizing start with
  | nil => simp only [List.nil_append, nil_iff, exists_eq_left]
  | cons run rest ih =>
      rw [List.cons_append, cons_iff, ih]
      constructor
      · rintro ⟨same, middle, first, second⟩
        exact ⟨middle, cons_iff.mpr ⟨same, first⟩, second⟩
      · rintro ⟨middle, first, second⟩
        obtain ⟨same, first⟩ := cons_iff.mp first
        exact ⟨same, middle, first, second⟩

theorem eq_of_still {runs : List (ScriptRun World)}
    (still : ∀ run ∈ runs, view (run.after platform) = view run.world)
    (thread : Threaded platform view start runs last) : last = start := by
  induction runs generalizing start with
  | nil => exact nil_iff.mp thread
  | cons run rest ih =>
      obtain ⟨same, thread⟩ := cons_iff.mp thread
      rw [ih (fun other held => still other (List.mem_cons_of_mem _ held)) thread, same]
      exact still run List.mem_cons_self

end Threaded

/-- Nothing but scripts changes what is looked at of the world. -/
structure Platform.OnlyScripts (platform : Platform World) (view : World → View) : Prop where
  clock : ∀ world, view (platform.clock world).2 = view world
  now : ∀ world, view (platform.now world).2 = view world
  fresh : ∀ world, view (platform.fresh world).2 = view world

namespace Evaluator

variable (evaluator : Evaluator World) (graph : RuleGraph) (event : Event)
  (progress : Progress World)

theorem observed_world :
    (evaluator.observed.evaluate graph event (progress.observed [])).2.world.world =
      (evaluator.evaluate graph event progress).2.world := by
  obtain ⟨seen, same, _⟩ := evaluate_observes evaluator graph event progress []
  rw [same]
  rfl

/-- The runs of an evaluation lead from what is looked at before it to what is looked at after. -/
theorem evaluate_threaded {view : World → View} (only : evaluator.platform.OnlyScripts view) :
    Threaded evaluator.platform view (view progress.world)
      (scriptRuns (evaluator.observations graph event progress))
      (view (evaluator.evaluate graph event progress).2.world) := by
  let property (observed : Observed World) := Threaded evaluator.platform view
    (view progress.world) (scriptRuns observed.seen) (view observed.world)
  have quiet {observed : Observed World} {note : Observation World} {world : World}
      (thread : property observed) (nothing : scriptRuns [note] = [])
      (same : view world = view observed.world) : property ⟨world, observed.seen ++ [note]⟩ := by
    change Threaded _ _ _ (scriptRuns (observed.seen ++ [note])) (view world)
    rw [scriptRuns_append, nothing, List.append_nil, same]
    exact thread
  have kept : evaluator.observed.platform.Keeps (fun _ => True) property := by
    constructor
    · intro script context limits observed _ thread
      change Threaded _ _ _ (scriptRuns (observed.seen ++ [_])) _
      rw [scriptRuns_append]
      refine Threaded.append_iff.mpr ⟨_, thread, ?_⟩
      exact Threaded.cons_iff.mpr ⟨rfl, .done _⟩
    · exact fun observed thread => quiet thread rfl (only.clock observed.world)
    · exact fun observed thread => quiet thread rfl (only.now observed.world)
    · exact fun observed thread => quiet thread rfl (only.fresh observed.world)
  rw [← observed_world]
  exact evaluate_keeps kept graph event (fun _ _ => trivial) (progress.observed []) (.done _)

/-- What an evaluation keeps of the world holds whenever a script begins to run, and what came of
the run is what the platform makes of that world. -/
theorem evaluate_worlds {fits : World → Prop}
    (kept : evaluator.platform.Keeps (fun _ => True) fits) (start : fits progress.world) :
    ∀ run ∈ scriptRuns (evaluator.observations graph event progress), fits run.world ∧
      run.result = (evaluator.platform.run run.script run.context run.limits run.world).1 := by
  let settled (run : ScriptRun World) := fits run.world ∧
    run.result = (evaluator.platform.run run.script run.context run.limits run.world).1
  let property (observed : Observed World) :=
    fits observed.world ∧ ∀ run ∈ scriptRuns observed.seen, settled run
  have quiet {observed : Observed World} {note : Observation World} {world : World}
      (holds : property observed) (nothing : scriptRuns [note] = []) (next : fits world) :
      property ⟨world, observed.seen ++ [note]⟩ := by
    refine ⟨next, ?_⟩
    rw [scriptRuns_append, nothing, List.append_nil]
    exact holds.2
  have watched : evaluator.observed.platform.Keeps (fun _ => True) property := by
    constructor
    · intro script context limits observed _ holds
      refine ⟨kept.run script context limits observed.world trivial holds.1, ?_⟩
      change ∀ run ∈ scriptRuns (observed.seen ++ [_]), _
      intro run held
      rw [scriptRuns_append] at held
      rcases List.mem_append.mp held with earlier | latest
      · exact holds.2 run earlier
      · cases List.mem_singleton.mp latest
        exact ⟨holds.1, rfl⟩
    · exact fun observed holds => quiet holds rfl (kept.clock observed.world holds.1)
    · exact fun observed holds => quiet holds rfl (kept.now observed.world holds.1)
    · exact fun observed holds => quiet holds rfl (kept.fresh observed.world holds.1)
  exact (evaluate_keeps watched graph event (fun _ _ => trivial) (progress.observed [])
    ⟨start, fun _ held => nomatch held⟩).2

end Evaluator

end Rulebook
