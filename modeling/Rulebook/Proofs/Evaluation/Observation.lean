import Rulebook.Evaluation.Pass

/-!
An evaluation can be watched: whatever it asks of the world is noted down, in order, and watching
changes nothing in what comes out. What an evaluation does can so be told by what it has seen.
-/

namespace Rulebook

/-- A script that was run in a world, and what came of it. -/
structure ScriptRun (World : Type) where
  world : World
  script : String
  context : ScriptContext
  limits : Script.Limits
  result : Except Script.Fault ScriptOutput

/-- What the world was asked for, with its answer. -/
inductive Observation (World : Type) where
  | clock (reading : Nat)
  | run (run : ScriptRun World)
  | now (instant : Instant)
  | fresh (id : Uuid)

/-- A world with all that has been seen of it, the latest last. -/
structure Observed (World : Type) where
  world : World
  seen : List (Observation World)

variable {World α β : Type}

def Observed.noting (note : World → α → Observation World) (action : World → α × World)
    (observed : Observed World) : α × Observed World :=
  ((action observed.world).1,
    ⟨(action observed.world).2, observed.seen ++ [note observed.world (action observed.world).1]⟩)

def Platform.observed (platform : Platform World) : Platform (Observed World) where
  check observed := platform.check observed.world
  run script context limits :=
    Observed.noting (fun world result => .run ⟨world, script, context, limits, result⟩)
      (platform.run script context limits)
  clock := Observed.noting (fun _ => .clock) platform.clock
  now := Observed.noting (fun _ => .now) platform.now
  fresh := Observed.noting (fun _ => .fresh) platform.fresh

def Evaluator.observed (evaluator : Evaluator World) : Evaluator (Observed World) :=
  ⟨evaluator.platform.observed, evaluator.limits, evaluator.policy, evaluator.allowance⟩

def Progress.observed (progress : Progress World) (seen : List (Observation World)) :
    Progress (Observed World) :=
  ⟨⟨progress.world, seen⟩, progress.metrics⟩

/-- Watched and unwatched, a part of an evaluation does the same, and its value goes with what is
seen on the way. -/
def Observes (watched : Evaluation (Observed World) α) (plain : Evaluation World α)
    (spec : α → List (Observation World) → Prop) : Prop :=
  ∀ progress seen, ∃ more,
    watched (progress.observed seen) =
        ((plain progress).1, (plain progress).2.observed (seen ++ more)) ∧
      spec (plain progress).1 more

namespace Observes

theorem imp {watched : Evaluation (Observed World) α} {plain : Evaluation World α}
    {spec weaker : α → List (Observation World) → Prop} (observes : Observes watched plain spec)
    (step : ∀ value seen, spec value seen → weaker value seen) :
    Observes watched plain weaker := by
  intro progress seen
  obtain ⟨more, same, holds⟩ := observes progress seen
  exact ⟨more, same, step _ _ holds⟩

theorem pure {value : α} {spec : α → List (Observation World) → Prop} (holds : spec value []) :
    Observes (Pure.pure value) (Pure.pure value : Evaluation World α) spec := by
  intro progress seen
  refine ⟨[], ?_, holds⟩
  rw [List.append_nil]
  rfl

theorem value (value : α) :
    Observes (Pure.pure value) (Pure.pure value : Evaluation World α) fun result seen =>
      result = value ∧ seen = [] :=
  pure ⟨rfl, rfl⟩

theorem bind {watched : Evaluation (Observed World) α} {plain : Evaluation World α}
    {watchedRest : α → Evaluation (Observed World) β} {plainRest : α → Evaluation World β}
    {firstSpec : α → List (Observation World) → Prop} {spec : β → List (Observation World) → Prop}
    (first : Observes watched plain firstSpec)
    (rest : ∀ value earlier, firstSpec value earlier →
      Observes (watchedRest value) (plainRest value) fun result later =>
        spec result (earlier ++ later)) :
    Observes (watched >>= watchedRest) (plain >>= plainRest) spec := by
  intro progress seen
  obtain ⟨earlier, sameFirst, holdsFirst⟩ := first progress seen
  obtain ⟨later, sameRest, holdsRest⟩ :=
    rest (plain progress).1 earlier holdsFirst (plain progress).2 (seen ++ earlier)
  refine ⟨earlier ++ later, ?_, holdsRest⟩
  change watchedRest (watched (progress.observed seen)).1 (watched (progress.observed seen)).2 = _
  rw [sameFirst, sameRest, List.append_assoc]
  rfl

theorem ofPlatform (note : World → α → Observation World) (action : World → α × World) :
    Observes (Evaluation.withWorld (Observed.noting note action)) (Evaluation.withWorld action)
      fun value seen => ∃ world, value = (action world).1 ∧ seen = [note world value] :=
  fun progress _ => ⟨_, rfl, progress.world, rfl, rfl⟩

theorem ofReading (note : α → Observation World) (action : World → α × World) :
    Observes (Evaluation.withWorld (Observed.noting (fun _ => note) action))
      (Evaluation.withWorld action) fun value seen => seen = [note value] :=
  fun _ _ => ⟨_, rfl, rfl⟩

theorem count (metric : Metric) :
    Observes (Evaluation.count metric) (Evaluation.count metric : Evaluation World Unit)
      fun _ seen => seen = [] := by
  intro progress seen
  refine ⟨[], ?_, rfl⟩
  rw [List.append_nil]
  rfl

end Observes

end Rulebook
