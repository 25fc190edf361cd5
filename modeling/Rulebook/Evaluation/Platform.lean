import Rulebook.Evaluation.Metric
import Rulebook.Sandbox.Context
import Rulebook.Script.Limits
import Rulebook.Time.Instant

/-!
What the evaluation of rules needs from the world around it: scripts that run, clocks, and fresh
identifiers. The world is any type; what it is changed by goes through the functions here.
-/

namespace Rulebook

structure Platform (World : Type) where
  check : World → String → Except Script.Fault Unit
  run : String → ScriptContext → Script.Limits → World → Except Script.Fault ScriptOutput × World
  /-- Reads a clock that never goes back, in nanoseconds. -/
  clock : World → Nat × World
  now : World → Instant × World
  fresh : World → Uuid × World

/-- The world during an evaluation, and what has been counted, the latest first. -/
structure Progress (World : Type) where
  world : World
  metrics : List Metric := []

abbrev Evaluation (World : Type) := StateM (Progress World)

namespace Evaluation

variable {World α : Type}

def withWorld (action : World → α × World) : Evaluation World α := fun progress =>
  let (value, world) := action progress.world
  (value, { progress with world })

def count (metric : Metric) : Evaluation World Unit :=
  modify fun progress => { progress with metrics := metric :: progress.metrics }

end Evaluation

end Rulebook
