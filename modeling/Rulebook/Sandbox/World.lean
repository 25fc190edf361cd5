import Rulebook.Config.Engine
import Rulebook.Evaluation.Platform
import Rulebook.Sandbox
import Rulebook.Uuid.Supply

/-!
A world in which scripts run in a sandbox. Its clocks show the time that scripts took, and move on
a little whenever the time of day is read, so that no two readings are the same.
-/

namespace Rulebook

structure SandboxWorld where
  sandbox : Sandbox
  beginning : Instant
  /-- Nanoseconds that have passed outside of scripts. -/
  idle : Nat := 0
  supply : Uuid.Supply

namespace SandboxWorld

/-- How far the clock moves on when the time of day is read, in nanoseconds. -/
def reading : Nat := 1000

def elapsed (world : SandboxWorld) : Nat :=
  world.sandbox.time + world.idle

def timeOfDay (world : SandboxWorld) : Instant :=
  world.beginning.plus world.elapsed

def readTime (world : SandboxWorld) : Instant × SandboxWorld :=
  (world.timeOfDay, { world with idle := world.idle + reading })

def takeId (world : SandboxWorld) : Uuid × SandboxWorld :=
  let (id, supply) := world.supply.take
  (id, { world with supply })

def run (script : String) (context : ScriptContext) (limits : Script.Limits)
    (world : SandboxWorld) : Except Script.Fault ScriptOutput × SandboxWorld :=
  let (result, sandbox) := world.sandbox.run world.timeOfDay script context limits
  (result, { world with sandbox })

def platform : Platform SandboxWorld where
  check world script := (world.sandbox.check script).1
  run := run
  clock world := (world.elapsed, world)
  now := readTime
  fresh := takeId

/-- A sandbox as the settings of an engine want it. -/
def sandboxOf (network : Http.Network) (settings : EngineSettings) : Sandbox :=
  { settings :=
      ⟨settings.expressionDepth, settings.cacheSize,
        some ⟨network, settings.httpTimeout * 1000000⟩⟩ }

end SandboxWorld

end Rulebook
