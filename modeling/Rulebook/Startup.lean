import Rulebook.Config
import Rulebook.Rules.Seed
import Rulebook.Sandbox.World
import Rulebook.Stream

/-!
How the program starts. Neither a broken configuration nor missing rules keep it from running.
-/

namespace Rulebook.Startup

/-- The service that this program is. -/
def service : String := "script-rule-engine"

/-- The configuration to go by, and what there is to say about it. -/
def configure (files : String → Option String) (environment : List (String × String)) :
    Config × String :=
  match Config.load service files environment with
  | .ok config => (config, "")
  | .error problem => ({}, s!"Failed to load config, using defaults: {problem.message}\n")

variable {World : Type}

/-- Loads the rules to start with; `file` is what becomes of reading a file. -/
def loadRules (settings : EngineSettings) (file : String → Except String String) :
    EngineM World (Option SeedSummary) := do
  match settings.rulesFile with
  | none => return none
  | some path =>
    match file path with
    | .error reason => throw (Seed.unreadable path reason)
    | .ok text => return some (← Seed.loadText text)

/-- An engine with the rules to start with, or with what could be loaded of them. -/
def engineOf (settings : EngineSettings) (file : String → Except String String)
    (world : SandboxWorld) : Engine SandboxWorld :=
  let engine := Engine.create SandboxWorld.platform settings world
  ((loadRules settings file).run engine).2

/-- Evaluates the events of a stream, and gives the records in order. -/
def evaluateLines (lines : List (List UInt8)) (engine : Engine SandboxWorld) :
    List ExecutionRecord × Engine SandboxWorld :=
  match (Stream.takeLines none lines).run engine with
  | (.ok report, engine) => (report.delivered.flatten, engine)
  | (.error _, engine) => ([], engine)

/-- What the program says when it ends because there cannot be so many permits. -/
def tooManyPermits : String :=
  s!"a semaphore may not have more than MAX_PERMITS permits ({Stream.mostPermits})"

/-- How the program exits then. -/
def panicked : Nat := 101

end Rulebook.Startup
