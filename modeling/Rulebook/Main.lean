import Rulebook.Startup
import Std.Time.DateTime.Timestamp

/-!
The program: events come in as lines of JSON, and a line of JSON goes out for each record.
-/

namespace Rulebook.Main

def contents? (path : String) : IO (Option String) := do
  try return some (← IO.FS.readFile path)
  catch _ => return none

def contents (path : String) : IO (Except String String) := do
  try return .ok (← IO.FS.readFile path)
  catch problem => return .error (toString problem)

def environment : IO (List (String × String)) := do
  try
    let listed := (← IO.FS.readBinFile "/proc/self/environ").toList.splitOn 0
    return listed.filterMap fun bytes => do
      let text ← Text.ofBytes? bytes
      match text.splitOn "=" with
      | name :: first :: rest => return (name, "=".intercalate (first :: rest))
      | _ => none
  catch _ => return []

def now : IO Instant := do
  let nanoseconds := (← Std.Time.Timestamp.now).toNanosecondsSinceUnixEpoch.val
  return Instant.plus ⟨0, 0⟩ nanoseconds.toNat

def randomSupply : IO Uuid.Supply := do
  let bytes ← IO.getRandomBytes 16
  return ⟨bytes.foldl (fun number byte => number * 256 + byte.toNat) 0⟩

def configure (environment : List (String × String)) : IO Config := do
  let directory := (environment.lookup "CONFIG_DIR").getD "config"
  let names := ["default", Config.stageOf environment, Startup.service].map Config.fileFor
  let files ← names.mapM fun name => return (name, ← contents? s!"{directory}/{name}")
  let (config, warning) := Startup.configure (fun name => (files.lookup name).join) environment
  (← IO.getStderr).putStr warning
  return config

def startEngine (settings : EngineSettings) : IO (Engine SandboxWorld) := do
  let file ← match settings.rulesFile with
    | some path => contents path
    | none => pure (.error "")
  let sandbox := SandboxWorld.sandboxOf Http.silent settings
  let world : SandboxWorld := { sandbox, beginning := ← now, supply := ← randomSupply }
  return Startup.engineOf settings (fun _ => file) world

/-- The engine when so many nanoseconds have passed since it was started. -/
def atTime (elapsed : Nat) (engine : Engine SandboxWorld) : Engine SandboxWorld :=
  let idle := max engine.world.idle (elapsed - engine.world.sandbox.time)
  { engine with world := { engine.world with idle } }

def handle (start : Nat) (lines : List (List UInt8)) (engine : Engine SandboxWorld) :
    IO (Engine SandboxWorld) := do
  let stdout ← IO.getStdout
  let mut engine := engine
  for line in lines do
    let elapsed := (← IO.monoNanosNow) - start
    let (records, after) := Startup.evaluateLines [line] (atTime elapsed engine)
    for record in records do
      stdout.putStrLn record.toJson.render
    engine := after
  stdout.flush
  return engine

/-- Handles what comes in, line by line; `tail` is the beginning of a line. -/
partial def follow (start : Nat) (tail : List UInt8) (engine : Engine SandboxWorld) : IO Unit := do
  let chunk ← (← IO.getStdin).read 65536
  if chunk.isEmpty then
    let _ ← handle start (Stream.linesOf tail .finished) engine
  else
    let (lines, tail) := Stream.splitLines (tail ++ chunk.toList)
    follow start tail (← handle start lines engine)

end Rulebook.Main

def main : IO UInt32 := do
  let config ← Rulebook.Main.configure (← Rulebook.Main.environment)
  let engine ← Rulebook.Main.startEngine config.engine
  match Rulebook.Stream.permits? config.engine.concurrentEvaluations with
  | some _ =>
    Rulebook.Main.follow (← IO.monoNanosNow) [] engine
    return 0
  | none =>
    (← IO.getStderr).putStrLn Rulebook.Startup.tooManyPermits
    return Rulebook.Startup.panicked.toUInt32
