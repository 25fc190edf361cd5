import Rulebook.Sandbox.Functions
import Rulebook.Script.Evaluator
import Rulebook.Script.Expr.Parser
import Rulebook.Script.Fault

/-!
A sandbox compiles scripts and runs them. What outlives a run is the data that scripts stored,
the trace of what they said, and the programs that their texts stand for.
-/

namespace Rulebook

open Script (Fault Interrupt Limits Program Value)

structure SandboxSettings where
  expressionDepth : Nat
  /-- How many programs are kept; none if it is zero. -/
  cacheSize : Nat
  http : Option HttpAccess

structure Sandbox where
  settings : SandboxSettings
  /-- The programs that are kept with their texts, the latest first. -/
  programs : List (String × Program) := []
  data : DataStore := {}
  /-- The latest entry first. -/
  trace : List TraceEntry := []
  /-- How long scripts ran, in nanoseconds. -/
  time : Nat := 0

namespace Sandbox

/-! Compiling -/

def syntaxFault (fault : Script.SyntaxFault) : Fault :=
  .syntactic fault.message (some fault.place.line)

def compileAnew (settings : SandboxSettings) (script : String) : Except Fault Program :=
  match Program.parse script settings.expressionDepth with
  | .ok program => .ok program.simplified
  | .error fault => .error (syntaxFault fault)

def kept? (script : String) (sandbox : Sandbox) : Option Program :=
  (sandbox.programs.find? (·.1 == script)).map (·.2)

/-- Keeps a program; the oldest one gives way where there is no more room. -/
def keep (script : String) (program : Program) (sandbox : Sandbox) : Sandbox :=
  { sandbox with
    programs := ((script, program) :: sandbox.programs).take sandbox.settings.cacheSize }

/-- The program of a text, which is kept from now on. -/
def compile (script : String) (sandbox : Sandbox) : Except Fault Program × Sandbox :=
  match sandbox.kept? script with
  | some program => (.ok program, sandbox)
  | none =>
    match compileAnew sandbox.settings script with
    | .ok program => (.ok program, sandbox.keep script program)
    | .error fault => (.error fault, sandbox)

def check (script : String) (sandbox : Sandbox) : Except Fault Unit × Sandbox :=
  let (result, sandbox) := sandbox.compile script
  (result.map fun _ => (), sandbox)

/-! Running -/

def faultOf (limits : Limits) : Interrupt → Fault
  | .failed problem place => .runtime (problem.report place)
  | .tooManyOperations => .exhausted s!"操作数超过上限 {limits.operations}"
  | .tooManyCalls => .exhausted s!"调用深度超过上限 {limits.callLevels}"
  | .tooLarge what => .exhausted s!"{what} 超过上限"
  | .timedOut => .timeout (limits.timeout / 1000000)
  | .leave _ | .next | .give _ | .finish _ => .runtime ""

/-- The JSON form of what a script ended with. -/
def resultOf (limits : Limits) (result : Except Interrupt Value) : Except Fault Json :=
  match result with
  | .error interrupt => .error (faultOf limits interrupt)
  | .ok value =>
    match value.toJson with
    | .ok json => .ok json
    | .error reason =>
      .error (.misshapen "JSON 兼容的值" s!"{value.fullTypeName} ({reason})")

def runReadOnly (now : Instant) (program : Program) (limits : Limits)
    (constants : List (String × Value)) (sandbox : Sandbox) :
    Except Fault ScriptOutput × Sandbox :=
  let ending := program.run limits (HostFunctions.readOnly now) constants sandbox.trace
  ((resultOf limits ending.result).map (⟨·, []⟩),
    { sandbox with trace := ending.host, time := sandbox.time + ending.time })

/-- Runs a program with effects. What it stored stays even if it fails; its log does not. -/
def runWithEffects (now : Instant) (program : Program) (invocation : Invocation)
    (limits : Limits) (constants : List (String × Value)) (sandbox : Sandbox) :
    Except Fault ScriptOutput × Sandbox :=
  let scope := invocation.scope
  let host := HostFunctions.withEffects now invocation limits sandbox.settings.http
  let effects : Effects := ⟨[], sandbox.trace, sandbox.data.shelf scope⟩
  let ending := program.run limits host constants effects
  ((resultOf limits ending.result).map (⟨·, ending.host.logs.reverse⟩),
    { sandbox with
      trace := ending.host.trace
      data := sandbox.data.setShelf scope ending.host.shelf
      time := sandbox.time + ending.time })

/-- Runs a script; the variables of its context are constants. -/
def run (now : Instant) (script : String) (context : ScriptContext) (limits : Limits)
    (sandbox : Sandbox) : Except Fault ScriptOutput × Sandbox :=
  match sandbox.compile script with
  | (.error fault, sandbox) => (.error fault, sandbox)
  | (.ok program, sandbox) =>
    let constants := context.values.map fun (name, value) => (name, Value.ofJson value)
    match context.capability with
    | .readOnly => sandbox.runReadOnly now program limits constants
    | .effects => sandbox.runWithEffects now program context.invocation limits constants

/-- The trace so far in order, and the sandbox without it. -/
def takeTrace (sandbox : Sandbox) : List TraceEntry × Sandbox :=
  (sandbox.trace.reverse, { sandbox with trace := [] })

end Sandbox

end Rulebook
