import Rulebook.Script.Evaluator.Statement
import Rulebook.Script.Simplify

/-!
Runs of programs. How deep evaluation goes is bounded by how deep the program is written and by
how many calls may lie in one another.
-/

namespace Rulebook.Script

namespace Evaluator

variable {State : Type}

mutual

def evaluateExpr : Nat → Expr → Run State Value
  | 0, _ => throw .tooManyCalls
  | fuel + 1, expr => readExpr ⟨evaluateExpr fuel, evaluateBlock fuel⟩ expr

def evaluateBlock : Nat → List Stmt → Run State Value
  | 0, _ => throw .tooManyCalls
  | fuel + 1, body =>
    Run.enclosed (sequence (readStmt ⟨evaluateExpr fuel, evaluateBlock fuel⟩) .unit body)

end

/-- The statements of a script itself: constants among them can be reached by functions. -/
def evaluateTop (fuel : Nat) : List Stmt → Run State Value
  | [] => pure .unit
  | stmt :: rest => do
    let value ← readStmt ⟨evaluateExpr fuel, evaluateBlock fuel⟩ stmt
    match stmt, (← get).scope with
    | .declare name _ true, entry :: _ =>
      modify fun machine => { machine with globals := (name, entry.value) :: machine.globals }
    | _, _ => pure ()
    if rest.isEmpty then pure value else evaluateTop fuel rest

end Evaluator

structure Ending (State : Type) where
  result : Except Interrupt Value
  operations : Nat
  host : State

def Ending.time {State : Type} (ending : Ending State) : Nat :=
  ending.operations * operationTime

def Program.run {State : Type} (program : Program) (limits : Limits) (host : Host State)
    (constants : List (String × Value)) (state : State) : Ending State :=
  let fuel := (limits.callLevels + 2) * (2 * program.depth + 8)
  let scope := constants.map fun (name, value) => Variable.mk name value true
  let machine : Machine State := ⟨scope.reverse, #[], [], none, 0, 0, state⟩
  let setup : Setup State := ⟨limits, program.functions, host⟩
  match Evaluator.evaluateTop fuel program.body setup machine with
  | .ok value machine => ⟨.ok value, machine.operations, machine.host⟩
  | .error (.give value) machine | .error (.finish value) machine =>
    ⟨.ok value, machine.operations, machine.host⟩
  | .error interrupt machine => ⟨.error interrupt, machine.operations, machine.host⟩

end Rulebook.Script
