import Rulebook.Script.Expr
import Rulebook.Script.Limits

/-!
What a running script works with: variables, the count of its operations, and a host outside the
script that it can reach through functions.
-/

namespace Rulebook.Script

structure Host (State : Type) where
  print : String → State → State
  debug : String → State → State
  /-- A function of the host, if there is one of the name for the arguments. -/
  function? : String → List Value → Option (State → Except Problem Value × State)

structure Variable where
  name : String
  value : Value
  constant : Bool
  deriving Inhabited

/-- A value that several functions share. -/
structure Cell where
  value : Value
  constant : Bool
  deriving Inhabited

/-- What a function was called on. -/
structure Receiver where
  value : Value
  constant : Bool
  deriving Inhabited

structure Machine (State : Type) where
  /-- The variables in reach, the latest first. -/
  scope : List Variable
  cells : Array Cell
  /-- Constants that functions can reach too. -/
  globals : List (String × Value)
  receiver : Option Receiver
  operations : Nat
  /-- How many calls lie in one another. -/
  level : Nat
  host : State

structure Setup (State : Type) where
  limits : Limits
  functions : List Function
  host : Host State

abbrev Run (State : Type) := ReaderT (Setup State) (EStateM Interrupt (Machine State))

/-- How many nanoseconds an operation takes. -/
def operationTime : Nat := 100

/-- Time is looked at whenever so many operations are done. -/
def clockInterval : Nat := 64

/-- More than how many operations a run can do. -/
def Limits.rounds (limits : Limits) : Nat :=
  (if limits.operations = 0 then limits.timeout / operationTime else limits.operations) +
    clockInterval + 1

namespace Run

variable {State α : Type}

def fail (problem : Problem) (place : Position) : Run State α :=
  throw (.failed problem (some place))

def lift (result : Except Interrupt α) : Run State α :=
  match result with
  | .ok value => pure value
  | .error interrupt => throw interrupt

/-- Gives a place to a problem that has none. -/
def placing (place : Position) (action : Run State α) : Run State α := fun setup machine =>
  match action setup machine with
  | .ok value machine => .ok value machine
  | .error interrupt machine => .error (interrupt.placed place) machine

def tick : Run State Unit := do
  let limits := (← read).limits
  let count := (← get).operations + 1
  modify fun machine => { machine with operations := count }
  if Limits.exceeds count limits.operations then throw .tooManyOperations
  else if count % clockInterval = 0 ∧ limits.timeout ≤ count * operationTime then
    throw .timedOut

/-- The value, unless it is too large. -/
def admitted (value : Value) : Run State Value := do
  lift ((← read).limits.accept value)
  pure value

/-! Variables -/

def push (entry : Variable) : Run State Unit :=
  modify fun machine => { machine with scope := entry :: machine.scope }

/-- Forgets the variables that are later than the first so many. -/
def forget (count : Nat) : Run State Unit :=
  modify fun machine =>
    { machine with scope := machine.scope.drop (machine.scope.length - count) }

def enclosed (action : Run State α) : Run State α := do
  let count := (← get).scope.length
  let value ← action
  forget count
  pure value

def entry? (name : String) : Run State (Option Variable) := do
  return (← get).scope.find? (·.name == name)

/-- The value itself where there is a shared one. -/
def resolve (value : Value) : Run State Value := do
  match value with
  | .cell index => return ((← get).cells[index]?.map Cell.value).getD .unit
  | _ => pure value

def setVariable (name : String) (value : Value) : List Variable → List Variable
  | [] => []
  | entry :: rest =>
    if entry.name == name then { entry with value } :: rest
    else entry :: setVariable name value rest

/-- Gives a variable another value, through the shared one if there is one. -/
def store (name : String) (value : Value) : Run State Unit := do
  match ← entry? name with
  | some ⟨_, .cell index, _⟩ =>
    modify fun machine =>
      { machine with cells := machine.cells.modify index fun cell => { cell with value } }
  | _ => modify fun machine => { machine with scope := setVariable name value machine.scope }

/-- Makes the value of a variable a shared one. -/
def share (name : String) : Run State Unit := do
  match ← entry? name with
  | none | some ⟨_, .cell _, _⟩ => pure ()
  | some ⟨_, value, constant⟩ =>
    modify fun machine =>
      { machine with
        scope := setVariable name (.cell machine.cells.size) machine.scope
        cells := machine.cells.push ⟨value, constant⟩ }

def isConstant (entry : Variable) : Run State Bool := do
  match entry.value with
  | .cell index =>
    return entry.constant || ((← get).cells[index]?.map Cell.constant).getD false
  | _ => pure entry.constant

def function? (name : String) (parameters : Nat) : Run State (Option Function) := do
  return (← read).functions.find? fun function =>
    function.name == name && function.parameters.length == parameters

end Run

end Rulebook.Script
