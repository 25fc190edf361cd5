import Rulebook.Script.Evaluator.Expression

/-!
What statements do. The value of a block is that of its last statement.
-/

namespace Rulebook.Script

inductive Visits where
  | items (values : List Value)
  | numbers (next last step : Int)
  | floats (next last step : Float)

def Visits.of? : Value → Option Visits
  | .list values | .stream values => some (.items values)
  | .text text => some (.items (text.toList.map .char))
  | .blob bytes => some (.items (bytes.map fun byte => .int byte.toNat))
  | .range first last closed => some (.numbers first (Library.rangeEnd last closed) 1)
  | .steps first last step => some (.numbers first last step)
  | .floatSteps first last step => some (.floats first last step)
  | _ => none

def Visits.next? : Visits → Option (Value × Visits)
  | .items [] => none
  | .items (value :: rest) => some (value, .items rest)
  | .numbers next last step =>
    if (if 0 < step then next < last else last < next) then
      some (.int next, .numbers (next + step) last step)
    else none
  | .floats next last step =>
    if (if 0 < step then next < last else last < next) then
      some (.float next, .floats (next + step) last step)
    else none

namespace Evaluator

open Run

variable {State : Type} (evaluator : Evaluator State)

def optional (value : Option Expr) : Run State Value := do
  match value with
  | some expr => resolve (← evaluator.expr expr)
  | none => pure .unit

/-- One round of a loop. Answers the value of the loop if the round leaves it. -/
def round (body : List Stmt) : Run State (Option Value) := do
  if body.isEmpty then
    tick
    return none
  let count := (← get).scope.length
  tryCatch
    (do
      let _ ← evaluator.block body
      pure none)
    fun
      | .leave value => do
        forget count
        pure (some value)
      | .next => do
        forget count
        pure none
      | interrupt => throw interrupt

def repeatWhile (condition : Option Expr) (body : List Stmt) : Nat → Run State Value
  | 0 => throw .timedOut
  | rounds + 1 => do
    let goesOn ← match condition with
      | none => pure true
      | some expr => evaluator.truth expr
    if goesOn then
      match ← evaluator.round body with
      | some value => pure value
      | none => repeatWhile condition body rounds
    else pure .unit

/-- Goes on as long as the condition has the value after a round. -/
def repeatUntil (body : List Stmt) (condition : Expr) (value : Bool) : Nat → Run State Value
  | 0 => throw .timedOut
  | rounds + 1 => do
    match ← evaluator.round body with
    | some result => pure result
    | none =>
      if (← evaluator.truth condition) == value then repeatUntil body condition value rounds
      else pure .unit

/-- Visits values, each in a variable, and counts them if asked. -/
def visitAll (item : String) (counter : Option String) (body : List Stmt) (visits : Visits)
    (index : Int) : Nat → Run State Value
  | 0 => throw .timedOut
  | rounds + 1 => do
    match visits.next? with
    | none => pure .unit
    | some (value, rest) =>
      let count := (← get).scope.length
      match counter with
      | some name => push ⟨name, .int index, false⟩
      | none => pure ()
      push ⟨item, value, false⟩
      let left ← evaluator.round body
      forget count
      match left with
      | some result => pure result
      | none => visitAll item counter body rest (index + 1) rounds

def firstCase : List Case → Run State (Option Expr)
  | [] => pure none
  | chosen :: rest => do
    let holds ← match chosen.condition with
      | .literal (.bool value) _ => pure value
      | condition => evaluator.truth condition
    if holds then pure (some chosen.body) else firstCase rest

/-- Spans are looked at only if no single value is that of the subject. -/
def choose (subject : Expr) (cases : List Case) (default : Option Expr) : Run State Value := do
  let value ← evaluator.expr subject
  let single := cases.filter fun chosen => chosen.keys.any value.same
  let spanning := cases.filter fun chosen => chosen.spans.any (·.covers value)
  match ← evaluator.firstCase (if single.isEmpty then spanning else single) with
  | some body => evaluator.expr body
  | none =>
    match default with
    | some body => evaluator.expr body
    | none => pure .unit

/-- A problem goes to the handler; a handler that throws nothing throws the problem again. -/
def attempt (body : List Stmt) (caught : Option String) (handler : List Stmt) :
    Run State Value := do
  let before ← get
  let count := before.scope.length
  tryCatch (evaluator.block body) fun
    | .failed problem place => do
      modify fun machine => { machine with level := before.level }
      forget count
      match caught with
      | some name => push ⟨name, problem.caught place, false⟩
      | none => pure ()
      tryCatch
        (do
          let _ ← evaluator.block handler
          forget count
          pure .unit)
        fun
          | .failed (.raised .unit) again => do
            throw (.failed problem again)
          | interrupt => throw interrupt
    | interrupt => throw interrupt

def assign (target : Expr) (operator : Option String) (value : Value) (place : Position) :
    Run State Unit := do
  match target with
  | .variable name namePlace =>
    tick
    match ← entry? name with
    | none => fail (.unknownVariable name) namePlace
    | some entry =>
      let old ← resolve entry.value
      let update : Update := ⟨operator, value, place, name, namePlace⟩
      store name (← evaluator.apply update old (← isConstant entry))
  | .receiver receiverPlace =>
    let _ ← evaluator.chain (.receiver receiverPlace) [] (some (operator, value, place))
  | .chain root steps =>
    let _ ← evaluator.chain root steps (some (operator, value, place))
  | _ => pure ()

def readStmt (stmt : Stmt) : Run State Value := do
  tick
  match stmt with
  | .nothing => pure .unit
  | .expr value => resolve (← evaluator.expr value)
  | .declare name value constant =>
    let value ← resolve (← evaluator.expr value)
    push ⟨name, value, constant⟩
    pure .unit
  | .assign target operator value place =>
    let value ← resolve (← evaluator.expr value)
    evaluator.assign target operator value place
    pure .unit
  | .branch condition body other =>
    if ← evaluator.truth condition then evaluator.block body else evaluator.block other
  | .choose subject cases default => evaluator.choose subject cases default
  | .loop condition body => do
    evaluator.repeatWhile condition body (← read).limits.rounds
  | .again body condition value => do
    evaluator.repeatUntil body condition value (← read).limits.rounds
  | .each item counter source body => do
    match Visits.of? (← resolve (← evaluator.expr source)) with
    | some visits => evaluator.visitAll item counter body visits 0 (← read).limits.rounds
    | none => fail .notIterable source.start
  | .leave value => do throw (.leave (← evaluator.optional value))
  | .next => throw .next
  | .give value => do throw (.give (← evaluator.optional value))
  | .fail value place => do fail (.raised (← evaluator.optional value)) place
  | .attempt body caught handler => evaluator.attempt body caught handler
  | .block body => evaluator.block body
  | .share names =>
    for (name, _) in names do
      Run.share name
    pure .unit

def sequence (run : Stmt → Run State Value) (last : Value) : List Stmt → Run State Value
  | [] => pure last
  | stmt :: rest => do
    let value ← run stmt
    sequence run value rest

end Evaluator

end Rulebook.Script
