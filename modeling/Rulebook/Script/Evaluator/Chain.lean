import Rulebook.Script.Evaluator.Call
import Rulebook.Script.Value.Part

/-!
Parts of values and methods on them, one step after the other. A change at the end of the steps
goes back through all the values that it lies in.
-/

namespace Rulebook.Script

/-- A step with its arguments evaluated. -/
inductive Reach where
  | property (name : String) (place : Position) (optional : Bool) (sign : Position)
  | method (name : String) (arguments : List Value) (first place : Position) (optional : Bool)
      (sign : Position)
  | index (key : Value) (place : Position) (optional : Bool) (sign : Position)

def Reach.optional : Reach → Bool
  | .property _ _ optional _ | .method _ _ _ _ optional _ | .index _ _ optional _ => optional

/-- What is assigned at the end of the steps. -/
structure Update where
  operator : Option String
  value : Value
  place : Position
  /-- The variable that the steps start from. -/
  root : String
  rootPlace : Position

namespace Evaluator

open Run

variable {State : Type} (evaluator : Evaluator State)

def operate (sign : String) (left right : Value) (place : Position) : Run State Value := do
  match Operator.result? sign left right with
  | some result => admitted (← placing place (lift (result.mapError Interrupt.of)))
  | none => return (← evaluator.outside sign [left, right] false place).1

def combined (operator : Option String) (old value : Value) (place : Position) :
    Run State Value := do
  match operator, old, value with
  | none, _, _ => pure value
  | some "+", .list items, .list others => admitted (.list (items ++ others))
  | some "+", .list items, item => admitted (.list (items ++ [item]))
  | some sign, _, _ => do
    admitted (← evaluator.operate sign old value place)

def apply (update : Update) (old : Value) (locked : Bool) : Run State Value :=
  if locked then fail (.constantChanged update.root) update.rootPlace
  else evaluator.combined update.operator old update.value update.place

def reach (step : Step) : Run State Reach := do
  match step with
  | .property name place optional sign => return .property name place optional sign
  | .method name arguments place optional sign =>
    let values ← arguments.mapM evaluator.expr
    let first := (arguments.head?.map Expr.place).getD place
    return .method name values first place optional sign
  | .index key optional sign => return .index (← evaluator.expr key) key.start optional sign

/-- Goes through the steps from a value. Answers the result and what the value has become, if it
has changed. -/
def walk (locked : Bool) (value : Value) (update : Option Update) :
    List Reach → Run State (Value × Option Value)
  | [] => do
    match update with
    | none => return (value, none)
    | some update => return (.unit, some (← evaluator.apply update value locked))
  | step :: rest => do
    if step.optional ∧ value.isUnit then return (.unit, none)
    tick
    match step with
    | .index key place _ sign =>
      match rest, update with
      | [], some update =>
        if value.hasParts then
          let old ← placing sign (lift (value.part key place))
          let part ← admitted (← evaluator.apply update old locked)
          return (.unit, some (← lift (value.withPart key part place)))
        else
          let types := s!"{value.typeName} [{key.typeName}] = {update.value.typeName}"
          fail (.notIndexable types) sign
      | _, _ =>
        let part ← placing sign (lift (value.part key place))
        let (result, changed) ← walk locked part update rest
        match changed with
        | some part => return (result, some (← lift (value.withPart key part place)))
        | none => return (result, none)
    | .property name place _ _ =>
      match value with
      | .map fields =>
        let part := (Value.getField name fields).getD .unit
        let (result, changed) ← walk locked part update rest
        match changed with
        | some part =>
          let after := Value.map (Value.setField name part fields)
          return (result, some (← if rest.isEmpty then admitted after else pure after))
        | none => return (result, none)
      | _ =>
        match rest, update with
        | [], some ⟨none, new, _, _, _⟩ =>
          fail (.lockedProperty name value.typeName new.typeName) place
        | _, _ =>
          let part ← placing place (lift ((Library.property name value).mapError Interrupt.of))
          match rest, update with
          | [], some update =>
            let new ← evaluator.apply update part false
            fail (.lockedProperty name value.typeName new.typeName) place
          | _, _ =>
            let (result, _) ← walk false part update rest
            return (result, none)
    | .method name arguments first place _ _ =>
      let (result, after) ← evaluator.method name arguments value locked first place
      let (result, _) ← walk false result update rest
      return (result, after)

/-- The value of a variable; a function of the script can be named like one. -/
def lookUp (name : String) (place : Position) : Run State Value := do
  match ← entry? name with
  | some entry => resolve entry.value
  | none =>
    if (← read).functions.any (·.name == name) then pure (.function name [])
    else fail (.unknownVariable name) place

/-- Goes through steps from what they start from, and puts back what has changed there. -/
def chain (root : Expr) (steps : List Step) (update : Option (Option String × Value × Position)) :
    Run State Value := do
  let reaches ← steps.mapM evaluator.reach
  let target (name : String) (place : Position) : Option Update :=
    update.map fun (operator, value, sign) => ⟨operator, value, sign, name, place⟩
  match root with
  | .variable name place => do
    tick
    let value ← lookUp name place
    let locked ← match ← entry? name with
      | some entry => isConstant entry
      | none => pure false
    let (result, changed) ← evaluator.walk locked value (target name place) reaches
    match changed with
    | some after => if ¬ locked then store name after
    | none => pure ()
    pure result
  | .receiver place => do
    tick
    match (← get).receiver with
    | none => fail .noReceiver place
    | some receiver =>
      let (result, changed) ←
        evaluator.walk receiver.constant (← resolve receiver.value) (target "" place) reaches
      match changed with
      | some after =>
        modify fun machine => { machine with receiver := some { receiver with value := after } }
      | none => pure ()
      pure result
  | _ => do
    let value ← evaluator.expr root
    return (← evaluator.walk false value (target "" root.place) reaches).1

end Evaluator

end Rulebook.Script
