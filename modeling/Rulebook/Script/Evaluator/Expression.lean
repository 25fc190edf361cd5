import Rulebook.Script.Evaluator.Chain

/-!
Values of expressions.
-/

namespace Rulebook.Script.Evaluator

open Run

variable {State : Type} (evaluator : Evaluator State)

def truth (expr : Expr) : Run State Bool := do
  match ← evaluator.expr expr with
  | .bool value => pure value
  | value => fail (.wrongType "bool" value.typeName) expr.place

def template (soFar : String) : List Expr → Run State Value
  | [] => pure (.text soFar)
  | piece :: rest => do
    let text := soFar ++ (← evaluator.expr piece).toText
    let _ ← admitted (.text text)
    template text rest

/-- The items of a list, whose sizes add up. -/
def items (size : Value.Size) : List Expr → Run State (List Value)
  | [] => pure []
  | item :: rest => do
    let value ← evaluator.expr item
    let size := (size.add value.size).add ⟨1, 0, 0⟩
    match (← read).limits.excess? size with
    | some interrupt => throw interrupt
    | none => return value :: (← items size rest)

def fields (size : Value.Size) : List (String × Expr) → Run State (List (String × Value))
  | [] => pure []
  | (name, field) :: rest => do
    let value ← evaluator.expr field
    let size := (size.add value.size).add ⟨0, 1, 0⟩
    match (← read).limits.excess? size with
    | some interrupt => throw interrupt
    | none => return (name, value) :: (← fields size rest)

/-- Arguments that a function keeps; shared variables stay shared. -/
def kept (argument : Expr) : Run State Value := do
  match argument with
  | .variable name _ =>
    match ← entry? name with
    | some entry => pure entry.value
    | none => evaluator.expr argument
  | _ => evaluator.expr argument

/-- Calls a function with a variable as its first argument, which the function may change, unless
it is constant or shared. -/
def callOnVariable (name : String) (first : String) (firstPlace : Position)
    (others : List Expr) (place : Position) : Run State Value := do
  let values ← others.mapM evaluator.expr
  tick
  let value ← lookUp first firstPlace
  let (result, changed) ← evaluator.dispatch name (value :: values) place
  match changed, ← entry? first with
  | some after, some ⟨_, old, constant⟩ =>
    if ¬ constant ∧ ¬ old matches .cell _ then store first after
    pure result
  | _, _ => pure result

def call (name : String) (arguments : List Expr) (place : Position) : Run State Value := do
  match name, arguments with
  | "call", function :: others =>
    let function' ← evaluator.expr function
    evaluator.callValue function' (← others.mapM evaluator.expr) function.place place
  | "curry", function :: others =>
    match ← evaluator.expr function with
    | .function name bound => return .function name (bound ++ (← others.mapM evaluator.kept))
    | other => wrongFunction other function.place
  | "is_shared", [.variable name namePlace] =>
    match ← entry? name with
    | some entry => return .bool (entry.value matches .cell _)
    | none => fail (.unknownVariable name) namePlace
  | _, .variable first firstPlace :: others =>
    evaluator.callOnVariable name first firstPlace others place
  | _, .receiver receiverPlace :: others =>
    let values ← others.mapM evaluator.expr
    match (← get).receiver with
    | none => fail .noReceiver receiverPlace
    | some receiver =>
      let (result, changed) ← evaluator.dispatch name (receiver.value :: values) place
      match changed with
      | some after =>
        if ¬ receiver.constant then
          modify fun machine => { machine with receiver := some { receiver with value := after } }
      | none => pure ()
      pure result
  | _, _ => return (← evaluator.dispatch name (← arguments.mapM evaluator.expr) place).1

/-- A name behind names of modules; the only module is that of the constants of the script. -/
def qualified (path : List String) (name : String) (arguments : Option (List Expr))
    (place : Position) : Run State Value := do
  match path, arguments with
  | ["global"], none =>
    match (← get).globals.find? (·.1 == name) with
    | some (_, value) => pure value
    | none => fail (.unknownVariable s!"global::{name}") place
  | ["global"], some arguments =>
    let values ← arguments.mapM evaluator.expr
    fail (.unknownFunction s!"global::{signature name values}") place
  | _, _ => fail (.unknownModule ("::".intercalate path)) place

def readExpr (expr : Expr) : Run State Value := do
  tick
  match expr with
  | .literal value _ => pure value
  | .template pieces _ => evaluator.template "" pieces
  | .list values _ => return .list (← evaluator.items ⟨0, 0, 0⟩ values)
  | .map named _ => return .ofFields (← evaluator.fields ⟨0, 0, 0⟩ named)
  | .variable name place => lookUp name place
  | .qualified path name arguments place => evaluator.qualified path name arguments place
  | .receiver place =>
    match (← get).receiver with
    | some receiver => resolve receiver.value
    | none => fail .noReceiver place
  | .call name true arguments place =>
    match arguments with
    | [left, right] =>
      let first ← evaluator.expr left
      evaluator.operate name first (← evaluator.expr right) place
    | _ => return (← evaluator.outside name (← arguments.mapM evaluator.expr) false place).1
  | .call name false arguments place => evaluator.call name arguments place
  | .chain root steps => evaluator.chain root steps none
  | .both left right _ =>
    if ← evaluator.truth left then return .bool (← evaluator.truth right) else pure (.bool false)
  | .either left right _ =>
    if ← evaluator.truth left then pure (.bool true) else return .bool (← evaluator.truth right)
  | .fallback left right _ =>
    match ← evaluator.expr left with
    | .unit => evaluator.expr right
    | value => pure value
  | .block body _ => evaluator.block body

end Rulebook.Script.Evaluator
