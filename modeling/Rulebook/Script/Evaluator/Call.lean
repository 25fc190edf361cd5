import Rulebook.Script.Library
import Rulebook.Script.Token
import Rulebook.Script.Machine

/-!
Calls of functions: those of the script, of its host and of the library. A call in method style
hands the function what it was called on, and takes back what has become of it.
-/

namespace Rulebook.Script

structure Evaluator (State : Type) where
  expr : Expr → Run State Value
  /-- Statements with variables of their own. -/
  block : List Stmt → Run State Value

namespace Evaluator

open Run

variable {State : Type} (evaluator : Evaluator State)

/-- Calls a function of the script; also answers what the receiver has become. -/
def invoke (function : Function) (receiver : Option Receiver) (arguments : List Value) :
    Run State (Value × Option Value) := do
  if function.body.isEmpty then return (.unit, receiver.map Receiver.value)
  tick
  let before ← get
  if (← read).limits.callLevels < before.level + 1 then throw .tooManyCalls
  let parameters := (function.parameters.zip arguments).map fun (name, value) =>
    Variable.mk name value false
  set { before with scope := parameters.reverse, receiver, level := before.level + 1 }
  let restore : Run State Unit := modify fun machine =>
    { machine with scope := before.scope, receiver := before.receiver, level := before.level }
  let result ← tryCatch (evaluator.block function.body) fun
    | .give value => pure value
    | interrupt => do
      restore
      throw interrupt
  let after := (← get).receiver
  restore
  return (← resolve result, after.map Receiver.value)

/-- Calls a function of the host or the library; also answers what the first argument has become,
if it changes. -/
def native (name : String) (arguments : List Value) (locked : Bool) (place : Position) :
    Run State (Value × Option Value) := do
  let setup ← read
  match setup.host.function? name arguments with
  | some function =>
    let machine ← get
    let (result, host) := function machine.host
    set { machine with host }
    let value ← placing place (lift (result.mapError Interrupt.of))
    return (← admitted value, none)
  | none =>
    match Library.find? setup.limits name arguments with
    | some (.gives result) =>
      let value ← placing place (lift result)
      return (← admitted value, none)
    | some (.changes result) =>
      if locked then fail (.constantReceiver name) place
      else
        let (value, first) ← placing place (lift result)
        return (← admitted value, some (← admitted first))
    | none => fail (.unknownFunction (signature name arguments)) place

/-! Functions as arguments -/

/-- Calls a function for an item, in the way that its number of parameters asks for: with the item
as the receiver or as an argument, with or without the extra arguments. -/
def callback (name : String) (bound : List Value) (item : Option Value) (moved : Nat)
    (arguments extras : List Value) (place : Position) : Run State (Value × Option Value) := do
  let functions := (← read).functions
  let receiver := item.map fun value => Receiver.mk value false
  let withItem := arguments.take moved ++ item.toList ++ arguments.drop moved
  let ways := [(receiver, arguments), (none, withItem), (receiver, arguments ++ extras),
    (none, withItem ++ extras)]
  let fitting := ways.findSome? fun (receiver, arguments) =>
    (functions.find? fun function =>
      function.name == name && function.parameters.length == bound.length + arguments.length).map
        fun function => (function, receiver, bound ++ arguments)
  match fitting with
  | some (function, receiver, arguments) => evaluator.invoke function receiver arguments
  | none => native name (bound ++ withItem) false place

def onItem (name : String) (bound : List Value) (place : Position) (pair : Value × Nat) :
    Run State Value := do
  return (← evaluator.callback name bound (some pair.1) 0 [] [.int pair.2] place).1

def holds (name : String) (bound : List Value) (place : Position) (pair : Value × Nat) :
    Run State Bool := do
  return (← evaluator.onItem name bound place pair) matches .bool true

/-- The first item that a function leads to something. -/
def firstResult (name : String) (bound : List Value) (place : Position) :
    List (Value × Nat) → Run State Value
  | [] => pure .unit
  | pair :: rest => do
    match ← evaluator.onItem name bound place pair with
    | .unit => firstResult name bound place rest
    | value => pure value

def firstHolding (name : String) (bound : List Value) (place : Position) :
    List (Value × Nat) → Run State (Option (Value × Nat))
  | [] => pure none
  | pair :: rest => do
    if ← evaluator.holds name bound place pair then pure (some pair)
    else firstHolding name bound place rest

def partition (name : String) (bound : List Value) (place : Position) :
    List (Value × Nat) → Run State (List Value × List Value)
  | [] => pure ([], [])
  | pair :: rest => do
    let holding ← evaluator.holds name bound place pair
    let (chosen, others) ← partition name bound place rest
    pure (if holding then (pair.1 :: chosen, others) else (chosen, pair.1 :: others))

def reduce (name : String) (bound : List Value) (place : Position) (start : Value)
    (items : List (Value × Nat)) : Run State Value :=
  items.foldlM (fun value (item, index) => do
    return (← evaluator.callback name bound (some item) 1 [value] [.int index] place).1) start

/-- Whether one value comes after another, as a function of the script compares them. -/
def comesAfter (name : String) (bound : List Value) (place : Position) (left right : Value) :
    Run State Bool := do
  let answer ← tryCatch (evaluator.callback name bound none 0 [left, right] [] place) fun
    | .failed _ _ => pure (.unit, none)
    | interrupt => throw interrupt
  match answer.1 with
  | .int order => return 0 < order
  | .bool before => return !before
  | _ => return right.typeName < left.typeName

/-- Puts a value behind those of a sorted list that it does not come before. -/
def insertSorted (name : String) (bound : List Value) (place : Position) (value : Value) :
    List Value → Run State (List Value)
  | [] => pure [value]
  | first :: rest => do
    if ← evaluator.comesAfter name bound place first value then pure (value :: first :: rest)
    else return first :: (← insertSorted name bound place value rest)

def sortBy (name : String) (bound : List Value) (place : Position) (items : List Value) :
    Run State (List Value) :=
  items.foldlM (fun sorted item => evaluator.insertSorted name bound place item sorted) []

/-- Leaves out the items that a function holds of together with the item kept before them. -/
def dedupBy (name : String) (bound : List Value) (place : Position) (items : List Value) :
    Run State (List Value) := do
  let kept ← items.foldlM (fun kept item => do
    match kept with
    | [] => pure [item]
    | last :: _ =>
      let (answer, _) ← evaluator.callback name bound none 0 [last, item] [] place
      pure (if answer matches .bool true then kept else item :: kept)) []
  return kept.reverse

/-- Functions of a list that take a function. Those that change the list answer the new one. -/
def higher? (name : String) (items : List Value) (function : String) (bound : List Value)
    (others : List Value) (place : Position) :
    Option (Bool × Run State (Value × List Value)) :=
  let pairs := items.zipIdx
  let gives (action : Run State Value) : Option (Bool × Run State (Value × List Value)) :=
    some (false, do return (← action, items))
  match name, others with
  | "map", [] => gives do
    return .list (← pairs.mapM (evaluator.onItem function bound place))
  | "filter", [] => gives do
    return .list (← evaluator.partition function bound place pairs).1
  | "find", [] => gives do
    return ((← evaluator.firstHolding function bound place pairs).map Prod.fst).getD .unit
  | "find_map", [] => gives (evaluator.firstResult function bound place pairs)
  | "index_of", [] => gives do
    return Library.indexFound
      ((← evaluator.firstHolding function bound place pairs).map Prod.snd)
  | "some", [] => gives do
    return .bool (← evaluator.firstHolding function bound place pairs).isSome
  | "all", [] => gives do
    return .bool (← pairs.allM (evaluator.holds function bound place))
  | "reduce", [] => gives (evaluator.reduce function bound place .unit pairs)
  | "reduce", [start] => gives (evaluator.reduce function bound place start pairs)
  | "reduce_rev", [] => gives (evaluator.reduce function bound place .unit pairs.reverse)
  | "reduce_rev", [start] => gives (evaluator.reduce function bound place start pairs.reverse)
  | "for_each", [] => some (true, do
    let changed ← pairs.mapM fun (item, index) => do
      let (_, after) ← evaluator.callback function bound (some item) 0 [] [.int index] place
      pure (after.getD item)
    return (.unit, changed))
  | "drain", [] => some (true, do
    let (chosen, rest) ← evaluator.partition function bound place pairs
    return (.list chosen, rest))
  | "retain", [] => some (true, do
    let (chosen, rest) ← evaluator.partition function bound place pairs
    return (.list rest, chosen))
  | "sort", [] => some (true, do
    return (.unit, ← evaluator.sortBy function bound place items))
  | "dedup", [] => some (true, do
    return (.unit, ← evaluator.dedupBy function bound place items))
  | _, _ => none

/-- Calls of functions that take functions lie one level deeper. -/
def deeper {α : Type} (action : Run State α) : Run State α := do
  modify fun machine => { machine with level := machine.level + 1 }
  let value ← action
  modify fun machine => { machine with level := machine.level - 1 }
  pure value

def outside (name : String) (arguments : List Value) (locked : Bool) (place : Position) :
    Run State (Value × Option Value) := do
  tick
  let higher := match arguments with
    | .list items :: .function function bound :: others =>
      evaluator.higher? name items function bound others place
    | _ => none
  match higher with
  | some (changes, action) =>
    if changes ∧ locked then fail (.constantReceiver name) place
    else
      let (value, items) ← placing place (deeper action)
      let value ← admitted value
      if changes then return (value, some (← admitted (.list items))) else return (value, none)
  | none => native name arguments locked place

/-! Calls by name -/

def wrongFunction {α : Type} (value : Value) (place : Position) : Run State α :=
  fail (.wrongType "Fn" value.typeName) place

def pointer (value : Value) (place : Position) : Run State Value :=
  match value with
  | .text name =>
    if isProperName name then pure (.function name [])
    else fail (.unknownFunction name) place
  | _ => fail (.wrongType "string" value.typeName) place

/-- Calls a function by its name; also answers what the first argument has become, if it
changes. -/
def dispatch (name : String) (arguments : List Value) (place : Position) :
    Run State (Value × Option Value) := do
  match ← function? name arguments.length with
  | some function =>
    let (value, _) ← evaluator.invoke function none arguments
    return (value, none)
  | none =>
    match name, arguments with
    | "print", [] => do
      let host := (← read).host
      modify fun machine => { machine with host := host.print "" machine.host }
      return (.unit, none)
    | "print", [value] => do
      let host := (← read).host
      modify fun machine => { machine with host := host.print value.toText machine.host }
      return (.unit, none)
    | "debug", [value] => do
      let host := (← read).host
      modify fun machine => { machine with host := host.debug value.inspect machine.host }
      return (.unit, none)
    | "type_of", [value] => return (.text value.typeName, none)
    | "is_shared", [_] => return (.bool false, none)
    | "Fn", [value] => return (← pointer value place, none)
    | "is_def_var", [.text name] => return (.bool (← entry? name).isSome, none)
    | "is_def_fn", [.text name, .int parameters] =>
      return (.bool (← function? name parameters.toNat).isSome, none)
    | _, _ => evaluator.outside name arguments false place

def callValue (function : Value) (arguments : List Value) (functionPlace place : Position) :
    Run State Value := do
  match function with
  | .function name bound => return (← evaluator.dispatch name (bound ++ arguments) place).1
  | _ => wrongFunction function functionPlace

/-- Calls a function on a value; also answers what the value has become, if it changes. -/
def method (name : String) (arguments : List Value) (target : Value) (locked : Bool)
    (firstPlace place : Position) : Run State (Value × Option Value) := do
  let onTarget (name : String) (arguments : List Value) : Run State (Value × Option Value) := do
    match ← function? name arguments.length with
    | some function => evaluator.invoke function (some ⟨target, locked⟩) arguments
    | none => evaluator.outside name (target :: arguments) locked place
  match name, target, arguments with
  | "call", .function _ _, _ =>
    return (← evaluator.callValue target arguments place place, none)
  | "call", _, .function name bound :: others =>
    onTarget name (bound ++ others)
  | "call", _, other :: _ => wrongFunction other firstPlace
  | "call", _, [] => wrongFunction target place
  | "curry", .function name bound, _ => return (.function name (bound ++ arguments), none)
  | "curry", _, _ => wrongFunction target place
  | "type_of", _, [] => return (.text target.typeName, none)
  | "is_shared", _, [] => return (.bool false, none)
  | _, .map fields, _ =>
    match Value.getField name fields with
    | some (.function name bound) => onTarget name (bound ++ arguments)
    | _ => onTarget name arguments
  | _, _, _ => onTarget name arguments

end Evaluator

end Rulebook.Script
