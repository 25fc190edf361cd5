import Rulebook.Script.Expr.Purity
import Rulebook.Script.Operator
import Rulebook.Script.Token

/-!
Programs in a simpler form: constants are put in place, what is constant is computed, and pure
statements whose value nobody needs are left out.
-/

namespace Rulebook.Script

namespace Simplify

/-- The variables in reach, the latest first, with the values of those that are constant. -/
abbrev Constants := List (String × Option Value)

def Constants.value? (constants : Constants) (name : String) : Option Value :=
  (constants.find? (·.1 == name)).bind Prod.snd

/-! Blocks -/

/-- What stands behind a statement that leaves the block is dead. -/
def reachable : List Stmt → List Stmt
  | [] => []
  | stmt :: rest => if stmt.breaksFlow then [stmt] else stmt :: reachable rest

/-- Pure statements from here on are needed by nothing that comes later. -/
def isNeeded (inner : Bool) (stmt : Stmt) : Bool :=
  !(if inner then stmt.isPureInside else stmt.isPure) ||
    match stmt with
    | .declare _ value _ => value.isConstant
    | .expr value => !value.isConstant
    | _ => false

def lastNeeded (inner : Bool) (stmts : List Stmt) : Nat :=
  match stmts.reverse.findIdx? (isNeeded inner) with
  | some index => stmts.length - index - 1
  | none => 0

/-- Leaves out pure statements; the last one stays if its value is kept. -/
def sweep (kept inner : Bool) (needed : Nat) : Nat → List Stmt → List Stmt
  | _, [] => []
  | index, stmt :: rest =>
    if kept ∧ rest.isEmpty then [stmt]
    else if (if inner then stmt.isPureInside else stmt.isPure) ∧ needed ≤ index then
      sweep kept inner needed index rest
    else if stmt.isPure then
      sweep kept inner (if index < needed then needed - 1 else needed) index rest
    else stmt :: sweep kept inner needed (index + 1) rest

/-- Trims the end of a block, given backwards, whose value is kept. -/
def trimKept (pure : Stmt → Bool) (closing : Bool) : Nat → List Stmt → List Stmt
  | 0, stmts => stmts
  | fuel + 1, stmts =>
    match stmts with
    | [] => []
    | [.give none] => if closing then [] else stmts
    | .give none :: last :: rest =>
      if closing then
        if last.returnsValue then .nothing :: last :: rest
        else trimKept pure closing fuel (last :: rest)
      else stmts
    | .give (some value) :: rest => if closing then .expr value :: rest else stmts
    | [stmt] => if !stmt.returnsValue && pure stmt then [] else stmts
    | .nothing :: last :: rest =>
      if last.returnsValue then stmts else trimKept pure closing fuel (last :: rest)
    | stmt :: last :: rest =>
      if !stmt.returnsValue && pure stmt then
        if last.returnsValue then .nothing :: last :: rest
        else trimKept pure closing fuel (last :: rest)
      else stmts

/-- Trims the end of a block, given backwards, whose value is not kept. -/
def trimUnkept (pure : Stmt → Bool) (closing : Bool) : Nat → List Stmt → List Stmt
  | 0, stmts => stmts
  | fuel + 1, stmts =>
    match stmts with
    | [] => []
    | .give none :: rest => if closing then trimUnkept pure closing fuel rest else stmts
    | .give (some value) :: rest =>
      if closing && value.isPure then trimUnkept pure closing fuel rest else stmts
    | stmt :: rest => if pure stmt then trimUnkept pure closing fuel rest else stmts

def settleOnce (kept inner closing : Bool) (stmts : List Stmt) : List Stmt :=
  let pure := if inner then Stmt.isPureInside else Stmt.isPure
  let live := reachable stmts
  let swept := (sweep kept inner (lastNeeded inner live) 0 live).reverse
  (if kept then trimKept pure closing (swept.length + 1) swept
    else trimUnkept pure closing (swept.length + 1) swept).reverse

/-- Leaves out statements until nothing more can go. -/
def settle (kept inner closing : Bool) : Nat → List Stmt → List Stmt
  | 0, stmts => stmts
  | fuel + 1, stmts =>
    let settled := settleOnce kept inner closing stmts
    if settled.length < stmts.length then settle kept inner closing fuel settled else settled

def inside (kept : Bool) (body : List Stmt) : List Stmt :=
  settle kept true false (body.length + 1) body

def blockOf (stmts : List Stmt) : Stmt :=
  match stmts with
  | [] => .nothing
  | [stmt] => if stmt.declares then .block stmts else stmt
  | _ => .block stmts

def exprStmt (expr : Expr) : Stmt :=
  match expr with
  | .block body _ => blockOf body
  | _ => .expr expr

/-! Expressions -/

def operators : List String :=
  ["+", "-", "*", "/", "%", "**", "<<", ">>", "&", "|", "^"]

/-- The value of an operator applied to constants, if nothing goes wrong. -/
def folded? (name : String) (arguments : List Expr) : Option Value :=
  match name, arguments with
  | "!", [.literal (.bool value) _] => some (.bool !value)
  | name, [left, right] => do
    match Operator.result? name (← left.constant?) (← right.constant?) with
    | some (.ok value) => some value
    | _ => none
  | _, _ => none

def call (name : String) (operator : Bool) (arguments : List Expr) (place : Position) : Expr :=
  match operator, arguments with
  | true, _ =>
    match folded? name arguments with
    | some value => .literal value place
    | none => .call name operator arguments place
  | false, [.literal (.text function) _] =>
    if name = "Fn" ∧ isProperName function then .literal (.function function []) place
    else .call name operator arguments place
  | false, _ => .call name operator arguments place

/-- A list of constants is a constant. -/
def list (items : List Expr) (place : Position) : Expr :=
  let list := Expr.list items place
  match list.constant? with
  | some value => .literal value place
  | none => list

def map (fields : List (String × Expr)) (place : Position) : Expr :=
  let map := Expr.map fields place
  match map.constant? with
  | some value => .literal value place
  | none => map

def template (pieces : List Expr) (place : Position) : Expr :=
  match pieces.mapM Expr.constant? with
  | some values => .literal (.text (String.join (values.map Value.recorded))) place
  | none => .template pieces place

/-- The item that a constant key picks from a list written out, all of it pure. -/
def picked? (items : List Expr) (key : Expr) : Option Expr :=
  match key with
  | .literal (.int index) _ =>
    if items.all Expr.isPure then
      if 0 ≤ index then items[index.toNat]?
      else if index.natAbs ≤ items.length then items[items.length - index.natAbs]? else none
    else none
  | _ => none

def fieldOf? (fields : List (String × Expr)) (name : String) (place : Position) : Option Expr :=
  if fields.all (·.2.isPure) then
    some (((fields.find? (·.1 == name)).map Prod.snd).getD (.literal .unit place))
  else none

def chain (raw root : Expr) (steps : List Step) : Expr :=
  let found := match raw, steps with
    | .map fields place, [.property name _ _ _] => fieldOf? fields name place
    | .map fields place, [.index (.literal (.text name) _) _ _] => fieldOf? fields name place
    | .list items _, [.index key _ _] => picked? items key
    | _, _ => none
  match found, root, steps with
  | some expr, _, _ => expr
  | none, .literal .unit place, .property _ _ true _ :: _
  | none, .literal .unit place, .method _ _ _ true _ :: _
  | none, .literal .unit place, .index _ true _ :: _ => .literal .unit place
  | none, _, _ => .chain root steps

def both (left right : Expr) (place : Position) : Expr :=
  match left, right with
  | .literal (.bool true) _, right => right
  | .literal (.bool false) place, _ => .literal (.bool false) place
  | left, .literal (.bool true) _ => left
  | left, right => .both left right place

def either (left right : Expr) (place : Position) : Expr :=
  match left, right with
  | .literal (.bool false) _, right => right
  | .literal (.bool true) place, _ => .literal (.bool true) place
  | left, .literal (.bool false) _ => left
  | left, right => .either left right place

def fallback (left right : Expr) (place : Position) : Expr :=
  match left with
  | .literal .unit _ => right
  | _ => .fallback left right place

def block (body : List Stmt) (place : Position) : Expr :=
  match body with
  | [] => .literal .unit place
  | [.expr value] => value
  | _ => .block body place

/-! Statements -/

/-- `x = x + y` is `x += y`. -/
def assign (target : Expr) (operator : Option String) (value : Expr) (place : Position) : Stmt :=
  match target, operator, value with
  | .variable name _, none, .call sign true [.variable same _, value] signPlace =>
    if name = same ∧ operators.contains sign then .assign target (some sign) value signPlace
    else .assign target operator (.call sign true [.variable same signPlace, value] signPlace) place
  | _, _, _ => .assign target operator value place

def branch (kept : Bool) (condition : Expr) (body other : List Stmt) : Stmt :=
  match condition, body, other with
  | _, [], [] => if kept then .block [exprStmt condition, .nothing] else exprStmt condition
  | .literal (.bool true) _, _, _ => blockOf body
  | .literal (.bool false) _, _, _ => blockOf other
  | _, _, _ => .branch condition body other

def isTrue : Expr → Bool
  | .literal (.bool true) _ => true
  | _ => false

def isFalse : Expr → Bool
  | .literal (.bool false) _ => true
  | _ => false

/-- A case that is taken for a constant, if its condition holds. -/
def taken (chosen : Case) (default : Option Expr) : Stmt :=
  if isTrue chosen.condition then exprStmt chosen.body
  else .branch chosen.condition [exprStmt chosen.body] (default.toList.map exprStmt)

/-- A choice by a constant, when no single value fits. -/
def chooseSpan (subject : Expr) (value : Value) (cases : List Case) (default : Option Expr) :
    Stmt :=
  let spans := cases.flatMap fun chosen => chosen.spans.map fun span => (span, chosen)
  let otherwise := match default with
    | some body => exprStmt body
    | none => .nothing
  if spans.length = 1 ∨ spans.all (isTrue ·.2.condition) then
    match spans.find? (·.1.covers value) with
    | some (_, chosen) => taken chosen default
    | none => otherwise
  else
    let fitting := spans.filter (·.1.covers value)
    .choose subject (fitting.map fun (span, chosen) => .mk [] [span] chosen.condition chosen.body)
      default

/-- A choice by a constant; of several cases for one value only those without a condition count. -/
def chooseConstant (subject : Expr) (value : Value) (raw cases : List Case)
    (default : Option Expr) : Stmt :=
  let fitting := (raw.zip cases).filter fun pair => pair.2.keys.any value.same
  match fitting with
  | [] => chooseSpan subject value cases default
  | [(_, chosen)] => taken chosen default
  | several =>
    match several.find? (isTrue ·.1.condition) with
    | some (_, chosen) => exprStmt chosen.body
    | none => chooseSpan subject value cases default

def choose (raw subject : Expr) (rawCases cases : List Case) (default : Option Expr) : Stmt :=
  match subject.constant? with
  | some value =>
    if raw.isConstant then chooseConstant subject value rawCases cases default
    else chooseConstant subject value cases cases default
  | none => .choose subject (cases.filter (!isFalse ·.condition)) default

def loop (condition : Option Expr) (body : List Stmt) : Stmt :=
  match condition with
  | some (.literal (.bool false) _) => .nothing
  | some (.literal (.bool true) _) => .loop none body
  | _ => .loop condition body

def attempt (body : List Stmt) (caught : Option String) (handler : List Stmt) : Stmt :=
  if body.all Stmt.isPure then .block body else .attempt body caught handler

mutual

def expr (constants : Constants) : Expr → Expr
  | .literal value place => .literal value place
  | .template pieces place => template (exprs constants pieces) place
  | .list items place => list (exprs constants items) place
  | .map fields place => map (mapFields constants fields) place
  | .variable name place =>
    match constants.value? name with
    | some value => .literal value place
    | none => .variable name place
  | .qualified path name none place => .qualified path name none place
  | .qualified path name (some arguments) place =>
    .qualified path name (some (exprs constants arguments)) place
  | .receiver place => .receiver place
  | .call name operator arguments place => call name operator (exprs constants arguments) place
  | .chain (.variable name place) taken => .chain (.variable name place) (steps constants taken)
  | .chain root taken => chain root (expr constants root) (steps constants taken)
  | .both left right place => both (expr constants left) (expr constants right) place
  | .either left right place => either (expr constants left) (expr constants right) place
  | .fallback left right place => fallback (expr constants left) (expr constants right) place
  | .block body place => block (inside true (stmts constants true body)) place

def exprs (constants : Constants) : List Expr → List Expr
  | [] => []
  | item :: rest => expr constants item :: exprs constants rest

def mapFields (constants : Constants) : List (String × Expr) → List (String × Expr)
  | [] => []
  | (name, value) :: rest => (name, expr constants value) :: mapFields constants rest

def steps (constants : Constants) : List Step → List Step
  | [] => []
  | .property name place optional sign :: rest =>
    .property name place optional sign :: steps constants rest
  | .method name arguments place optional sign :: rest =>
    .method name (exprs constants arguments) place optional sign :: steps constants rest
  | .index key optional sign :: rest =>
    .index (expr constants key) optional sign :: steps constants rest

def option (constants : Constants) : Option Expr → Option Expr
  | none => none
  | some value => some (expr constants value)

/-- A statement; whether its value is kept decides what may be left out inside it. -/
def stmt (constants : Constants) (kept : Bool) : Stmt → Stmt
  | .nothing => .nothing
  | .expr (.block body _) => blockOf (inside kept (stmts constants kept body))
  | .expr value => exprStmt (expr constants value)
  | .declare name value constant => .declare name (expr constants value) constant
  | .assign (.variable name namePlace) operator value place =>
    assign (.variable name namePlace) operator (expr constants value) place
  | .assign target operator value place =>
    .assign (expr constants target) operator (expr constants value) place
  | .branch condition body other =>
    branch kept (expr constants condition) (inside kept (stmts constants kept body))
      (inside kept (stmts constants kept other))
  | .choose subject chosen default =>
    choose subject (expr constants subject) chosen (cases constants chosen)
      (option constants default)
  | .loop condition body =>
    loop (option constants condition) (inside false (stmts constants false body))
  | .again body condition value =>
    .again (inside false (stmts constants false body)) (expr constants condition) value
  | .each item counter source body =>
    .each item counter (expr constants source)
      (inside false (stmts ((counter.toList ++ [item]).map (·, none) ++ constants) false body))
  | .leave value => .leave (option constants value)
  | .next => .next
  | .give value => .give (option constants value)
  | .fail value place => .fail (option constants value) place
  | .attempt body caught handler =>
    attempt (inside false (stmts constants false body)) caught
      (inside false (stmts (caught.toList.map (·, none) ++ constants) false handler))
  | .block body => blockOf (inside kept (stmts constants kept body))
  | .share names => .share names

/-- Statements one after the other; blocks that add no variables are dissolved. -/
def stmts (constants : Constants) (kept : Bool) : List Stmt → List Stmt
  | [] => []
  | .block body :: rest =>
    if body.any Stmt.declares then
      blockOf (inside kept (stmts constants kept body)) :: stmts constants kept rest
    else stmts constants kept body ++ stmts constants kept rest
  | .declare name value constant :: rest =>
    let value := expr constants value
    let known := if constant then value.constant? else none
    .declare name value constant :: stmts ((name, known) :: constants) kept rest
  | other :: rest => stmt constants kept other :: stmts constants kept rest

def cases (constants : Constants) : List Case → List Case
  | [] => []
  | .mk keys spans condition body :: rest =>
    .mk keys spans (expr constants condition) (expr constants body) :: cases constants rest

end

def topLevel (body : List Stmt) : List Stmt :=
  settle true false true (body.length + 1) (stmts [] true body)

end Simplify

def Function.simplified (function : Function) : Function :=
  { function with body := Simplify.topLevel function.body }

def Program.simplified (program : Program) : Program :=
  { program with
    body := Simplify.topLevel program.body
    functions := program.functions.map Function.simplified }

end Rulebook.Script
