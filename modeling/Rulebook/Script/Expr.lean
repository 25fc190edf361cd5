import Rulebook.Script.Complaint
import Rulebook.Script.Value

/-!
What a script says, as trees of expressions and statements.
-/

namespace Rulebook.Script

structure Span where
  first : Int
  last : Int
  closed : Bool
  deriving DecidableEq, Inhabited

def Span.isEmpty (span : Span) : Bool :=
  if span.closed then span.last < span.first else span.last ≤ span.first

def Span.covers (span : Span) : Value → Bool
  | .int value =>
    span.first ≤ value && (if span.closed then value ≤ span.last else value < span.last)
  | .float value =>
    let first := Float.ofInt span.first
    let last := Float.ofInt span.last
    first ≤ value && (if span.closed then value ≤ last else value < last)
  | _ => false

mutual

inductive Expr where
  | literal (value : Value) (place : Position)
  | template (pieces : List Expr) (place : Position)
  | list (items : List Expr) (place : Position)
  | map (fields : List (String × Expr)) (place : Position)
  | variable (name : String) (place : Position)
  /-- A name behind the names of modules; the place is that of the first one. -/
  | qualified (path : List String) (name : String) (arguments : Option (List Expr))
      (place : Position)
  /-- What a function was called on. -/
  | receiver (place : Position)
  | call (name : String) (operator : Bool) (arguments : List Expr) (place : Position)
  | chain (root : Expr) (steps : List Step)
  | both (left right : Expr) (place : Position)
  | either (left right : Expr) (place : Position)
  /-- The left value, or the right one if the left is the unit. -/
  | fallback (left right : Expr) (place : Position)
  | block (body : List Stmt) (place : Position)

/-- One step from a value to a part of it. An optional step from the unit leads to the unit. -/
inductive Step where
  | property (name : String) (place : Position) (optional : Bool) (sign : Position)
  | method (name : String) (arguments : List Expr) (place : Position) (optional : Bool)
      (sign : Position)
  | index (key : Expr) (optional : Bool) (sign : Position)

inductive Stmt where
  | nothing
  | expr (value : Expr)
  | declare (name : String) (value : Expr) (constant : Bool)
  | assign (target : Expr) (operator : Option String) (value : Expr) (place : Position)
  | branch (condition : Expr) (body other : List Stmt)
  | choose (subject : Expr) (cases : List Case) (default : Option Expr)
  /-- A loop without a condition goes on until it is left. -/
  | loop (condition : Option Expr) (body : List Stmt)
  /-- A loop whose condition comes after the body; it goes on while the condition has the value. -/
  | again (body : List Stmt) (condition : Expr) (value : Bool)
  | each (item : String) (counter : Option String) (source : Expr) (body : List Stmt)
  | leave (value : Option Expr)
  | next
  | give (value : Option Expr)
  | fail (value : Option Expr) (place : Position)
  | attempt (body : List Stmt) (caught : Option String) (handler : List Stmt)
  | block (body : List Stmt)
  /-- Variables that a function shares with what surrounds it. -/
  | share (names : List (String × Position))

/-- A case of a choice: its literals and spans, its condition, and what it stands for. -/
inductive Case where
  | mk (keys : List Value) (spans : List Span) (condition : Expr) (body : Expr)

end

instance : Inhabited Expr := ⟨.literal .unit .start⟩
instance : Inhabited Stmt := ⟨.nothing⟩

def Case.keys : Case → List Value
  | .mk keys _ _ _ => keys

def Case.spans : Case → List Span
  | .mk _ spans _ _ => spans

def Case.condition : Case → Expr
  | .mk _ _ condition _ => condition

def Case.body : Case → Expr
  | .mk _ _ _ body => body

structure Function where
  name : String
  parameters : List String
  body : List Stmt
  deriving Inhabited

structure Program where
  body : List Stmt
  functions : List Function
  /-- More than how deep expressions and statements lie in one another. -/
  depth : Nat
  deriving Inhabited

def Step.sign : Step → Position
  | .property _ _ _ sign => sign
  | .method _ _ _ _ sign => sign
  | .index _ _ sign => sign

namespace Expr

/-- Where an expression is, when it is blamed as a whole: at its operator, if it has one. -/
def place : Expr → Position
  | .literal _ place | .template _ place | .list _ place | .map _ place | .variable _ place
  | .qualified _ _ _ place | .receiver place | .call _ _ _ place | .both _ _ place
  | .either _ _ place | .fallback _ _ place | .block _ place => place
  | .chain root [] => root.place
  | .chain _ (step :: _) => step.sign

def start : Expr → Position
  | .both left _ _ | .either left _ _ | .fallback left _ _ => left.start
  | .chain root _ => root.start
  | expr => expr.place

mutual

/-- The value of an expression that is written out in full. -/
def constant? : Expr → Option Value
  | .literal value _ => some value
  | .list items _ => (constants? items).map .list
  | .map fields _ => (constantFields? fields).map .ofFields
  | _ => none

def constants? : List Expr → Option (List Value)
  | [] => some []
  | item :: rest => do return (← constant? item) :: (← constants? rest)

def constantFields? : List (String × Expr) → Option (List (String × Value))
  | [] => some []
  | (name, value) :: rest => do return (name, ← constant? value) :: (← constantFields? rest)

end

def isConstant (expr : Expr) : Bool :=
  expr.constant?.isSome

end Expr

end Rulebook.Script
