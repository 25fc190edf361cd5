import Rulebook.Script.Expr

/-!
Expressions and statements that can be left out when nobody needs their value. Variables count as
pure, whether they exist or not.
-/

namespace Rulebook.Script

mutual

def Expr.isPure : Expr → Bool
  | .literal _ _ | .variable _ _ | .qualified _ _ none _ => true
  | .template items _ | .list items _ => purePieces items
  | .map fields _ => pureFields fields
  | .both left right _ | .either left right _ | .fallback left right _ =>
    left.isPure && right.isPure
  | .block body _ => pureStmts body
  | _ => false

def purePieces : List Expr → Bool
  | [] => true
  | item :: rest => item.isPure && purePieces rest

def pureFields : List (String × Expr) → Bool
  | [] => true
  | (_, value) :: rest => value.isPure && pureFields rest

/-- A loop is pure only if it ends at once. -/
def Stmt.isPure : Stmt → Bool
  | .nothing => true
  | .expr value => value.isPure
  | .branch condition body other => condition.isPure && pureStmts body && pureStmts other
  | .choose subject cases (some default) => subject.isPure && pureCases cases && default.isPure
  | .loop (some (.literal (.bool false) _)) _ => true
  | .again body (.literal (.bool condition) _) value => condition != value && pureStmts body
  | .block body => pureStmts body
  | .attempt body _ handler => pureStmts body && pureStmts handler
  | _ => false

def pureStmts : List Stmt → Bool
  | [] => true
  | stmt :: rest => stmt.isPure && pureStmts rest

def pureCases : List Case → Bool
  | [] => true
  | .mk _ _ condition body :: rest => condition.isPure && body.isPure && pureCases rest

end

namespace Stmt

/-- Inside a block a variable is gone when the block ends. -/
def isPureInside : Stmt → Bool
  | .declare _ value _ => value.isPure
  | stmt => stmt.isPure

def returnsValue : Stmt → Bool
  | .expr _ | .branch _ _ _ | .choose _ _ _ | .block _ => true
  | _ => false

/-- The statement adds a variable to the block that it stands in. -/
def declares : Stmt → Bool
  | .declare _ _ _ => true
  | _ => false

/-- Nothing behind the statement is reached. -/
def breaksFlow : Stmt → Bool
  | .give _ | .leave _ | .next | .fail _ _ => true
  | _ => false

end Stmt

end Rulebook.Script
