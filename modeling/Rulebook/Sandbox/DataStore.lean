import Rulebook.Sandbox.Context
import Rulebook.Script.Value

/-!
Data that scripts leave for later scripts of the same trigger of the same rule.
-/

namespace Rulebook

/-- The values that belong to one scope, by their keys. -/
abbrev Shelf := List (String × Script.Value)

inductive StoringProblem where
  | emptyKey
  | tooManyKeys (limit : Nat)
  deriving DecidableEq, Inhabited

def StoringProblem.message : StoringProblem → String
  | .emptyKey => "store_data: key 不能为空"
  | .tooManyKeys limit => s!"store_data: 键数量超过上限 {limit}"

namespace Shelf

def get? (shelf : Shelf) (key : String) : Option Script.Value :=
  Script.Value.getField key shelf

/-- Stores a value under a key. There is no limit to the number of keys if it is zero. -/
def put (shelf : Shelf) (limit : Nat) (key : String) (value : Script.Value) :
    Except StoringProblem Shelf :=
  if key.isEmpty then throw .emptyKey
  else if 0 < limit ∧ limit ≤ shelf.length ∧ (shelf.get? key).isNone then
    throw (.tooManyKeys limit)
  else pure (Script.Value.setField key value shelf)

end Shelf

structure DataScope where
  rule : Option Uuid
  trigger : Option Uuid
  deriving DecidableEq, Inhabited

def Invocation.scope (invocation : Invocation) : DataScope :=
  ⟨invocation.rule, invocation.trigger⟩

/-- One shelf for each scope; a scope without data has an empty shelf. -/
structure DataStore where
  shelves : List (DataScope × Shelf) := []
  deriving Inhabited

namespace DataStore

def shelf (store : DataStore) (scope : DataScope) : Shelf :=
  match store.shelves.find? (·.1 = scope) with
  | some (_, shelf) => shelf
  | none => []

def setShelf (store : DataStore) (scope : DataScope) (shelf : Shelf) : DataStore :=
  ⟨(scope, shelf) :: store.shelves.filter (·.1 ≠ scope)⟩

def get? (store : DataStore) (scope : DataScope) (key : String) : Option Script.Value :=
  (store.shelf scope).get? key

end DataStore

end Rulebook
