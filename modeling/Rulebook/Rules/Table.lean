import Rulebook.Uuid

/-!
Values under identifiers, in the order in which they were first put in.
-/

namespace Rulebook

structure Table (α : Type) where
  entries : List (Uuid × α) := []
  deriving DecidableEq

namespace Table

variable {α : Type}

instance : Inhabited (Table α) := ⟨{}⟩

def get? (id : Uuid) (table : Table α) : Option α :=
  (table.entries.find? (·.1 = id)).map (·.2)

def contains (id : Uuid) (table : Table α) : Bool :=
  table.entries.any (·.1 = id)

def values (table : Table α) : List α :=
  table.entries.map (·.2)

def size (table : Table α) : Nat :=
  table.entries.length

def erase (id : Uuid) (table : Table α) : Table α :=
  ⟨table.entries.filter (·.1 ≠ id)⟩

/-- Changes the value under an identifier, if there is one. -/
def modify (id : Uuid) (change : α → α) (table : Table α) : Table α :=
  ⟨table.entries.map fun (key, value) => (key, if key = id then change value else value)⟩

/-- Puts a value where its identifier has been put before, or at the end. -/
def put (id : Uuid) (value : α) (table : Table α) : Table α :=
  if table.contains id then table.modify id fun _ => value
  else ⟨table.entries ++ [(id, value)]⟩

end Table

end Rulebook
