import Rulebook.Uuid

/-!
Fresh identifiers, one after the other from a random start.
-/

namespace Rulebook.Uuid

structure Supply where
  /-- The random bits of the next identifier. -/
  next : Nat
  deriving DecidableEq, Inhabited

def Supply.take (supply : Supply) : Uuid × Supply :=
  (.ofRandom supply.next, ⟨supply.next + 1⟩)

end Rulebook.Uuid
