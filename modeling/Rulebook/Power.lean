/-!
Powers of two and ten.
-/

namespace Rulebook

def twoTo (bits : Nat) : Nat := Nat.pow 2 bits

def tenTo (places : Nat) : Nat := Nat.pow 10 places

/-- The first number that a signed number of 64 bits cannot hold. -/
def signedLimit : Int := twoTo 63

end Rulebook
