import Rulebook.Script.Limits
import Rulebook.Script.Operator

/-!
What a function of the library does with its arguments.
-/

namespace Rulebook.Script

inductive Native where
  | gives (result : Except Interrupt Value)
  /-- The first argument becomes the second of the two values. -/
  | changes (result : Except Interrupt (Value × Value))

namespace Native

def value (value : Value) : Option Native :=
  some (.gives (pure value))

def int (value : Nat) : Option Native :=
  some (.gives (pure (.int value)))

def bool (value : Bool) : Option Native :=
  some (.gives (pure (.bool value)))

def text (value : List Char) : Option Native :=
  some (.gives (pure (.text (String.ofList value))))

def list (value : List Value) : Option Native :=
  some (.gives (pure (.list value)))

def attempt (result : Except Problem Value) : Option Native :=
  some (.gives (result.mapError Interrupt.of))

/-- The first argument becomes the value. -/
def becomes (value : Value) : Option Native :=
  some (.changes (pure (.unit, value)))

def yields (value rest : Value) : Option Native :=
  some (.changes (pure (value, rest)))

def refuse (interrupt : Interrupt) : Option Native :=
  some (.gives (throw interrupt))

end Native

/-! Places in a sequence -/

/-- The index that a number stands for; negative numbers count from the end. -/
def indexOf? (length : Nat) (index : Int) : Option Nat :=
  if 0 ≤ index then (if index.toNat < length then some index.toNat else none)
  else if index.natAbs ≤ length then some (length - index.natAbs) else none

/-- Where a part of a sequence starts and how long it is. -/
def partOf (length : Nat) (start count : Int) : Nat × Nat :=
  if (length : Int) ≤ start then (length, 0)
  else
    let first := if start < 0 then length - start.natAbs else start.toNat
    (first, min count.toNat (length - first))

/-- Start and count of the part that a range covers. -/
def rangePart (first last : Int) (closed : Bool) : Int × Int :=
  let start := max first 0
  let stop := if closed then last + 1 else last
  (start, max stop start - start)

/-- The items in front of a part, in it, and behind it. -/
def cut {α : Type} (items : List α) (start count : Int) : List α × List α × List α :=
  let (first, size) := partOf items.length start count
  (items.take first, (items.drop first).take size, items.drop (first + size))

end Rulebook.Script
