import Rulebook.Decimal.Shortest
import Rulebook.Script.Problem

/-!
Arithmetic of scripts. Whole numbers have 64 bits, and what leaves them is a problem; floats follow
the usual rules, and the remainder of two floats is exact.
-/

namespace Rulebook.Script

def isInt64 (number : Int) : Bool :=
  -signedLimit ≤ number && number < signedLimit

/-- The number with the same last 64 bits. -/
def wrap64 (number : Int) : Int :=
  Int.bmod number (twoTo 64)

namespace Number

def complain {α : Type} (kind sign : String) (left right : Int) : Except Problem α :=
  throw (.arithmetic s!"{kind}: {left} {sign} {right}")

def checked (kind sign : String) (left right result : Int) : Except Problem Int :=
  if isInt64 result then pure result else complain kind sign left right

def add (left right : Int) : Except Problem Int :=
  checked "Addition overflow" "+" left right (left + right)

def subtract (left right : Int) : Except Problem Int :=
  checked "Subtraction overflow" "-" left right (left - right)

def multiply (left right : Int) : Except Problem Int :=
  checked "Multiplication overflow" "*" left right (left * right)

/-- Division goes toward zero. -/
def divide (left right : Int) : Except Problem Int :=
  if right = 0 then complain "Division by zero" "/" left right
  else checked "Division overflow" "/" left right (left.tdiv right)

/-- The remainder has the sign of the left number. -/
def remainder (left right : Int) : Except Problem Int :=
  if right = 0 ∨ (left = -signedLimit ∧ right = -1) then
    complain "Modulo division by zero or overflow" "%" left right
  else pure (left.tmod right)

def power (base exponent : Int) : Except Problem Int :=
  if exponent < 0 then complain "Integer raised to a negative index" "**" base exponent
  else if twoTo 32 ≤ exponent then
    complain "Integer raised to too large an index" "**" base exponent
  else if 64 ≤ exponent ∧ 1 < base.natAbs then complain "Exponential overflow" "**" base exponent
  else if 1 < base.natAbs then
    checked "Exponential overflow" "**" base exponent (Int.pow base exponent.toNat)
  else pure (if base = -1 ∧ exponent % 2 = 0 ∨ exponent = 0 then 1 else base)

def shiftUp (number : Int) (amount : Nat) : Int :=
  if 64 ≤ amount then 0 else wrap64 (number * twoTo amount)

def shiftDown (number : Int) (amount : Nat) : Int :=
  if 64 ≤ amount then (if number < 0 then -1 else 0) else number / twoTo amount

/-- A shift by a negative amount goes the other way. -/
def shiftLeft (number amount : Int) : Int :=
  if amount < 0 then shiftDown number amount.natAbs else shiftUp number amount.natAbs

def shiftRight (number amount : Int) : Int :=
  if amount < 0 then shiftUp number amount.natAbs else shiftDown number amount.natAbs

def bitwise (operation : UInt64 → UInt64 → UInt64) (left right : Int) : Int :=
  (operation left.toInt64.toUInt64 right.toInt64.toUInt64).toInt64.toInt

def negate (number : Int) : Except Problem Int :=
  if isInt64 (-number) then pure (-number) else throw (.arithmetic "integer overflow")

def absolute (number : Int) : Except Problem Int :=
  if isInt64 number.natAbs then pure number.natAbs
  else throw (.arithmetic s!"Negation overflow: -{number}")

/-! Floats -/

def infinity : Float := 1.0 / 0.0

def notANumber : Float := 0.0 / 0.0

def epsilon : Float := 2.220446049250313e-16

/-- Floats that differ by rounding only count as equal. -/
def close (left right : Float) : Bool :=
  let largest := if left * right == 0 then 1 else if left.abs < right.abs then right.abs
    else left.abs
  left == right || (left - right).abs / largest ≤ epsilon

/-- The remainder of two floats, with the sign of the left one. -/
def floatRemainder (left right : Float) : Float :=
  if left.isNaN || right.isNaN || left.isInf || right == 0 then notANumber
  else if right.isInf || left == 0 then left
  else
    let dividend := Decimal.Binary.ofBits (left.abs.toBits.toNat)
    let divisor := Decimal.Binary.ofBits (right.abs.toBits.toNat)
    let exponent := min dividend.exponent divisor.exponent
    let scaled (binary : Decimal.Binary) : Nat :=
      binary.mantissa * twoTo (binary.exponent - exponent).toNat
    let size := (Float.ofNat (scaled dividend % scaled divisor)).scaleB exponent
    if left < 0 then -size else size

/-- A float without its fraction as a whole number; no number counts as zero. -/
def truncated? (number : Float) : Option Int :=
  if number.isNaN then some 0
  else if number.isInf ∨ 9.3e18 < number.abs then none
  else
    let binary := Decimal.Binary.ofBits number.abs.toBits.toNat
    let size := if 0 ≤ binary.exponent then binary.mantissa * twoTo binary.exponent.toNat
      else binary.mantissa / twoTo (-binary.exponent).toNat
    let value : Int := if number < 0 then -(size : Int) else size
    if isInt64 value then some value else none

end Number

end Rulebook.Script
