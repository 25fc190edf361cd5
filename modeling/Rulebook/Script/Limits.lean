import Rulebook.Script.Problem

/-!
What a run of a script may use up.
-/

namespace Rulebook.Script

/-- Zero stands for no limit, except for calls and time. -/
structure Limits where
  /-- Nanoseconds. -/
  timeout : Nat
  operations : Nat
  /-- Bytes of text in a value. -/
  textSize : Nat
  /-- Items of lists in a value. -/
  listSize : Nat
  /-- Fields of maps in a value. -/
  mapSize : Nat
  /-- How many calls may lie in one another. -/
  callLevels : Nat
  expressionDepth : Nat
  deriving DecidableEq, Inhabited

namespace Limits

def exceeds (amount limit : Nat) : Bool :=
  0 < limit && limit < amount

def textTooLong : Interrupt := .tooLarge "Length of string"

def listTooLong : Interrupt := .tooLarge "Size of array/BLOB"

def mapTooLarge : Interrupt := .tooLarge "Size of object map"

def excess? (limits : Limits) (size : Value.Size) : Option Interrupt :=
  if exceeds size.bytes limits.textSize then some textTooLong
  else if exceeds size.items limits.listSize then some listTooLong
  else if exceeds size.fields limits.mapSize then some mapTooLarge
  else none

def accept (limits : Limits) (value : Value) : Except Interrupt Unit :=
  match limits.excess? value.size with
  | some interrupt => throw interrupt
  | none => pure ()

end Limits

end Rulebook.Script
