import Rulebook.Refusal
import Rulebook.Text.Blank
import Rulebook.Text.Numeral

/-!
Time ranges of dashboards: a number of minutes, hours or days, at most 366 days in all.
-/

namespace Rulebook

structure TimeRange where
  label : String
  seconds : Nat
  deriving DecidableEq

namespace TimeRange

def minute : Nat := 60
def hour : Nat := 3600
def day : Nat := 86400

def longest : Nat := 366 * day

def hours (count : Nat) : TimeRange :=
  ⟨s!"{count}h", count * hour⟩

def unit? : Char → Option Nat
  | 'm' => some minute
  | 'h' => some hour
  | 'd' => some day
  | _ => none

def seconds? (text : String) : Option Nat := do
  let characters := text.toList
  let unit ← unit? (← characters.getLast?)
  let count ← Text.signed? 64 (String.ofList characters.dropLast)
  let total := count * unit
  if 0 < count ∧ total ≤ longest then some total.toNat else none

/-- No text at all means a day. -/
def parse (text : String) : Except Refusal TimeRange :=
  let trimmed := Text.trim text
  if trimmed = "" ∨ trimmed = "24h" ∨ trimmed = "1d" then .ok (hours 24)
  else match seconds? trimmed with
    | some seconds => .ok ⟨trimmed, seconds⟩
    | none => .error (.invalid "time_range" s!"无效的时间窗口: {trimmed}")

def step (range : TimeRange) : Nat :=
  if range.seconds ≤ hour then 5 * minute
  else if range.seconds ≤ 24 * hour then hour
  else if range.seconds ≤ 7 * day then 6 * hour
  else day

def stepCount (range : TimeRange) : Nat :=
  max 1 ((range.seconds + range.step - 1) / range.step)

end TimeRange

end Rulebook
