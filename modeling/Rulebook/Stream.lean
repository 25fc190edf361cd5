import Rulebook.Engine
import Rulebook.Power
import Rulebook.Stream.Line
import Rulebook.Text.Utf8

/-!
A stream of events, one on each line. Lines that are no text or no JSON are counted and passed
over, blank lines are not even counted. Every other line is an event that is evaluated once.
-/

namespace Rulebook.Stream

/-- What a line holds. -/
inductive Content where
  | blank
  | event (payload : Json)
  | malformed

def Content.ofText (text : String) : Content :=
  let line := Text.trim text
  if line.isEmpty then .blank
  else match Json.parse line with
    | .ok payload => .event payload
    | .error _ => .malformed

def Content.ofBytes (bytes : List UInt8) : Content :=
  match Text.ofBytes? bytes with
  | some text => .ofText text
  | none => .malformed

/-! Permits -/

/-- The most permits that there can be: an eighth of what a word counts. -/
def mostPermits : Nat := twoTo 61 - 1

/-- How many events can be evaluated at a time; zero stands for one. It cannot be more than there
can be permits: asking for more of them ends the program before a line is read. -/
def permits? (limit : Nat) : Option Nat :=
  if max limit 1 ≤ mostPermits then some (max limit 1) else none

/-! Lines -/

def newline : UInt8 := 10

/-- Puts a byte in front of lines and what stands behind the last one. -/
def addByte (byte : UInt8) : List (List UInt8) × List UInt8 → List (List UInt8) × List UInt8
  | (lines, tail) =>
    if byte = newline then ([] :: lines, tail)
    else match lines with
      | [] => ([], byte :: tail)
      | first :: others => ((byte :: first) :: others, tail)

/-- The lines that end in a newline, without it, and what stands behind the last one. -/
def splitLines (bytes : List UInt8) : List (List UInt8) × List UInt8 :=
  bytes.foldr addByte ([], [])

/-- How a stream comes to its end. -/
inductive Ending where
  | finished
  /-- Nothing more comes, but more could come. -/
  | pending
  | broken (reason : String)
  deriving DecidableEq

/-- The lines of a stream; the last one need not end in a newline if the stream is finished. -/
def linesOf (bytes : List UInt8) (ending : Ending) : List (List UInt8) :=
  let (lines, tail) := splitLines bytes
  if ending = .finished ∧ tail ≠ [] then lines ++ [tail] else lines

/-! Events -/

/-- What has come out of a stream. -/
structure Report where
  /-- The records of each event. -/
  delivered : List (List ExecutionRecord)
  accepted : Nat
  skipped : Nat

variable {World : Type}

/-- Evaluates the event of a payload. -/
def evaluate (payload : Json) : EngineM World (List ExecutionRecord) := do
  Engine.evaluate (← Engine.receive (eventIdOf payload) payload)

/-- Takes lines one after the other, and no more than so many events. -/
def takeLines (limit : Option Nat) : List (List UInt8) → EngineM World Report
  | [] => return ⟨[], 0, 0⟩
  | line :: rest => do
    if limit = some 0 then return ⟨[], 0, 0⟩
    match Content.ofBytes line with
    | .blank => takeLines limit rest
    | .malformed =>
      let report ← takeLines limit rest
      return { report with skipped := report.skipped + 1 }
    | .event payload =>
      let records ← evaluate payload
      let report ← takeLines (limit.map (· - 1)) rest
      return ⟨records :: report.delivered, report.accepted + 1, report.skipped⟩

/-- Why a stream could not be read to its end. -/
def failure : Ending → Option Refusal
  | .broken reason => some (.internal s!"读取事件流失败: {reason}")
  | .finished | .pending => none

end Rulebook.Stream
