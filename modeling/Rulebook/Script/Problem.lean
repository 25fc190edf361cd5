import Rulebook.Script.Complaint
import Rulebook.Script.Value.Display

/-!
What goes wrong while a script runs, and what makes a run leave the place where it is. Problems
can be caught by the script, the exhaustion of a limit cannot.
-/

namespace Rulebook.Script

inductive Problem where
  | unknownVariable (name : String)
  | unknownFunction (signature : String)
  | unknownModule (name : String)
  | unknownProperty (name owner : String)
  | lockedProperty (name owner value : String)
  | notIndexable (types : String)
  | listBounds (length : Nat) (index : Int)
  | textBounds (length : Nat) (index : Int)
  | bitBounds (index : Int)
  | wrongType (expected found : String)
  | constantChanged (name : String)
  | constantReceiver (function : String)
  | noReceiver
  | notIterable
  | arithmetic (reason : String)
  /-- The numbers of a range have to differ; the problem has no place. -/
  | stepZero
  /-- What a script threw, or what a function has to say. -/
  | raised (value : Value)
  deriving Inhabited

namespace Problem

def listBoundsText : Nat → String
  | 0 => "array is empty"
  | 1 => "only 1 element in array"
  | length => s!"only {length} elements in array"

def textBoundsText : Nat → String
  | 0 => "string is empty"
  | 1 => "only 1 character in string"
  | length => s!"only {length} characters in string"

def message : Problem → String
  | .unknownVariable name => s!"Variable not found: {name}"
  | .unknownFunction signature => s!"Function not found: {signature}"
  | .unknownModule name => s!"Module not found: {name}"
  | .unknownProperty name owner =>
    s!"Unknown property '{name}' - a getter is not registered for type '{owner}'"
  | .lockedProperty name owner value =>
    s!"No writable property '{name}' - a setter is not registered for type '{owner}' to handle " ++
      s!"'{value}'"
  | .notIndexable types => s!"Indexer unavailable: {types}"
  | .listBounds length index => s!"Array index {index} out of bounds: {listBoundsText length}"
  | .textBounds length index => s!"String index {index} out of bounds: {textBoundsText length}"
  | .bitBounds index => s!"Bit-field index {index} out of bounds: only 64 bits in bit-field"
  | .wrongType expected found => s!"Data type incorrect: {found} (expecting {expected})"
  | .constantChanged name => s!"Cannot modify constant {name}"
  | .constantReceiver function =>
    s!"Non-pure method '{function}' cannot be called on constant"
  | .noReceiver => "'this' not bound"
  | .notIterable => "For loop expects iterable type"
  | .arithmetic reason => reason
  | .stepZero => "step value cannot be zero"
  | .raised .unit => "Runtime error"
  | .raised value => s!"Runtime error: {value.recorded}"

def cause : Problem → String
  | .unknownVariable _ => "ErrorVariableNotFound"
  | .unknownFunction _ => "ErrorFunctionNotFound"
  | .unknownModule _ => "ErrorModuleNotFound"
  | .unknownProperty _ _ | .lockedProperty _ _ _ => "ErrorDotExpr"
  | .notIndexable _ => "ErrorIndexingType"
  | .listBounds _ _ => "ErrorArrayBounds"
  | .textBounds _ _ => "ErrorStringBounds"
  | .bitBounds _ => "ErrorBitFieldBounds"
  | .wrongType _ _ => "ErrorMismatchDataType"
  | .constantChanged _ => "ErrorAssignmentToConstant"
  | .constantReceiver _ => "ErrorNonPureMethodCallOnConstant"
  | .noReceiver => "ErrorUnboundThis"
  | .notIterable => "ErrorFor"
  | .arithmetic _ | .stepZero => "ErrorArithmetic"
  | .raised _ => "ErrorRuntime"

/-- What a script can learn about the problem beside its name and message. -/
def details : Problem → List (String × Value)
  | .unknownVariable name | .constantChanged name => [("variable", .text name)]
  | .unknownFunction signature => [("function", .text signature)]
  | .constantReceiver function => [("function", .text function)]
  | .unknownModule name => [("module", .text name)]
  | .unknownProperty _ _ | .lockedProperty _ _ _ => []
  | .notIndexable types => [("type", .text types)]
  | .listBounds length index | .textBounds length index =>
    [("length", .int length), ("index", .int index)]
  | .bitBounds index => [("length", .int 64), ("index", .int index)]
  | .wrongType expected found => [("requested", .text expected), ("actual", .text found)]
  | _ => []

/-- The message with the place of the problem, if it has one. -/
def report (problem : Problem) : Option Position → String
  | some place => s!"{problem.message} ({place.toText})"
  | none => problem.message

/-- What the handler of a problem gets to see. -/
def caught (problem : Problem) (place : Option Position) : Value :=
  match problem with
  | .raised value => value
  | _ =>
    let position := match place with
      | some place => [("line", Value.int place.line), ("position", .int place.column)]
      | none => []
    .ofFields ([("message", .text problem.message), ("error", .text problem.cause)] ++ position ++
      problem.details)

end Problem

/-- Why a run does not go on with the next statement. -/
inductive Interrupt where
  | failed (problem : Problem) (place : Option Position)
  | tooManyOperations
  | tooManyCalls
  | tooLarge (what : String)
  | timedOut
  | leave (value : Value)
  | next
  | give (value : Value)
  /-- The whole run ends with a value. -/
  | finish (value : Value)
  deriving Inhabited

/-- A problem that has no place yet is placed. -/
def Interrupt.placed (place : Position) : Interrupt → Interrupt
  | .failed .stepZero none => .failed .stepZero none
  | .failed problem none => .failed problem (some place)
  | interrupt => interrupt

def Interrupt.of (problem : Problem) : Interrupt :=
  .failed problem none

/-- How a call without a matching function is described. -/
def signature (name : String) (arguments : List Value) : String :=
  let types := arguments.map fun
    | .text _ => "&str | ImmutableString | String"
    | argument => argument.typeName
  name ++ " (" ++ ", ".intercalate types ++ ")"

end Rulebook.Script
