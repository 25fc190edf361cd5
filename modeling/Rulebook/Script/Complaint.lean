/-!
Why a text is no script, and where.
-/

namespace Rulebook.Script

/-- Lines and columns count from one; a column counts characters. -/
structure Position where
  line : Nat
  column : Nat
  deriving DecidableEq, Inhabited

def Position.start : Position := ⟨1, 1⟩

def Position.toText (place : Position) : String :=
  s!"line {place.line}, position {place.column}"

inductive Complaint where
  | unexpected (text : String)
  | badEscape (text : String)
  | badNumber (text : String)
  | badCharacter (text : String)
  | badName (text : String)
  | openString
  /-- A sign or word that means something elsewhere, with advice. -/
  | improper (advice : String)
  | strangeSign (sign : String)
  | unknownOperator (sign : String)
  | badIndex (reason : String)
  | badCapture (reason : String)
  | wrongKind (expected found : String)
  | expressionExpected (kind : String)
  | missing (sign purpose : String)
  | constantAssigned (name : String)
  | notAssignable
  | functionExists (name : String) (parameters : Nat)
  | functionMisplaced
  | functionNameMissing
  | parametersMissing (name : String)
  | parameterRepeated (name parameter : String)
  | bodyMissing (name : String)
  | fieldRepeated (name : String)
  | variableRepeated (name : String)
  | reservedWord (word : String)
  | reservedSign (sign : String)
  | defaultNotLast
  | defaultWithCondition
  | caseAfterRange
  | propertyExpected
  | variableExpected
  | breakOutside
  | exportMisplaced
  | incomplete
  | tooDeep
  deriving DecidableEq, Inhabited

def countedParameters : Nat → String
  | 0 => "no parameters already exists"
  | 1 => "1 parameter already exists"
  | count => s!"{count} parameters already exists"

def Complaint.message : Complaint → String
  | .unexpected text => s!"Unexpected '{text}'"
  | .badEscape text => s!"Invalid escape sequence: '{text}'"
  | .badNumber text => s!"Invalid number: '{text}'"
  | .badCharacter text => s!"Invalid character: '{text}'"
  | .badName text => s!"Variable name is not proper: '{text}'"
  | .openString => "Open string is not terminated"
  | .improper advice => advice
  | .strangeSign sign => s!"Invalid symbol encountered: '{sign}'"
  | .unknownOperator sign => s!"Unknown operator: '{sign}'"
  | .badIndex reason => reason
  | .badCapture reason => reason
  | .wrongKind expected found => s!"Expecting {expected}, not {found}"
  | .expressionExpected kind => s!"Expecting {kind} expression"
  | .missing sign purpose => s!"Expecting '{sign}' {purpose}"
  | .constantAssigned "" => "Cannot assign to a constant value"
  | .constantAssigned name => s!"Cannot assign to constant {name}"
  | .notAssignable => "Expression cannot be assigned to"
  | .functionExists name parameters => s!"Function {name} with {countedParameters parameters}"
  | .functionMisplaced =>
    "Function definitions must be at global level and cannot be inside a block or another function"
  | .functionNameMissing => "Expecting function name in function declaration"
  | .parametersMissing name => s!"Expecting parameters for function {name}"
  | .parameterRepeated name parameter => s!"Duplicated parameter {parameter} for function {name}"
  | .bodyMissing name => s!"Expecting body statement block for function {name}"
  | .fieldRepeated name => s!"Duplicated property for object map literal: {name}"
  | .variableRepeated name => s!"Duplicated variable name: {name}"
  | .reservedWord word => s!"'{word}' is a reserved keyword"
  | .reservedSign sign => s!"'{sign}' is a reserved symbol"
  | .defaultNotLast => "Default switch case must be the last"
  | .defaultWithCondition => "This switch case cannot have a condition"
  | .caseAfterRange => "Numeric switch case cannot follow a range case"
  | .propertyExpected => "Expecting name of a property"
  | .variableExpected => "Expecting name of a variable"
  | .breakOutside => "Break statement should only be used inside a loop"
  | .exportMisplaced => "Export statement can only appear at global level"
  | .incomplete => "Script is incomplete"
  | .tooDeep => "Expression exceeds maximum complexity"

structure SyntaxFault where
  complaint : Complaint
  place : Position
  deriving DecidableEq, Inhabited

def SyntaxFault.message (fault : SyntaxFault) : String :=
  s!"{fault.complaint.message} ({fault.place.toText})"

end Rulebook.Script
