import Rulebook.Script.Complaint

/-!
The words and signs that a script is made of.
-/

namespace Rulebook.Script

inductive Token where
  | int (value : Int)
  | float (value : Float)
  | char (value : Char)
  | text (value : String)
  /-- Text of a template up to an expression in it. -/
  | template (value : String)
  | name (value : String)
  /-- A keyword, an operator or a bracket. -/
  | sign (value : String)
  /-- A word or sign that scripts may not use freely. -/
  | reserved (value : String)
  | bad (complaint : Complaint)
  | finish
  deriving Inhabited

structure Placed where
  token : Token
  place : Position
  deriving Inhabited

namespace Token

def isSign (token : Token) (expected : String) : Bool :=
  match token with
  | .sign value => value == expected
  | _ => false

def keywords : List String :=
  ["true", "false", "let", "const", "if", "else", "switch", "do", "while", "until", "loop", "for",
    "in", "continue", "break", "fn", "private", "return", "throw", "try", "catch", "import",
    "export", "as"]

/-- Words that are set aside; those of `callableWords` may be called. -/
def reservedWords : List String :=
  ["public", "protected", "super", "new", "use", "module", "package", "var", "static", "shared",
    "with", "is", "goto", "match", "case", "default", "void", "null", "nil", "spawn",
    "thread", "go", "sync", "async", "await", "yield"]

def callableWords : List String :=
  ["print", "debug", "type_of", "eval", "Fn", "call", "curry", "is_shared", "is_def_fn",
    "is_def_var"]

/-- Reserved words that may be called on a value, behind a point. -/
def methodWords : List String :=
  ["type_of", "call", "curry", "is_shared"]

def isCallable (word : String) : Bool :=
  callableWords.contains word

def isMethod (word : String) : Bool :=
  methodWords.contains word

def disabledWords : List String :=
  ["eval"]

/-- Tokens that an operand follows, so that a sign behind them belongs to the operand. -/
def awaitsOperand : Token → Bool
  | .bad _ => true
  | .sign value =>
    [";", ":", ",", "??", "..", "..=", "\x7b", "(", "[", "+", "+=", "unary +", "-", "-=", "unary -",
      "*", "*=", "/", "/=", "%", "%=", "**", "**=", "<<", "<<=", ">>", ">>=", "=", "==", "!=", "<",
      ">", "!", "<=", ">=", "|", "&", "if", "while", "until", "in", "!in", "&&", "&=", "||", "|=",
      "^", "^=", "return", "throw"].contains value
  | _ => false

def shown : Token → String
  | .int value => toString value
  | .sign "unary -" => "-"
  | .sign "unary +" => "+"
  | .sign value => value
  | .name value => value
  | .reserved value => value
  | _ => ""

end Token

def isNameStart (character : Char) : Bool :=
  character.isAlpha

def isNamePart (character : Char) : Bool :=
  character.isAlphanum || character == '_'

/-- Names start with underscores and then a letter. -/
def isProperName (name : String) : Bool :=
  let word := name.toList.dropWhile (· == '_')
  word.head?.any isNameStart && word.all isNamePart

end Rulebook.Script
