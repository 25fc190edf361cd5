import Rulebook.Text.Utf8

/-!
Splitting a settings file into tokens. Splitting never fails; what is wrong with a token is found
where its meaning is wanted. Offsets count bytes from the start of the file.
-/

namespace Rulebook.Toml

/-- How a key or a value is written: as it stands, or between marks of one of four kinds. -/
inductive Style where
  | bare
  | literal
  | basic
  | longLiteral
  | longBasic
  deriving DecidableEq

inductive Kind where
  | dot
  | equals
  | comma
  | openList
  | closeList
  | openTable
  | closeTable
  | gap
  | newline
  | comment
  | word (style : Style)
  | finish
  deriving DecidableEq

structure Token where
  kind : Kind
  start : Nat
  characters : List Char

def Token.stop (token : Token) : Nat :=
  token.start + Text.byteSize token.characters

def isGap (character : Char) : Bool :=
  character = ' ' || character = '\t'

/-- Ends a bare word. -/
def isBoundary (character : Char) : Bool :=
  ['.', '=', ',', '[', ']', '\x7b', '\x7d', ' ', '\t', '#', '\r', '\n'].contains character

def lengthUntil (stops : Char → Bool) (characters : List Char) : Nat :=
  (characters.takeWhile fun character => !stops character).length

def commentLength (characters : List Char) : Nat :=
  lengthUntil (fun character => character = '\n' || character = '\r') characters

/-- The length of a literal string behind its opening mark; it ends with the line at the latest. -/
def literalLength : List Char → Nat
  | [] => 0
  | character :: rest =>
    if character = '\'' then 1 else if character = '\n' then 0 else literalLength rest + 1

/-- The length of a basic string behind its opening mark; an escaped mark does not close it. -/
def basicLength : List Char → Nat
  | [] => 0
  | [character] => if character = '\n' then 0 else 1
  | character :: next :: rest =>
    if character = '"' then 1
    else if character = '\n' then 0
    else if character = '\\' ∧ (next = '\\' ∨ next = '"') then basicLength rest + 2
    else basicLength (next :: rest) + 1

/-- The length of a string of several lines behind its three opening marks. Up to two marks in
front of the closing three belong to the text. -/
def longLength (mark : Char) (escapes : Bool) : List Char → Nat
  | [] => 0
  | [_] => 1
  | character :: next :: rest =>
    if character = mark ∧ next = mark ∧ rest.head? = some mark then
      3 + ((rest.drop 1).take 2 |>.takeWhile (· = mark)).length
    else if escapes ∧ character = '\\' ∧ (next = '\\' ∨ next = '"') then
      longLength mark escapes rest + 2
    else longLength mark escapes (next :: rest) + 1

/-- The kind of the token that begins with a character, and how many of the characters behind it
belong to the token. -/
def lexeme (character : Char) (rest : List Char) : Kind × Nat :=
  match character with
  | '.' => (.dot, 0)
  | '=' => (.equals, 0)
  | ',' => (.comma, 0)
  | '[' => (.openList, 0)
  | ']' => (.closeList, 0)
  | '\x7b' => (.openTable, 0)
  | '\x7d' => (.closeTable, 0)
  | '\n' => (.newline, 0)
  | '\r' => (.newline, if rest.head? = some '\n' then 1 else 0)
  | '#' => (.comment, commentLength rest)
  | '\'' =>
    if rest.take 2 = ['\'', '\''] then (.word .longLiteral, 2 + longLength '\'' false (rest.drop 2))
    else (.word .literal, literalLength rest)
  | '"' =>
    if rest.take 2 = ['"', '"'] then (.word .longBasic, 2 + longLength '"' true (rest.drop 2))
    else (.word .basic, basicLength rest)
  | _ =>
    if isGap character then (.gap, lengthUntil (fun next => !isGap next) rest)
    else (.word .bare, lengthUntil isBoundary rest)

def tokensFrom (start : Nat) : List Char → List Token
  | [] => [⟨.finish, start, []⟩]
  | character :: rest =>
    let (kind, count) := lexeme character rest
    let token : Token := ⟨kind, start, character :: rest.take count⟩
    token :: tokensFrom token.stop (rest.drop count)
termination_by characters => characters.length
decreasing_by simp only [List.length_drop, List.length_cons]; omega

/-- The tokens of a file; the last one stands for its end. A mark of the byte order in front is
passed over. -/
def tokens (text : String) : List Token :=
  match text.toList with
  | '\ufeff' :: rest => tokensFrom 3 rest
  | characters => tokensFrom 0 characters

end Rulebook.Toml
