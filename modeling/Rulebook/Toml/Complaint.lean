import Rulebook.Text.Quoted
import Rulebook.Text.Utf8

/-!
Why a text is no settings file, and where.
-/

namespace Rulebook.Toml

inductive Wanted where
  | sign (text : String)
  | thing (name : String)
  deriving DecidableEq

inductive Fault where
  | unclosedHeader
  | unclosedListHeader (closing : String)
  | headerNotOpened
  | valueMissing
  | keyMissing
  | surplusEquals
  | tableNotOpened
  | listNotOpened
  | surplusWord
  | unclosedList
  | surplusListComma
  | listCommaMissing
  | equalsInList
  | unclosedTable
  | surplusTableComma
  | tableCommaMissing
  | tableKeyMissing
  | assignmentMissing
  | tooDeep
  | loneReturn
  | badComment
  | emptyKey
  | badKey
  | longLiteralKey
  | longBasicKey
  | badLiteral (wanted : Wanted)
  | badBasic (wanted : List Wanted)
  | unknownEscape
  | shortCode
  | badCode
  | unquoted
  | unopened (mark : String)
  | wrongWord (kind word : String)
  | repeatedSign
  | signedRadix
  | capitalRadix (radix : String)
  | surplusRadix
  | signInside
  | badDigit (kind : String)
  | digitsMissing (part : String)
  | leadingZero
  | badFloat
  | looseUnderscore
  | wholeTooLarge
  | wholeFarTooLarge (value : Int)
  | floatTooLarge
  | badTime
  | repeatedKey
  | notExtensible (kind : String)
  deriving DecidableEq

def Fault.reason : Fault → String
  | .unclosedHeader => "unclosed table"
  | .unclosedListHeader _ => "unclosed array table"
  | .headerNotOpened => "missing table open"
  | .valueMissing => "key with no value"
  | .keyMissing => "invalid key"
  | .surplusEquals => "extra `=`"
  | .tableNotOpened => "missing inline table opening"
  | .listNotOpened => "missing array opening"
  | .surplusWord => "unexpected key or value"
  | .unclosedList => "unclosed array"
  | .surplusListComma => "extra comma in array"
  | .listCommaMissing => "missing comma between array elements"
  | .equalsInList => "unexpected `=` in array"
  | .unclosedTable => "unclosed inline table"
  | .surplusTableComma => "extra comma in inline table"
  | .tableCommaMissing => "missing comma between key-value pairs"
  | .tableKeyMissing => "missing key for inline table element"
  | .assignmentMissing => "missing assignment between key-value pairs"
  | .tooDeep => "cannot recurse further; max recursion depth met"
  | .loneReturn => "carriage return must be followed by newline"
  | .badComment => "invalid comment character"
  | .emptyKey => "unquoted keys cannot be empty"
  | .badKey => "invalid unquoted key"
  | .longLiteralKey => "keys cannot be multi-line literal strings"
  | .longBasicKey => "keys cannot be multi-line basic strings"
  | .badLiteral _ => "invalid literal string"
  | .badBasic _ => "invalid basic string"
  | .unknownEscape => "missing escaped value"
  | .shortCode => "too few unicode value digits"
  | .badCode => "invalid value"
  | .unquoted => "string values must be quoted"
  | .unopened _ => "missing opening quote"
  | .wrongWord kind _ => s!"invalid {kind}"
  | .repeatedSign => "redundant numeric sign"
  | .signedRadix => "integers with a radix cannot be signed"
  | .capitalRadix _ => "radix must be lowercase"
  | .surplusRadix => "redundant integer number prefix"
  | .signInside => "unexpected sign"
  | .badDigit kind => s!"invalid {kind} number"
  | .digitsMissing part => s!"invalid {part}"
  | .leadingZero => "unexpected leading zero"
  | .badFloat => "invalid float"
  | .looseUnderscore => "`_` may only go between digits"
  | .wholeTooLarge => "u64 value was too large"
  | .wholeFarTooLarge value =>
    s!"invalid type: integer `{value}` as i128, expected any valid TOML value"
  | .floatTooLarge => "floating-point number overflowed"
  | .badTime => "invalid datetime"
  | .repeatedKey => "duplicate key"
  | .notExtensible kind => s!"cannot extend value of type {kind} with a dotted key"

def Fault.wanted : Fault → Option (List Wanted)
  | .unclosedHeader => some [.sign "]"]
  | .unclosedListHeader closing => some [.sign closing]
  | .headerNotOpened => some [.sign "["]
  | .valueMissing => some [.sign "="]
  | .keyMissing => some [.thing "key"]
  | .surplusEquals => some []
  | .tableNotOpened => some [.sign "\x7b"]
  | .listNotOpened => some [.sign "["]
  | .surplusWord => some [.thing "newline", .sign "#"]
  | .unclosedList => some [.sign "]"]
  | .surplusListComma => some [.thing "value"]
  | .listCommaMissing => some [.sign ","]
  | .equalsInList => some [.thing "value", .sign "]"]
  | .unclosedTable => some [.sign "\x7d"]
  | .surplusTableComma => some [.thing "key"]
  | .tableCommaMissing => some [.sign ","]
  | .tableKeyMissing => some [.thing "key"]
  | .assignmentMissing => some [.sign "="]
  | .loneReturn => some [.thing "newline"]
  | .badComment => some [.thing "printable characters"]
  | .emptyKey | .badKey =>
    some [.thing "letters", .thing "numbers", .sign "-", .sign "_"]
  | .longLiteralKey | .longBasicKey => some [.thing "basic string", .thing "literal string"]
  | .badLiteral wanted => some [wanted]
  | .badBasic wanted => some wanted
  | .unknownEscape =>
    some (["b", "e", "f", "n", "r", "\\", "\"", "x", "u", "U"].map Wanted.sign)
  | .shortCode | .badCode => some [.thing "unicode hexadecimal value"]
  | .unquoted => some [.thing "literal string"]
  | .unopened mark => some [.sign mark]
  | .wrongWord _ word => some [.sign word]
  | .capitalRadix radix => some [.sign radix]
  | .digitsMissing _ => some [.thing "digits"]
  | .repeatedSign | .signedRadix | .surplusRadix | .signInside | .leadingZero | .badFloat =>
    some []
  | _ => none

def Wanted.message : Wanted → String
  | .sign text => s!"`{text}`"
  | .thing name => name

def Fault.message (fault : Fault) : String :=
  match fault.wanted with
  | none => fault.reason
  | some [] => fault.reason ++ ", expected nothing"
  | some wanted => fault.reason ++ ", expected " ++ ", ".intercalate (wanted.map Wanted.message)

/-- A fault and the bytes that it is about, from the first to behind the last. -/
structure Complaint where
  fault : Fault
  start : Nat
  stop : Nat

def linesOf (text : String) : List (List Char) :=
  text.toList.foldr (fun character lines =>
    if character = '\n' then [] :: lines
    else match lines with
      | line :: rest => (character :: line) :: rest
      | [] => [[character]]) [[]]

/-- How many characters the first bytes of a line are; bytes behind the line count as one each. -/
def charactersIn (bytes : Nat) : List Char → Nat
  | [] => bytes
  | character :: rest =>
    if bytes = 0 then 0 else charactersIn (bytes - character.utf8Size) rest + 1

/-- The column of a byte, from zero. Columns count characters, but they count bytes in front of a
character of several bytes. -/
def columnOf (bytes : Nat) (characters : List Char) : Nat :=
  let count := charactersIn bytes characters
  match characters[count]? with
  | some character => if 1 < character.utf8Size then bytes else count
  | none => count

/-- The number and text of the line that a byte stands in, and its column. The end of a text
belongs to the line before. -/
def place (number offset : Nat) : List (List Char) → Nat × List Char × Nat
  | [] => (number, [], offset)
  | [line] => (number, line, columnOf offset line)
  | [line, []] => (number, line, columnOf offset line)
  | line :: rest =>
    let size := Text.byteSize line
    if offset ≤ size then (number, line, columnOf offset line)
    else place (number + 1) (offset - size - 1) rest

/-- The complaint with the line it is about, in which the place is marked. -/
def Complaint.render (text : String) (complaint : Complaint) : String :=
  let (number, line, column) := place 1 complaint.start (linesOf text)
  let size := Text.byteSize line
  let length := max 1 (min (complaint.stop - complaint.start) (size - column))
  let margin := String.ofList (List.replicate ((toString number).length + 1) ' ')
  let marks := List.replicate (column + 1) ' ' ++ List.replicate length '^'
  s!"TOML parse error at line {number}, column {column + 1}\n" ++
    margin ++ "|\n" ++ s!"{number} | " ++ String.ofList line ++ "\n" ++
    margin ++ "|" ++ String.ofList marks ++ "\n" ++ complaint.fault.message ++ "\n"

end Rulebook.Toml
