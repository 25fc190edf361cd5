import Rulebook.Decimal.Reading
import Rulebook.Time.Calendar
import Rulebook.Toml.Line
import Rulebook.Toml.Value

/-!
What keys and values mean as they are written.
-/

namespace Rulebook.Toml

namespace Word

def complain {α : Type} (word : Word) (fault : Fault) (start stop : Nat) : Except Complaint α :=
  throw ⟨fault, word.start + start, word.start + stop⟩

def size (word : Word) : Nat :=
  Text.byteSize word.characters

/-! Strings -/

/-- A complaint about the first character that does not fit, if there is one. -/
def requireAll (word : Word) (fits : Char → Bool) (fault : Fault) (offset : Nat)
    (characters : List Char) : Except Complaint Unit :=
  let fine := characters.takeWhile fits
  if fine.length < characters.length then
    let wrong := offset + Text.byteSize fine
    word.complain fault wrong wrong
  else return

def isLiteralChar (character : Char) : Bool :=
  Reader.isPrintable character && character ≠ '\''

def literal (word : Word) : Except Complaint String := do
  let inner := word.characters.drop 1
  if inner.getLast? ≠ some '\'' then
    word.complain (.badLiteral (.sign "'")) word.size word.size
  let text := inner.dropLast
  requireAll word isLiteralChar (.badLiteral (.thing "non-single-quote visible characters")) 1 text
  return String.ofList text

/-- The text between long marks; a newline right behind the opening marks is dropped. -/
def longInner (word : Word) (mark : Char) (fault : Fault) : Except Complaint (Nat × List Char) := do
  let inner := word.characters.drop 3
  let closing := inner.drop (inner.length - 3)
  if closing ≠ [mark, mark, mark] then word.complain fault word.size word.size
  let text := inner.take (inner.length - 3)
  match text with
  | '\n' :: rest => return (4, rest)
  | '\r' :: '\n' :: rest => return (5, rest)
  | _ => return (3, text)

def isLongChar (character : Char) : Bool :=
  Reader.isPrintable character || character = '\n' || character = '\r'

/-- Newlines are always single characters. -/
def plainNewlines : List Char → List Char
  | '\r' :: '\n' :: rest => '\n' :: plainNewlines rest
  | character :: rest => character :: plainNewlines rest
  | [] => []

def longLiteral (word : Word) : Except Complaint String := do
  let (offset, text) ← longInner word '\'' (.badLiteral (.sign "'''"))
  let wanted := Wanted.thing "non-single-quote visible characters"
  requireAll word isLongChar (.badLiteral wanted) offset text
  return String.ofList (plainNewlines text)

/-- How many hexadecimal digits follow the letter of an escape. -/
def codeLength? (letter : Char) : Option Nat :=
  if letter = 'x' then some 2
  else if letter = 'u' then some 4
  else if letter = 'U' then some 8
  else none

def escape? (letter : Char) : Option Char :=
  match letter with
  | 'b' => some '\x08'
  | 'e' => some '\x1b'
  | 'f' => some '\x0c'
  | 'n' => some '\n'
  | 'r' => some '\r'
  | 't' => some '\t'
  | '\\' => some '\\'
  | '"' => some '"'
  | _ => none

/-- The character that hexadecimal digits are the code of. -/
def coded (word : Word) (offset length : Nat) (characters : List Char) : Except Complaint Char := do
  let digits := (characters.take length).takeWhile fun digit => (Text.hexDigit? digit).isSome
  if digits.length < length then word.complain .shortCode offset offset
  let code := digits.foldl (fun code digit => code * 16 + (Text.hexDigit? digit).getD 0) 0
  if code < 0x110000 ∧ ¬ (0xD800 ≤ code ∧ code < 0xE000) then return Char.ofNat code
  else word.complain .badCode offset offset

def isLongGap (character : Char) : Bool :=
  isGap character || character = '\n' || character = '\r'

/-- A backslash at the end of a line takes all space up to the next visible character with it. -/
def continuesLine (characters : List Char) : Bool :=
  match characters.dropWhile isGap with
  | '\n' :: _ => true
  | '\r' :: '\n' :: _ => true
  | _ => false

def basicFault : Fault :=
  .badBasic [.thing "non-double-quote visible characters", .sign "\\"]

/-- The text of a basic string; what was read is in reverse. -/
def unescape (word : Word) (long : Bool) : Nat → Nat → List Char → List Char →
    Except Complaint String
  | 0, _, _, soFar => return String.ofList soFar.reverse
  | _ + 1, _, [], soFar => return String.ofList soFar.reverse
  | fuel + 1, offset, '\\' :: rest, soFar =>
    match rest with
    | [] => word.complain .unknownEscape (offset + 1) (offset + 1)
    | letter :: after =>
      match codeLength? letter, escape? letter with
      | some length, _ => do
        let character ← coded word (offset + 2) length after
        unescape word long fuel (offset + 2 + length) (after.drop length) (character :: soFar)
      | none, some character => unescape word long fuel (offset + 2) after (character :: soFar)
      | none, none =>
        if long ∧ continuesLine rest then
          let space := rest.takeWhile isLongGap
          unescape word long fuel (offset + 1 + Text.byteSize space) (rest.drop space.length) soFar
        else word.complain .unknownEscape (offset + 1) (offset + 1)
  | fuel + 1, offset, character :: rest, soFar =>
    if Reader.isPrintable character ∧ (long ∨ character ≠ '"') ∨ long ∧ isLongChar character then
      unescape word long fuel (offset + character.utf8Size) rest (character :: soFar)
    else word.complain basicFault offset (offset + character.utf8Size)

def basic (word : Word) : Except Complaint String := do
  let inner := word.characters.drop 1
  if inner.getLast? ≠ some '"' then word.complain (.badBasic [.sign "\""]) word.size word.size
  unescape word false (inner.length + 1) 1 inner.dropLast []

def longBasic (word : Word) : Except Complaint String := do
  let (offset, text) ← longInner word '"' (.badBasic [.sign "\"\"\""])
  unescape word true (text.length + 1) offset (plainNewlines text) []

/-! Keys -/

def isKeyChar (character : Char) : Bool :=
  character.isAlphanum || character = '-' || character = '_'

def key (word : Word) : Except Complaint String :=
  match word.style with
  | .bare => do
    if word.characters.isEmpty then word.complain .emptyKey 0 0
    requireAll word isKeyChar .badKey 0 word.characters
    return String.ofList word.characters
  | .literal => word.literal
  | .basic => word.basic
  | .longLiteral => word.complain .longLiteralKey 0 word.size
  | .longBasic => word.complain .longBasicKey 0 word.size

/-! Numbers -/

/-- The digits of a number part, which may hold underscores, and what follows them. -/
def digitRun (word : Word) (zeros : Bool) (part : String) (characters : List Char) :
    Except Complaint (List Char) := do
  let isPart (character : Char) : Bool := character.isDigit || character = '_'
  let run := characters.takeWhile isPart
  let offset := word.size - Text.byteSize characters
  match (run.filter Char.isDigit).length with
  | 0 => word.complain (.digitsMissing part) offset offset
  | 1 => return characters.dropWhile isPart
  | _ =>
    if run.head? = some '0' ∧ ¬ zeros then word.complain .leadingZero offset (offset + 1)
    else return characters.dropWhile isPart

/-- Where the first underscore stands that is not between digits. Of several in a row the second
one is out of place. -/
def looseUnderscore? (isDigit : Char → Bool) (before : Option Char) (position : Nat) :
    List Char → Option Nat
  | [] => none
  | character :: rest =>
    let fits := before.any isDigit && rest.head?.any fun next => isDigit next || next = '_'
    if character = '_' ∧ ¬ fits then some position
    else looseUnderscore? isDigit (some character) (position + character.utf8Size) rest

/-- Drops the underscores of a number. Each has to stand between digits. -/
def withoutUnderscores (word : Word) (isDigit : Char → Bool) (characters : List Char) :
    Except Complaint (List Char) :=
  match looseUnderscore? isDigit none (word.size - Text.byteSize characters) characters with
  | some position => word.complain .looseUnderscore position (position + 1)
  | none => return characters.filter (· ≠ '_')

def bounded (word : Word) (value : Int) : Except Complaint Scalar :=
  if -signedLimit ≤ value ∧ value < signedLimit then return .whole value
  else if 0 ≤ value ∧ value < twoTo 64 then word.complain .wholeTooLarge 0 word.size
  else word.complain (.wholeFarTooLarge value) 0 word.size

def valueIn (radix : Nat) (digits : List Char) : Nat :=
  digits.foldl (fun value digit => value * radix + (Text.hexDigit? digit).getD 0) 0

/-- A number in a base other than ten; `digits` are what stands behind its mark. -/
def radixed (word : Word) (radix : Nat) (kind : String) (digits : List Char) :
    Except Complaint Scalar := do
  let offset := word.size - Text.byteSize digits
  if digits.head? = some '+' ∨ digits.head? = some '-' then
    word.complain .signInside offset (offset + 1)
  let isDigit (character : Char) : Bool := (Text.hexDigit? character).any (· < radix)
  requireAll word (fun character => isDigit character || character = '_') (.badDigit kind) offset
    digits
  let digits ← withoutUnderscores word isDigit digits
  if digits.isEmpty then word.complain (.badDigit kind) offset offset
  word.bounded (valueIn radix digits)

/-- What cannot be read as anything but a string without its quotes. -/
def unreadable (word : Word) : Except Complaint Scalar :=
  let ending := word.characters.reverse
  if ending.take 3 = ['\'', '\'', '\''] then word.complain (.unopened "'''") 0 0
  else if ending.take 3 = ['"', '"', '"'] then word.complain (.unopened "\"\"\"") 0 0
  else if ending.head? = some '\'' then word.complain (.unopened "'") 0 0
  else if ending.head? = some '"' then word.complain (.unopened "\"") 0 0
  else word.complain .unquoted 0 word.size

/-- A float; `magnitude` is the word without its sign. -/
def float (word : Word) (magnitude : List Char) : Except Complaint Scalar := do
  let mut rest ← digitRun word false "mantissa" magnitude
  if rest.head? = some '.' then rest ← digitRun word true "fraction" (rest.drop 1)
  if rest.head? = some 'e' ∨ rest.head? = some 'E' then
    rest := rest.drop 1
    if rest.head? = some '+' ∨ rest.head? = some '-' then rest := rest.drop 1
    rest ← digitRun word true "exponent" rest
  if ¬ rest.isEmpty then word.complain .badFloat (word.size - Text.byteSize rest) word.size
  let written ← withoutUnderscores word Char.isDigit word.characters
  match Decimal.float? (String.ofList written) with
  | none => word.complain .badFloat 0 word.size
  | some value =>
    if value.isInf then word.complain .floatTooLarge 0 word.size else return .real value

/-- A whole number in decimal; `magnitude` is the word without its sign. -/
def decimal (word : Word) (negative : Bool) (magnitude : List Char) : Except Complaint Scalar := do
  let rest ← digitRun word false "integer number" magnitude
  if ¬ rest.isEmpty then word.unreadable
  else
    let value := valueIn 10 (← withoutUnderscores word Char.isDigit magnitude)
    word.bounded (if negative then -(value : Int) else value)

/-! Times -/

def fixedDigits? (count : Nat) (characters : List Char) : Option (Nat × List Char) :=
  let digits := characters.take count
  if digits.length = count ∧ digits.all Char.isDigit then
    some (valueIn 10 digits, characters.drop count)
  else none

def sign? (sign : Char) : List Char → Option (List Char)
  | character :: rest => if character = sign then some rest else none
  | [] => none

def date? (characters : List Char) : Option (String × List Char) := do
  let (year, rest) ← fixedDigits? 4 characters
  let (month, rest) ← fixedDigits? 2 (← sign? '-' rest)
  let (day, rest) ← fixedDigits? 2 (← sign? '-' rest)
  if (Calendar.Date.mk year month day).isValid then
    some (String.ofList (characters.take 10), rest)
  else none

/-- The seconds of a time, which may be left out, with a fraction of at most nine digits. -/
def seconds? (characters : List Char) : Option (String × List Char) :=
  match characters with
  | ':' :: rest => do
    let (second, rest) ← fixedDigits? 2 rest
    if 60 < second then none
    else match rest with
      | '.' :: rest =>
        let digits := rest.takeWhile Char.isDigit
        if digits.isEmpty then none
        else
          let kept := (digits.take 9).reverse.dropWhile (· = '0') |>.reverse
          let fraction := if kept.isEmpty then "" else "." ++ String.ofList kept
          some (":" ++ Text.zeroPadded 2 second ++ fraction, rest.dropWhile Char.isDigit)
      | _ => some (":" ++ Text.zeroPadded 2 second, rest)
  | _ => some (":00", characters)

def time? (characters : List Char) : Option (String × List Char) := do
  let (hour, rest) ← fixedDigits? 2 characters
  let (minute, rest) ← fixedDigits? 2 (← sign? ':' rest)
  let (seconds, rest) ← seconds? rest
  if hour ≤ 23 ∧ minute ≤ 59 then
    some (Text.zeroPadded 2 hour ++ ":" ++ Text.zeroPadded 2 minute ++ seconds, rest)
  else none

def zone? (characters : List Char) : Option String :=
  match characters with
  | [] => some ""
  | ['Z'] | ['z'] => some "Z"
  | sign :: rest => do
    let (hour, rest) ← fixedDigits? 2 rest
    let (minute, rest) ← fixedDigits? 2 (← sign? ':' rest)
    if (sign = '+' ∨ sign = '-') ∧ hour ≤ 23 ∧ minute ≤ 59 ∧ rest.isEmpty then
      some (String.ofList characters)
    else none

/-- A date, a time or both in their usual form. -/
def moment? (characters : List Char) : Option String :=
  match date? characters with
  | none => do
    let (time, rest) ← time? characters
    if rest.isEmpty then some time else none
  | some (date, []) => some date
  | some (date, mark :: rest) => do
    let (time, rest) ← time? rest
    if mark = 'T' ∨ mark = 't' ∨ mark = ' ' then some (date ++ "T" ++ time ++ (← zone? rest))
    else none

/-! Values -/

/-- A word that can only stand for a value if it is spelled right. -/
def spelled (word : Word) (kind spelling : String) (offset : Nat) (value : Scalar) :
    Except Complaint Scalar :=
  let written := word.characters.drop offset
  if String.ofList written = spelling then return value
  else if offset = 0 ∧ written.contains ' ' then word.unreadable
  else word.complain (.wrongWord kind spelling) offset word.size

/-- A number that begins with a digit or an underscore, or a time. -/
def numeric (word : Word) (negative : Bool) (magnitude : List Char) : Except Complaint Scalar :=
  match magnitude.dropWhile Char.isDigit with
  | [] => word.decimal negative magnitude
  | mark :: rest =>
    if mark = '-' ∨ mark = ':' then
      match moment? word.characters with
      | some moment => return .text moment
      | none => word.complain .badTime 0 word.size
    else if (mark :: rest).contains ' ' then word.unreadable
    else if (mark :: rest).any fun character => ['.', 'e', 'E'].contains character then
      word.float magnitude
    else if mark = '_' then word.decimal negative magnitude
    else word.unreadable

/-- A number that begins with a zero, which may mark a base. -/
def behindZero (word : Word) (signed negative : Bool) (magnitude : List Char) :
    Except Complaint Scalar := do
  let offset := word.size - Text.byteSize magnitude
  let marked (radix : Nat) (kind : String) (small : Char) (letter : Char) (digits : List Char) :
      Except Complaint Scalar := do
    if signed then word.complain .signedRadix 0 1
    if letter ≠ small then
      word.complain (.capitalRadix (String.ofList ['0', small])) offset (offset + 2)
    word.radixed radix kind digits
  match magnitude with
  | '0' :: letter :: digits =>
    if letter = 'x' ∨ letter = 'X' then marked 16 "hexadecimal" 'x' letter digits
    else if letter = 'o' ∨ letter = 'O' then marked 8 "octal" 'o' letter digits
    else if letter = 'b' ∨ letter = 'B' then marked 2 "binary" 'b' letter digits
    else if letter = 'd' ∨ letter = 'D' then
      if signed then word.complain .signedRadix 0 1
      else word.complain .surplusRadix offset (offset + 2)
    else word.numeric negative magnitude
  | _ => return .whole 0

/-- A value that begins with a sign. -/
def behindSign (word : Word) (negative : Bool) (magnitude : List Char) : Except Complaint Scalar :=
  match magnitude with
  | [] => word.unreadable
  | first :: _ =>
    let endless : Float := 1.0 / 0.0
    if first = '+' ∨ first = '-' then word.complain .repeatedSign 1 2
    else if first = '0' then word.behindZero true negative magnitude
    else if first.isDigit ∨ first = '_' then word.numeric negative magnitude
    else if first = '.' then word.float magnitude
    else if first = 'i' ∨ first = 'I' then
      word.spelled "float" "inf" 1 (.real (if negative then -endless else endless))
    else if first = 'n' ∨ first = 'N' then word.spelled "float" "nan" 1 (.real (0.0 / 0.0))
    else word.unreadable

def bare (word : Word) : Except Complaint Scalar :=
  match word.characters with
  | [] => word.unreadable
  | first :: rest =>
    if first = '+' ∨ first = '-' then word.behindSign (first = '-') rest
    else if first = '0' then word.behindZero false false word.characters
    else if first.isDigit ∨ first = '_' then word.numeric false word.characters
    else if first = '.' then word.float word.characters
    else if first = 't' ∨ first = 'T' then word.spelled "boolean" "true" 0 (.flag true)
    else if first = 'f' ∨ first = 'F' then word.spelled "boolean" "false" 0 (.flag false)
    else if first = 'i' ∨ first = 'I' then word.spelled "float" "inf" 0 (.real (1.0 / 0.0))
    else if first = 'n' ∨ first = 'N' then word.spelled "float" "nan" 0 (.real (0.0 / 0.0))
    else word.unreadable

def scalar (word : Word) : Except Complaint Scalar :=
  match word.style with
  | .bare => word.bare
  | .literal => return .text (← word.literal)
  | .basic => return .text (← word.basic)
  | .longLiteral => return .text (← word.longLiteral)
  | .longBasic => return .text (← word.longBasic)

end Word

end Rulebook.Toml
