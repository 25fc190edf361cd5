import Rulebook.Script.Library.Native
import Rulebook.Text.Blank
import Rulebook.Text.LetterCase

/-!
Functions of text. Lengths and indices count characters.
-/

namespace Rulebook.Script.Library

def place? (part : List Char) : List Char → Option Nat
  | [] => if part.isEmpty then some 0 else none
  | text@(_ :: rest) => if part.isPrefixOf text then some 0 else (place? part rest).map (· + 1)

/-- Puts one part of a text for another, everywhere. -/
def replaceAll (part substitute : List Char) : Nat → List Char → List Char
  | 0, text => text
  | _ + 1, [] => if part.isEmpty then substitute else []
  | fuel + 1, text@(character :: rest) =>
    if part.isEmpty then substitute ++ character :: replaceAll part substitute fuel rest
    else if part.isPrefixOf text then
      substitute ++ replaceAll part substitute fuel (text.drop part.length)
    else character :: replaceAll part substitute fuel rest

/-- The pieces of a text between the separators, the first of them filled first; at most `limit`
pieces. -/
def pieces (separator : List Char) : Nat → Nat → List Char → List Char → List (List Char)
  | 0, _, current, text => [current.reverse ++ text]
  | _ + 1, _, current, [] => [current.reverse]
  | fuel + 1, limit, current, text@(character :: rest) =>
    if limit ≤ 1 then [current.reverse ++ text]
    else if separator.isPrefixOf text then
      current.reverse :: pieces separator fuel (limit - 1) [] (text.drop separator.length)
    else pieces separator fuel limit (character :: current) rest

/-- An empty separator stands between any two characters and at both ends. -/
def splitEmpty (limit : Nat) (text : List Char) : List (List Char) :=
  let all := [] :: text.map (fun character => [character]) ++ [[]]
  if limit < all.length then all.take (limit - 1) ++ [(all.drop (limit - 1)).flatten] else all

def splitBy (separator : List Char) (limit : Nat) (text : List Char) : List (List Char) :=
  if separator.isEmpty then splitEmpty limit text
  else pieces separator (text.length + 1) limit [] text

/-- The same from the end of the text. -/
def splitFromEnd (separator : List Char) (limit : Nat) (text : List Char) : List (List Char) :=
  (splitBy separator.reverse limit text.reverse).map List.reverse

def words : Nat → List Char → List (List Char)
  | 0, _ => []
  | fuel + 1, text =>
    match text.dropWhile Text.isBlank with
    | [] => []
    | start => start.takeWhile (!Text.isBlank ·) :: words fuel (start.dropWhile (!Text.isBlank ·))

def textValue (characters : List Char) : Value :=
  .text (String.ofList characters)

def textValues (parts : List (List Char)) : Option Native :=
  Native.list (parts.map textValue)

/-- Where a part starts, looked for from a place on; negative places count from the end. -/
def indexFrom (text part : List Char) (start : Int) : Int :=
  let first := if start < 0 then text.length - start.natAbs else start.toNat
  if text.isEmpty ∨ (0 < start ∧ text.length ≤ first) then -1
  else match place? part (text.drop first) with
    | some offset => (first + offset : Nat)
    | none => -1

def wholeIndex (text part : List Char) : Int :=
  match place? part text with
  | some offset => offset
  | none => -1

/-- The two parts of a text around a place; negative places count from the end. -/
def splitAt (text : List Char) (place : Int) : List (List Char) :=
  if 0 < place then [text.take place.toNat, text.drop place.toNat]
  else if text.length < place.natAbs then [[], text]
  else [text.take (text.length - place.natAbs), text.drop (text.length - place.natAbs)]

/-- Repeats a filling behind a text up to a length. -/
def padded (text filling : List Char) (length : Nat) : List Char :=
  let missing := length - text.length
  let copies := (List.replicate (missing / max filling.length 1 + 1) filling).flatten
  text ++ copies.take missing

def padText (limits : Limits) (text filling : List Char) (length : Int) : Option Native :=
  if length ≤ text.length ∨ filling.isEmpty then Native.becomes (textValue text)
  else if Limits.exceeds length.toNat limits.textSize then Native.refuse Limits.textTooLong
  else Native.becomes (textValue (padded text filling length.toNat))

def part (text : List Char) (start count : Int) : List Char :=
  (cut text start count).2.1

/-- Text that a value stands for where a text or a character may be given. -/
def textOf? : Value → Option (List Char)
  | .text value => some value.toList
  | .char value => some [value]
  | _ => none

def ofText? (name : String) (text : List Char) : Option Native :=
  match name with
  | "len" => Native.int text.length
  | "bytes" => Native.int (String.ofList text).utf8ByteSize
  | "is_empty" => Native.bool text.isEmpty
  | "trim" => Native.becomes (textValue (Text.trimChars text))
  | "clear" => Native.becomes (.text "")
  | "pop" =>
    match text.getLast? with
    | some last => Native.yields (.char last) (textValue text.dropLast)
    | none => Native.yields .unit (.text "")
  | "to_upper" => Native.text (text.flatMap Text.upperChars)
  | "to_lower" => Native.text (text.flatMap Text.lowerChars)
  | "make_upper" => Native.becomes (textValue (text.flatMap Text.upperChars))
  | "make_lower" => Native.becomes (textValue (text.flatMap Text.lowerChars))
  | "split" => textValues (words (text.length + 1) text)
  | "chars" => Native.value (.stream (text.map .char))
  | "to_chars" => Native.list (text.map .char)
  | "to_blob" => Native.value (.blob (String.ofList text).toUTF8.toList)
  | _ => none

def ofTextNumber? (name : String) (text : List Char) (number : Int) : Option Native :=
  match name with
  | "truncate" =>
    Native.becomes (textValue (text.take number.toNat))
  | "pop" =>
    let kept := text.length - number.toNat
    Native.yields (textValue (text.drop kept)) (textValue (text.take kept))
  | "sub_string" => Native.text (part text number text.length)
  | "crop" => Native.becomes (textValue (part text number text.length))
  | "split" => textValues (splitAt text number)
  | "chars" => Native.value (.stream ((part text number text.length).map .char))
  | "get" =>
    match (indexOf? text.length number).bind (text[·]?) with
    | some character => Native.value (.char character)
    | none => Native.value .unit
  | _ => none

def ofTextText? (name : String) (text other : List Char) : Option Native :=
  match name with
  | "contains" => Native.bool (place? other text).isSome
  | "starts_with" => Native.bool (other.isPrefixOf text)
  | "ends_with" => Native.bool (other.isSuffixOf text)
  | "index_of" => Native.value (.int (wholeIndex text other))
  | "remove" => Native.becomes (textValue
      (if other.isEmpty then text else replaceAll other [] (text.length + 1) text))
  | "split" => textValues (splitBy other (text.length + 2) text)
  | "split_rev" => textValues (splitFromEnd other (text.length + 2) text)
  | _ => none

def texts? (limits : Limits) (name : String) (arguments : List Value) : Option Native :=
  match name, arguments with
  | "to_upper", [.char value] =>
    match Text.upperChars value with
    | [upper] => Native.value (.char upper)
    | _ => Native.value (.char value)
  | "to_lower", [.char value] =>
    match Text.lowerChars value with
    | [lower] => Native.value (.char lower)
    | _ => Native.value (.char value)
  | "make_upper", [.char value] =>
    match Text.upperChars value with
    | [upper] => Native.becomes (.char upper)
    | _ => Native.becomes (.char value)
  | "make_lower", [.char value] =>
    match Text.lowerChars value with
    | [lower] => Native.becomes (.char lower)
    | _ => Native.becomes (.char value)
  | "to_int", [.char value] => Native.value (.int value.toNat)
  | "+", [.text left, right] => Native.value (.text (left ++ right.toText))
  | "+", [left, .text right] => Native.value (.text (left.toText ++ right))
  | "append", [.text left, right] => Native.becomes (.text (left ++ right.toText))
  | name, [.text text] => ofText? name text.toList
  | name, [.text text, .int number] => ofTextNumber? name text.toList number
  | "sub_string", [.text text, .int start, .int count] =>
    Native.text (part text.toList start count)
  | "crop", [.text text, .int start, .int count] =>
    Native.becomes (textValue (part text.toList start count))
  | "chars", [.text text, .int start, .int count] =>
    Native.value (.stream ((part text.toList start count).map .char))
  | name, [.text text, .range first last closed] =>
    let (start, count) := rangePart first last closed
    let taken := part text.toList start count
    match name with
    | "sub_string" => Native.text taken
    | "crop" => Native.becomes (textValue taken)
    | "chars" => Native.value (.stream (taken.map .char))
    | _ => none
  | "set", [.text text, .int index, .char character] =>
    match indexOf? text.length index with
    | some place => Native.becomes (textValue (text.toList.set place character))
    | none => Native.becomes (.text text)
  | "pad", [.text text, .int length, filling] =>
    (textOf? filling).bind fun filling => padText limits text.toList filling length
  | "replace", [.text text, found, substitute] => do
    let found ← textOf? found
    let substitute ← textOf? substitute
    Native.becomes (textValue (replaceAll found substitute (text.length + 1) text.toList))
  | "index_of", [.text text, sought, .int start] => do
    Native.value (.int (indexFrom text.toList (← textOf? sought) start))
  | "split", [.text text, separator, .int limit] => do
    textValues (splitBy (← textOf? separator) (max limit.toNat 1) text.toList)
  | "split_rev", [.text text, separator, .int limit] => do
    textValues (splitFromEnd (← textOf? separator) (max limit.toNat 1) text.toList)
  | name, [.text text, other] => (textOf? other).bind (ofTextText? name text.toList)
  | _, _ => none

end Rulebook.Script.Library
