import Rulebook.Json.Failure
import Rulebook.Text.Numeral
import Rulebook.Text.Utf8

/-!
Reading JSON text from left to right. A failure knows its place: the line, and the number of bytes
read on it.
-/

namespace Rulebook.Json

structure Cursor where
  rest : List Char
  line : Nat
  column : Nat
  /-- How many more brackets may be opened inside each other. -/
  depth : Nat

namespace Cursor

def ofText (text : String) : Cursor :=
  ⟨text.toList, 1, 0, 128⟩

def place (cursor : Cursor) : Place :=
  ⟨cursor.line, cursor.column⟩

/-- The place one byte ahead, where a character that has not been read yet is blamed. -/
def placeAhead (cursor : Cursor) : Place :=
  match cursor.rest with
  | [] => cursor.place
  | '\n' :: _ => ⟨cursor.line + 1, 0⟩
  | _ => ⟨cursor.line, cursor.column + 1⟩

def past (cursor : Cursor) (character : Char) (rest : List Char) : Cursor :=
  if character = '\n' then { cursor with rest, line := cursor.line + 1, column := 0 }
  else { cursor with rest, column := cursor.column + character.utf8Size }

/-- Moves past characters that are known to be one byte each and no line ends. -/
def skipPlain (cursor : Cursor) (count : Nat) : Cursor :=
  { cursor with rest := cursor.rest.drop count, column := cursor.column + count }

def placeAfter (cursor : Cursor) : Nat → Place
  | 0 => cursor.place
  | bytes + 1 => go cursor.line cursor.column (bytes + 1) cursor.rest
where
  go (line column bytes : Nat) : List Char → Place
    | [] => ⟨line, column⟩
    | character :: rest =>
      if bytes = 0 then ⟨line, column⟩
      else if bytes < character.utf8Size then ⟨line, column + bytes⟩
      else if character = '\n' then go (line + 1) 0 (bytes - 1) rest
      else go line (column + character.utf8Size) (bytes - character.utf8Size) rest

/-- An upper bound for the number of values and separators ahead. -/
def fuel (cursor : Cursor) : Nat :=
  2 * cursor.rest.length + 3

end Cursor

abbrev Reader := EStateM Failure Cursor

def fail {α : Type} (problem : Problem) : Reader α := fun cursor =>
  .error ⟨problem, some cursor.place⟩ cursor

def failAhead {α : Type} (problem : Problem) : Reader α := fun cursor =>
  .error ⟨problem, some cursor.placeAhead⟩ cursor

/-- A failure whose place is settled by the value that it belongs to. -/
def reject {α : Type} (problem : Problem) : Reader α := fun cursor =>
  .error ⟨problem, none⟩ cursor

/-- Settles the place of a failure that has none: where reading stopped. -/
def located {α : Type} (reader : Reader α) : Reader α := fun cursor =>
  match reader cursor with
  | .ok value after => .ok value after
  | .error failure after => .error (failure.locate after.place) after

def next : Reader (Option Char) := fun cursor =>
  .ok cursor.rest.head? cursor

def advance : Reader Unit := fun cursor =>
  match cursor.rest with
  | [] => .ok () cursor
  | character :: rest => .ok () (cursor.past character rest)

def isBlank (character : Char) : Bool :=
  character = ' ' || character = '\n' || character = '\t' || character = '\r'

def skipBlanks (cursor : Cursor) : List Char → Cursor
  | [] => { cursor with rest := [] }
  | character :: rest =>
    if isBlank character then skipBlanks (cursor.past character rest) rest
    else { cursor with rest := character :: rest }

def nextSolid : Reader (Option Char) := fun cursor =>
  let after := skipBlanks cursor cursor.rest
  .ok after.rest.head? after

def word : List Char → Reader Unit
  | [] => pure ()
  | letter :: letters => do
    match ← next with
    | none => fail .endInValue
    | some character =>
      if character = letter then
        advance
        word letters
      else failAhead .expectedIdentifier

/-! Numbers -/

inductive Number where
  | integer (value : Int)
  | float (value : Float)

def Number.found : Number → Found
  | .integer value => .integer value
  | .float value => .float value

def Number.toJson : Number → Json
  | .integer value => .int value
  | .float value => .float value

/-- Adds digits to a significand as long as it fits 64 bits; the digits left over come back. -/
def absorb (significand : Nat) : List Char → Nat × List Char
  | [] => (significand, [])
  | digit :: rest =>
    let larger := significand * 10 + (digit.toNat - '0'.toNat)
    if larger < twoTo 64 then absorb larger rest else (significand, digit :: rest)

def powerOfTen (exponent : Nat) : Float :=
  Float.ofScientific 1 false exponent

/-- `value * 10 ^ exponent` by one multiplication or division with a power of ten, after divisions
by `1e308` while the exponent is out of reach; nothing when the result is infinite. -/
def scaled : Nat → Float → Int → Option Float
  | 0, value, _ => some value
  | fuel + 1, value, exponent =>
    if exponent.natAbs ≤ 308 then
      if 0 ≤ exponent then
        let product := value * powerOfTen exponent.natAbs
        if product.isInf then none else some product
      else some (value / powerOfTen exponent.natAbs)
    else if value == 0 then some value
    else if 0 ≤ exponent then none
    else scaled fuel (value / powerOfTen 308) (exponent + 308)

def floatOf (positive : Bool) (significand : Nat) (exponent : Int) : Reader Number :=
  match scaled 4 significand.toUInt64.toFloat exponent with
  | some value => pure (.float (if positive then value else -value))
  | none => fail .numberOutOfRange

def digits : Reader (List Char) := fun cursor =>
  let ahead := cursor.rest.takeWhile Char.isDigit
  .ok ahead (cursor.skipPlain ahead.length)

/-- The digits of an exponent up to the one that takes it beyond 31 bits; `none` stands for an
exponent that large. -/
def exponentDigits (soFar : Nat) : List Char → Nat × Option Nat
  | [] => (0, some soFar)
  | digit :: rest =>
    let larger := soFar * 10 + (digit.toNat - '0'.toNat)
    if larger ≤ 2147483647 then
      let (read, value) := exponentDigits larger rest
      (read + 1, value)
    else (1, none)

def exponentPart (positive : Bool) (significand : Nat) (exponent : Int) : Reader Number := do
  advance
  let upward ← match ← next with
    | some '+' => do advance; pure true
    | some '-' => do advance; pure false
    | _ => pure true
  match ← next with
  | none => fail .endInValue
  | some first =>
    if first.isDigit then
      let cursor ← get
      let (read, value) := exponentDigits 0 (cursor.rest.takeWhile Char.isDigit)
      set (cursor.skipPlain read)
      match value with
      | some size =>
        floatOf positive significand (if upward then exponent + size else exponent - size)
      | none =>
        if significand ≠ 0 ∧ upward then fail .numberOutOfRange
        else
          let _ ← digits
          pure (.float (if positive then 0.0 else -0.0))
    else failAhead .invalidNumber

def fractionPart (positive : Bool) (significand : Nat) (exponent : Int) : Reader Number := do
  advance
  let places ← digits
  if places.isEmpty then
    match ← next with
    | some _ => failAhead .invalidNumber
    | none => failAhead .endInValue
  else
    let (larger, left) := absorb significand places
    let lowered := exponent - ((places.length - left.length : Nat) : Int)
    match ← next with
    | some 'e' | some 'E' => exponentPart positive larger lowered
    | _ => floatOf positive larger lowered

/-- A number after its minus sign, if it had one. -/
def number (positive : Bool) : Reader Number := do
  match ← next with
  | none => fail .endInValue
  | some first =>
    if first.isDigit then
      let whole ← if first = '0' then do
          advance
          pure ['0']
        else digits
      let (significand, left) := absorb 0 whole
      match ← next with
      | some '.' => fractionPart positive significand left.length
      | some 'e' | some 'E' => exponentPart positive significand left.length
      | ahead =>
        if first = '0' ∧ ahead.any Char.isDigit then failAhead .invalidNumber
        else if ¬ left.isEmpty then floatOf positive significand left.length
        else if positive then pure (.integer significand)
        else if significand = 0 ∨ twoTo 63 < significand then
          pure (.float (-significand.toUInt64.toFloat))
        else pure (.integer (-(significand : Int)))
    else failAhead .invalidNumber

/-! Strings -/

def fourHexDigits : Reader Nat := do
  let cursor ← get
  let ahead := cursor.rest.take 4
  if Text.byteSize ahead < 4 then
    throw ⟨.endInString, some (cursor.placeAfter 4)⟩
  else
    match ahead.mapM Text.hexDigit? with
    | some values =>
      set (cursor.skipPlain 4)
      pure (values.foldl (fun number digit => number * 16 + digit) 0)
    | none => throw ⟨.invalidEscape, some (cursor.placeAfter 4)⟩

/-- The second half of a pair of surrogates, or what is wrong with it. -/
def trailingSurrogate : Reader Nat := do
  for expected in ['\\', 'u'] do
    match ← next with
    | none => fail .endInString
    | some character =>
      if character = expected then advance else failAhead .unfinishedSurrogate
  let unit ← fourHexDigits
  if 0xDC00 ≤ unit ∧ unit ≤ 0xDFFF then pure unit else fail .loneSurrogate

/-- The character that an escape stands for; the backslash has been read. -/
def escape : Reader Char := do
  match ← next with
  | none => fail .endInString
  | some character =>
    let plain : Option Char := match character with
      | '"' => some '"'
      | '\\' => some '\\'
      | '/' => some '/'
      | 'b' => some '\x08'
      | 'f' => some '\x0c'
      | 'n' => some '\n'
      | 'r' => some '\r'
      | 't' => some '\t'
      | _ => none
    match plain with
    | some meant => do
      advance
      pure meant
    | none =>
      if character = 'u' then
        advance
        let unit ← fourHexDigits
        if 0xDC00 ≤ unit ∧ unit ≤ 0xDFFF then fail .loneSurrogate
        else if 0xD800 ≤ unit ∧ unit ≤ 0xDBFF then
          let second ← trailingSurrogate
          pure (Char.ofNat ((unit - 0xD800) * 0x400 + (second - 0xDC00) + 0x10000))
        else pure (Char.ofNat unit)
      else failAhead .invalidEscape

/-- The characters of a string, the last one first; the opening quote has been read. -/
def stringCharacters : Nat → List Char → Reader (List Char)
  | 0, soFar => pure soFar
  | fuel + 1, soFar => do
    match ← next with
    | none => fail .endInString
    | some '"' => do
      advance
      pure soFar
    | some '\\' => do
      advance
      let meant ← escape
      stringCharacters fuel (meant :: soFar)
    | some character =>
      if character.toNat < 0x20 then failAhead .controlCharacter
      else
        advance
        stringCharacters fuel (character :: soFar)

def stringBody : Reader String := do
  let cursor ← get
  let reversed ← stringCharacters (cursor.rest.length + 1) []
  pure (String.ofList reversed.reverse)

/-! Brackets -/

/-- Reads what is between brackets, the opening one ahead, one level deeper. -/
def nested {α : Type} (body : Reader α) : Reader α := fun cursor =>
  if cursor.depth ≤ 1 then failAhead .tooDeep cursor
  else
    match (do advance; body : Reader α) { cursor with depth := cursor.depth - 1 } with
    | .ok value after => .ok value { after with depth := cursor.depth }
    | .error failure after => .error failure { after with depth := cursor.depth }

/-- The closing bracket is looked for also after a failure, which keeps its cause. -/
def closedBy {α : Type} (close : Reader Unit) (body : Reader α) : Reader α := fun cursor =>
  match body cursor with
  | .ok value after =>
    match close after with
    | .ok _ closed => .ok value closed
    | .error failure stopped => .error failure stopped
  | .error failure after =>
    match close after with
    | .ok _ closed => .error failure closed
    | .error _ stopped => .error failure stopped

def closeList : Reader Unit := do
  match ← nextSolid with
  | some ']' => advance
  | some ',' => do
    advance
    match ← nextSolid with
    | some ']' => failAhead .trailingComma
    | _ => failAhead .trailingCharacters
  | some _ => failAhead .trailingCharacters
  | none => failAhead .endInList

def closeObject : Reader Unit := do
  match ← nextSolid with
  | some '}' => advance
  | some ',' => failAhead .trailingComma
  | some _ => failAhead .trailingCharacters
  | none => failAhead .endInObject

/-- Says whether another element follows, and moves to it. -/
def moreElements (first : Bool) : Reader Bool := do
  match ← nextSolid with
  | none => failAhead .endInList
  | some ']' => pure false
  | some character =>
    if first then pure true
    else if character = ',' then
      advance
      match ← nextSolid with
      | some ']' => failAhead .trailingComma
      | some _ => pure true
      | none => failAhead .endInValue
    else failAhead .expectedListComma

/-- Says whether another key follows, and moves behind its opening quote. -/
def moreKeys (first : Bool) : Reader Bool := do
  match ← nextSolid with
  | none => failAhead .endInObject
  | some '}' => pure false
  | some character =>
    if first then
      if character = '"' then do
        advance
        pure true
      else failAhead .keyNotString
    else if character = ',' then
      advance
      match ← nextSolid with
      | some '"' => do
        advance
        pure true
      | some '}' => failAhead .trailingComma
      | some _ => failAhead .keyNotString
      | none => failAhead .endInValue
    else failAhead .expectedObjectComma

def colon : Reader Unit := do
  match ← nextSolid with
  | some ':' => advance
  | some _ => failAhead .expectedColon
  | none => failAhead .endInObject

def elements {α : Type} (element : Reader α) : Nat → Bool → Reader (List α)
  | 0, _ => pure []
  | fuel + 1, first => do
    if ← moreElements first then
      let value ← element
      let rest ← elements element fuel false
      pure (value :: rest)
    else pure []

/-! Values -/

mutual

def anyValue : Nat → Reader Json
  | 0 => pure .null
  | fuel + 1 => located do
    match ← nextSolid with
    | none => failAhead .endInValue
    | some 'n' => do advance; word ['u', 'l', 'l']; pure .null
    | some 't' => do advance; word ['r', 'u', 'e']; pure (.bool true)
    | some 'f' => do advance; word ['a', 'l', 's', 'e']; pure (.bool false)
    | some '-' => do advance; return (← number false).toJson
    | some '"' => do advance; return .str (← stringBody)
    | some '[' => closedBy closeList (nested (return .arr (← anyElements fuel true)))
    | some '{' => closedBy closeObject (nested (return ofFields (← anyFields fuel true)))
    | some character =>
      if character.isDigit then return (← number true).toJson else failAhead .expectedValue

def anyElements : Nat → Bool → Reader (List Json)
  | 0, _ => pure []
  | fuel + 1, first => do
    if ← moreElements first then
      let value ← anyValue fuel
      let rest ← anyElements fuel false
      pure (value :: rest)
    else pure []

def anyFields : Nat → Bool → Reader (List (String × Json))
  | 0, _ => pure []
  | fuel + 1, first => do
    if ← moreKeys first then
      let key ← stringBody
      colon
      let value ← anyValue fuel
      let rest ← anyFields fuel false
      pure ((key, value) :: rest)
    else pure []

end

/-! Values that nobody asked for: their numbers may be of any size, their surrogates may stand
alone, and their brackets may be of any depth. -/

def skipExponent : Reader Unit := do
  advance
  match ← next with
  | some '+' | some '-' => advance
  | _ => pure ()
  if (← digits).isEmpty then failAhead .invalidNumber

def skipNumber : Reader Unit := do
  match ← next with
  | some '0' => do
    advance
    if (← next).any Char.isDigit then failAhead .invalidNumber
  | _ => do
    if (← digits).isEmpty then failAhead .invalidNumber
  match ← next with
  | some '.' => do
    advance
    if (← digits).isEmpty then failAhead .invalidNumber
    match ← next with
    | some 'e' | some 'E' => skipExponent
    | _ => pure ()
  | some 'e' | some 'E' => skipExponent
  | _ => pure ()

def skipString : Nat → Reader Unit
  | 0 => pure ()
  | fuel + 1 => do
    match ← next with
    | none => fail .endInString
    | some '"' => advance
    | some '\\' => do
      advance
      match ← next with
      | none => fail .endInString
      | some character =>
        if character = 'u' then do
          advance
          let _ ← fourHexDigits
        else if ['"', '\\', '/', 'b', 'f', 'n', 'r', 't'].contains character then advance
        else failAhead .invalidEscape
      skipString fuel
    | some character =>
      if character.toNat < 0x20 then fail .controlCharacter
      else
        advance
        skipString fuel

mutual

def skipValue : Nat → Reader Unit
  | 0 => pure ()
  | fuel + 1 => do
    match ← nextSolid with
    | none => failAhead .endInValue
    | some 'n' => do advance; word ['u', 'l', 'l']
    | some 't' => do advance; word ['r', 'u', 'e']
    | some 'f' => do advance; word ['a', 'l', 's', 'e']
    | some '-' => do advance; skipNumber
    | some '"' => do advance; skipString fuel
    | some '[' => do
      advance
      match ← nextSolid with
      | none => failAhead .endInList
      | some ']' => advance
      | some _ => skipElements fuel
    | some '{' => do
      advance
      match ← nextSolid with
      | none => failAhead .endInObject
      | some '}' => advance
      | some _ => skipFields fuel
    | some character => if character.isDigit then skipNumber else failAhead .expectedValue

def skipElements : Nat → Reader Unit
  | 0 => pure ()
  | fuel + 1 => do
    skipValue fuel
    match ← nextSolid with
    | none => failAhead .endInList
    | some ',' => do advance; skipElements fuel
    | some ']' => advance
    | some _ => failAhead .expectedListComma

def skipFields : Nat → Reader Unit
  | 0 => pure ()
  | fuel + 1 => do
    match ← nextSolid with
    | some '"' => advance
    | some _ => failAhead .keyNotString
    | none => failAhead .endInObject
    skipString fuel
    colon
    skipValue fuel
    match ← nextSolid with
    | none => failAhead .endInObject
    | some ',' => do advance; skipFields fuel
    | some '}' => advance
    | some _ => failAhead .expectedObjectComma

end

/-- Runs a reader with fuel enough for all that is ahead. -/
def fuelled {α : Type} (reader : Nat → Reader α) : Reader α := fun cursor =>
  reader cursor.fuel cursor

def finished {α : Type} (reader : Reader α) : Reader α := do
  let value ← reader
  match ← nextSolid with
  | none => pure value
  | some _ => failAhead .trailingCharacters

def Reader.run {α : Type} (reader : Reader α) (text : String) : Except Failure α :=
  match finished reader (Cursor.ofText text) with
  | .ok value _ => .ok value
  | .error failure _ => .error failure

def parse (text : String) : Except Failure Json :=
  Reader.run (fuelled anyValue) text

end Rulebook.Json
