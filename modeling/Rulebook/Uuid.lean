import Rulebook.Json.Codec
import Rulebook.Text.Numeral

/-!
Identifiers of 128 bits, and their text: 32 hexadecimal digits in groups of 8, 4, 4, 4 and 12 with
hyphens between them. The digits may also be read without hyphens, and the grouped form in braces
or behind `urn:uuid:`.
-/

namespace Rulebook

structure Uuid where
  bits : BitVec 128
  deriving DecidableEq, Inhabited

namespace Uuid

instance : Hashable Uuid where
  hash id := hash id.bits.toNat

instance : Ord Uuid where
  compare left right := compare left.bits.toNat right.bits.toNat

def zero : Uuid := ⟨0⟩

/-- A random identifier: the version and variant bits are set, the others are given. -/
def ofRandom (bits : Nat) : Uuid :=
  let cleared := BitVec.ofNat 128 bits &&& ~~~(BitVec.ofNat 128 (0xF000C000000000000000))
  ⟨cleared ||| BitVec.ofNat 128 0x40008000000000000000⟩

/-- The digits with a hyphen after the 8th, 12th, 16th and 20th. -/
def toChars (id : Uuid) : List Char :=
  let digits := Text.hexDigits 32 id.bits.toNat
  digits.take 8 ++ '-' :: (digits.drop 8).take 4 ++ '-' :: (digits.drop 12).take 4 ++
    '-' :: (digits.drop 16).take 4 ++ '-' :: digits.drop 20

def toText (id : Uuid) : String :=
  String.ofList id.toChars

def toJson (id : Uuid) : Json :=
  .str id.toText

def listToJson (list : List Uuid) : Json :=
  .arr (list.map toJson)

inductive Misspelling where
  | character (found : Char) (position : Nat)
  | length (found : Nat)
  | groups (found : Nat)
  | groupLength (group expected found : Nat)

def Misspelling.message : Misspelling → String
  | .character found position => s!"invalid character: found `{found}` at {position}"
  | .length found => s!"invalid length: found {found}"
  | .groups found => s!"invalid group count: expected 5, found {found}"
  | .groupLength group expected found =>
    s!"invalid group length in group {group}: expected {expected}, found {found}"

/-- The digits of a text, its start in the whole text, and whether it stands alone. -/
structure Core where
  characters : List Char
  offset : Nat
  bare : Bool

/-- Drops a letter-case insensitive prefix. -/
def dropPrefix? : List Char → List Char → Option (List Char)
  | [], rest => some rest
  | _ :: _, [] => none
  | expected :: others, character :: rest =>
    if character.toLower = expected then dropPrefix? others rest else none

def core (characters : List Char) : Core :=
  let urn := ['u', 'r', 'n', ':', 'u', 'u', 'i', 'd', ':']
  match characters with
  | '{' :: rest =>
    if rest.getLast? = some '}' then ⟨rest.dropLast, 1, false⟩ else ⟨characters, 0, true⟩
  | _ =>
    match dropPrefix? urn characters with
    | some rest => ⟨rest, urn.length, false⟩
    | none => ⟨characters, 0, true⟩

def hexNumber? (digits : List Char) : Option Nat :=
  (digits.mapM Text.hexDigit?).map fun values =>
    values.foldl (fun number digit => number * 16 + digit) 0

/-- The 36 characters of the grouped form. -/
def grouped? (characters : List Char) : Option Nat :=
  let hyphens := [8, 13, 18, 23]
  if characters.length = 36 ∧ hyphens.all fun place => characters[place]? = some '-' then
    let digits := characters.filter (· ≠ '-')
    if digits.length = 32 then hexNumber? digits else none
  else none

def bits? (characters : List Char) : Option Nat :=
  let inner := core characters
  if inner.bare ∧ characters.length = 32 then hexNumber? characters else grouped? inner.characters

/-- The first character that cannot stand in an identifier, and its byte position. -/
def strangeCharacter? (position : Nat) : List Char → Option (Char × Nat)
  | [] => none
  | character :: rest =>
    if character = '-' ∨ (Text.hexDigit? character).isSome then
      strangeCharacter? (position + character.utf8Size) rest
    else some (character, position)

def hyphens (position : Nat) : List Char → List Nat
  | [] => []
  | character :: rest =>
    if character = '-' then position :: hyphens (position + 1) rest
    else hyphens (position + 1) rest

/-- The first group whose closing hyphen is not where it belongs. -/
def wrongGroup? (group : Nat) : List Nat → List (Nat × Nat) → Option Misspelling
  | place :: places, (start, length) :: starts =>
    if place = start + length then wrongGroup? (group + 1) places starts
    else some (.groupLength group length (place - start))
  | _, _ => none

def misspelling (characters : List Char) : Misspelling :=
  let inner := core characters
  match strangeCharacter? inner.offset inner.characters with
  | some (found, position) => .character found position
  | none =>
    let places := hyphens 0 inner.characters
    if places.isEmpty ∧ inner.bare then .length characters.length
    else if places.length ≠ 4 then .groups (places.length + 1)
    else
      match wrongGroup? 0 places [(0, 8), (9, 4), (14, 4), (19, 4)] with
      | some wrong => wrong
      | none => .groupLength 4 12 (characters.length - 24)

def ofText (text : String) : Except Misspelling Uuid :=
  match bits? text.toList with
  | some number => .ok ⟨BitVec.ofNat 128 number⟩
  | none => .error (misspelling text.toList)

def ofText? (text : String) : Option Uuid :=
  (ofText text).toOption

def codec : Json.Codec Uuid :=
  .parsed "a formatted UUID string" fun text =>
    (ofText text).mapError fun wrong => .rejected s!"UUID parsing failed: {wrong.message}"

end Uuid

end Rulebook
