/-!
Text from bytes. Bytes that are no text are either refused or shown as replacement characters, one
for each longest start of a character.
-/

namespace Rulebook.Text

def byteSize (characters : List Char) : Nat :=
  characters.foldl (fun size character => size + character.utf8Size) 0

/-- The bits that a later byte of a character adds. -/
def continuation? (byte : UInt8) : Option Nat :=
  if 0x80 ≤ byte ∧ byte < 0xC0 then some (byte.toNat - 0x80) else none

/-- How many bytes follow a first byte, the bits of that byte, and the range of the second one. -/
def leading? (byte : UInt8) : Option (Nat × Nat × UInt8 × UInt8) :=
  if byte < 0x80 then some (0, byte.toNat, 0x80, 0xBF)
  else if 0xC2 ≤ byte ∧ byte ≤ 0xDF then some (1, byte.toNat - 0xC0, 0x80, 0xBF)
  else if byte = 0xE0 then some (2, 0, 0xA0, 0xBF)
  else if byte = 0xED then some (2, 13, 0x80, 0x9F)
  else if 0xE1 ≤ byte ∧ byte ≤ 0xEF then some (2, byte.toNat - 0xE0, 0x80, 0xBF)
  else if byte = 0xF0 then some (3, 0, 0x90, 0xBF)
  else if 0xF1 ≤ byte ∧ byte ≤ 0xF3 then some (3, byte.toNat - 0xF0, 0x80, 0xBF)
  else if byte = 0xF4 then some (3, 4, 0x80, 0x8F)
  else none

/-- The rest of a character: its code point if all of it is there, and how many bytes were fit. -/
def following (count code : Nat) (low high : UInt8) : List UInt8 → Option Nat × Nat
  | [] => (if count = 0 then some code else none, 0)
  | byte :: rest =>
    match count with
    | 0 => (some code, 0)
    | count + 1 =>
      if low ≤ byte ∧ byte ≤ high then
        let (found, used) := following count (code * 64 + (byte.toNat - 0x80)) 0x80 0xBF rest
        (found, used + 1)
      else (none, 0)

/-- The first character and how many bytes it takes; a replacement stands for bytes that are no
character. -/
def firstChar (byte : UInt8) (rest : List UInt8) : Option Char × Nat :=
  match leading? byte with
  | none => (none, 1)
  | some (count, code, low, high) =>
    let (found, used) := following count code low high rest
    (found.map Char.ofNat, used + 1)

def replacement : Char := Char.ofNat 0xFFFD

def lossyChars : Nat → List UInt8 → List Char
  | 0, _ => []
  | _ + 1, [] => []
  | fuel + 1, byte :: rest =>
    let (character, used) := firstChar byte rest
    character.getD replacement :: lossyChars fuel (rest.drop (used - 1))

/-- Text from bytes, whatever they are. -/
def lossy (bytes : List UInt8) : String :=
  String.ofList (lossyChars bytes.length bytes)

def strictChars? : Nat → List UInt8 → Option (List Char)
  | 0, bytes => if bytes.isEmpty then some [] else none
  | _ + 1, [] => some []
  | fuel + 1, byte :: rest => do
    let (character, used) := firstChar byte rest
    return (← character) :: (← strictChars? fuel (rest.drop (used - 1)))

def ofBytes? (bytes : List UInt8) : Option String :=
  (strictChars? bytes.length bytes).map String.ofList

end Rulebook.Text
