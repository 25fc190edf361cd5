/-!
Upper and lower case of letters: Latin, Greek, Cyrillic and Armenian. Other letters have one case
here.
-/

namespace Rulebook.Text

/-- Runs of small letters and the distance to their capitals. -/
def caseRuns : List (Nat × Nat × Nat) :=
  [(0x61, 0x7A, 32), (0xE0, 0xF6, 32), (0xF8, 0xFE, 32), (0x3B1, 0x3C1, 32), (0x3C3, 0x3CB, 32),
    (0x430, 0x44F, 32), (0x450, 0x45F, 80), (0x561, 0x586, 48), (0x24D0, 0x24E9, 26),
    (0x2170, 0x217F, 16), (0xFF41, 0xFF5A, 32)]

/-- Ranges in which capitals and small letters alternate; the first letter is a capital. -/
def casePairs : List (Nat × Nat) :=
  [(0x100, 0x12F), (0x132, 0x137), (0x14A, 0x177), (0x1DE, 0x1EF), (0x1F8, 0x21F),
    (0x222, 0x233), (0x370, 0x373), (0x3D8, 0x3EF), (0x460, 0x481),
    (0x48A, 0x4BF), (0x4D0, 0x52F), (0x1E00, 0x1E95), (0x1EA0, 0x1EFF), (0x139, 0x148),
    (0x179, 0x17E), (0x1CD, 0x1DC), (0x4C1, 0x4CE)]

def caseSingles : List (Nat × Nat) :=
  [(0xFF, 0x178), (0x3AC, 0x386), (0x3AD, 0x388), (0x3AE, 0x389), (0x3AF, 0x38A), (0x3CC, 0x38C),
    (0x3CD, 0x38E), (0x3CE, 0x38F), (0x4CF, 0x4C0)]

def capitalOf? (code : Nat) : Option Nat :=
  match caseRuns.find? (fun run => run.1 ≤ code && code ≤ run.2.1) with
  | some run => some (code - run.2.2)
  | none =>
    match caseSingles.find? (·.1 == code) with
    | some single => some single.2
    | none =>
      match casePairs.find? (fun pair => pair.1 ≤ code && code ≤ pair.2) with
      | some pair => if (code - pair.1) % 2 = 1 then some (code - 1) else none
      | none => none

def smallOf? (code : Nat) : Option Nat :=
  match caseRuns.find? (fun run => run.1 - run.2.2 ≤ code && code ≤ run.2.1 - run.2.2) with
  | some run => some (code + run.2.2)
  | none =>
    match caseSingles.find? (·.2 == code) with
    | some single => some single.1
    | none =>
      match casePairs.find? (fun pair => pair.1 ≤ code && code ≤ pair.2) with
      | some pair => if (code - pair.1) % 2 = 0 then some (code + 1) else none
      | none => none

/-- The upper case of a character, which may be several characters. -/
def upperChars (character : Char) : List Char :=
  if character = 'ß' then ['S', 'S']
  else if character = 'µ' then ['Μ']
  else if character = 'ı' then ['I']
  else if character = 'ς' then ['Σ']
  else match capitalOf? character.toNat with
    | some code => [Char.ofNat code]
    | none => [character]

def lowerChars (character : Char) : List Char :=
  if character = 'İ' then ['i', Char.ofNat 0x307]
  else match smallOf? character.toNat with
    | some code => [Char.ofNat code]
    | none => [character]

def upper (text : String) : String :=
  String.ofList (text.toList.flatMap upperChars)

def lower (text : String) : String :=
  String.ofList (text.toList.flatMap lowerChars)

end Rulebook.Text
