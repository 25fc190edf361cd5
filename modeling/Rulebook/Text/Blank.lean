/-!
White space as Unicode's `White_Space` property draws it, and trimming by it.
-/

namespace Rulebook.Text

/-- Ranges of the code points with the property `White_Space`, ends included. -/
def blankRanges : List (Nat × Nat) :=
  [(0x09, 0x0D), (0x20, 0x20), (0x85, 0x85), (0xA0, 0xA0), (0x1680, 0x1680), (0x2000, 0x200A),
    (0x2028, 0x2029), (0x202F, 0x202F), (0x205F, 0x205F), (0x3000, 0x3000)]

def isBlank (character : Char) : Bool :=
  blankRanges.any fun range => range.1 ≤ character.toNat && character.toNat ≤ range.2

def trimCharsStart (characters : List Char) : List Char :=
  characters.dropWhile isBlank

def trimCharsEnd (characters : List Char) : List Char :=
  (characters.reverse.dropWhile isBlank).reverse

def trimChars (characters : List Char) : List Char :=
  trimCharsEnd (trimCharsStart characters)

/-- The text without the blank characters at both ends. -/
def trim (text : String) : String :=
  String.ofList (trimChars text.toList)

def trimStart (text : String) : String :=
  String.ofList (trimCharsStart text.toList)

def trimEnd (text : String) : String :=
  String.ofList (trimCharsEnd text.toList)

/-- A text is blank when trimming leaves nothing. -/
def isAllBlank (text : String) : Bool :=
  text.toList.all isBlank

end Rulebook.Text
