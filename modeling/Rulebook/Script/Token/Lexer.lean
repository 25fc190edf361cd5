import Rulebook.Decimal.Reading
import Rulebook.Script.Token
import Rulebook.Text.Numeral

/-!
Splitting a script into tokens. The expression inside a template is split like the rest of the
script; the template goes on behind the brace that closes the expression. What cannot be a token
ends the list.
-/

namespace Rulebook.Script

structure Cursor where
  rest : List Char
  place : Position

namespace Cursor

def atStart (text : String) : Cursor :=
  ⟨text.toList, ⟨1, 0⟩⟩

/-- The position of the next character, if the line goes on. -/
def ahead (cursor : Cursor) : Position :=
  ⟨cursor.place.line, cursor.place.column + 1⟩

def advance (cursor : Cursor) (count : Nat) : Cursor :=
  ⟨cursor.rest.drop count, ⟨cursor.place.line, cursor.place.column + count⟩⟩

/-- Takes one character, which is given with what follows it. -/
def past (cursor : Cursor) (character : Char) (rest : List Char) : Cursor :=
  if character = '\n' then ⟨rest, ⟨cursor.place.line + 1, 0⟩⟩ else ⟨rest, cursor.ahead⟩

end Cursor

def isGap (character : Char) : Bool :=
  [' ', '\t', '\n', '\x0c', '\r'].contains character

/-! Numbers -/

structure Numeral where
  reversed : List Char
  radix : Option Nat
  pointed : Bool
  raised : Bool
  /-- The sign of the exponent is next. -/
  signNext : Bool
  /-- Characters taken from the script. -/
  taken : Nat

def Numeral.push (numeral : Numeral) (character : Char) : Numeral :=
  { numeral with reversed := character :: numeral.reversed, taken := numeral.taken + 1 }

def radixOf? (character : Char) : Option Nat :=
  if character = 'x' ∨ character = 'X' then some 16
  else if character = 'o' ∨ character = 'O' then some 8
  else if character = 'b' ∨ character = 'B' then some 2
  else none

def Numeral.accepts (numeral : Numeral) (character : Char) : Bool :=
  if numeral.radix = some 16 then (Text.hexDigit? character).isSome else character.isDigit

/-- Goes on with a number. A point belongs to it unless another point, an underscore or a name
follows; an `e` does when digits or a sign follow. -/
def Numeral.scan (numeral : Numeral) : List Char → Numeral
  | [] => numeral
  | character :: rest =>
    if numeral.signNext then scan { numeral.push character with signNext := false } rest
    else if character = '_' then scan { numeral with taken := numeral.taken + 1 } rest
    else if numeral.accepts character then scan (numeral.push character) rest
    else if character = '.' ∧ ¬ numeral.pointed ∧ numeral.radix.isNone then
      let whole := { numeral.push '.' with pointed := true }
      match rest.head? with
      | none => numeral
      | some next =>
        if next.isDigit then scan whole rest
        else if next = '_' ∨ next = '.' ∨ isNameStart next then numeral
        else scan { whole with reversed := '0' :: whole.reversed } rest
    else if character = 'e' ∧ ¬ numeral.raised ∧ numeral.radix.isNone then
      let power := { numeral.push 'e' with raised := true, pointed := true }
      match rest.head? with
      | none => numeral
      | some next =>
        if next.isDigit then scan power rest
        else if next = '+' ∨ next = '-' then scan { power with signNext := true } rest
        else numeral
    else if numeral.reversed = ['0'] then
      match radixOf? character with
      | some radix => scan { numeral.push character with radix := some radix } rest
      | none => numeral
    else numeral

/-- The number that digits denote in a base, if all of them are digits of it. -/
def digitsIn? (radix : Nat) (digits : List Char) : Option Nat :=
  if digits.isEmpty then none
  else digits.foldl (fun soFar digit => do
    let value ← Text.hexDigit? digit
    if value < radix then return (← soFar) * radix + value else none) (some 0)

/-- A pattern of 64 bits as a signed number. -/
def signed64 (value : Nat) : Int :=
  if value < twoTo 63 then value else (value : Int) - twoTo 64

/-- Whole numbers beyond 64 bits become floats. -/
def Numeral.token (numeral : Numeral) (negative : Bool) : Token :=
  let digits := numeral.reversed.reverse
  match numeral.radix with
  | some radix =>
    let shown := if negative then digits.drop 1 else digits.drop 2
    match digitsIn? radix shown with
    | some value =>
      if value < twoTo 64 then .int (signed64 value) else .bad (.badNumber (String.ofList shown))
    | none => .bad (.badNumber (String.ofList shown))
  | none =>
    let written := String.ofList (if negative then '-' :: digits else digits)
    match Text.signed? 64 written with
    | some value => .int value
    | none =>
      match Decimal.float? written with
      | some value => .float value
      | none => .bad (.badNumber written)

/-! Strings -/

/-- How a string ends: at its closing mark, before an expression, or nowhere. -/
inductive TextEnd where
  | closed
  | expression
  | missing

/-- The text, how it ends, and what is left. -/
structure Quoted where
  characters : List Char
  ending : TextEnd
  cursor : Cursor

def Quoted.value (quoted : Quoted) : String :=
  String.ofList quoted.characters.reverse

structure Quoting where
  mark : Char
  /-- Line ends and backslashes stand for themselves, and expressions may be put in. -/
  verbatim : Bool
  /-- A backslash at the end of a line continues the string on the next one. -/
  continued : Bool
  start : Position

def simpleEscape? (mark character : Char) : Option Char :=
  if character = 't' then some '\t'
  else if character = 'n' then some '\n'
  else if character = 'r' then some '\r'
  else if character = '\\' then some '\\'
  else if character = mark then some mark
  else none

def escapeLength? (character : Char) : Option Nat :=
  if character = 'x' then some 2
  else if character = 'u' then some 4
  else if character = 'U' then some 8
  else none

/-- The digits of an escape, as many as are needed: their value, or how far they could be read. -/
def escapeDigits : Nat → Nat → Nat → List Char → Except Nat Nat
  | 0, value, _, _ => .ok value
  | _ + 1, _, taken, [] => .error taken
  | count + 1, value, taken, digit :: rest =>
    match Text.hexDigit? digit with
    | some number => escapeDigits count (value * 16 + number) (taken + 1) rest
    | none => .error (taken + 1)

abbrev Scanned := Except SyntaxFault

/-- Reads on behind the opening mark. Blanks left of `margin` are dropped at the start of a
continued line. -/
def scanQuoted (quoting : Quoting) : Nat → Nat → List Char → Cursor → Scanned Quoted
  | 0, _, soFar, cursor => .ok ⟨soFar, .missing, cursor⟩
  | fuel + 1, margin, soFar, cursor =>
    match cursor.rest with
    | [] =>
      if quoting.verbatim then .ok ⟨soFar, .missing, cursor⟩
      else .error ⟨.openString, quoting.start⟩
    | character :: rest =>
      let after := cursor.past character rest
      let goOn (soFar : List Char) (cursor : Cursor) := scanQuoted quoting fuel 0 soFar cursor
      if character = '$' ∧ quoting.verbatim ∧ rest.head? = some '{' then
        .ok ⟨soFar, .expression, after⟩
      else if character = quoting.mark then
        if rest.head? = some quoting.mark then goOn (character :: soFar) (after.advance 1)
        else .ok ⟨soFar, .closed, after⟩
      else if character = '\r' ∧ rest.head? = some '\n' then
        scanQuoted quoting fuel margin soFar after
      else if quoting.verbatim then goOn (character :: soFar) after
      else if character = '\n' then .error ⟨.openString, quoting.start⟩
      else if character = '\\' then
        match rest with
        | [] => .error ⟨.openString, quoting.start⟩
        | '\n' :: later =>
          if quoting.continued then
            scanQuoted quoting fuel (quoting.start.column + 1) soFar (after.past '\n' later)
          else .error ⟨.openString, quoting.start⟩
        | '\r' :: '\n' :: later =>
          if quoting.continued then
            scanQuoted quoting fuel (quoting.start.column + 1) soFar (after.past '\n' later)
          else .error ⟨.openString, quoting.start⟩
        | escape :: later =>
          let behind := after.advance 1
          match simpleEscape? quoting.mark escape, escapeLength? escape with
          | some meant, _ => goOn (meant :: soFar) behind
          | none, some length =>
            let wrong (taken : Nat) : Scanned Quoted :=
              let shown := String.ofList ('\\' :: escape :: later.take taken)
              .error ⟨.badEscape shown, (behind.advance taken).place⟩
            match escapeDigits length 0 0 later with
            | .ok value =>
              if value.isValidChar then goOn (Char.ofNat value :: soFar) (behind.advance length)
              else wrong length
            | .error taken => wrong taken
          | none, none => .error ⟨.badEscape (String.ofList ['\\', escape]), behind.place⟩
      else if isGap character ∧ after.place.column < margin then
        scanQuoted quoting fuel margin soFar after
      else goOn (character :: soFar) after

def quoted (mark : Char) (cursor : Cursor) : Scanned Quoted :=
  scanQuoted ⟨mark, mark = '\x60', mark = '"', cursor.place⟩ (cursor.rest.length + 1) 0 [] cursor

/-! Comments -/

def skipLine (cursor : Cursor) : List Char → Cursor
  | [] => { cursor with rest := [] }
  | '\n' :: rest => cursor.past '\n' rest
  | '\r' :: '\n' :: rest => (cursor.advance 1).past '\n' rest
  | '\r' :: rest => cursor.past '\n' rest
  | character :: rest => skipLine (cursor.past character rest) rest

/-- The rest of a comment between signs; such comments nest. -/
def skipComment (cursor : Cursor) (level : Nat) : List Char → Cursor
  | [] => { cursor with rest := [] }
  | '*' :: '/' :: rest =>
    let after : Cursor := ⟨rest, ⟨cursor.place.line, cursor.place.column + 2⟩⟩
    if level ≤ 1 then after else skipComment after (level - 1) rest
  | '/' :: '*' :: rest =>
    skipComment ⟨rest, ⟨cursor.place.line, cursor.place.column + 2⟩⟩ (level + 1) rest
  | character :: rest => skipComment (cursor.past character rest) level rest

/-! Words and signs -/

def wordToken (word : String) : Token :=
  if Token.disabledWords.contains word then
    .bad (.improper s!"reserved keyword '{word}' is disabled")
  else if word = "_" ∨ Token.keywords.contains word then .sign word
  else if Token.reservedWords.contains word ∨ Token.callableWords.contains word ∨ word = "this" then
    .reserved word
  else if isProperName word then .name word
  else .bad (.badName word)

def longSigns : List String :=
  ["**=", "...", "..=", "===", "::<", "<<=", ">>=", "!=="]

def pairSigns : List String :=
  ["()", "(*", "#\x7b", "#!", "+=", "++", "-=", "->", "--", "*)", "*=", "**", "/=", "..", "==",
    "=>", "::", ":=", ":;", "<=", "<-", "<<", "<|", ">=", ">>", "!=", "!.", "||", "|=", "|>", "&&",
    "&=", "^=", "%=", "?.", "??", "?["]

def singleSigns : List String :=
  ["\x7b", "\x7d", "(", ")", "[", "]", "+", "-", "*", "/", ";", ",", ".", "=", ":", "<", ">", "!",
    "|", "&", "^", "%", "~", "@", "$", "?", "#"]

def reservedSigns : List String :=
  ["#!", "++", "--", "...", "<|", "!.", "|>", "~", "@", "$", "?", "#"]

/-- Signs that other languages use, with what should stand instead. -/
def foreignSigns : List (String × String) :=
  [("===", "'===' is not a valid operator. This is not JavaScript! Should it be '=='?"),
    ("!==", "'!==' is not a valid operator. This is not JavaScript! Should it be '!='?"),
    ("->", "'->' is not a valid symbol. This is not C or C++!"),
    ("<-", "'<-' is not a valid symbol. This is not Go! Should it be '<='?"),
    (":=", "':=' is not a valid assignment operator. This is not Go or Pascal! " ++
      "Should it be simply '='?"),
    (":;", "':;' is not a valid symbol. Should it be '::'?"),
    ("::<", "'::<>' is not a valid symbol. This is not Rust! Should it be '::'?"),
    ("(*", "'(* .. *)' is not a valid comment format. This is not Pascal! " ++
      "Should it be '/* .. */'?"),
    ("*)", "'(* .. *)' is not a valid comment format. This is not Pascal! " ++
      "Should it be '/* .. */'?")]

/-- The sign ahead, as long as possible. -/
def signAhead? (characters : List Char) : Option String :=
  let known (count : Nat) (signs : List String) : Option String :=
    let sign := String.ofList (characters.take count)
    if signs.contains sign then some sign else none
  (known 3 longSigns).or ((known 2 pairSigns).or (known 1 singleSigns))

/-- The sign `!in` ends where a name would end. -/
def notInAhead : List Char → Bool
  | '!' :: 'i' :: 'n' :: rest => !rest.head?.any isNamePart
  | _ => false

/-- A sign as a token; plus and minus may belong to an operand. -/
def signToken (unary : Bool) (sign : String) : Token :=
  match foreignSigns.find? fun entry => entry.1 = sign with
  | some (_, advice) => .bad (.improper advice)
  | none =>
    if reservedSigns.contains sign then .reserved sign
    else if unary ∧ (sign = "+" ∨ sign = "-") then .sign ("unary " ++ sign)
    else .sign sign

/-! Tokens -/

structure Lexeme where
  token : Token
  place : Position
  cursor : Cursor

def textLexeme (start : Position) (quoted : Quoted) : Lexeme :=
  match quoted.ending with
  | .closed => ⟨.text quoted.value, start, quoted.cursor⟩
  | .expression => ⟨.template quoted.value, start, quoted.cursor⟩
  | .missing => ⟨.bad .openString, start, quoted.cursor⟩

def badLexeme (fault : SyntaxFault) (cursor : Cursor) : Lexeme :=
  ⟨.bad fault.complaint, fault.place, cursor⟩

/-- A line end right behind the opening mark of a template is not part of it. -/
def templateStart (cursor : Cursor) : Cursor :=
  match cursor.rest with
  | '\n' :: rest => cursor.past '\n' rest
  | '\r' :: '\n' :: rest => cursor.past '\n' rest
  | '\r' :: rest => cursor.past '\n' rest
  | _ => cursor

def charLexeme (start : Position) (quoted : Quoted) : Lexeme :=
  match quoted.characters with
  | [character] => ⟨.char character, start, quoted.cursor⟩
  | _ => ⟨.bad (.badCharacter quoted.value), start, quoted.cursor⟩

def numberLexeme (start : Position) (negative : Bool) (cursor : Cursor) : Lexeme :=
  match cursor.rest with
  | [] => ⟨.finish, start, cursor⟩
  | digit :: rest =>
    let numeral := Numeral.scan ⟨[digit], none, false, false, false, 1⟩ rest
    ⟨numeral.token negative, start, cursor.advance numeral.taken⟩

/-- The token that begins with the character ahead, which is no gap and begins no comment. -/
def lexemeAt (unary : Bool) (cursor : Cursor) (character : Char) (rest : List Char) : Lexeme :=
  let start := cursor.ahead
  let behind := cursor.advance 1
  if character.isDigit then numberLexeme start false cursor
  else if character = '-' ∧ unary ∧ rest.head?.any Char.isDigit then numberLexeme start true behind
  else if character = '"' then
    match quoted character behind with
    | .ok quoted => textLexeme start quoted
    | .error fault => badLexeme fault behind
  else if character = '\x60' then
    let quotes := ⟨character, true, false, start⟩
    match scanQuoted quotes (rest.length + 1) 0 [] (templateStart behind) with
    | .ok quoted => textLexeme start quoted
    | .error fault => badLexeme fault behind
  else if character = '\'' then
    if rest.head? = some '\'' then ⟨.bad (.badCharacter ""), start, behind⟩
    else match quoted character behind with
      | .ok quoted => charLexeme start quoted
      | .error fault => badLexeme fault behind
  else if isNameStart character ∨ character = '_' then
    let word := (character :: rest).takeWhile isNamePart
    ⟨wordToken (String.ofList word), start, cursor.advance word.length⟩
  else if notInAhead (character :: rest) then ⟨.sign "!in", start, cursor.advance 3⟩
  else match signAhead? (character :: rest) with
    | some sign => ⟨signToken unary sign, start, cursor.advance sign.length⟩
    | none => ⟨.bad (.unexpected (String.ofList [character])), start, behind⟩

/-- The next token behind gaps and comments. -/
def nextLexeme (unary : Bool) : Nat → Cursor → Lexeme
  | 0, cursor => ⟨.finish, cursor.ahead, cursor⟩
  | fuel + 1, cursor =>
    match cursor.rest with
    | [] => ⟨.finish, cursor.ahead, cursor⟩
    | '/' :: '/' :: rest => nextLexeme unary fuel (skipLine (cursor.advance 2) rest)
    | '/' :: '*' :: rest => nextLexeme unary fuel (skipComment (cursor.advance 2) 1 rest)
    | character :: rest =>
      if isGap character then nextLexeme unary fuel (cursor.past character rest)
      else lexemeAt unary cursor character rest

/-- What comes next: a token, or the rest of a template whose expression has just been closed. -/
def lexeme (unary resumed : Bool) (cursor : Cursor) : Lexeme :=
  if resumed then
    match quoted '\x60' cursor with
    | .ok quoted => textLexeme cursor.place quoted
    | .error fault => badLexeme fault cursor
  else nextLexeme unary (cursor.rest.length + 1) cursor

/-- Open braces inside each template that is being read, the innermost template first. -/
abbrev Openings := List Nat

/-- Counts the braces of a token; the flag says that the innermost template goes on. -/
def countBraces (openings : Openings) (token : Token) : Openings × Bool :=
  match openings, token with
  | _, .template _ => (0 :: openings, false)
  | inner :: outer, .sign sign =>
    if sign = "\x7b" ∨ sign = "#\x7b" then ((inner + 1) :: outer, false)
    else if sign = "\x7d" then
      if inner ≤ 1 then (outer, true) else ((inner - 1) :: outer, false)
    else (openings, false)
  | _, _ => (openings, false)

def tokensFrom : Nat → Bool → Bool → Openings → Cursor → List Placed
  | 0, _, _, _, _ => []
  | fuel + 1, unary, resumed, openings, cursor =>
    let found := lexeme unary resumed cursor
    let placed : Placed := ⟨found.token, found.place⟩
    match found.token with
    | .finish | .bad _ => [placed]
    | token =>
      let (inside, goesOn) := countBraces openings token
      placed :: tokensFrom fuel token.awaitsOperand goesOn inside found.cursor

def tokens (text : String) : List Placed :=
  tokensFrom (text.length + 1) true false [] (Cursor.atStart text)

end Rulebook.Script
