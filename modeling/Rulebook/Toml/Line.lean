import Rulebook.Toml.Complaint
import Rulebook.Toml.Token

/-!
The lines of a settings file as they are written: headers, and keys with their values. Keys and
values are told apart here but not yet read.
-/

namespace Rulebook.Toml

structure Word where
  start : Nat
  characters : List Char
  style : Style

def Word.stop (word : Word) : Nat :=
  word.start + Text.byteSize word.characters

inductive Term where
  | single (word : Word)
  | list (items : List Term)
  | table (entries : List (List Word × Term))

/-- The keys of a header or an entry lead from table to table. -/
inductive Line where
  | header (inList : Bool) (keys : List Word)
  | entry (keys : List Word) (term : Term)

/-- How deep lists and tables may be written inside each other. -/
def maxDepth : Nat := 80

/-- The tokens ahead, and where the last token ended that is more than space. -/
structure Cursor where
  ahead : List Token
  solid : Nat

abbrev Reader := StateT Cursor (Except Complaint)

namespace Reader

def complain {α : Type} (fault : Fault) (start stop : Nat) : Reader α :=
  throw ⟨fault, start, stop⟩

/-- The next token. Behind the last one there is its end again and again. -/
def peek : Reader Token := do
  let cursor ← get
  return cursor.ahead.head?.getD ⟨.finish, cursor.solid, []⟩

def advance : Reader Unit :=
  modify fun cursor =>
    match cursor.ahead with
    | [] => cursor
    | token :: rest =>
      if [Kind.gap, .newline, .comment, .finish].contains token.kind then ⟨rest, cursor.solid⟩
      else ⟨rest, token.stop⟩

def isPrintable (character : Char) : Bool :=
  character = '\t' || ('\x20' ≤ character && character ≠ '\x7f')

/-- Passes over space and the end of a line, in which little can be wrong. -/
def pass (token : Token) : Reader Unit := do
  if token.kind = .newline ∧ token.characters = ['\r'] then
    complain .loneReturn token.start token.stop
  if token.kind = .comment then
    let fine := token.characters.takeWhile isPrintable
    if fine.length < token.characters.length then
      let wrong := token.start + Text.byteSize fine
      complain .badComment wrong wrong
  advance

def skipGap : Reader Unit := do
  let token ← peek
  if token.kind = .gap then advance

/-! Keys -/

/-- Stands for a key or a value that is not there. -/
def nothingBefore (token : Token) : Word :=
  ⟨token.start, [], .bare⟩

mutual

/-- Further keys, each behind a dot; the keys so far are in reverse. -/
def moreKeys : Nat → List Word → Reader (List Word)
  | 0, keys => return keys.reverse
  | fuel + 1, keys => do
    skipGap
    let token ← peek
    if token.kind = .dot then
      advance
      keyBehindDot fuel keys
    else return keys.reverse

def keyBehindDot : Nat → List Word → Reader (List Word)
  | 0, keys => return keys.reverse
  | fuel + 1, keys => do
    let token ← peek
    match token.kind with
    | .gap => advance; keyBehindDot fuel keys
    | .dot => advance; keyBehindDot fuel (nothingBefore token :: keys)
    | .word style =>
      advance
      moreKeys fuel (⟨token.start, token.characters, style⟩ :: keys)
    | _ => return (nothingBefore token :: keys).reverse

end

def headerKeys : Nat → List Word → Reader (List Word × Bool)
  | 0, keys => return (keys.reverse, false)
  | fuel + 1, keys => do
    let token ← peek
    match token.kind with
    | .gap => advance; headerKeys fuel keys
    | .dot => advance; headerKeys fuel (nothingBefore token :: keys)
    | .word style =>
      advance
      return (← moreKeys fuel (⟨token.start, token.characters, style⟩ :: keys), true)
    | _ => return ((nothingBefore token :: keys).reverse, false)

/-! Values -/

/-- The rest of a bare value: dots belong to it, and what follows it after a gap. -/
def bareRest : Nat → List Char → Reader (List Char)
  | 0, characters => return characters
  | fuel + 1, characters => do
    let isPart (token : Token) : Bool := token.kind = .dot || token.kind = .word .bare
    match (← get).ahead with
    | token :: next :: _ =>
      if isPart token then
        advance
        bareRest fuel (characters ++ token.characters)
      else if token.kind = .gap ∧ isPart next then
        advance
        advance
        bareRest fuel (characters ++ token.characters ++ next.characters)
      else return characters
    | _ => return characters

def complainBefore {α : Type} (fault : Fault) (token : Token) : Reader α :=
  complain fault token.start token.start

def complainOf {α : Type} (fault : Fault) (token : Token) : Reader α :=
  complain fault token.start token.stop

def isSpace (kind : Kind) : Bool :=
  kind = .gap || kind = .newline || kind = .comment

def skipSpace : Nat → Reader Unit
  | 0 => return
  | fuel + 1 => do
    let token ← peek
    if isSpace token.kind then
      pass token
      skipSpace fuel

def unclosed {α : Type} (fault : Fault) : Reader α := do
  let cursor ← get
  complain fault cursor.solid cursor.solid

mutual

def term : Nat → Nat → Reader Term
  | 0, _ => unclosed .tooDeep
  | fuel + 1, depth => do
    let token ← peek
    match token.kind with
    | .gap | .newline | .comment | .comma | .finish => return .single (nothingBefore token)
    | .equals => complainOf .surplusEquals token
    | .closeTable => complainBefore .tableNotOpened token
    | .closeList => complainBefore .listNotOpened token
    | .openList =>
      advance
      if depth = 0 then complainOf .tooDeep token
      else return .list (← items fuel (depth - 1) [])
    | .openTable =>
      advance
      if depth = 0 then complainOf .tooDeep token
      else return .table (← entries fuel (depth - 1) [])
    | .dot =>
      advance
      return .single ⟨token.start, ← bareRest fuel token.characters, .bare⟩
    | .word .bare =>
      advance
      return .single ⟨token.start, ← bareRest fuel token.characters, .bare⟩
    | .word style =>
      advance
      return .single ⟨token.start, token.characters, style⟩

/-- The items of a list up to its closing bracket; those so far are in reverse. -/
def items : Nat → Nat → List Term → Reader (List Term)
  | 0, _, _ => unclosed .unclosedList
  | fuel + 1, depth, soFar => do
    skipSpace fuel
    let token ← peek
    match token.kind with
    | .closeList => advance; return soFar.reverse
    | .finish => unclosed .unclosedList
    | .comma => complainOf .surplusListComma token
    | .equals => complainOf .equalsInList token
    | _ =>
      let item ← term fuel depth
      skipSpace fuel
      let token ← peek
      match token.kind with
      | .comma => advance; items fuel depth (item :: soFar)
      | .closeList => advance; return (item :: soFar).reverse
      | .finish => unclosed .unclosedList
      | .equals => complainOf .equalsInList token
      | _ => complainBefore .listCommaMissing token

/-- The entries of a table up to its closing brace; those so far are in reverse. -/
def entries : Nat → Nat → List (List Word × Term) → Reader (List (List Word × Term))
  | 0, _, _ => unclosed .unclosedTable
  | fuel + 1, depth, soFar => do
    skipSpace fuel
    let token ← peek
    match token.kind with
    | .closeTable => advance; return soFar.reverse
    | .finish => unclosed .unclosedTable
    | .comma => complainBefore .surplusTableComma token
    | .openList | .closeList | .openTable => complainBefore .tableKeyMissing token
    | _ =>
      let keys ← match token.kind with
        | .word style =>
          advance
          moreKeys fuel [⟨token.start, token.characters, style⟩]
        | .dot => moreKeys fuel [nothingBefore token]
        | _ => pure [nothingBefore token]
      skipSpace fuel
      let token ← peek
      match token.kind with
      | .finish => unclosed .unclosedTable
      | .equals => advance
      | _ => complainBefore .assignmentMissing token
      skipSpace fuel
      let token ← peek
      if token.kind = .finish then unclosed .unclosedTable
      if token.kind = .closeTable then complainBefore .unquoted token
      let entry := (keys, ← term fuel depth)
      skipSpace fuel
      let token ← peek
      match token.kind with
      | .comma => advance; entries fuel depth (entry :: soFar)
      | .closeTable => advance; return (entry :: soFar).reverse
      | .finish => unclosed .unclosedTable
      | _ => complainBefore .tableCommaMissing token

end

/-! Lines -/

/-- Nothing but a comment may stand behind a header or a value. -/
def endOfLine : Reader Unit := do
  skipGap
  let token ← peek
  match token.kind with
  | .comment | .newline => pass token
  | .finish => return
  | _ => complainBefore .surplusWord token

def skipLine : Nat → Reader Unit
  | 0 => return
  | fuel + 1 => do
    let token ← peek
    if token.kind ≠ .newline ∧ token.kind ≠ .finish then
      advance
      skipLine fuel

/-- A header behind its opening bracket. A header without keys is read no further. -/
def header (fuel : Nat) : Reader Line := do
  let second ← peek
  let inList : Bool := second.kind = .openList
  if inList then advance
  skipGap
  let (keys, named) ← headerKeys fuel []
  let solid := (← get).solid
  skipGap
  let token ← peek
  if token.kind = .closeList then
    advance
    if inList then
      let closing ← peek
      if closing.kind = .closeList then advance
      else complain (.unclosedListHeader "]") token.stop token.stop
    endOfLine
  else if named then
    complain (if inList then .unclosedListHeader "]]" else .unclosedHeader) solid solid
  else skipLine fuel
  return .header inList keys

def entry (fuel : Nat) (first : Word) : Reader Line := do
  let keys ← moreKeys fuel [first]
  skipGap
  let token ← peek
  if token.kind ≠ .equals then complainBefore .valueMissing token
  advance
  skipGap
  let value ← term fuel maxDepth
  endOfLine
  return .entry keys value

/-- The lines ahead; those so far are in reverse. -/
def lines : Nat → List Line → Reader (List Line)
  | 0, soFar => return soFar.reverse
  | fuel + 1, soFar => do
    let token ← peek
    match token.kind with
    | .finish => return soFar.reverse
    | .gap | .newline | .comment =>
      pass token
      lines fuel soFar
    | .openList =>
      advance
      let line ← header fuel
      lines fuel (line :: soFar)
    | .closeList => complainBefore .headerNotOpened token
    | .comma | .openTable | .closeTable => complainBefore .keyMissing token
    | .word style =>
      advance
      let line ← entry fuel ⟨token.start, token.characters, style⟩
      lines fuel (line :: soFar)
    | .equals | .dot =>
      let line ← entry fuel (nothingBefore token)
      lines fuel (line :: soFar)

end Reader

def linesIn (text : String) : Except Complaint (List Line) := do
  let tokens := tokens text
  let (lines, _) ← (Reader.lines (tokens.length + 1) []).run ⟨tokens, 0⟩
  return lines

end Rulebook.Toml
