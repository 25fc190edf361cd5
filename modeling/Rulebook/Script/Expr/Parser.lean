import Rulebook.Script.Expr
import Rulebook.Script.Token.Lexer

/-!
Programs from tokens. Every bracket, operator and block lies one level deeper than what it belongs
to, and the number of levels is bounded.
-/

namespace Rulebook.Script

structure Known where
  name : String
  constant : Bool

structure ParserState where
  input : List Placed
  /-- Where the input ends. -/
  finish : Position
  functions : List Function
  /-- The variables of the function that is being read, the latest first. -/
  known : List Known
  /-- Variables that come from outside the function that is being read. -/
  outer : List (String × Position)
  /-- Functions without a name that have been read. -/
  unnamed : Nat

abbrev Parser := StateT ParserState (Except SyntaxFault)

structure Setting where
  level : Nat
  /-- No limit when it is zero. -/
  deepest : Nat
  place : Position
  atTop : Bool
  inLoop : Bool
  inFunction : Bool
  /-- A bar ends the expression, since it separates the literals of a case. -/
  barEnds : Bool

namespace Parser

def fail {α : Type} (complaint : Complaint) (place : Position) : Parser α :=
  throw ⟨complaint, place⟩

def up (setting : Setting) : Parser Setting :=
  if 0 < setting.deepest ∧ setting.deepest ≤ setting.level then fail .tooDeep setting.place
  else pure { setting with level := setting.level + 1 }

def peek : Parser Placed := do
  let state ← get
  match state.input with
  | [] => pure ⟨.finish, state.finish⟩
  | placed :: _ => pure placed

def next : Parser Placed := do
  let placed ← peek
  modify fun state => { state with input := state.input.drop 1 }
  pure placed

def ahead (sign : String) : Parser Bool :=
  return (← peek).token.isSign sign

def accept (sign : String) : Parser Bool := do
  if ← ahead sign then
    let _ ← next
    pure true
  else pure false

/-- What is wrong with a token that is not the one expected. -/
def refuse {α : Type} (placed : Placed) (complaint : Complaint) : Parser α :=
  match placed.token with
  | .bad found => fail found placed.place
  | _ => fail complaint placed.place

def expect (sign purpose : String) : Parser Position := do
  let placed ← next
  if placed.token.isSign sign then pure placed.place
  else refuse placed (.missing sign purpose)

def remaining : Parser Nat :=
  return (← get).input.length + 1

/-! Variables -/

def remember (name : String) (constant : Bool) : Parser Unit :=
  modify fun state => { state with known := ⟨name, constant⟩ :: state.known }

/-- Forgets the variables that a part of the script adds. -/
def enclosed {α : Type} (part : Parser α) : Parser α := do
  let known := (← get).known
  let value ← part
  modify fun state => { state with known }
  pure value

/-- A variable is used; one that is not known here comes from outside. -/
def use (name : String) (place : Position) : Parser Unit :=
  modify fun state =>
    if state.known.any (·.name == name) || state.functions.any (·.name == name) ||
        state.outer.any (·.1 == name) then state
    else { state with outer := state.outer ++ [(name, place)] }

def variableName : Parser (String × Position) := do
  let placed ← next
  match placed.token with
  | .name name => pure (name, placed.place)
  | .reserved word =>
    if isProperName word then fail (.reservedWord word) placed.place
    else fail .variableExpected placed.place
  | _ => refuse placed .variableExpected

/-! Checks -/

/-- A block cannot stand where a condition is expected. -/
def noBlock (kind : String) : Parser Unit := do
  let placed ← peek
  if placed.token.isSign "\x7b" then fail (.expressionExpected kind) placed.place

def assignmentSigns : List String :=
  ["+=", "-=", "*=", "/=", "%=", "**=", "<<=", ">>=", "&=", "|=", "^="]

/-- An assignment cannot follow a condition. -/
def noAssignment : Parser Unit := do
  let placed ← peek
  match placed.token with
  | .sign "=" => fail (.improper "Possibly a typo of '=='?") placed.place
  | .sign sign =>
    if assignmentSigns.contains sign then
      fail (.improper "Expecting a boolean expression, not an assignment") placed.place
  | _ => pure ()

def evidentKind? : Expr → Option String
  | .literal .unit _ => some "()"
  | .literal (.bool _) _ => some "a boolean"
  | .literal (.int _) _ => some "a number"
  | .literal (.float _) _ => some "a floating-point number"
  | .literal (.char _) _ => some "a character"
  | .literal (.text _) _ | .template _ _ => some "a string"
  | .list _ _ => some "an array"
  | .map _ _ => some "an object map"
  | _ => none

def condition (expr : Expr) : Parser Expr :=
  match evidentKind? expr with
  | none | some "a boolean" => pure expr
  | some kind => fail (.wrongKind "a boolean expression" kind) expr.start

def source (expr : Expr) : Parser Expr :=
  match evidentKind? expr with
  | none | some "a string" | some "an array" => pure expr
  | some kind => fail (.wrongKind "an iterable value" kind) expr.start

def keyComplaint? (root key : Expr) : Option String :=
  let kind := match key with
    | .both _ _ _ | .either _ _ _ => some "a boolean"
    | _ => evidentKind? key
  match root, kind with
  | .map _ _, some "a number" => some "Object map expects string index, not a number"
  | .map _ _, some "a floating-point number" => some "Object map expects string index, not a float"
  | .map _ _, some "a character" => some "Object map expects string index, not a character"
  | .map _ _, some "()" => some "Object map expects string index, not ()"
  | .map _ _, some "a boolean" => some "Object map expects string index, not a boolean"
  | .literal (.int _) _, kind | .list _ _, kind | .literal (.text _) _, kind
  | .template _ _, kind =>
    match kind with
    | some "a string" => some "Array, string or bit-field expects numeric index, not a string"
    | some "a floating-point number" =>
      some "Array, string or bit-field expects integer index, not a float"
    | some "a character" =>
      some "Array, string or bit-field expects integer index, not a character"
    | some "()" => some "Array, string or bit-field expects integer index, not ()"
    | some "a boolean" => some "Array, string or bit-field expects integer index, not a boolean"
    | _ => none
  | _, _ => none

/-! Operators -/

/-- How tightly an operator binds; zero for what is no operator. -/
def precedence : Token → Nat
  | .sign sign =>
    if ["||", "^", "|"].contains sign then 30
    else if ["&&", "&"].contains sign then 60
    else if ["==", "!="].contains sign then 90
    else if ["in", "!in"].contains sign then 110
    else if ["<", "<=", ">", ">="].contains sign then 130
    else if sign = "??" then 135
    else if ["..", "..="].contains sign then 140
    else if ["+", "-"].contains sign then 150
    else if ["*", "/", "%"].contains sign then 180
    else if sign = "**" then 190
    else if ["<<", ">>"].contains sign then 210
    else 0
  | _ => 0

def bindsRight (token : Token) : Bool :=
  token.isSign "**"

def operatorAhead (setting : Setting) : Parser (Placed × Nat) := do
  let placed ← peek
  match placed.token with
  | .reserved sign =>
    if isProperName sign then pure (placed, 0) else fail (.unknownOperator sign) placed.place
  | token =>
    if setting.barEnds ∧ token.isSign "|" then pure (placed, 0)
    else pure (placed, precedence token)

def applyOperator (sign : String) (place : Position) (left right : Expr) : Parser Expr := do
  match sign with
  | "||" =>
    let right ← condition right
    return .either (← condition left) right place
  | "&&" =>
    let right ← condition right
    return .both (← condition left) right place
  | "??" => pure (.fallback left right place)
  | "in" => pure (.call "contains" true [right, left] left.start)
  | "!in" => pure (.call "!" true [.call "contains" true [right, left] left.start] left.start)
  | _ => pure (.call sign true [left, right] place)

/-! Grammar -/

/-- The parts of the grammar that contain each other. -/
structure Grammar where
  expression : Setting → Parser Expr
  unary : Setting → Parser Expr
  statement : Setting → Parser Stmt
  branch : Setting → Parser Stmt

namespace Grammar

variable (grammar : Grammar)

/-- The operators behind an operand that bind at least as tightly as the one before it. -/
def operators (grammar : Grammar) : Nat → Setting → Nat → Expr → Parser Expr
  | 0, _, _, root => pure root
  | fuel + 1, setting, parent, root => do
    let (placed, binding) ← operatorAhead setting
    if binding < parent ∨ binding = 0 ∨ (binding = parent ∧ ¬ bindsRight placed.token) then
      pure root
    else
      let _ ← next
      let right ← grammar.unary setting
      let (_, nextBinding) ← operatorAhead setting
      let right ←
        if binding < nextBinding ∨ (binding = nextBinding ∧ bindsRight placed.token) then do
          operators grammar fuel (← up setting) binding right
        else pure right
      let deeper ← up setting
      let root ← applyOperator placed.token.shown placed.place root right
      operators grammar fuel { deeper with place := placed.place } parent root

def readExpression (setting : Setting) : Parser Expr := do
  let setting := { setting with place := (← peek).place }
  let left ← grammar.unary (← up setting)
  let deeper ← up setting
  operators grammar (← remaining) { deeper with place := left.place } 1 left

def statements (grammar : Grammar) (setting : Setting) : Nat → Parser (List Stmt)
  | 0 => pure []
  | fuel + 1 => do
    let placed ← peek
    match placed.token with
    | .sign "\x7d" => do
      let _ ← next
      pure []
    | .finish => fail (.missing "\x7d" "to terminate this block") placed.place
    | _ => do
      let stmt ← grammar.statement { (← up setting) with atTop := false }
      match stmt with
      | .nothing => statements grammar setting fuel
      | .branch _ _ _ | .choose _ _ _ | .loop _ _ | .each _ _ _ _ | .attempt _ _ _ | .block _ => do
        let _ ← accept ";"
        return stmt :: (← statements grammar setting fuel)
      | _ => do
        let placed ← peek
        match placed.token with
        | .sign "\x7d" => return stmt :: (← statements grammar setting fuel)
        | .sign ";" => do
          let _ ← next
          return stmt :: (← statements grammar setting fuel)
        | _ => refuse placed (.missing ";" "to terminate this statement")

def block (setting : Setting) : Parser (List Stmt) := do
  let place ← expect "\x7b" "to start a statement block"
  enclosed (statements grammar { setting with place } (← remaining))

def arguments (grammar : Grammar) (setting : Setting) (name : String) : Nat → Parser (List Expr)
  | 0 => pure []
  | fuel + 1 => do
    let argument ← if ← ahead ")" then pure none
      else do pure (some (← grammar.expression setting))
    let placed ← next
    match placed.token with
    | .sign ")" => pure argument.toList
    | .sign "," => return argument.toList ++ (← arguments grammar setting name fuel)
    | .finish =>
      fail (.missing ")" s!"to close the arguments list of this function call '{name}'")
        placed.place
    | _ => refuse placed (.missing "," s!"to separate the arguments to function call '{name}'")

/-- A call whose opening bracket has been read. -/
def callArguments (setting : Setting) (name : String) : Parser (List Expr) := do
  let placed ← peek
  match placed.token with
  | .finish =>
    fail (.missing ")" s!"to close the arguments list of this function call '{name}'") placed.place
  | .bad complaint => fail complaint placed.place
  | .sign ")" => do
    let _ ← next
    pure []
  | _ => arguments grammar (← up setting) name (← remaining)

def call? (setting : Setting) (name : String) : Parser (Option (List Expr)) := do
  if ← accept "()" then pure (some [])
  else if ← accept "(" then return some (← callArguments grammar setting name)
  else if ← ahead "!" then do
    let _ ← next
    if ← accept "()" then pure (some [])
    else
      let placed ← next
      if placed.token.isSign "(" then return some (← callArguments grammar setting name)
      else fail (.missing "(" "to start arguments list of function call") placed.place
  else pure none

/-- Keys between brackets, one bracket after the other. The first key is checked against what it
is a key of. -/
def indices (grammar : Grammar) (setting : Setting) (root : Option Expr) (optional : Bool) :
    Nat → Parser (List Step)
  | 0 => pure []
  | fuel + 1 => do
    let key ← grammar.expression (← up setting)
    match root.bind (keyComplaint? · key) with
    | some reason => fail (.badIndex reason) key.start
    | none =>
      let placed ← next
      if ¬ placed.token.isSign "]" then
        refuse placed (.missing "]" "for a matching [ in this index expression")
      else
        let step := Step.index key optional setting.place
        let following ← peek
        if following.token.isSign "[" ∨ following.token.isSign "?[" then do
          let _ ← next
          let deeper ← up { setting with place := following.place }
          let optional := following.token.isSign "?["
          return step :: (← indices grammar deeper none optional fuel)
        else pure [step]

def memberName : Parser (String × Position) := do
  let placed ← next
  match placed.token with
  | .name name => pure (name, placed.place)
  | .reserved word =>
    if Token.isMethod word then
      if (← ahead "(") || (← ahead "()") || (← ahead "!") then pure (word, placed.place)
      else fail (.reservedWord word) placed.place
    else if isProperName word then fail (.reservedWord word) placed.place
    else fail (.reservedSign word) placed.place
  | _ => fail .propertyExpected placed.place

/-- The steps behind an expression. What is behind a point lies one level deeper. -/
def steps (grammar : Grammar) : Nat → Setting → Option Expr → Parser (List Step)
  | 0, _, _ => pure []
  | fuel + 1, setting, root => do
    let placed ← peek
    let setting := { setting with place := placed.place }
    match placed.token with
    | .sign sign =>
      if sign = "[" ∨ sign = "?[" then do
        let _ ← next
        let found ← indices grammar (← up setting) root (sign = "?[") (← remaining)
        return found ++ (← steps grammar fuel setting none)
      else if sign = "." ∨ sign = "?." then do
        let _ ← next
        let (name, place) ← memberName
        let deeper := { (← up setting) with place }
        let optional := sign = "?."
        match ← call? grammar deeper name with
        | some arguments =>
          if arguments.isEmpty ∧ name = "Fn" then
            fail
              (.improper s!"'{name}' should not be called in method style. Try {name}(...);") place
          else
            let step := Step.method name arguments place optional placed.place
            return step :: (← steps grammar fuel deeper none)
        | none =>
          let colons ← peek
          if colons.token.isSign "::" then fail (.strangeSign "::") colons.place
          else
            let step := Step.property name place optional placed.place
            return step :: (← steps grammar fuel deeper none)
      else pure []
    | _ => pure []

def qualified (grammar : Grammar) (setting : Setting) (path : List String) (start : Position) :
    Nat → Parser Expr
  | 0 => fail .variableExpected setting.place
  | fuel + 1 => do
    let (name, place) ← variableName
    if ← accept "::" then qualified grammar setting (path ++ [name]) start fuel
    else
      let arguments ← call? grammar { setting with place } name
      pure (.qualified path name arguments start)

def named (setting : Setting) (name : String) : Parser Expr := do
  let place := setting.place
  if ← accept "::" then qualified grammar setting [name] place (← remaining)
  else match ← call? grammar setting name with
    | some arguments => pure (.call name false arguments place)
    | none =>
      use name place
      pure (.variable name place)

def parenthesized (setting : Setting) : Parser Expr := do
  if ← accept ")" then pure (.literal .unit setting.place)
  else
    let inner ← grammar.expression setting
    let placed ← next
    if placed.token.isSign ")" then pure inner
    else refuse placed (.missing ")" "for a matching ( in this expression")

def listItems (grammar : Grammar) (setting : Setting) : Nat → Parser (List Expr)
  | 0 => pure []
  | fuel + 1 => do
    let placed ← peek
    match placed.token with
    | .sign "]" => do
      let _ ← next
      pure []
    | .finish => fail (.missing "]" "to end this array literal") placed.place
    | _ => do
      let item ← grammar.expression (← up setting)
      let placed ← peek
      match placed.token with
      | .sign "," => do
        let _ ← next
        return item :: (← listItems grammar setting fuel)
      | .sign "]" => return item :: (← listItems grammar setting fuel)
      | .finish => fail (.missing "]" "to end this array literal") placed.place
      | _ => refuse placed (.missing "," "to separate the items of this array literal")

def endOfMap : Complaint :=
  .missing "\x7d" "to end this object map literal"

def fieldName (seen : List String) : Parser (String × Position) := do
  let placed ← next
  let taken (name : String) : Parser (String × Position) :=
    if seen.contains name then fail (.fieldRepeated name) placed.place
    else pure (name, placed.place)
  match placed.token with
  | .name name => taken name
  | .text name => taken name
  | .template _ => fail .propertyExpected placed.place
  | .reserved word =>
    if isProperName word then fail (.reservedWord word) placed.place
    else fail (if seen.isEmpty then endOfMap else .propertyExpected) placed.place
  | .finish => fail endOfMap placed.place
  | _ => refuse placed (if seen.isEmpty then endOfMap else .propertyExpected)

def mapFields (grammar : Grammar) (setting : Setting) (seen : List String) :
    Nat → Parser (List (String × Expr))
  | 0 => pure []
  | fuel + 1 => do
    let placed ← peek
    match placed.token with
    | .sign "\x7d" => do
      let _ ← next
      pure []
    | .finish => fail endOfMap placed.place
    | _ => do
      let (name, _) ← fieldName seen
      let colon ← next
      if ¬ colon.token.isSign ":" then
        refuse colon (.missing ":" s!"to follow the property '{name}' in this object map literal")
      else
        let value ← grammar.expression (← up setting)
        let placed ← peek
        match placed.token with
        | .sign "," => do
          let _ ← next
          return (name, value) :: (← mapFields grammar setting (name :: seen) fuel)
        | .sign "\x7d" =>
          return (name, value) :: (← mapFields grammar setting (name :: seen) fuel)
        | .name _ =>
          fail (.missing "," "to separate the items of this object map literal") placed.place
        | _ => refuse placed endOfMap

/-- The pieces of a template behind its first text: expressions with texts between them. -/
def templatePieces (grammar : Grammar) (setting : Setting) : Nat → Parser (List Expr)
  | 0 => pure []
  | fuel + 1 => do
    let place := (← peek).place
    let piece := Expr.block (← block grammar setting) place
    let placed ← next
    let text (value : String) : List Expr :=
      if value.isEmpty then [] else [.literal (.text value) placed.place]
    match placed.token with
    | .text value => return piece :: text value
    | .template value => return piece :: text value ++ (← templatePieces grammar setting fuel)
    | _ => refuse placed .openString

/-- The parameters of a function without a name, behind the opening bar. -/
def closureParameters (seen : List String) : Nat → Parser (List String)
  | 0 => pure seen
  | fuel + 1 => do
    let placed ← next
    match placed.token with
    | .sign "|" => pure seen
    | .name name =>
      if seen.contains name then fail (.parameterRepeated "" name) placed.place
      else
        let separator ← next
        match separator.token with
        | .sign "|" => pure (seen ++ [name])
        | .sign "," => closureParameters (seen ++ [name]) fuel
        | _ =>
          refuse separator (.missing "," "to separate the parameters of anonymous function")
    | _ => refuse placed (.missing "|" "to close the parameters list of anonymous function")

/-- A function without a name. The variables that it takes from outside become parameters that it
already has, shared with their surroundings. -/
def closure (setting : Setting) : Parser Expr := do
  let opening ← next
  let parameters ← if opening.token.isSign "||" then pure []
    else closureParameters [] (← remaining)
  let surroundings ← get
  set { surroundings with
    known := (parameters.map fun name => Known.mk name false).reverse, outer := [] }
  let body ← grammar.statement
    { setting with atTop := false, inLoop := false, inFunction := true, barEnds := false }
  let inner ← get
  let name := s!"anon${inner.unnamed}"
  let function : Function := ⟨name, inner.outer.map Prod.fst ++ parameters, [body]⟩
  set { inner with
    known := surroundings.known
    outer := surroundings.outer
    functions := function :: inner.functions
    unnamed := inner.unnamed + 1 }
  for (shared, place) in inner.outer do
    use shared place
  let pointer := Expr.literal (.function name []) setting.place
  if inner.outer.isEmpty then pure pointer
  else
    let bound := inner.outer.map fun (shared, place) => Expr.variable shared place
    pure (.block [.share inner.outer,
      .expr (.call "curry" false (pointer :: bound) setting.place)] setting.place)

def root (setting : Setting) : Parser Expr := do
  let placed ← peek
  let place := placed.place
  let literal (value : Value) : Parser Expr := do
    let _ ← next
    pure (.literal value place)
  match placed.token with
  | .finish => fail .incomplete place
  | .bad complaint => fail complaint place
  | .int value => literal (.int value)
  | .float value => literal (.float value)
  | .char value => literal (.char value)
  | .text value => literal (.text value)
  | .template value => do
    let deeper ← up setting
    let _ ← next
    let pieces ← templatePieces grammar deeper (← remaining)
    let first := if value.isEmpty then [] else [Expr.literal (.text value) place]
    pure (.template (first ++ pieces) place)
  | .name name => do
    let _ ← next
    named grammar setting name
  | .reserved word => do
    let _ ← next
    let called := (← ahead "(") || (← ahead "()") || (← ahead "!")
    if called ∧ Token.isCallable word then named grammar setting word
    else if word = "this" then
      if setting.inFunction then pure (.receiver place)
      else fail (.improper "'this' can only be used in functions") place
    else if isProperName word then fail (.reservedWord word) place
    else fail (.reservedSign word) place
  | .sign sign =>
    if setting.barEnds ∧ sign = "|" then fail (.unexpected sign) place
    else match sign with
    | "true" => literal (.bool true)
    | "false" => literal (.bool false)
    | "()" => literal .unit
    | "\x7b" => do
      let body ← block grammar (← up setting)
      pure (.block body place)
    | "(" => do
      let deeper ← up setting
      let _ ← next
      parenthesized grammar { deeper with place }
    | "[" => do
      let deeper ← up setting
      let _ ← next
      return .list (← listItems grammar { deeper with place } (← remaining)) place
    | "#\x7b" => do
      let deeper ← up setting
      let _ ← next
      return .map (← mapFields grammar { deeper with place } [] (← remaining)) place
    | "||" | "|" => do closure grammar (← up setting)
    | "if" | "switch" | "while" | "loop" | "do" | "for" => do
      return .block [← grammar.branch (← up setting)] place
    | _ => fail (.unexpected placed.token.shown) place

def operand (setting : Setting) : Parser Expr := do
  let setting := { setting with place := (← peek).place }
  let found ← root grammar setting
  match ← steps grammar (← remaining) setting (some found) with
  | [] => pure found
  | taken => pure (.chain found taken)

/-- The negative of a literal number is a literal. -/
def negated (place : Position) : Expr → Expr
  | .literal (.int value) _ =>
    if value = -signedLimit then .literal (.float (-(Float.ofInt value))) place
    else .literal (.int (-value)) place
  | .literal (.float value) _ => .literal (.float (-value)) place
  | expr => .call "-" true [expr] place

def readUnary (setting : Setting) : Parser Expr := do
  let placed ← peek
  let setting := { setting with place := placed.place }
  let inner : Parser Expr := do
    let _ ← next
    grammar.unary (← up setting)
  match placed.token with
  | .sign "-" | .sign "unary -" => return negated placed.place (← inner)
  | .sign "+" | .sign "unary +" => do
    match ← inner with
    | .literal (.int value) place => pure (.literal (.int value) place)
    | .literal (.float value) place => pure (.literal (.float value) place)
    | expr => pure (.call "+" true [expr] placed.place)
  | .sign "!" => return .call "!" true [← inner] placed.place
  | .finish => fail .incomplete placed.place
  | _ => operand grammar setting

/-! Statements -/

def guard (setting : Setting) : Parser Expr := do
  noBlock "a boolean"
  let expr ← condition (← grammar.expression (← up setting))
  noAssignment
  pure expr

def ifStatement (setting : Setting) : Parser Stmt := do
  let place := (← next).place
  let setting := { setting with place }
  let expr ← guard grammar setting
  let body ← block grammar (← up setting)
  if ← accept "else" then
    if ← ahead "if" then
      let other ← grammar.branch (← up setting)
      pure (.branch expr body [other])
    else
      let other ← block grammar (← up setting)
      pure (.branch expr body other)
  else pure (.branch expr body [])

/-- The span that a literal range covers. -/
def literalSpan? : Expr → Option Span
  | .call sign true [first, last] _ =>
    if sign = ".." ∨ sign = "..=" then
      match first, last with
      | .literal (.int first) _, .literal (.int last) _ => some ⟨first, last, sign = "..="⟩
      | _, _ => none
    else none
  | _ => none

def caseLiterals (grammar : Grammar) (setting : Setting) : Nat → Parser (List Expr)
  | 0 => pure []
  | fuel + 1 => do
    let expr ← grammar.expression { setting with barEnds := true }
    if ← accept "|" then return expr :: (← caseLiterals grammar setting fuel)
    else pure [expr]

/-- Sorts the literals of a case into single values and spans. -/
def sortLiterals (afterSpan : Bool) (keys : List Value) (spans : List Span) :
    List Expr → Parser (List Value × List Span)
  | [] => pure (keys, spans)
  | expr :: rest =>
    match literalSpan? expr, expr.constant? with
    | some span, _ =>
      if span.isEmpty then sortLiterals afterSpan keys spans rest
      else sortLiterals true keys (spans ++ [span]) rest
    | none, some value =>
      match afterSpan, value with
      | true, .int _ => fail .caseAfterRange expr.start
      | _, _ => sortLiterals afterSpan (keys ++ [value]) spans rest
    | none, none => fail (.expressionExpected "a literal") expr.start

def caseBody (setting : Setting) : Parser (Expr × Bool) := do
  let place := (← peek).place
  let stmt ← grammar.statement { setting with atTop := false }
  match stmt with
  | .branch _ _ _ | .choose _ _ _ | .loop _ _ | .each _ _ _ _ | .attempt _ _ _ =>
    pure (.block [stmt] place, true)
  | .block body => pure (.block body place, true)
  | _ => pure (.block [stmt] place, false)

def endOfChoice : Complaint :=
  .missing "\x7d" "to end this switch block"

def choiceEnd (closed : Bool) : Parser Unit := do
  let placed ← peek
  match placed.token with
  | .sign "," => do
    let _ ← next
  | .sign "\x7d" => pure ()
  | .finish => fail endOfChoice placed.place
  | _ =>
    if closed then
      match placed.token with
      | .bad complaint => fail complaint placed.place
      | _ => pure ()
    else refuse placed (.missing "," "to separate the items in this switch block")

def caseArrow : Parser Unit := do
  let placed ← next
  if ¬ placed.token.isSign "=>" then refuse placed (.missing "=>" "in this switch case")

/-- The cases of a choice; the place is that of a default case, once there is one. -/
def cases (grammar : Grammar) (setting : Setting) (afterSpan : Bool)
    (default : Option (Position × Expr)) : Nat → Parser (List Case × Option Expr)
  | 0 => pure ([], none)
  | fuel + 1 => do
    let placed ← peek
    match placed.token, default with
    | .sign "\x7d", _ => do
      let _ ← next
      pure ([], default.map Prod.snd)
    | .finish, _ => fail endOfChoice placed.place
    | .sign "_", none => do
      let _ ← next
      let following ← peek
      if following.token.isSign "if" then fail .defaultWithCondition following.place
      else
        caseArrow
        let (body, closed) ← caseBody grammar setting
        choiceEnd closed
        cases grammar setting afterSpan (some (placed.place, body)) fuel
    | _, some (place, _) => fail .defaultNotLast place
    | _, none => do
      let literals ← caseLiterals grammar setting (← remaining)
      let condition ← if ← accept "if" then guard grammar setting
        else pure (.literal (.bool true) placed.place)
      caseArrow
      let (body, closed) ← caseBody grammar setting
      let (keys, spans) ← sortLiterals afterSpan [] [] literals
      choiceEnd closed
      let (others, last) ← cases grammar setting (afterSpan || !spans.isEmpty) none fuel
      pure (.mk keys spans condition body :: others, last)

def switchStatement (setting : Setting) : Parser Stmt := do
  let place := (← next).place
  let setting := { setting with place }
  let subject ← grammar.expression setting
  let placed ← next
  if ¬ placed.token.isSign "\x7b" then refuse placed (.missing "\x7b" "to start a switch block")
  else
    let (found, default) ← cases grammar setting false none (← remaining)
    pure (.choose subject found default)

def whileStatement (setting : Setting) : Parser Stmt := do
  let placed ← next
  let setting := { setting with place := placed.place }
  let condition ← if placed.token.isSign "while" then pure (some (← guard grammar setting))
    else pure none
  let body ← block grammar { (← up setting) with inLoop := true }
  pure (.loop condition body)

def doStatement (setting : Setting) : Parser Stmt := do
  let place := (← next).place
  let setting := { setting with place }
  let body ← block grammar { (← up setting) with inLoop := true }
  let placed ← next
  match placed.token with
  | .sign "while" => return .again body (← guard grammar setting) true
  | .sign "until" => return .again body (← guard grammar setting) false
  | _ => fail (.missing "while" "for the do statement") placed.place

/-- Takes a sign that has to come next; what comes instead is not looked at. -/
def demand (sign purpose : String) : Parser Unit := do
  let placed ← peek
  if placed.token.isSign sign then
    let _ ← next
  else fail (.missing sign purpose) placed.place

def loopNames : Parser (String × Option String) := do
  if ← accept "(" then
    let (name, _) ← variableName
    demand "," "after the iteration variable name"
    let (counter, place) ← variableName
    if counter = name then fail (.variableRepeated counter) place
    else
      demand ")" "to close the iteration variable"
      pure (name, some counter)
  else
    let (name, _) ← variableName
    pure (name, none)

def forStatement (setting : Setting) : Parser Stmt := do
  let place := (← next).place
  let setting := { setting with place }
  let (name, counter) ← loopNames
  let placed ← next
  if ¬ placed.token.isSign "in" then
    refuse placed (.missing "in" "after the iteration variable")
  else
    noBlock "a boolean"
    let from' ← source (← grammar.expression (← up setting))
    let body ← enclosed do
      for known in counter.toList ++ [name] do
        remember known false
      block grammar { (← up setting) with inLoop := true }
    pure (.each name counter from' body)

def readBranch (setting : Setting) : Parser Stmt := do
  match (← peek).token with
  | .sign "if" => ifStatement grammar setting
  | .sign "switch" => switchStatement grammar setting
  | .sign "do" => doStatement grammar setting
  | .sign "for" => forStatement grammar setting
  | _ => whileStatement grammar setting

def tryStatement (setting : Setting) : Parser Stmt := do
  let place := (← next).place
  let setting := { setting with place }
  let body ← block grammar (← up setting)
  demand "catch" "for the 'try' statement"
  if ← accept "(" then
    let (name, _) ← variableName
    demand ")" "to enclose the catch variable"
    let handler ← enclosed do
      remember name false
      block grammar (← up setting)
    pure (.attempt body (some name) handler)
  else
    let handler ← block grammar (← up setting)
    pure (.attempt body none handler)

def declaration (setting : Setting) (constant : Bool) : Parser Stmt := do
  let place := (← next).place
  let setting := { setting with place }
  let (name, namePlace) ← variableName
  let value ← if ← accept "=" then grammar.expression (← up setting)
    else pure (.literal .unit namePlace)
  remember name constant
  pure (.declare name value constant)

/-- An expression at the end of a statement, unless the statement ends here. -/
def optionalExpression (setting : Setting) (braceEnds : Bool) : Parser (Option Expr) := do
  match (← peek).token with
  | .finish | .sign ";" => pure none
  | .sign "\x7d" =>
    if braceEnds then pure none else return some (← grammar.expression (← up setting))
  | _ => return some (← grammar.expression (← up setting))

/-- Where a chain of steps cannot be assigned to: at a call, or at a root that is no variable. -/
def unassignable? (root : Expr) (steps : List Step) : Option Position :=
  let called := steps.findSome? fun
    | .method _ _ place _ _ => some place
    | _ => none
  match called, root with
  | some place, _ => some place
  | none, .variable _ _ | none, .receiver _ => none
  | none, other => some other.place

def checkTarget (target : Expr) (plain : Bool) (place : Position) : Parser Unit := do
  match target with
  | .receiver _ => pure ()
  | .variable name variablePlace =>
    match (← get).known.find? (·.name == name) with
    | some known => if known.constant then fail (.constantAssigned name) variablePlace
    | none => pure ()
  | .chain root steps =>
    match unassignable? root steps with
    | some wrong => fail .notAssignable wrong
    | none => pure ()
  | .both _ _ _ | .either _ _ _ | .fallback _ _ _ =>
    if plain then fail (.improper "Possibly a typo of '=='?") place
    else fail .notAssignable target.place
  | _ =>
    if target.isConstant then fail (.constantAssigned "") target.start
    else fail .notAssignable target.place

def expressionStatement (setting : Setting) : Parser Stmt := do
  let setting := { setting with place := (← peek).place }
  let target ← grammar.expression setting
  let placed ← peek
  match placed.token with
  | .sign sign =>
    if sign = "=" ∨ assignmentSigns.contains sign then do
      let _ ← next
      let value ← grammar.expression { setting with place := placed.place }
      checkTarget target (sign = "=") placed.place
      let operator := if sign = "=" then none else some (String.ofList sign.toList.dropLast)
      pure (.assign target operator value placed.place)
    else pure (.expr target)
  | _ => pure (.expr target)

def parameters (name : String) (seen : List String) : Nat → Parser (List String)
  | 0 => pure seen
  | fuel + 1 => do
    let placed ← next
    match placed.token with
    | .sign ")" => pure seen
    | .name parameter =>
      if seen.contains parameter then fail (.parameterRepeated name parameter) placed.place
      else
        let separator ← next
        match separator.token with
        | .sign ")" => pure (seen ++ [parameter])
        | .sign "," => parameters name (seen ++ [parameter]) fuel
        | _ =>
          refuse separator (.missing "," s!"to separate the parameters of function '{name}'")
    | _ => refuse placed (.missing ")" s!"to close the parameters list of function '{name}'")

def functionName : Parser String := do
  let placed ← next
  match placed.token with
  | .name name => pure name
  | .reserved word =>
    if ["print", "debug", "type_of"].contains word then pure word
    else if isProperName word then fail (.reservedWord word) placed.place
    else fail (.reservedSign word) placed.place
  | _ => fail .functionNameMissing placed.place

def functionDefinition (setting : Setting) (start : Position) : Parser Unit := do
  let name ← functionName
  let placed ← peek
  let names ← match placed.token with
    | .sign "()" => do
      let _ ← next
      pure []
    | .sign "(" => do
      let _ ← next
      parameters name [] (← remaining)
    | _ => fail (.parametersMissing name) placed.place
  let surroundings ← get
  set { surroundings with
    known := (names.map fun name => Known.mk name false).reverse, outer := [] }
  let inside := { setting with level := 0, atTop := false, inLoop := false, inFunction := true }
  let opening ← peek
  let body ← if opening.token.isSign "\x7b" then block grammar inside
    else fail (.bodyMissing name) opening.place
  let inner ← get
  let twin (function : Function) : Bool :=
    function.name == name && function.parameters.length == names.length
  if inner.functions.any twin then fail (.functionExists name names.length) start
  else set { inner with
    known := surroundings.known
    outer := surroundings.outer
    functions := ⟨name, names, body⟩ :: inner.functions }

def functionStatement (setting : Setting) : Parser Stmt := do
  if ¬ setting.atTop ∧ (← ahead "fn") then fail .functionMisplaced setting.place
  else
    let hidden ← accept "private"
    let placed ← next
    if placed.token.isSign "fn" then
      functionDefinition grammar setting placed.place
      pure .nothing
    else if hidden then fail (.missing "fn" "following 'private'") placed.place
    else fail (.unexpected "private") placed.place

/-- The sign that a statement begins with decides what it is. -/
def readStatement (setting : Setting) : Parser Stmt := do
  let placed ← peek
  let setting := { setting with place := placed.place }
  match placed.token with
  | .finish => pure .nothing
  | .sign sign =>
    match sign with
    | ";" => do
      let _ ← next
      pure .nothing
    | "\x7b" => return .block (← block grammar (← up setting))
    | "fn" | "private" => functionStatement grammar setting
    | "if" | "switch" | "while" | "loop" | "do" | "for" => do readBranch grammar (← up setting)
    | "continue" => do
      if ¬ setting.inLoop then fail .breakOutside placed.place
      else
        let _ ← next
        pure .next
    | "break" => do
      if ¬ setting.inLoop then fail .breakOutside placed.place
      else
        let _ ← next
        return .leave (← optionalExpression grammar setting true)
    | "return" => do
      let _ ← next
      return .give (← optionalExpression grammar setting (!setting.atTop))
    | "throw" => do
      let _ ← next
      return .fail (← optionalExpression grammar setting (!setting.atTop)) placed.place
    | "try" => do tryStatement grammar (← up setting)
    | "let" => do declaration grammar (← up setting) false
    | "const" => do declaration grammar (← up setting) true
    | _ => do expressionStatement grammar (← up setting)
  | _ => do expressionStatement grammar (← up setting)

end Grammar

mutual

def expression : Nat → Setting → Parser Expr
  | 0, setting => fail .tooDeep setting.place
  | fuel + 1, setting =>
    Grammar.readExpression ⟨expression fuel, unary fuel, statement fuel, branch fuel⟩ setting

def unary : Nat → Setting → Parser Expr
  | 0, setting => fail .tooDeep setting.place
  | fuel + 1, setting =>
    Grammar.readUnary ⟨expression fuel, unary fuel, statement fuel, branch fuel⟩ setting

def statement : Nat → Setting → Parser Stmt
  | 0, setting => fail .tooDeep setting.place
  | fuel + 1, setting =>
    Grammar.readStatement ⟨expression fuel, unary fuel, statement fuel, branch fuel⟩ setting

def branch : Nat → Setting → Parser Stmt
  | 0, setting => fail .tooDeep setting.place
  | fuel + 1, setting =>
    Grammar.readBranch ⟨expression fuel, unary fuel, statement fuel, branch fuel⟩ setting

end

def topLevel (depth deepest : Nat) : Nat → Parser (List Stmt)
  | 0 => pure []
  | fuel + 1 => do
    if (← peek).token matches .finish then pure []
    else
      let stmt ← statement depth ⟨0, deepest, .start, true, false, false, false⟩
      match stmt with
      | .nothing => topLevel depth deepest fuel
      | .branch _ _ _ | .choose _ _ _ | .loop _ _ | .each _ _ _ _ | .attempt _ _ _ | .block _ =>
        return stmt :: (← topLevel depth deepest fuel)
      | _ =>
        let placed ← peek
        match placed.token with
        | .finish => pure [stmt]
        | .sign ";" => do
          let _ ← next
          return stmt :: (← topLevel depth deepest fuel)
        | _ => refuse placed (.missing ";" "to terminate this statement")

end Parser

/-- A script as written, with a bound on the depth of its expressions. -/
def Program.parse (text : String) (deepest : Nat) : Except SyntaxFault Program := do
  let input := tokens text
  let finish := (input.getLast?.map (·.place)).getD .start
  let depth := 4 * input.length + 16
  let state : ParserState := ⟨input, finish, [], [], [], 0⟩
  let (body, after) ← (Parser.topLevel depth deepest (input.length + 1)).run state
  return ⟨body, after.functions.reverse, depth⟩

end Rulebook.Script
