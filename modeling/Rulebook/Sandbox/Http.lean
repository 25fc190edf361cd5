import Rulebook.Json.Writer
import Rulebook.Power
import Rulebook.Script.Value.Json
import Rulebook.Script.Value.Display
import Rulebook.Text.Blank
import Rulebook.Text.Utf8

/-!
Requests that scripts send over the network. What answers them is a function of the request.
-/

namespace Rulebook.Http

structure Request where
  method : String
  url : String
  headers : List (String × String)
  body : Option String
  deriving DecidableEq, Inhabited

structure Reply where
  status : Nat
  body : List UInt8
  /-- What breaks the body off behind these bytes, if anything does. -/
  failure : Option String := none
  deriving DecidableEq, Inhabited

/-- What becomes of a request that is well formed: a reply, or what went wrong on the way. -/
abbrev Network := Request → Except String Reply

def silent : Network := fun request =>
  .error s!"error sending request for url ({request.url})"

/-! Addresses -/

/-- The characters of a path that are written as bytes. -/
def isEscaped (character : Char) : Bool :=
  character.toNat ≤ 0x20 || 0x7F ≤ character.toNat ||
    [' ', '"', '<', '>', '`', '\x7b', '\x7d'].contains character

def escapedChar (character : Char) : List Char :=
  if isEscaped character then
    character.toString.toUTF8.toList.flatMap fun byte =>
      '%' :: (Text.hexDigits 2 byte.toNat).map Char.toUpper
  else [character]

structure Address where
  scheme : String
  text : String

/-- The address that a text stands for: a scheme, a host, and a path, which is a slash at least. -/
def address? (text : String) : Option Address := do
  let characters := (Text.trim text).toList
  let scheme := (characters.takeWhile (· ≠ ':')).map Char.toLower
  let rest := characters.dropWhile (· ≠ ':')
  if scheme.isEmpty ∨ ¬ scheme.all Char.isAlphanum ∨ ¬ scheme.head?.any Char.isAlpha then none
  else if rest.take 3 ≠ [':', '/', '/'] then none
  else
    let behind := (rest.drop 3).dropWhile (· = '/')
    let ends (character : Char) : Bool := ['/', '?', '#'].contains character
    let host := behind.takeWhile (!ends ·)
    let path := (behind.dropWhile (!ends ·)).takeWhile (· ≠ '#')
    if host.isEmpty ∨ host.any (fun character => character.isWhitespace || isEscaped character)
    then none
    else
      let path := if path.head? = some '/' then path else '/' :: path
      some ⟨String.ofList scheme,
        String.ofList (scheme ++ [':', '/', '/'] ++ host ++ path.flatMap escapedChar)⟩

/-! Headers -/

def isHeaderName (name : String) : Bool :=
  let marks := "!#$%&'*+-.^_|~".toList ++ [Char.ofNat 0x60]
  !name.isEmpty && name.toList.all fun character =>
    character.isAlphanum || marks.contains character

def isHeaderValue (value : String) : Bool :=
  value.toList.all fun character =>
    character = '\t' || (0x20 ≤ character.toNat && character.toNat ≠ 0x7F)

/-! Requests -/

structure Order where
  method : String
  url : String
  headers : List (String × Script.Value)
  body : Option String

/-- The request that is sent, or what is wrong with the order. -/
def Order.request (order : Order) : Except String Request :=
  match address? order.url with
  | none => .error "builder error"
  | some address =>
    let headers := order.headers.map fun (name, value) => (name, value.recorded)
    if headers.any fun (name, value) => !isHeaderName name || !isHeaderValue value then
      .error "builder error"
    else if address.scheme ≠ "http" ∧ address.scheme ≠ "https" then
      .error s!"builder error for url ({address.text})"
    else .ok ⟨order.method, address.text, headers, order.body⟩

/-- How many bytes of a body are read, in a word of 64 bits: one more than it may have, so that one
that is too long shows. -/
def readLimit (longest : Nat) : Nat :=
  if 0 < longest then (longest + 1) % twoTo 64 else twoTo 64 - 1

/-- The first bytes of a body; what breaks it off behind them goes unnoticed. -/
def Reply.read (reply : Reply) (limit : Nat) : Except String (List UInt8) :=
  match reply.failure with
  | some reason =>
    if reply.body.length < limit then .error reason else .ok (reply.body.take limit)
  | none => .ok (reply.body.take limit)

/-- What a script gets of a reply, unless its body is longer than the limit; there is none if it is
zero. -/
def receive (order : Order) (longest : Nat) (reply : Reply) : Except String Script.Value :=
  match reply.read (readLimit longest) with
  | .error reason => .error s!"{order.method} {order.url} 读取响应失败: {reason}"
  | .ok body =>
    if 0 < longest ∧ longest < body.length then
      .error s!"{order.method} {order.url}: 响应体超过上限 {longest} 字节"
    else .ok (.ofFields [("status", .int reply.status), ("body", .text (Text.lossy body))])

/-- Sends what a script asks for, if there is time left. -/
def send (network : Network) (time longest : Nat) (order : Order) :
    Except String Script.Value :=
  let failed (reason : String) : Except String Script.Value :=
    .error s!"{order.method} {order.url} 请求失败: {reason}"
  if time = 0 then .error s!"{order.method} {order.url}: 脚本执行时间已耗尽"
  else match order.request with
    | .error reason => failed reason
    | .ok request =>
      match network request with
      | .error reason => failed reason
      | .ok reply => receive order longest reply

/-- A map as the body of a request, and the header that says so. -/
def jsonOrder (url : String) (headers body : List (String × Script.Value)) :
    Except String Order :=
  match (Script.Value.map body).toJson with
  | .error reason => .error s!"请求体无法序列化为 JSON: {reason}"
  | .ok json =>
    let named := headers.any fun field => field.1.map Char.toLower == "content-type"
    let headers := if named then headers
      else Script.Value.setField "content-type" (.text "application/json") headers
    .ok ⟨"POST", url, headers, some json.render⟩

end Rulebook.Http
