import Rulebook.Sandbox.DataStore
import Rulebook.Sandbox.Http
import Rulebook.Sandbox.Trace
import Rulebook.Script.Machine
import Rulebook.Time.Instant

/-!
The functions that a sandbox adds to those of the language. Scripts that may only read see the
clock; scripts with effects also see the log, the data of their own scope, and the network where
there is one.
-/

namespace Rulebook

open Script (Host Value Problem)

structure HttpAccess where
  network : Http.Network
  /-- Nanoseconds. -/
  timeout : Nat

/-- What a script with effects can reach, the latest lines first. -/
structure Effects where
  logs : List String
  trace : List TraceEntry
  shelf : Shelf

namespace HostFunctions

def debugEntry (message : String) : TraceEntry :=
  { level := .debug, message }

def clock? (now : Instant) (name : String) (arguments : List Value) : Option Value :=
  match name, arguments with
  | "now", [] | "get_current_time", [] => some (.int now.second)
  | "now_millis", [] => some (.int (now.second * 1000 + now.nano / 1000000))
  | _, _ => none

/-- What scripts can reach that may only read: nothing but the trace of what they print. -/
def readOnly (now : Instant) : Host (List TraceEntry) where
  print text trace := debugEntry s!"print: {text}" :: trace
  debug text trace := debugEntry s!"debug: {text}" :: trace
  function? name arguments := (clock? now name arguments).map fun value trace => (pure value, trace)

def log (invocation : Invocation) (level message : String) (effects : Effects) :
    Except Problem Value × Effects :=
  (pure .unit, { effects with
    logs := s!"[{level}] {message}" :: effects.logs
    trace := TraceEntry.ofScript invocation level message :: effects.trace })

def raise (message : String) : Except Problem Value :=
  throw (.raised (.text message))

def put (limit : Nat) (key : String) (value : Value) (effects : Effects) :
    Except Problem Value × Effects :=
  match effects.shelf.put limit key value with
  | .ok shelf => (pure .unit, { effects with shelf })
  | .error problem => (raise problem.message, effects)

def send (access : HttpAccess) (limits : Script.Limits) (order : Except String Http.Order) :
    Except Problem Value :=
  let time := min limits.timeout access.timeout
  match order.bind (Http.send access.network time limits.textSize) with
  | .ok value => pure value
  | .error message => raise message

/-- What a script wants to send with a function of the network. -/
def order? (name : String) (arguments : List Value) : Option (Except String Http.Order) :=
  match name, arguments with
  | "http_get", [.text url] => some (.ok ⟨"GET", url, [], none⟩)
  | "http_get", [.text url, .map headers] => some (.ok ⟨"GET", url, headers, none⟩)
  | "http_post", [.text url, .map headers, .text body] =>
    some (.ok ⟨"POST", url, headers, some body⟩)
  | "http_post", [.text url, .map headers, .map body] => some (Http.jsonOrder url headers body)
  | _, _ => none

def effect? (invocation : Invocation) (limits : Script.Limits) (http : Option HttpAccess)
    (name : String) (arguments : List Value) :
    Option (Effects → Except Problem Value × Effects) :=
  match name, arguments with
  | "log_message", [.text level, message] => some (log invocation level message.recorded)
  | "log_info", [message] => some (log invocation "info" message.recorded)
  | "store_data", [.text key, value] => some (put limits.mapSize key value)
  | "get_stored_data", [.text key] => some fun effects =>
    (pure ((effects.shelf.get? key).getD .unit), effects)
  | _, _ =>
    match http, order? name arguments with
    | some access, some order => some fun effects => (send access limits order, effects)
    | _, _ => none

def withEffects (now : Instant) (invocation : Invocation) (limits : Script.Limits)
    (http : Option HttpAccess) : Host Effects where
  print text effects :=
    { effects with trace := debugEntry s!"print: {text}" :: effects.trace }
  debug text effects :=
    { effects with trace := debugEntry s!"debug: {text}" :: effects.trace }
  function? name arguments :=
    match clock? now name arguments with
    | some value => some fun effects => (pure value, effects)
    | none => effect? invocation limits http name arguments

end HostFunctions

end Rulebook
