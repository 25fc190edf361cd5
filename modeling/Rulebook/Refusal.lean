import Rulebook.Json.Failure
import Rulebook.Script.Fault

/-!
Why a request is refused, with the code and the HTTP status that its sender sees.
-/

namespace Rulebook

inductive Refusal where
  | invalid (field message : String)
  | notFound (entity id : String)
  | conflict (message : String)
  | unauthorized
  | unreadable (message : String)
  | internal (message : String)
  deriving DecidableEq, Inhabited

namespace Refusal

def code : Refusal → String
  | .invalid _ _ => "VALIDATION_ERROR"
  | .notFound _ _ => "NOT_FOUND"
  | .conflict _ => "CONFLICT"
  | .unauthorized => "UNAUTHORIZED"
  | .unreadable _ => "INVALID_JSON"
  | .internal _ => "INTERNAL_ERROR"

def status : Refusal → Nat
  | .invalid _ _ => 400
  | .notFound _ _ => 404
  | .conflict _ => 409
  | .unauthorized => 401
  | .unreadable _ => 400
  | .internal _ => 500

def message : Refusal → String
  | .invalid field message => s!"参数验证失败: {field} - {message}"
  | .notFound entity id => s!"记录未找到: {entity} id={id}"
  | .conflict message => s!"操作冲突: {message}"
  | .unauthorized => "未授权访问"
  | .unreadable message => s!"JSON 序列化错误: {message}"
  | .internal message => s!"内部错误: {message}"

/-- A script that cannot be compiled makes its field invalid. -/
def ofScript (field : String) (fault : Script.Fault) : Refusal :=
  .invalid field fault.message

def ofJson (failure : Json.Failure) : Refusal :=
  .unreadable failure.message

end Refusal

end Rulebook
