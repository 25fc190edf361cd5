import Rulebook.Json.Codec

/-!
How a script can fail, and the record of such a failure.
-/

namespace Rulebook.Script

inductive Fault where
  | syntactic (message : String) (line : Option Nat)
  | runtime (message : String)
  | timeout (limit : Nat)
  | exhausted (message : String)
  | misshapen (expected actual : String)
  deriving DecidableEq, Inhabited

inductive FaultKind where
  | syntactic
  | runtime
  | timeout
  | exhausted
  | misshapen
  deriving DecidableEq, Inhabited

def FaultKind.code : FaultKind → String
  | .syntactic => "SYNTAX"
  | .runtime => "RUNTIME"
  | .timeout => "TIMEOUT"
  | .exhausted => "RESOURCE_EXCEEDED"
  | .misshapen => "INVALID_RESULT"

def FaultKind.codec : Json.Codec FaultKind :=
  .choice ([.syntactic, .runtime, .timeout, .exhausted, .misshapen].map fun kind =>
    (kind.code, kind))

def Fault.kind : Fault → FaultKind
  | .syntactic _ _ => .syntactic
  | .runtime _ => .runtime
  | .timeout _ => .timeout
  | .exhausted _ => .exhausted
  | .misshapen _ _ => .misshapen

def Fault.message : Fault → String
  | .syntactic message _ => s!"脚本语法错误: {message}"
  | .runtime message => s!"脚本执行失败: {message}"
  | .timeout limit => s!"脚本执行超时: 超过 {limit}ms"
  | .exhausted message => s!"脚本资源超限: {message}"
  | .misshapen expected actual => s!"脚本返回值无效: 期望 {expected}, 实际 {actual}"

structure Failure where
  kind : FaultKind
  message : String
  deriving DecidableEq, Inhabited

def Fault.toFailure (fault : Fault) : Failure :=
  ⟨fault.kind, fault.message⟩

namespace Failure

def toJson (failure : Failure) : Json :=
  .ofFields [("kind", .str failure.kind.code), ("message", .str failure.message)]

def codec : Json.Codec Failure :=
  .record "ScriptFailure"
    (.field "kind" FaultKind.codec none <| .field "message" .text none .done)
    fun (kind, message, _) => ⟨kind, message⟩

end Failure

end Rulebook.Script
