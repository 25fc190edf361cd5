import Rulebook.Script.Library.Native

/-!
Functions of ranges and blobs.
-/

namespace Rulebook.Script.Library

/-- Numbers from the first on, a step apart. -/
def stepsOf (first last step : Int) : Except Problem Value :=
  if step = 0 then throw .stepZero else pure (.steps first last step)

def floatStepsOf (first last step : Float) : Except Problem Value :=
  if step == 0 then throw .stepZero else pure (.floatSteps first last step)

def rangeEnd (last : Int) (closed : Bool) : Int :=
  if closed then last + 1 else last

def ofRange? (name : String) (first last : Int) (closed : Bool) : Option Native :=
  match name with
  | "start" => Native.value (.int first)
  | "end" => Native.value (.int last)
  | "is_inclusive" => Native.bool closed
  | "is_exclusive" => Native.bool (!closed)
  | "is_empty" => Native.bool (if closed then last < first else last ≤ first)
  | _ => none

def blobOf (limits : Limits) (length : Int) (byte : Int) : Option Native :=
  if Limits.exceeds length.toNat limits.listSize then Native.refuse Limits.listTooLong
  else Native.value (.blob (List.replicate length.toNat (UInt8.ofNat (byte % 256).toNat)))

def ranges? (limits : Limits) (name : String) (arguments : List Value) : Option Native :=
  match name, arguments with
  | "range", [.int first, .int last] => Native.value (.range first last false)
  | "..", [.int first, .int last] => Native.value (.range first last false)
  | "..=", [.int first, .int last] => Native.value (.range first last true)
  | "range", [.int first, .int last, .int step] => Native.attempt (stepsOf first last step)
  | "range", [.range first last closed, .int step] =>
    Native.attempt (stepsOf first (rangeEnd last closed) step)
  | "range", [.float first, .float last, .float step] =>
    Native.attempt (floatStepsOf first last step)
  | "contains", [.range first last closed, .int value] =>
    Native.bool (first ≤ value && (if closed then value ≤ last else value < last))
  | "blob", [] => Native.value (.blob [])
  | "blob", [.int length] => blobOf limits length 0
  | "blob", [.int length, .int byte] => blobOf limits length byte
  | "len", [.blob bytes] => Native.int bytes.length
  | "is_empty", [.blob bytes] => Native.bool bytes.isEmpty
  | "push", [.blob bytes, .int byte] =>
    Native.becomes (.blob (bytes ++ [UInt8.ofNat (byte % 256).toNat]))
  | "clear", [.blob _] => Native.becomes (.blob [])
  | "reverse", [.blob bytes] => Native.becomes (.blob bytes.reverse)
  | "to_array", [.blob bytes] => Native.list (bytes.map fun byte => .int byte.toNat)
  | "contains", [.blob bytes, .int byte] => Native.bool (bytes.any fun held => held.toNat == byte)
  | "==", [.blob left, .blob right] => Native.bool (left == right)
  | "!=", [.blob left, .blob right] => Native.bool (left != right)
  | name, [.range first last closed] => ofRange? name first last closed
  | _, _ => none

end Rulebook.Script.Library
