import Rulebook.Script.Library.Native

/-!
Functions of lists that call no function themselves.
-/

namespace Rulebook.Script.Library

def findValue (value : Value) : Nat → List Value → Except Problem (Option Nat)
  | _, [] => pure none
  | index, item :: rest => do
    if ← Operator.equals item value then pure (some index) else findValue value (index + 1) rest

/-- The order of two values of one type. -/
def orderOf : Value → Value → Ordering
  | .int left, .int right => compare left right
  | .float left, .float right => if left < right then .lt else if right < left then .gt else .eq
  | .text left, .text right => compare left right
  | .char left, .char right => compare left.toNat right.toNat
  | .bool left, .bool right => compare left right
  | _, _ => .eq

/-- Only values of one type have an order. -/
def sorted (items : List Value) : Except Problem (List Value) :=
  match items with
  | [] => pure []
  | first :: _ =>
    if items.all first.sameType then
      pure (items.mergeSort fun left right => orderOf left right != .gt)
    else throw (.unknownFunction "sort() cannot be called with elements of different types")

/-- Leaves out what equals the item before it. -/
def withoutRepeats : List Value → Except Problem (List Value)
  | [] => pure []
  | item :: rest => do
    match ← withoutRepeats rest with
    | [] => pure [item]
    | next :: others =>
      if ← Operator.equals item next then pure (item :: others)
      else pure (item :: next :: others)

def insertAt (items : List Value) (index : Int) (item : Value) : List Value :=
  let place := if index < 0 then items.length - index.natAbs else min index.toNat items.length
  items.take place ++ item :: items.drop place

def padList (limits : Limits) (items : List Value) (length : Int) (item : Value) : Option Native :=
  if length ≤ items.length then Native.becomes (.list items)
  else if Limits.exceeds length.toNat limits.listSize then Native.refuse Limits.listTooLong
  else Native.becomes (.list (items ++ List.replicate (length.toNat - items.length) item))

def sortedOr (answer : List Value → Value × Value) (items : List Value) : Option Native :=
  some (.changes ((sorted items).mapError Interrupt.of |>.map answer))

def takenFrom (items : List Value) (index : Nat) : Option Native :=
  match items[index]? with
  | some item => Native.yields item (.list (items.eraseIdx index))
  | none => Native.yields .unit (.list items)

def ofList? (name : String) (items : List Value) : Option Native :=
  match name with
  | "len" => Native.int items.length
  | "is_empty" => Native.bool items.isEmpty
  | "pop" => takenFrom items (items.length - 1)
  | "shift" => takenFrom items 0
  | "clear" => Native.becomes (.list [])
  | "reverse" => Native.becomes (.list items.reverse)
  | "sort" => sortedOr (fun sorted => (.unit, .list sorted)) items
  | "sort_desc" => sortedOr (fun sorted => (.unit, .list sorted.reverse)) items
  | "order" => Native.attempt ((sorted items).map .list)
  | "order_desc" => Native.attempt ((sorted items).map fun sorted => .list sorted.reverse)
  | "dedup" =>
    some (.changes ((withoutRepeats items).mapError Interrupt.of |>.map fun kept =>
      (.unit, .list kept)))
  | _ => none

def ofListNumber? (name : String) (items : List Value) (number : Int) : Option Native :=
  match name with
  | "truncate" => Native.becomes (.list (items.take number.toNat))
  | "chop" => Native.becomes (.list (items.drop (items.length - number.toNat)))
  | "remove" =>
    match indexOf? items.length number with
    | some place => takenFrom items place
    | none => Native.yields .unit (.list items)
  | "get" =>
    Native.value (((indexOf? items.length number).bind (items[·]?)).getD .unit)
  | "extract" => Native.list (cut items number items.length).2.1
  | "split" =>
    let (before, part, _) := cut items number items.length
    Native.yields (.list part) (.list before)
  | _ => none

def ofPart? (name : String) (items : List Value) (start count : Int) : Option Native :=
  let (before, part, behind) := cut items start count
  match name with
  | "extract" => Native.list part
  | "drain" => Native.yields (.list part) (.list (before ++ behind))
  | "retain" => Native.yields (.list (before ++ behind)) (.list part)
  | _ => none

def splice (items : List Value) (start count : Int) (others : List Value) : Option Native :=
  let (before, _, behind) := cut items start count
  Native.becomes (.list (before ++ others ++ behind))

def indexFound (found : Option Nat) : Value :=
  match found with
  | some index => .int index
  | none => .int (-1)

def lists? (limits : Limits) (name : String) (arguments : List Value) : Option Native :=
  match name, arguments with
  | "push", [.list items, item] => Native.becomes (.list (items ++ [item]))
  | "append", [.list items, .list others] => Native.becomes (.list (items ++ others))
  | "+", [.list items, .list others] => Native.list (items ++ others)
  | "==", [.list items, .list others] =>
    Native.attempt ((Operator.equalItems items others).map .bool)
  | "!=", [.list items, .list others] =>
    Native.attempt ((Operator.equalItems items others).map fun same => .bool !same)
  | "insert", [.list items, .int index, item] => Native.becomes (.list (insertAt items index item))
  | "pad", [.list items, .int length, item] => padList limits items length item
  | "contains", [.list items, value] =>
    Native.attempt ((findValue value 0 items).map fun found => .bool found.isSome)
  | "index_of", [.list items, value] =>
    Native.attempt ((findValue value 0 items).map indexFound)
  | "index_of", [.list items, value, .int start] =>
    let first := (partOf items.length start items.length).1
    Native.attempt ((findValue value first (items.drop first)).map indexFound)
  | "set", [.list items, .int index, item] =>
    match indexOf? items.length index with
    | some place => Native.becomes (.list (items.set place item))
    | none => Native.becomes (.list items)
  | "splice", [.list items, .int start, .int count, .list others] =>
    splice items start count others
  | "splice", [.list items, .range first last closed, .list others] =>
    let (start, count) := rangePart first last closed
    splice items start count others
  | name, [.list items, .range first last closed] =>
    let (start, count) := rangePart first last closed
    ofPart? name items start count
  | name, [.list items, .int start, .int count] => ofPart? name items start count
  | name, [.list items, .int number] => ofListNumber? name items number
  | name, [.list items] => ofList? name items
  | _, _ => none

end Rulebook.Script.Library
