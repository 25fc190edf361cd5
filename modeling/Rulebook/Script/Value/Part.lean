import Rulebook.Script.Library.Numbers

/-!
Parts of values: items of lists, fields of maps, characters of text and bits of numbers.
-/

namespace Rulebook.Script.Value

/-- The whole number that a key is, where only such a key will do. -/
def asIndex (place : Position) (key : Value) : Except Interrupt Int :=
  match key with
  | .int index => pure index
  | _ => throw (.failed (.wrongType "i64" key.typeName) (some place))

def asName (place : Position) (key : Value) : Except Interrupt String :=
  match key with
  | .text name => pure name
  | _ => throw (.failed (.wrongType "string" key.typeName) (some place))

/-- The place that an index stands for, or the problem with it. -/
def within (length : Nat) (index : Int) (problem : Problem) (place : Position) :
    Except Interrupt Nat :=
  match indexOf? length index with
  | some found => pure found
  | none => throw (.failed problem (some place))

/-- The part of a value under a key; missing fields of maps are the unit. The place is that of the
key. -/
def part (value key : Value) (place : Position) : Except Interrupt Value :=
  match value, key with
  | .list items, _ => do
    let index ← asIndex place key
    let found ← within items.length index (.listBounds items.length index) place
    return items.getD found .unit
  | .blob bytes, _ => do
    let index ← asIndex place key
    let found ← within bytes.length index (.listBounds bytes.length index) place
    return .int (bytes.getD found 0).toNat
  | .map fields, _ => do
    let name ← asName place key
    return (getField name fields).getD .unit
  | .text content, .range first last closed =>
    let (start, count) := rangePart first last closed
    return .text (String.ofList (cut content.toList start count).2.1)
  | .text content, _ => do
    let characters := content.toList
    let index ← asIndex place key
    let found ← within characters.length index (.textBounds characters.length index) place
    return .char (characters.getD found ' ')
  | .int number, .range first last closed =>
    let (start, count) := rangePart first last closed
    return .int (((number % twoTo 64).toNat >>> start.toNat) % twoTo count.toNat : Nat)
  | .int number, _ => do
    let index ← asIndex place key
    let found ← within 64 index (.bitBounds index) place
    return .bool (Library.bitAt number found)
  | _, _ => throw (.of (.notIndexable s!"{value.typeName} [{key.typeName}]"))

/-- Whether values of a type have parts that can be assigned to. -/
def hasParts : Value → Bool
  | .list _ | .blob _ | .map _ | .text _ | .int _ => true
  | _ => false

/-- The value with another part under a key that has been looked up before. -/
def withPart (value key part : Value) (place : Position) : Except Interrupt Value :=
  let mismatch (expected : String) : Except Interrupt Value :=
    throw (.failed (.wrongType expected part.typeName) (some place))
  match value, key with
  | .list items, .int index =>
    match indexOf? items.length index with
    | some found => pure (.list (items.set found part))
    | none => pure value
  | .map fields, .text name => pure (.map (setField name part fields))
  | .blob bytes, .int index =>
    match indexOf? bytes.length index, part with
    | some found, .int byte => pure (.blob (bytes.set found (UInt8.ofNat (byte % 256).toNat)))
    | _, _ => mismatch "i64"
  | .text content, .int index =>
    match indexOf? content.length index, part with
    | some found, .char character =>
      pure (.text (String.ofList (content.toList.set found character)))
    | _, _ => mismatch "char"
  | .text content, .range first last closed =>
    match part with
    | .text piece =>
      let (start, count) := rangePart first last closed
      let (before, _, behind) := cut content.toList start count
      pure (.text (String.ofList (before ++ piece.toList ++ behind)))
    | _ => mismatch "string"
  | .int number, .int index =>
    match indexOf? 64 index, part with
    | some found, .bool bit => pure (.int (Library.withBit number found bit))
    | _, _ => mismatch "bool"
  | _, _ => pure value

end Rulebook.Script.Value
