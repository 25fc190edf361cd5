import Rulebook.Json.Reader

/-!
What a JSON text or a JSON value has to look like to stand for a value of a type. Both ways of
reading find the same faults; only a text can say where.
-/

namespace Rulebook.Json

structure Codec (α : Type) where
  read : Reader α
  convert : Json → Except Problem α
  /-- What the field of an object stands for when it is absent. -/
  absent : Option α := none

/-- What is ahead; a number, a word or a string is read, a bracket stays. -/
def foundAhead : Reader Found := do
  match ← next with
  | some 'n' => do advance; word ['u', 'l', 'l']; pure .null
  | some 't' => do advance; word ['r', 'u', 'e']; pure (.bool true)
  | some 'f' => do advance; word ['a', 'l', 's', 'e']; pure (.bool false)
  | some '-' => do advance; return (← number false).found
  | some '"' => do advance; return .text (← stringBody)
  | some '[' => pure .sequence
  | some '{' => pure .map
  | some character =>
    if character.isDigit then return (← number true).found else failAhead .expectedValue
  | none => failAhead .expectedValue

def unexpected {α : Type} (expected : String) : Reader α := do
  let what ← foundAhead
  reject (.wrongType what expected)

def valueAhead {α : Type} (choose : Char → Reader α) : Reader α := located do
  match ← nextSolid with
  | none => failAhead .endInValue
  | some character => choose character

namespace Codec

def json : Codec Json where
  read := fuelled anyValue
  convert := .ok

def parsed {α : Type} (expected : String) (parse : String → Except Problem α) : Codec α where
  read := valueAhead fun character =>
    if character = '"' then do
      advance
      match parse (← stringBody) with
      | .ok value => pure value
      | .error problem => reject problem
    else unexpected expected
  convert
    | .str text => parse text
    | other => .error (.wrongType (found other) expected)

def text : Codec String :=
  parsed "a string" .ok

def flag : Codec Bool where
  read := valueAhead fun character =>
    match character with
    | 't' => do advance; word ['r', 'u', 'e']; pure true
    | 'f' => do advance; word ['a', 'l', 's', 'e']; pure false
    | _ => unexpected "a boolean"
  convert
    | .bool value => .ok value
    | other => .error (.wrongType (found other) "a boolean")

def numeric {α : Type} (expected : String) (accept : Number → Except Problem α) : Codec α where
  read := valueAhead fun character =>
    if character = '-' ∨ character.isDigit then do
      if character = '-' then advance
      match accept (← number (character ≠ '-')) with
      | .ok value => pure value
      | .error problem => reject problem
    else unexpected expected
  convert
    | .int value => accept (.integer value)
    | .float value => accept (.float value)
    | other => .error (.wrongType (found other) expected)

def integer (expected : String) (low high : Int) : Codec Int :=
  numeric expected fun
    | .integer value =>
      if low ≤ value ∧ value ≤ high then .ok value
      else .error (.wrongValue (.integer value) expected)
    | .float value => .error (.wrongType (.float value) expected)

def word64 (expected : String) : Codec UInt64 :=
  let whole := integer expected 0 (twoTo 64 - 1)
  { read := return (← whole.read).toNat.toUInt64
    convert := fun value => return (← whole.convert value).toNat.toUInt64 }

def float : Codec Float :=
  numeric "f64" fun
    | .integer value => .ok (Float.ofInt value)
    | .float value => .ok value

/-- `null` or an absent field stands for nothing. -/
def optional {α : Type} (codec : Codec α) : Codec (Option α) where
  read := do
    match ← nextSolid with
    | some 'n' => do advance; word ['u', 'l', 'l']; pure none
    | _ => return some (← codec.read)
  convert
    | .null => .ok none
    | value => return some (← codec.convert value)
  absent := some none

def list {α : Type} (codec : Codec α) : Codec (List α) where
  read := valueAhead fun character =>
    if character = '[' then
      closedBy closeList (nested (fuelled fun fuel => elements codec.read fuel true))
    else unexpected "a sequence"
  convert
    | .arr values => values.mapM codec.convert
    | other => .error (.wrongType (found other) "a sequence")

def variant {α : Type} (variants : List (String × α)) (name : String) : Except Problem α :=
  match variants.find? fun entry => entry.1 = name with
  | some entry => .ok entry.2
  | none => .error (.unknownVariant name (variants.map Prod.fst))

def readNothing : Reader Unit :=
  valueAhead fun character =>
    if character = 'n' then do
      advance
      word ['u', 'l', 'l']
    else unexpected "unit"

/-- One of several names, as a string or as the only key of an object whose value is `null`. -/
def choice {α : Type} (variants : List (String × α)) : Codec α :=
  let named := parsed "variant identifier" (variant variants)
  { read := do
      match ← nextSolid with
      | none => failAhead .endInValue
      | some '{' => do
        let value ← nested do
          let value ← named.read
          colon
          readNothing
          pure value
        match ← nextSolid with
        | some '}' => do
          advance
          pure value
        | some _ => fail .expectedValue
        | none => fail .endInObject
      | some '"' => named.read
      | some _ => failAhead .expectedValue
    convert
      | .str name => variant variants name
      | .obj [(name, content)] => do
        let value ← variant variants name
        match content with
        | .null => .ok value
        | other => .error (.wrongType (found other) "unit")
      | .obj _ => .error (.wrongValue .map "map with a single key")
      | other => .error (.wrongType (found other) "string or map") }

end Codec

/-! Records with named fields. A list of the fields' values in their order stands for a record,
too. -/

/-- The fields of a record; one with a default may be left out in both forms. -/
inductive Fields : List Type → Type 1
  | done : Fields []
  | field {α : Type} {others : List Type} (name : String) (codec : Codec α) (default : Option α)
      (rest : Fields others) : Fields (α :: others)

def Values : List Type → Type
  | [] => Unit
  | α :: others => α × Values others

def Slots : List Type → Type
  | [] => Unit
  | α :: others => Option α × Slots others

structure Source (m : Type → Type) where
  value : {α : Type} → Codec α → m α
  refuse : {α : Type} → Problem → m α

namespace Fields

def count : {types : List Type} → Fields types → Nat
  | _, .done => 0
  | _, .field _ _ _ rest => rest.count + 1

def empty : {types : List Type} → Fields types → Slots types
  | _, .done => ()
  | _, .field _ _ _ rest => (none, rest.empty)

/-- Fills the slot of a key; nothing when no field has that name. -/
def fill {m : Type → Type} [Monad m] (source : Source m) (key : String) :
    {types : List Type} → Fields types → Slots types → m (Option (Slots types))
  | _, .done, _ => pure none
  | _, .field name codec _ rest, (slot, others) =>
    if name = key then
      match slot with
      | some _ => source.refuse (.duplicateField name)
      | none => do
        let value ← source.value codec
        pure (some (some value, others))
    else do
      match ← rest.fill source key others with
      | some filled => pure (some (slot, filled))
      | none => pure none

def complete : {types : List Type} → Fields types → Slots types → Except Problem (Values types)
  | _, .done, _ => .ok ()
  | _, .field name codec default rest, (slot, others) =>
    match slot, default, codec.absent with
    | some value, _, _ | none, some value, _ | none, none, some value => do
      return (value, ← rest.complete others)
    | none, none, none => .error (.missingField name)

/-- The record from a list; `element` gives the next element as long as there is one. -/
def ofElements {m : Type → Type} [Monad m] (refuse : Nat → m PEmpty)
    (element : {α : Type} → Nat → Codec α → m (Option α)) (index : Nat) :
    {types : List Type} → Fields types → m (Values types)
  | _, .done => pure ()
  | _, .field _ codec default rest => do
    match ← element index codec, default with
    | some value, _ | none, some value => do
      let others ← ofElements refuse element (index + 1) rest
      pure (value, others)
    | none, none => do
      let absurd ← refuse index
      nomatch absurd

def description (name : String) {types : List Type} (fields : Fields types) : String :=
  if fields.count = 1 then s!"struct {name} with 1 element"
  else s!"struct {name} with {fields.count} elements"

def readElement {α : Type} (index : Nat) (codec : Codec α) : Reader (Option α) := do
  if ← moreElements (index = 0) then
    let value ← codec.read
    pure (some value)
  else pure none

def reading : Source Reader where
  value codec := do
    colon
    codec.read
  refuse := reject

def readKeys {types : List Type} (fields : Fields types) :
    Nat → Bool → Slots types → Reader (Slots types)
  | 0, _, slots => pure slots
  | fuel + 1, first, slots => do
    if ← moreKeys first then
      let key ← stringBody
      match ← fields.fill reading key slots with
      | some filled => fields.readKeys fuel false filled
      | none => do
        colon
        fuelled skipValue
        fields.readKeys fuel false slots
    else pure slots

def read {types : List Type} (name : String) (fields : Fields types) : Reader (Values types) :=
  valueAhead fun character =>
    match character with
    | '[' => closedBy closeList (nested (ofElements
        (fun index => reject (.wrongLength index (fields.description name))) readElement 0 fields))
    | '{' => closedBy closeObject (nested do
        let slots ← fuelled fun fuel => fields.readKeys fuel true fields.empty
        match fields.complete slots with
        | .ok values => pure values
        | .error problem => reject problem)
    | _ => unexpected s!"struct {name}"

def takeElement {α : Type} (_ : Nat) (codec : Codec α) :
    StateT (List Json) (Except Problem) (Option α) := do
  match ← get with
  | [] => pure none
  | value :: rest => do
    set rest
    return some (← codec.convert value)

def converting (value : Json) : Source (Except Problem) where
  value codec := codec.convert value
  refuse := .error

def convert {types : List Type} (name : String) (fields : Fields types) :
    Json → Except Problem (Values types)
  | .arr values => do
    let refuse (index : Nat) : StateT (List Json) (Except Problem) PEmpty :=
      throw (.wrongLength index (fields.description name))
    let (record, left) ← (ofElements refuse takeElement 0 fields).run values
    if left.isEmpty then .ok record
    else .error (.wrongLength values.length "fewer elements in array")
  | .obj entries => do
    let slots ← entries.foldlM (fun slots entry => do
      return (← fields.fill (converting entry.2) entry.1 slots).getD slots) fields.empty
    fields.complete slots
  | other => .error (.wrongType (found other) s!"struct {name}")

end Fields

def Codec.record {types : List Type} {α : Type} (name : String) (fields : Fields types)
    (build : Values types → α) : Codec α where
  read := return build (← fields.read name)
  convert value := return build (← fields.convert name value)

def Codec.parse {α : Type} (codec : Codec α) (text : String) : Except Failure α :=
  Reader.run codec.read text

end Rulebook.Json
