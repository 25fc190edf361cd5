import Mathlib.Data.List.Basic
import Rulebook.Proofs.Text.Utf8
import Rulebook.Stream

/-!
The lines of a stream stand between its newlines, and there is but one way to read each of them.
-/

namespace Rulebook.Stream

/-! Lines -/

/-- Bytes that are some lines, each with its newline behind it, and a rest without newlines. -/
structure AreSplit (bytes : List UInt8) (lines : List (List UInt8)) (tail : List UInt8) : Prop where
  joined : bytes = lines.flatMap (· ++ [newline]) ++ tail
  lines : ∀ line ∈ lines, newline ∉ line
  tail : newline ∉ tail

theorem splitLines_tail {tail : List UInt8} (plain : newline ∉ tail) :
    splitLines tail = ([], tail) := by
  induction tail with
  | nil => rfl
  | cons byte rest ih =>
      obtain ⟨first, others⟩ := not_or.mp (mt List.mem_cons.mpr plain)
      change addByte byte (splitLines rest) = _
      rw [ih others, addByte, if_neg (Ne.symm first)]

theorem splitLines_line {line : List UInt8} (plain : newline ∉ line) (rest : List UInt8) :
    splitLines (line ++ newline :: rest) =
      (line :: (splitLines rest).1, (splitLines rest).2) := by
  induction line with
  | nil => rfl
  | cons byte others ih =>
      obtain ⟨first, behind⟩ := not_or.mp (mt List.mem_cons.mpr plain)
      change addByte byte (splitLines (others ++ newline :: rest)) = _
      rw [ih behind, addByte, if_neg (Ne.symm first)]

theorem AreSplit.addByte {bytes tail : List UInt8} {lines : List (List UInt8)}
    (split : AreSplit bytes lines tail) (byte : UInt8) :
    AreSplit (byte :: bytes) (addByte byte (lines, tail)).1 (addByte byte (lines, tail)).2 := by
  obtain ⟨rfl, plain, plainTail⟩ := split
  by_cases isNewline : byte = newline
  · subst isNewline
    exact ⟨rfl, List.forall_mem_cons.mpr ⟨List.not_mem_nil, plain⟩, plainTail⟩
  have other : ∀ line, newline ∉ line → newline ∉ byte :: line := fun line absent held =>
    (List.mem_cons.mp held).elim (fun same => isNewline same.symm) absent
  cases lines with
  | nil =>
      rw [Stream.addByte, if_neg isNewline]
      exact ⟨rfl, plain, other tail plainTail⟩
  | cons first others =>
      obtain ⟨plainFirst, plainOthers⟩ := List.forall_mem_cons.mp plain
      rw [Stream.addByte, if_neg isNewline]
      exact ⟨rfl, List.forall_mem_cons.mpr ⟨other first plainFirst, plainOthers⟩, plainTail⟩

/-- Bytes are split at each newline, and nowhere else. -/
theorem splitLines_eq_iff {bytes tail : List UInt8} {lines : List (List UInt8)} :
    splitLines bytes = (lines, tail) ↔ AreSplit bytes lines tail := by
  have split (lines : List (List UInt8)) (tail : List UInt8)
      (plain : ∀ line ∈ lines, newline ∉ line) (plainTail : newline ∉ tail) :
      splitLines (lines.flatMap (· ++ [newline]) ++ tail) = (lines, tail) := by
    induction lines with
    | nil => exact splitLines_tail plainTail
    | cons line rest ih =>
        have others := ih fun other held => plain other (List.mem_cons_of_mem _ held)
        rw [List.flatMap_cons, List.append_assoc, List.append_assoc, List.singleton_append,
          splitLines_line (plain line List.mem_cons_self), others]
  constructor
  · intro same
    have whole : AreSplit bytes (splitLines bytes).1 (splitLines bytes).2 := by
      clear same
      induction bytes with
      | nil => exact ⟨rfl, nofun, List.not_mem_nil⟩
      | cons byte rest ih => exact ih.addByte byte
    rwa [same] at whole
  · rintro ⟨rfl, plain, plainTail⟩
    exact split lines tail plain plainTail

theorem linesOf_eq {bytes tail : List UInt8} {lines : List (List UInt8)}
    (split : AreSplit bytes lines tail) (ending : Ending) :
    linesOf bytes ending =
      if ending = .finished ∧ tail ≠ [] then lines ++ [tail] else lines := by
  rw [linesOf, splitLines_eq_iff.mpr split]

/-! What lines hold -/

/-- Whether a line is an event: text that is JSON once it is trimmed. -/
def IsEvent (line : List UInt8) (payload : Json) : Prop :=
  ∃ text : String, text.toUTF8.data.toList = line ∧ Text.trim text ≠ "" ∧
    Json.parse (Text.trim text) = .ok payload

/-- Whether a line is no text, or text that is neither blank nor JSON. -/
def IsMalformed (line : List UInt8) : Prop :=
  ∀ text : String, text.toUTF8.data.toList = line →
    Text.trim text ≠ "" ∧ ∀ payload, Json.parse (Text.trim text) ≠ .ok payload

theorem ofText_eq_event_iff {text : String} {payload : Json} :
    Content.ofText text = .event payload ↔
      Text.trim text ≠ "" ∧ Json.parse (Text.trim text) = .ok payload := by
  unfold Content.ofText
  simp only [String.isEmpty_iff]
  split
  · simp_all
  · split <;> simp_all

theorem ofText_eq_malformed_iff {text : String} :
    Content.ofText text = .malformed ↔
      Text.trim text ≠ "" ∧ ∀ payload, Json.parse (Text.trim text) ≠ .ok payload := by
  unfold Content.ofText
  simp only [String.isEmpty_iff]
  split
  · simp_all
  · split <;> simp_all

theorem ofBytes_eq_event_iff {line : List UInt8} {payload : Json} :
    Content.ofBytes line = .event payload ↔ IsEvent line payload := by
  rw [Content.ofBytes, IsEvent]
  simp only [← Text.ofBytes?_eq_some_iff]
  cases Text.ofBytes? line with
  | none => simp
  | some text => simp [ofText_eq_event_iff]

theorem ofBytes_eq_malformed_iff {line : List UInt8} :
    Content.ofBytes line = .malformed ↔ IsMalformed line := by
  rw [Content.ofBytes, IsMalformed]
  simp only [← Text.ofBytes?_eq_some_iff]
  cases Text.ofBytes? line with
  | none => simp
  | some text => simp [ofText_eq_malformed_iff]

/-- An event has an identifier of its own just if its payload is an object with such a text in its
field `id`. -/
theorem eventIdOf_eq_some_iff {payload : Json} {id : Uuid} :
    eventIdOf payload = some id ↔
      ∃ fields text, payload = .obj fields ∧ Json.lookup "id" fields = some (.str text) ∧
        Uuid.ofText? text = some id := by
  have found : payload.find? "id" = payload.step "id" := by
    have steps : Json.steps "id" = ["id"] := by decide
    rw [Json.find?, steps, Json.walk]
    cases payload.step "id" <;> rfl
  have noIndex : Text.unsigned? 64 "id" = none := by decide
  simp only [eventIdOf, found, Option.bind_eq_bind, Option.bind_eq_some_iff]
  constructor
  · rintro ⟨value, stepped, text, isText, parsed⟩
    cases payload with
    | obj fields =>
        cases value <;> cases isText
        exact ⟨fields, text, rfl, stepped, parsed⟩
    | arr elements =>
        rw [Json.step, noIndex] at stepped
        cases stepped
    | _ => cases stepped
  · rintro ⟨fields, text, rfl, held, parsed⟩
    exact ⟨.str text, held, text, rfl, parsed⟩

/-- The payload of the event that a line is, if it is one. -/
def payloadOf (line : List UInt8) : Option Json :=
  match Content.ofBytes line with
  | .event payload => some payload
  | _ => none

theorem payloadOf_eq_some_iff {line : List UInt8} {payload : Json} :
    payloadOf line = some payload ↔ IsEvent line payload := by
  rw [← ofBytes_eq_event_iff, payloadOf]
  cases Content.ofBytes line <;> simp

instance (line : List UInt8) : Decidable (∃ payload, IsEvent line payload) :=
  decidable_of_iff ((payloadOf line).isSome = true) <| by
    simp [Option.isSome_iff_exists, payloadOf_eq_some_iff]

def Content.isMalformed : Content → Bool
  | .malformed => true
  | _ => false

instance : DecidablePred IsMalformed := fun line =>
  decidable_of_iff ((Content.ofBytes line).isMalformed = true) <| by
    rw [← ofBytes_eq_malformed_iff]
    cases Content.ofBytes line <;> simp [Content.isMalformed]

end Rulebook.Stream
