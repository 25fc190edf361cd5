import Rulebook.Rules.Entity

/-!
An event written as one line of JSON. A field `id` that holds an identifier is the event's own.
-/

namespace Rulebook

def eventIdOf (payload : Json) : Option Uuid := do
  let text ← (← payload.find? "id").string?
  Uuid.ofText? text

/-- The event of a line; it gets a fresh identifier if it does not bring one. -/
def Event.ofLine (fresh : Uuid) (now : Instant) (line : String) : Except Json.Failure Event := do
  let payload ← Json.parse line
  return ⟨(eventIdOf payload).getD fresh, payload, now⟩

end Rulebook
