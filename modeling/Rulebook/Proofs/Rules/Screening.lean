import Rulebook.Proofs.Rules.History

/-!
What an operation requires of the texts that it is given is settled before it comes to the rules:
the same operation is turned away by all graphs or by none, and always as invalid.
-/

namespace Rulebook

namespace Change

variable {α β : Type} {graph : RuleGraph} {check : ScriptCheck}

/-- A requirement that does not look at the graph: it is met, or it is refused as invalid. -/
inductive Screens (requirement : Change Unit) : Except Refusal Unit → Prop where
  | met : (∀ graph, requirement graph = .ok ((), graph)) → Screens requirement (.ok ())
  | refused (field message : String) :
      (∀ graph, requirement graph = .error (.invalid field message)) →
        Screens requirement (.error (.invalid field message))

theorem chain_error {change : Change α} {refusal : Refusal} (refused : change graph = .error refusal)
    (rest : α → Change β) : (change >>= rest) graph = .error refusal := by
  change (change graph >>= fun pair => rest pair.1 pair.2) = _
  rw [refused]
  rfl

theorem chain_ok {change : Change α} {value : α} {between : RuleGraph}
    (done : change graph = .ok (value, between)) (rest : α → Change β) :
    (change >>= rest) graph = rest value between := by
  change (change graph >>= fun pair => rest pair.1 pair.2) = _
  rw [done]
  rfl

theorem nothing_screens : Screens (pure ()) (.ok ()) :=
  .met fun _ => rfl

theorem both_screens {first second : Change Unit} {verdict other : Except Refusal Unit}
    (one : Screens first verdict) (two : Screens second other) :
    ∃ verdict, Screens (do first; second) verdict := by
  cases one with
  | refused field message always =>
      exact ⟨_, .refused field message fun graph => chain_error (always graph) _⟩
  | met always =>
      cases two with
      | refused field message later =>
          exact ⟨_, .refused field message fun graph =>
            (chain_ok (always graph) _).trans (later graph)⟩
      | met later => exact ⟨_, .met fun graph => (chain_ok (always graph) _).trans (later graph)⟩

theorem requireText_screens (field : String) (longest : Nat) (text : String) :
    ∃ verdict, Screens (requireText field longest text) verdict := by
  by_cases wrong : (Text.trim text).isEmpty ∨ longest < text.length
  · exact ⟨_, .refused _ _ fun graph => by rw [requireText, if_pos wrong]; rfl⟩
  · exact ⟨_, .met fun graph => by rw [requireText, if_neg wrong]; rfl⟩

theorem requireName_screens (name : String) : ∃ verdict, Screens (requireName name) verdict :=
  requireText_screens _ _ _

theorem requireScript_screens (check : ScriptCheck) (field script : String) :
    ∃ verdict, Screens (requireScript check field script) verdict := by
  obtain ⟨_, text⟩ := requireText_screens field longestScript script
  rw [requireScript]
  cases check script with
  | ok done => exact both_screens text nothing_screens
  | error fault => exact both_screens text (.refused field fault.message fun _ => rfl)

theorem whenGiven_screens {requirement : String → Change Unit}
    (screened : ∀ text, ∃ verdict, Screens (requirement text) verdict) (text : Option String) :
    ∃ verdict, Screens (whenGiven requirement text) verdict := by
  cases text with
  | none => exact ⟨_, nothing_screens⟩
  | some given => exact screened given

theorem requireCondition_screens (check : ScriptCheck) (new : NewTrigger) :
    ∃ verdict, Screens (requireCondition check new) verdict := by
  rw [requireCondition]
  cases new.kind <;> cases new.condition
  case unconditional.none => exact ⟨_, nothing_screens⟩
  case unconditional.some => exact ⟨_, .refused _ _ fun _ => rfl⟩
  case conditional.none => exact ⟨_, .refused _ _ fun _ => rfl⟩
  case conditional.some script => exact requireScript_screens _ _ _

end Change

namespace Operation

open Change

variable {operation : Operation} {refusal : Refusal}

/-- What an operation requires of the texts that it is given. -/
def requirement : Operation → Change Unit
  | .createRule check _ _ new => do
    requireName new.name
    requireScript check "script" new.script
  | .updateRule check _ _ patch => do
    whenGiven requireName patch.name
    whenGiven (requireScript check "script") patch.script
  | .createTrigger check _ _ new => requireCondition check new
  | .updateTrigger check _ _ patch =>
    whenGiven (requireScript check "condition_script") patch.condition
  | .createAction check _ _ new => do
    whenGiven requireName new.name
    requireScript check "script" new.script
  | .updateAction check _ _ patch => do
    whenGiven requireName patch.name
    whenGiven (requireScript check "script") patch.script
  | _ => pure ()

/-- What comes of these requirements; any graph would do for it. -/
def screen (operation : Operation) : Except Refusal Unit :=
  (operation.requirement {}).map (·.1)

theorem requirement_screens (operation : Operation) :
    Screens operation.requirement operation.screen := by
  have screened : ∃ verdict, Screens operation.requirement verdict := by
    cases operation with
    | createRule check id now new =>
        obtain ⟨_, name⟩ := requireName_screens new.name
        obtain ⟨_, script⟩ := requireScript_screens check "script" new.script
        exact both_screens name script
    | updateRule check now id patch =>
        obtain ⟨_, name⟩ := whenGiven_screens requireName_screens patch.name
        obtain ⟨_, script⟩ := whenGiven_screens (requireScript_screens check "script") patch.script
        exact both_screens name script
    | createTrigger check id now new => exact requireCondition_screens check new
    | updateTrigger check now id patch =>
        exact whenGiven_screens (requireScript_screens check "condition_script") patch.condition
    | createAction check id now new =>
        obtain ⟨_, name⟩ := whenGiven_screens requireName_screens new.name
        obtain ⟨_, script⟩ := requireScript_screens check "script" new.script
        exact both_screens name script
    | updateAction check now id patch =>
        obtain ⟨_, name⟩ := whenGiven_screens requireName_screens patch.name
        obtain ⟨_, script⟩ := whenGiven_screens (requireScript_screens check "script") patch.script
        exact both_screens name script
    | _ => exact ⟨_, nothing_screens⟩
  obtain ⟨verdict, screens⟩ := screened
  have same : operation.screen = verdict := by
    rw [screen]
    cases screens with
    | met always => rw [always]; rfl
    | refused field message always => rw [always]; rfl
  exact same ▸ screens

theorem outcome_split (operation : Operation) :
    ∃ (α : Type) (rest : Change α), ∀ graph, operation.outcome graph =
      ((do operation.requirement; rest) graph).map (fun reached : α × RuleGraph => reached.2) := by
  have twice {α : Type} (first second : Change Unit) (rest : Change α) (graph : RuleGraph) :
      ((do first; second; rest) graph).map (fun reached : α × RuleGraph => reached.2) =
        ((do (do first; second); rest : Change α) graph).map (·.2) := by
    rw [bind_assoc]
  cases operation with
  | createRule check id now new =>
      exact ⟨Rule, _, twice (requireName new.name) (requireScript check "script" new.script) _⟩
  | updateRule =>
      exact ⟨Rule, _, twice (whenGiven requireName _) (whenGiven (requireScript _ _) _) _⟩
  | createAction => exact ⟨Action, _, twice (whenGiven requireName _) (requireScript _ _ _) _⟩
  | updateAction =>
      exact ⟨Action, _, twice (whenGiven requireName _) (whenGiven (requireScript _ _) _) _⟩
  | _ => exact ⟨_, _, fun _ => rfl⟩

theorem outcome_of_screen (turned : operation.screen = .error refusal) (graph : RuleGraph) :
    operation.outcome graph = .error refusal := by
  obtain ⟨α, rest, split⟩ := operation.outcome_split
  have screens := operation.requirement_screens
  rw [turned] at screens
  cases screens with
  | refused field message always =>
      rw [split, chain_error (always graph)]
      rfl

theorem screen_invalid (turned : operation.screen = .error refusal) :
    ∃ field message, refusal = .invalid field message := by
  have screens := operation.requirement_screens
  rw [turned] at screens
  cases screens with
  | refused field message _ => exact ⟨field, message, rfl⟩

end Operation

end Rulebook
