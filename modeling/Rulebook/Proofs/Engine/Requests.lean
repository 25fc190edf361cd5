import Rulebook.Proofs.Engine.Publishing
import Rulebook.Proofs.Rules.Screening
import Rulebook.Proofs.Rules.Validity
import Rulebook.Service

/-!
Requests are checked twice, by the service that takes them and by the rules that they are for. The
service never turns away what the rules would take: its check is about lengths, and texts that the
rules take have those lengths.
-/

namespace Rulebook

variable {World Seen α β : Type}

/-! Checks of the service -/

theorem checkLength_ok {field message text : String} {longest : Nat}
    (proper : IsProper longest text) : checkLength field longest message text = .ok () :=
  if_pos ⟨proper.notEmpty, proper.notLong⟩

theorem checkRuleName_ok {name : String} (fine : IsName name) : checkRuleName name = .ok () :=
  checkLength_ok fine.proper

theorem checkActionName_ok {name : String} (fine : IsName name) : checkActionName name = .ok () :=
  checkLength_ok fine.proper

theorem checkScript_ok {check : ScriptCheck} {script : String} (fine : IsScript check script) :
    checkScript script = .ok () :=
  checkLength_ok fine.runnable.proper

theorem checkCondition_ok {check : ScriptCheck} {script : String} (fine : IsScript check script) :
    checkCondition script = .ok () :=
  checkLength_ok fine.runnable.proper

theorem checkOptional_ok {check : String → Check} {good : String → Prop}
    (passes : ∀ text, good text → check text = .ok ()) {text : Option String}
    (fine : IfGiven good text) : checkOptional check text = .ok () := by
  cases text with
  | none => rfl
  | some given => exact passes given (fine given rfl)

theorem checkBoth_ok {first second : Check} (one : first = .ok ()) (two : second = .ok ()) :
    (do first; second) = .ok () := by
  rw [one, two]
  rfl

theorem whenValid_ok {check : Check} (passes : check = .ok ()) (part : EngineM World α)
    (form : α → β) :
    (do return form (← Service.whenValid check part) : EngineM World β) =
      do return form (← part) := by
  rw [passes]
  rfl

theorem whenValid_error {check : Check} {refusal : Refusal} (turned : check = .error refusal)
    (part : EngineM World α) (form : α → β) (engine : Engine World) :
    (do return form (← Service.whenValid check part) : EngineM World β).run engine =
      (.error refusal, engine) := by
  rw [turned]
  rfl

/-! Requests -/

/-- What clients send to have rules, actions and triggers made or changed. -/
inductive Request where
  | createRule (request : RuleRequest)
  | updateRule (id : Uuid) (patch : RulePatch)
  | createAction (request : ActionRequest)
  | updateAction (id : Uuid) (patch : ActionPatch)
  | createTrigger (request : TriggerRequest)
  | updateTrigger (id : Uuid) (patch : TriggerPatch)

namespace Request

def check : Request → Check
  | .createRule request => request.check
  | .updateRule _ patch => patch.check
  | .createAction request => request.check
  | .updateAction _ patch => patch.check
  | .createTrigger request => request.check
  | .updateTrigger _ patch => patch.check

def command : Request → Command Seen
  | .createRule request => .createRule request.toNew
  | .updateRule id patch => .updateRule id patch
  | .createAction request => .createAction request.toNew
  | .updateAction id patch => .updateAction id patch
  | .createTrigger request => .createTrigger request.toNew
  | .updateTrigger id patch => .updateTrigger id patch

def serve : Request → EngineM World (Answer Seen)
  | .createRule request => do return .rule (← Service.createRule request)
  | .updateRule id patch => do return .rule (← Service.updateRule id patch)
  | .createAction request => do return .action (← Service.createAction request)
  | .updateAction id patch => do return .action (← Service.updateAction id patch)
  | .createTrigger request => do return .trigger (← Service.createTrigger request)
  | .updateTrigger id patch => do return .trigger (← Service.updateTrigger id patch)

/-- The operation on the rules that a request comes to, with what it takes from outside. -/
def operation (check : ScriptCheck) (id : Uuid) (now : Instant) : Request → Operation
  | .createRule request => .createRule check id now request.toNew
  | .updateRule rule patch => .updateRule check now rule patch
  | .createAction request => .createAction check id now request.toNew
  | .updateAction action patch => .updateAction check now action patch
  | .createTrigger request => .createTrigger check id now request.toNew
  | .updateTrigger trigger patch => .updateTrigger check now trigger patch

theorem check_of_screen (request : Request) {scripts : ScriptCheck} {id : Uuid} {now : Instant}
    (screened : (request.operation scripts id now).screen = .ok ()) : request.check = .ok () := by
  have screens := (request.operation scripts id now).requirement_screens
  rw [screened] at screens
  cases screens with
  | met always =>
      have met := always {}
      cases request with
      | createRule request =>
          obtain ⟨_, _, name, script⟩ := Change.chain_eq_ok.mp met
          exact checkBoth_ok (checkRuleName_ok (Change.requireName_eq_ok.mp name).1)
            (checkScript_ok (Change.requireScript_eq_ok.mp script).1)
      | updateRule rule patch =>
          obtain ⟨_, _, name, script⟩ := Change.chain_eq_ok.mp met
          exact checkBoth_ok
            (checkOptional_ok (fun _ => checkRuleName_ok)
              (Change.whenGiven_requireName_eq_ok.mp name).1)
            (checkOptional_ok (fun _ => checkScript_ok)
              (Change.whenGiven_requireScript_eq_ok.mp script).1)
      | createAction request =>
          obtain ⟨_, _, name, script⟩ := Change.chain_eq_ok.mp met
          exact checkBoth_ok
            (checkOptional_ok (fun _ => checkActionName_ok)
              (Change.whenGiven_requireName_eq_ok.mp name).1)
            (checkScript_ok (Change.requireScript_eq_ok.mp script).1)
      | updateAction action patch =>
          obtain ⟨_, _, name, script⟩ := Change.chain_eq_ok.mp met
          exact checkBoth_ok
            (checkOptional_ok (fun _ => checkActionName_ok)
              (Change.whenGiven_requireName_eq_ok.mp name).1)
            (checkOptional_ok (fun _ => checkScript_ok)
              (Change.whenGiven_requireScript_eq_ok.mp script).1)
      | createTrigger request =>
          have fine := (Change.requireCondition_eq_ok.mp met).1
          change IsCondition scripts request.kind request.condition at fine
          have condition : IfGiven (IsScript scripts) request.condition := by
            intro script given
            rw [given] at fine
            cases kind : request.kind with
            | unconditional => rw [kind] at fine; exact fine.elim
            | conditional => rw [kind] at fine; exact fine
          exact checkOptional_ok (fun _ => checkCondition_ok) condition
      | updateTrigger trigger patch =>
          exact checkOptional_ok (fun _ => checkCondition_ok)
            (Change.whenGiven_requireScript_eq_ok.mp met).1

end Request

/-! What a request comes to -/

/-- A part takes something from outside, and is then one operation of some kind. -/
def ComesTo (kind : Operation → Prop) (part : EngineM World α) : Prop :=
  ∀ engine, ∃ operation world, kind operation ∧
    match operation.outcome engine.graph with
    | .ok graph => ∃ value, part.run engine = (.ok value, { engine with world, graph })
    | .error refusal => part.run engine = (.error refusal, { engine with world })

namespace ComesTo

variable {kind : Operation → Prop}

theorem after {first : EngineM World α} {rest : α → EngineM World β} (reads : OnlyReads first)
    (comes : ∀ value, ComesTo kind (rest value)) : ComesTo kind (first >>= rest) := by
  intro engine
  obtain ⟨value, world, read⟩ := reads engine
  obtain ⟨operation, later, fits, done⟩ := comes value { engine with world }
  refine ⟨operation, later, fits, ?_⟩
  rw [EngineM.run_bind, read]
  exact done

theorem answer {part : EngineM World α} (comes : ComesTo kind part) (form : α → β) :
    ComesTo kind (do return form (← part)) := by
  intro engine
  obtain ⟨operation, world, fits, done⟩ := comes engine
  refine ⟨operation, world, fits, ?_⟩
  rw [EngineM.run_bind]
  cases reached : operation.outcome engine.graph with
  | ok graph =>
      rw [reached] at done
      obtain ⟨value, run⟩ := done
      exact ⟨form value, by rw [run]; rfl⟩
  | error refusal =>
      rw [reached] at done
      simp only [done]

theorem change {change : Change α} {operation : Operation} (fits : kind operation)
    (same : ∀ graph, operation.outcome graph = (change graph).map (·.2)) :
    ComesTo kind (Engine.change change : EngineM World α) := by
  intro engine
  refine ⟨operation, engine.world, fits, ?_⟩
  rw [same, Engine.change_run]
  cases change engine.graph with
  | ok reached => exact ⟨reached.1, rfl⟩
  | error refusal => rfl

end ComesTo

namespace Request

variable {request : Request} {engine after : Engine World}

theorem command_comesTo (request : Request) :
    ComesTo (fun operation => ∃ check id now, operation = request.operation check id now)
      (request.command.perform : EngineM World (Answer Seen)) := by
  cases request with
  | createRule request =>
      exact .answer (.after .check fun check => .after .fresh fun id => .after .now fun now =>
        .change ⟨check, id, now, rfl⟩ fun _ => rfl) _
  | updateRule rule patch =>
      exact .answer (.after .check fun check => .after .now fun now =>
        .change ⟨check, ⟨0⟩, now, rfl⟩ fun _ => rfl) _
  | createAction request =>
      exact .answer (.after .check fun check => .after .fresh fun id => .after .now fun now =>
        .change ⟨check, id, now, rfl⟩ fun _ => rfl) _
  | updateAction action patch =>
      exact .answer (.after .check fun check => .after .now fun now =>
        .change ⟨check, ⟨0⟩, now, rfl⟩ fun _ => rfl) _
  | createTrigger request =>
      exact .answer (.after .check fun check => .after .fresh fun id => .after .now fun now =>
        .change ⟨check, id, now, rfl⟩ fun _ => rfl) _
  | updateTrigger trigger patch =>
      exact .answer (.after .check fun check => .after .now fun now =>
        .change ⟨check, ⟨0⟩, now, rfl⟩ fun _ => rfl) _

/-- A request that passes the check of the service is up to the rules alone. -/
theorem serve_of_check (passes : request.check = .ok ()) :
    (request.serve : EngineM World (Answer Seen)) = request.command.perform := by
  cases request with
  | createRule | updateRule | createAction | updateAction | createTrigger | updateTrigger =>
      exact whenValid_ok passes _ _

theorem serve_refused {refusal : Refusal} (turned : request.check = .error refusal) :
    (request.serve : EngineM World (Answer Seen)).run engine = (.error refusal, engine) := by
  cases request with
  | createRule | updateRule | createAction | updateAction | createTrigger | updateTrigger =>
      exact whenValid_error turned _ _ engine

/-- What the service turns away, the rules would refuse as invalid. -/
theorem perform_refused (Seen : Type) {refusal : Refusal} (turned : request.check = .error refusal)
    (engine : Engine World) :
    ∃ field message world, (request.command.perform : EngineM World (Answer Seen)).run engine =
      (.error (.invalid field message), { engine with world }) := by
  have comes : ComesTo _ (request.command.perform : EngineM World (Answer Seen)) :=
    request.command_comesTo
  obtain ⟨operation, world, ⟨check, id, now, same⟩, done⟩ := comes engine
  cases screened : operation.screen with
  | ok =>
      rw [same] at screened
      rw [request.check_of_screen screened] at turned
      cases turned
  | error other =>
      obtain ⟨field, message, rfl⟩ := Operation.screen_invalid screened
      rw [Operation.outcome_of_screen screened] at done
      exact ⟨field, message, world, done⟩

theorem perform_error {refusal : Refusal}
    (refused : (request.command.perform : EngineM World (Answer Seen)).run engine =
      (.error refusal, after)) : after = { engine with world := after.world } :=
  (Command.perform_isWhole request.command).refused engine refusal after refused

theorem serve_error {refusal : Refusal}
    (refused : (request.serve : EngineM World (Answer Seen)).run engine =
      (.error refusal, after)) : after = { engine with world := after.world } := by
  cases checked : request.check with
  | ok =>
      rw [serve_of_check checked] at refused
      exact perform_error refused
  | error early =>
      rw [serve_refused checked] at refused
      cases refused
      rfl

theorem serve_iff_perform (request : Request) (engine after : Engine World)
    (answer : Answer Seen) :
    request.serve.run engine = (.ok answer, after) ↔
      request.command.perform.run engine = (.ok answer, after) := by
  cases checked : request.check with
  | ok => rw [serve_of_check checked]
  | error early =>
      obtain ⟨field, message, world, refused⟩ := perform_refused Seen checked engine
      rw [serve_refused checked, refused]
      exact ⟨fun wrong => (by cases wrong), fun wrong => (by cases wrong)⟩

end Request

/-- The service grants a request if and only if the rules grant what it is converted to, with one
answer and one engine after it. It turns nothing away that the rules would not refuse as invalid,
and what it lets through it leaves to them. Whoever refuses, the rules stay as they are. -/
theorem requests_granted_alike (request : Request) (engine : Engine World) :
    (∀ (answer : Answer Seen) after, request.serve.run engine = (.ok answer, after) ↔
      request.command.perform.run engine = (.ok answer, after)) ∧
    (match request.check with
      | .ok () => (request.serve : EngineM World (Answer Seen)).run engine =
          request.command.perform.run engine
      | .error _ => ∃ field message world,
          (request.command.perform : EngineM World (Answer Seen)).run engine =
            (.error (.invalid field message), { engine with world })) ∧
    ∀ refusal after, (request.serve : EngineM World (Answer Seen)).run engine =
          (.error refusal, after) ∨
        (request.command.perform : EngineM World (Answer Seen)).run engine =
          (.error refusal, after) →
      after = { engine with world := after.world } := by
  refine ⟨fun answer after => request.serve_iff_perform engine after answer, ?_, ?_⟩
  · cases checked : request.check with
    | ok => rw [Request.serve_of_check checked]
    | error early => exact Request.perform_refused Seen checked engine
  · rintro refusal after (refused | refused)
    · exact Request.serve_error refused
    · exact Request.perform_error refused

/-- Both make the same rule. As for the condition, the service finds it too short, and the rules
would not have any for this kind. -/
theorem hotRule_granted_emptyCondition_refused :
    let engine := Engine.create givingPlatform {} ⟨7⟩
    let creation : Request := .createRule ⟨"hot", "true", 0, none⟩
    let rule : Rule := ⟨⟨7⟩, "hot", "true", 0, true, [], [], ⟨0, 0⟩, ⟨0, 0⟩, 1⟩
    let graph : RuleGraph := { version := 1, lastSequence := 1, rules := ⟨[(rule.id, rule)]⟩ }
    let after := { engine with graph }
    let condition : Request := .createTrigger ⟨⟨1⟩, .unconditional, some "", none⟩
    ((creation.serve : EngineM Uuid (Answer Nat)).run engine = (.ok (.rule rule), after) ∧
      (creation.command.perform : EngineM Uuid (Answer Nat)).run engine =
        (.ok (.rule rule), after)) ∧
    condition.check = .error (.invalid "condition_script" "条件脚本长度必须在1-10000个字符之间") ∧
      ∃ field message world, (condition.command.perform : EngineM Uuid (Answer Nat)).run engine =
        (.error (.invalid field message), { engine with world }) := by
  intro engine creation rule graph after condition
  have served : (creation.serve : EngineM Uuid (Answer Nat)).run engine =
      (.ok (.rule rule), after) := by rfl
  obtain ⟨granted, _, _⟩ := @requests_granted_alike Uuid Nat creation engine
  have turned : condition.check =
      .error (.invalid "condition_script" "条件脚本长度必须在1-10000个字符之间") := by rfl
  obtain ⟨_, checked, _⟩ := @requests_granted_alike Uuid Nat condition engine
  rw [turned] at checked
  exact ⟨⟨served, (granted (.rule rule) after).mp served⟩, turned, checked⟩

end Rulebook
