import Rulebook.Proofs.Script.Expression

/-!
Two runs of one program do the same with statements, and so with the whole of the program.
-/

namespace Rulebook.Script

open Run Pairing

variable {Left Right : Type} {pairing : Pairing Left Right}

namespace Evaluator

variable {first : Evaluator Left} {second : Evaluator Right} (alike : Alike pairing first second)

include alike

/-! Loops -/

theorem optional_alike (value : Option Expr) :
    pairing.Alike (first.optional value) (second.optional value) := by
  cases value with
  | some expr => exact (alike.expr expr).bind fun value => resolve_alike value
  | none => exact .pure _

theorem round_alike (body : List Stmt) :
    pairing.Alike (first.round body) (second.round body) := by
  unfold round
  split
  · exact Alike.tick.bind fun _ => .pure _
  · refine .withMachine fun scope _ _ _ _ _ _ _ => ?_
    refine .tryCatch ((alike.block body).bind fun _ => .pure _) ?_ ?_ ?_
    · intro interrupt
      cases interrupt with
      | leave value => exact (forget_alike _).bind fun _ => .pure _
      | next => exact (forget_alike _).bind fun _ => .pure _
      | _ => exact .throw _
    · exact fun machine => ⟨_, rfl⟩
    · exact fun machine => ⟨_, rfl⟩

theorem roundIf_alike (body : List Stmt) {again : Run Left Value} {other : Run Right Value}
    (same : pairing.Alike again other) (goesOn : Bool) :
    pairing.Alike
      (if goesOn then do
        match ← first.round body with
        | some value => pure value
        | none => again
      else pure .unit)
      (if goesOn then do
        match ← second.round body with
        | some value => pure value
        | none => other
      else pure .unit) := by
  cases goesOn with
  | false => exact .pure _
  | true =>
      refine (round_alike alike body).bind fun left => ?_
      cases left with
      | some value => exact .pure value
      | none => exact same

theorem repeatWhile_alike (condition : Option Expr) (body : List Stmt) :
    pairing.Alike (first.repeatWhile condition body pairing.left.limits.rounds)
      (second.repeatWhile condition body pairing.right.limits.rounds) := by
  refine Alike.rounds (fun _ : Unit => first.repeatWhile condition body)
    (fun _ => second.repeatWhile condition body) (fun _ => rfl) (fun _ => rfl) ?_ () _ _
    Alike.rounds_timed
  intro count others ih start
  cases condition with
  | none => exact (Alike.pure true).bind (roundIf_alike alike body (ih ()))
  | some expr => exact (truth_alike alike expr).bind (roundIf_alike alike body (ih ()))

theorem repeatUntil_alike (body : List Stmt) (condition : Expr) (value : Bool) :
    pairing.Alike (first.repeatUntil body condition value pairing.left.limits.rounds)
      (second.repeatUntil body condition value pairing.right.limits.rounds) := by
  refine Alike.rounds (fun _ : Unit => first.repeatUntil body condition value)
    (fun _ => second.repeatUntil body condition value) (fun _ => rfl) (fun _ => rfl) ?_ () _ _
    Alike.rounds_timed
  intro count others ih start
  refine (round_alike alike body).bind fun left => ?_
  cases left with
  | some result => exact .pure result
  | none =>
      refine (truth_alike alike condition).bind fun holds => ?_
      split
      · exact ih ()
      · exact .pure _

theorem visit_alike (entry : Variable) (count : Nat) (body : List Stmt) {again : Run Left Value}
    {other : Run Right Value} (same : pairing.Alike again other) :
    pairing.Alike
      (do
        push entry
        let left ← first.round body
        forget count
        match left with
        | some result => pure result
        | none => again)
      (do
        push entry
        let left ← second.round body
        forget count
        match left with
        | some result => pure result
        | none => other) := by
  refine (push_alike entry).bind fun _ => (round_alike alike body).bind fun left => ?_
  refine (forget_alike count).bind fun _ => ?_
  cases left with
  | some result => exact .pure result
  | none => exact same

theorem visitAll_alike (item : String) (counter : Option String) (body : List Stmt)
    (visits : Visits) :
    pairing.Alike (first.visitAll item counter body visits 0 pairing.left.limits.rounds)
      (second.visitAll item counter body visits 0 pairing.right.limits.rounds) := by
  refine Alike.rounds
    (fun place : Visits × Int => first.visitAll item counter body place.1 place.2)
    (fun place => second.visitAll item counter body place.1 place.2)
    (fun _ => rfl) (fun _ => rfl) ?_ (visits, 0) _ _ Alike.rounds_timed
  intro count others ih start
  obtain ⟨visits, index⟩ := start
  simp only [visitAll]
  split
  · exact .pure _
  · rename_i value rest _
    refine .withMachine fun scope _ _ _ _ _ _ _ => ?_
    have further := visit_alike alike ⟨item, value, false⟩ scope.length body
      (ih (rest, index + 1))
    cases counter with
    | some name => exact (push_alike _).bind fun _ => further
    | none => exact further

/-! Choices -/

theorem firstCase_alike (cases : List Case) :
    pairing.Alike (first.firstCase cases) (second.firstCase cases) := by
  induction cases with
  | nil => exact .pure _
  | cons chosen rest ih =>
      have decided (holds : Bool) : pairing.Alike
          (if holds then pure (some chosen.body) else first.firstCase rest)
          (if holds then pure (some chosen.body) else second.firstCase rest) := by
        split
        · exact .pure _
        · exact ih
      unfold firstCase
      split
      · exact (Alike.pure _).bind decided
      · exact (truth_alike alike _).bind decided

theorem choose_alike (subject : Expr) (cases : List Case) (default : Option Expr) :
    pairing.Alike (first.choose subject cases default) (second.choose subject cases default) := by
  refine (alike.expr subject).bind fun value => ?_
  refine (firstCase_alike alike _).bind fun body => ?_
  cases body with
  | some body => exact alike.expr body
  | none =>
      cases default with
      | some body => exact alike.expr body
      | none => exact .pure _

/-- A handler, which raises a problem again if it raises nothing of its own. -/
theorem handling_alike (handler : List Stmt) (problem : Problem) (count : Nat) :
    pairing.Alike
      (tryCatch
        (do
          let _ ← first.block handler
          forget count
          pure Value.unit)
        fun
          | .failed (.raised .unit) again => throw (.failed problem again)
          | interrupt => throw interrupt)
      (tryCatch
        (do
          let _ ← second.block handler
          forget count
          pure Value.unit)
        fun
          | .failed (.raised .unit) again => throw (.failed problem again)
          | interrupt => throw interrupt) := by
  refine .tryCatch ((alike.block handler).bind fun _ => (forget_alike count).bind fun _ => .pure _)
    ?_ ?_ ?_
  · intro interrupt
    split
    · exact .throw _
    · exact .throw _
  · exact fun machine => ⟨_, rfl⟩
  · exact fun machine => ⟨_, rfl⟩

theorem attempt_alike (body : List Stmt) (caught : Option String) (handler : List Stmt) :
    pairing.Alike (first.attempt body caught handler) (second.attempt body caught handler) := by
  refine .withMachine fun scope _ _ _ _ level _ _ => ?_
  refine .tryCatch (alike.block body) ?_ ?_ ?_
  · intro interrupt
    cases interrupt with
    | failed problem place =>
        have handled := handling_alike alike handler problem scope.length
        refine .bind (.change ?_ (fun _ => rfl) fun _ => rfl) fun _ => ?_
        · rintro _ _ ⟨kin⟩
          exact .alike kin
        refine (forget_alike _).bind fun _ => ?_
        cases caught with
        | some name => exact (push_alike _).bind fun _ => handled
        | none => exact handled
    | _ => exact .throw _
  · exact fun machine => ⟨_, rfl⟩
  · exact fun machine => ⟨_, rfl⟩

theorem assign_alike (target : Expr) (operator : Option String) (value : Value)
    (place : Position) :
    pairing.Alike (first.assign target operator value place)
      (second.assign target operator value place) := by
  cases target with
  | «variable» name namePlace =>
      refine Alike.tick.bind fun _ => (entry_alike name).bind fun entry => ?_
      cases entry with
      | none => exact .fail _ namePlace
      | some entry =>
          refine (resolve_alike _).bind fun old => (isConstant_alike entry).bind fun locked => ?_
          exact (apply_alike alike _ old locked).bind fun value => store_alike name value
  | receiver receiverPlace => exact (chain_alike alike _ [] _).bind fun _ => .pure _
  | chain root steps => exact (chain_alike alike root steps _).bind fun _ => .pure _
  | _ => exact .pure _

theorem readStmt_alike (stmt : Stmt) :
    pairing.Alike (first.readStmt stmt) (second.readStmt stmt) := by
  refine Alike.tick.bind fun _ => ?_
  cases stmt with
  | nothing => exact .pure _
  | expr value => exact (alike.expr value).bind fun value => resolve_alike value
  | declare name value constant =>
      refine (alike.expr value).bind fun value => (resolve_alike value).bind fun value => ?_
      exact (push_alike _).bind fun _ => .pure _
  | assign target operator value place =>
      refine (alike.expr value).bind fun value => (resolve_alike value).bind fun value => ?_
      exact (assign_alike alike target operator value place).bind fun _ => .pure _
  | branch condition body other =>
      refine (truth_alike alike condition).bind fun holds => ?_
      cases holds with
      | true => exact alike.block body
      | false => exact alike.block other
  | choose subject cases default => exact choose_alike alike subject cases default
  | loop condition body => exact .withSetup (repeatWhile_alike alike condition body)
  | again body condition value => exact .withSetup (repeatUntil_alike alike body condition value)
  | each item counter source body =>
      refine (alike.expr source).bind fun value => (resolve_alike value).bind fun value => ?_
      split
      · exact .withSetup (visitAll_alike alike item counter body _)
      · exact .fail _ _
  | leave value => exact (optional_alike alike value).bind fun _ => .throw _
  | next => exact .throw _
  | give value => exact (optional_alike alike value).bind fun _ => .throw _
  | fail value place => exact (optional_alike alike value).bind fun _ => .fail _ place
  | attempt body caught handler => exact attempt_alike alike body caught handler
  | block body => exact alike.block body
  | share names =>
      refine .bind ?_ fun _ => .pure _
      induction names with
      | nil => exact .pure _
      | cons name rest ih =>
          rw [List.forIn_cons, List.forIn_cons]
          refine ((share_alike name.1).bind fun _ => .pure _).bind fun step => ?_
          cases step with
          | done => exact .pure _
          | yield => exact ih

end Evaluator

/-! Programs -/

namespace Evaluator

theorem sequence_alike {run : Stmt → Run Left Value} {other : Stmt → Run Right Value}
    (each : ∀ stmt, pairing.Alike (run stmt) (other stmt)) (last : Value) (body : List Stmt) :
    pairing.Alike (sequence run last body) (sequence other last body) := by
  induction body generalizing last with
  | nil => exact .pure last
  | cons stmt rest ih => exact (each stmt).bind fun value => ih value

theorem fuel_alike (fuel : Nat) :
    Alike pairing ⟨evaluateExpr fuel, evaluateBlock fuel⟩
      ⟨evaluateExpr fuel, evaluateBlock fuel⟩ := by
  induction fuel with
  | zero => exact ⟨fun _ => .throw _, fun _ => .throw _⟩
  | succ fuel ih =>
      constructor
      · intro expr
        exact readExpr_alike ih expr
      · intro body
        exact enclosed_alike (sequence_alike (readStmt_alike ih) .unit body)

theorem evaluateTop_alike (fuel : Nat) (body : List Stmt) :
    pairing.Alike (evaluateTop fuel body) (evaluateTop fuel body) := by
  induction body with
  | nil => exact .pure _
  | cons stmt rest ih =>
      refine (readStmt_alike (fuel_alike fuel) stmt).bind fun value => ?_
      have further : pairing.Alike (if rest.isEmpty then pure value else evaluateTop fuel rest)
          (if rest.isEmpty then pure value else evaluateTop fuel rest) := by
        split
        · exact .pure value
        · exact ih
      refine .withMachine fun scope _ _ _ _ _ _ _ => ?_
      dsimp only
      split
      · refine .bind (.change ?_ (fun _ => rfl) fun _ => rfl) fun _ => further
        rintro _ _ ⟨kin⟩
        exact .alike kin
      · exact further

end Evaluator

def endingOf : EStateM.Result Interrupt (Machine Left) Value → Ending Left
  | .ok value machine | .error (.give value) machine | .error (.finish value) machine =>
    ⟨.ok value, machine.operations, machine.host⟩
  | .error interrupt machine => ⟨.error interrupt, machine.operations, machine.host⟩

theorem endingOf_host (result : EStateM.Result Interrupt (Machine Left) Value) :
    (endingOf result).host = (machineOf result).host := by
  cases result with
  | ok value machine => rfl
  | error interrupt machine => cases interrupt <;> rfl

theorem Program.run_eq (program : Program) (limits : Limits) (host : Host Left)
    (constants : List (String × Value)) (state : Left) :
    program.run limits host constants state =
      endingOf (Evaluator.evaluateTop ((limits.callLevels + 2) * (2 * program.depth + 8))
        program.body ⟨limits, program.functions, host⟩
        ⟨(constants.map fun (name, value) => Variable.mk name value true).reverse, #[], [], none, 0,
          0, state⟩) := by
  simp only [run]
  generalize Evaluator.evaluateTop _ _ _ _ = result
  cases result with
  | ok value machine => rfl
  | error interrupt machine => cases interrupt <;> rfl

/-- Two runs of one program end in the same way, unless one of them is lost for comparison, or
their times differ and one of them ran out of time. -/
theorem Program.run_alike (pairing : Pairing Left Right) (program : Program)
    (constants : List (String × Value)) {left : Left} {right : Right}
    (functions : pairing.left.functions = program.functions) (kin : pairing.kin left right) :
    let first := program.run pairing.left.limits pairing.left.host constants left
    let second := program.run pairing.right.limits pairing.right.host constants right
    pairing.lostLeft first.host ∨ pairing.lostRight second.host ∨
      (pairing.IsTimed ∧ (first.result = .error .timedOut ∨ second.result = .error .timedOut)) ∨
        (first.result = second.result ∧ first.operations = second.operations ∧
          pairing.kin first.host second.host) := by
  have setupLeft : (⟨pairing.left.limits, program.functions, pairing.left.host⟩ : Setup Left) =
      pairing.left := by rw [← functions]
  have setupRight : (⟨pairing.right.limits, program.functions, pairing.right.host⟩ :
      Setup Right) = pairing.right := by rw [← functions, ← pairing.functions]
  have levels : pairing.right.limits.callLevels = pairing.left.limits.callLevels := by
    rw [pairing.limits]
  intro first second
  have result := (Evaluator.evaluateTop_alike
    ((pairing.left.limits.callLevels + 2) * (2 * program.depth + 8)) program.body).agree
    ⟨(constants.map fun (name, value) => Variable.mk name value true).reverse, #[], [], none, 0, 0,
      left⟩ _ (.alike kin)
  simp only [first, second, run_eq, setupLeft, setupRight, levels]
  generalize Evaluator.evaluateTop _ _ pairing.left _ = ended at result ⊢
  generalize Evaluator.evaluateTop _ _ pairing.right _ = finished at result ⊢
  cases result with
  | lostLeft lost => exact .inl (endingOf_host ended ▸ lost)
  | lostRight lost => exact .inr (.inl (endingOf_host finished ▸ lost))
  | timedLeft timed => exact .inr (.inr (.inl ⟨timed, .inl rfl⟩))
  | timedRight timed => exact .inr (.inr (.inl ⟨timed, .inr rfl⟩))
  | ok alike =>
      obtain ⟨kin⟩ := alike
      exact .inr (.inr (.inr ⟨rfl, rfl, kin⟩))
  | @error interrupt _ _ alike =>
      obtain ⟨kin⟩ := alike
      refine .inr (.inr (.inr ?_))
      cases interrupt with
      | _ => exact ⟨rfl, rfl, kin⟩

end Rulebook.Script
