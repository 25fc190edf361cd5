import Rulebook.Proofs.Rules.Effect

/-!
Changes that are asked for one after the other, beginning without any rules. A change that is
refused is part of the history too; it leaves the graph as it is.
-/

namespace Rulebook

/-- A change that is asked for, with all that it is given. -/
inductive Operation where
  | createRule (check : ScriptCheck) (id : Uuid) (now : Instant) (new : NewRule)
  | updateRule (check : ScriptCheck) (now : Instant) (id : Uuid) (patch : RulePatch)
  | deleteRule (id : Uuid)
  | createTrigger (check : ScriptCheck) (id : Uuid) (now : Instant) (new : NewTrigger)
  | updateTrigger (check : ScriptCheck) (now : Instant) (id : Uuid) (patch : TriggerPatch)
  | deleteTrigger (id : Uuid)
  | createAction (check : ScriptCheck) (id : Uuid) (now : Instant) (new : NewAction)
  | updateAction (check : ScriptCheck) (now : Instant) (id : Uuid) (patch : ActionPatch)
  | deleteAction (id : Uuid)
  | bind (trigger action : Uuid)
  | unbind (trigger action : Uuid)
  | addRuleAction (now : Instant) (rule action : Uuid)
  | removeRuleAction (now : Instant) (rule action : Uuid)

namespace Operation

def outcome (operation : Operation) (graph : RuleGraph) : Except Refusal RuleGraph :=
  match operation with
  | .createRule check id now new => (Change.createRule check id now new graph).map (·.2)
  | .updateRule check now id patch => (Change.updateRule check now id patch graph).map (·.2)
  | .deleteRule id => (Change.deleteRule id graph).map (·.2)
  | .createTrigger check id now new => (Change.createTrigger check id now new graph).map (·.2)
  | .updateTrigger check now id patch => (Change.updateTrigger check now id patch graph).map (·.2)
  | .deleteTrigger id => (Change.deleteTrigger id graph).map (·.2)
  | .createAction check id now new => (Change.createAction check id now new graph).map (·.2)
  | .updateAction check now id patch => (Change.updateAction check now id patch graph).map (·.2)
  | .deleteAction id => (Change.deleteAction id graph).map (·.2)
  | .bind trigger action => (Change.bind trigger action graph).map (·.2)
  | .unbind trigger action => (Change.unbind trigger action graph).map (·.2)
  | .addRuleAction now rule action => (Change.addRuleAction now rule action graph).map (·.2)
  | .removeRuleAction now rule action => (Change.removeRuleAction now rule action graph).map (·.2)

theorem map_snd_eq_ok {α : Type} {result : Except Refusal (α × RuleGraph)} {next : RuleGraph} :
    result.map (·.2) = .ok next ↔ ∃ value, result = .ok (value, next) := by
  cases result with
  | error refusal => simp [Except.map]
  | ok pair => simp [Except.map, Prod.ext_iff]

def apply (operation : Operation) (graph : RuleGraph) : RuleGraph :=
  match operation.outcome graph with
  | .ok next => next
  | .error _ => graph

/-- An entity that is made gets an identifier that nothing of the graph goes by. -/
def IsFresh (graph : RuleGraph) : Operation → Prop
  | .createRule _ id _ _ | .createTrigger _ id _ _ | .createAction _ id _ _ => graph.Lacks id
  | _ => True

/-- What an operation keeps if it goes through, it keeps. -/
theorem apply_keeps {property : RuleGraph → Prop} {operation : Operation} {graph : RuleGraph}
    (holds : property graph)
    (step : ∀ next, operation.outcome graph = .ok next → property next) :
    property (operation.apply graph) := by
  rw [apply]
  split
  · rename_i next done
    exact step next done
  · exact holds

end Operation

/-- The operations, one after the other, lead from the empty graph to a graph. -/
inductive History : List Operation → RuleGraph → Prop where
  | start : History [] {}
  | next {operations : List Operation} {graph : RuleGraph} {operation : Operation} :
      History operations graph → operation.IsFresh graph →
        History (operations ++ [operation]) (operation.apply graph)

namespace Operation

instance (graph : RuleGraph) (id : Uuid) : Decidable (graph.Lacks id) :=
  inferInstanceAs (Decidable (_ ∧ _ ∧ _))

instance (graph : RuleGraph) : (operation : Operation) → Decidable (operation.IsFresh graph)
  | .createRule _ id _ _ | .createTrigger _ id _ _ | .createAction _ id _ _ =>
    inferInstanceAs (Decidable (graph.Lacks id))
  | .updateRule .. | .deleteRule _ | .updateTrigger .. | .deleteTrigger _ | .updateAction ..
  | .deleteAction _ | .bind .. | .unbind .. | .addRuleAction .. | .removeRuleAction .. =>
    isTrue trivial

def run : List Operation → RuleGraph → RuleGraph
  | [], graph => graph
  | operation :: rest, graph => run rest (operation.apply graph)

/-- The operations that go through, of those that are asked for one after the other. -/
def succeeding : List Operation → RuleGraph → List Operation
  | [], _ => []
  | operation :: rest, graph =>
    match operation.outcome graph with
    | .ok next => operation :: succeeding rest next
    | .error _ => succeeding rest graph

theorem run_append (earlier later : List Operation) (graph : RuleGraph) :
    run (earlier ++ later) graph = run later (run earlier graph) := by
  induction earlier generalizing graph with
  | nil => rfl
  | cons operation rest ih => exact ih (operation.apply graph)

theorem succeeding_append (earlier later : List Operation) (graph : RuleGraph) :
    succeeding (earlier ++ later) graph =
      succeeding earlier graph ++ succeeding later (run earlier graph) := by
  induction earlier generalizing graph with
  | nil => rfl
  | cons operation rest ih =>
      simp only [List.cons_append, succeeding, run, apply]
      cases operation.outcome graph with
      | ok next => simp only [ih, List.cons_append]
      | error _ => exact ih graph

/-- Whether all entities that operations make get fresh identifiers. -/
def areFresh : List Operation → RuleGraph → Bool
  | [], _ => true
  | operation :: rest, graph =>
    decide (operation.IsFresh graph) && areFresh rest (operation.apply graph)

end Operation

theorem History.run {earlier later : List Operation} {graph : RuleGraph}
    (history : History earlier graph) (fresh : Operation.areFresh later graph = true) :
    History (earlier ++ later) (Operation.run later graph) := by
  induction later generalizing earlier graph with
  | nil => simpa [Operation.run] using history
  | cons operation rest ih =>
      simp only [Operation.areFresh, Bool.and_eq_true, decide_eq_true_eq] at fresh
      have further := ih (history.next fresh.1) fresh.2
      simpa [Operation.run] using further

theorem History.run_eq {operations : List Operation} {graph : RuleGraph}
    (history : History operations graph) : Operation.run operations {} = graph := by
  induction history with
  | start => rfl
  | next _ _ ih => rw [Operation.run_append, ih, Operation.run, Operation.run]

theorem History.ofFresh {operations : List Operation}
    (fresh : Operation.areFresh operations {} = true) :
    History operations (Operation.run operations {}) := by
  simpa using History.start.run fresh

def RuleGraph.Reachable (graph : RuleGraph) : Prop :=
  ∃ operations, History operations graph

end Rulebook
