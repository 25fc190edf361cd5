import Mathlib.Logic.Function.Basic
import Rulebook.Evaluation.Pass
import Rulebook.Proofs.Engine.Publishing
import Rulebook.Proofs.Rules.Screening

/-!
Rules that are shared by writers and readers who do not wait for one another, but for a lock among
the writers. A writer works on a copy of the rules that it loads under the lock, and puts the copy
in their place before it gives the lock back. Who moves next is left open.
-/

namespace Rulebook

/-! Operations and what they answer -/

namespace Operation

/-- What an operation does to the rules, with what it answers. -/
def perform : Operation → Change (Answer Unit)
  | .createRule check id now new => do return .rule (← Change.createRule check id now new)
  | .updateRule check now id patch => do return .rule (← Change.updateRule check now id patch)
  | .deleteRule id => do return .deletion (← Change.deleteRule id)
  | .createTrigger check id now new => do
    return .trigger (← Change.createTrigger check id now new)
  | .updateTrigger check now id patch => do
    return .trigger (← Change.updateTrigger check now id patch)
  | .deleteTrigger id => do Change.deleteTrigger id; return .done
  | .createAction check id now new => do return .action (← Change.createAction check id now new)
  | .updateAction check now id patch => do
    return .action (← Change.updateAction check now id patch)
  | .deleteAction id => do Change.deleteAction id; return .done
  | .bind trigger action => do Change.bind trigger action; return .done
  | .unbind trigger action => do Change.unbind trigger action; return .done
  | .addRuleAction now rule action => do return .rule (← Change.addRuleAction now rule action)
  | .removeRuleAction now rule action => do
    return .rule (← Change.removeRuleAction now rule action)

theorem answered_graph {α : Type} (change : Change α) (form : α → Answer Unit) (graph : RuleGraph) :
    ((do return form (← change) : Change (Answer Unit)) graph).map (·.2) =
      (change graph).map (·.2) := by
  change ((change graph >>= fun pair => pure (form pair.1, pair.2)) : Except _ _).map _ = _
  cases change graph <;> rfl

theorem perform_outcome (operation : Operation) (graph : RuleGraph) :
    (operation.perform graph).map (·.2) = operation.outcome graph := by
  cases operation with
  | _ => exact answered_graph _ _ graph

/-- The answers to operations that are carried out one after the other. -/
def answers : List Operation → RuleGraph → List (Except Refusal (Answer Unit))
  | [], _ => []
  | operation :: rest, graph =>
    (operation.perform graph).map (·.1) :: answers rest (operation.apply graph)

/-- The graphs that come of them, one for each operation that goes through. -/
def editions : List Operation → RuleGraph → List RuleGraph
  | [], _ => []
  | operation :: rest, graph =>
    match operation.outcome graph with
    | .ok next => next :: editions rest next
    | .error _ => editions rest graph

end Operation

/-! Writers and readers -/

namespace Sharing

/-- How far a writer has come with an operation. From `locked` on it has the lock. -/
inductive Stage where
  | idle
  | waiting (operation : Operation)
  | locked (operation : Operation)
  | loaded (operation : Operation) (copy : RuleGraph)
  | applied (operation : Operation) (result : Except Refusal (Answer Unit × RuleGraph))
  | published (operation : Operation) (answer : Answer Unit)

/-- An operation that was answered. -/
structure Reply where
  writer : Nat
  operation : Operation
  answer : Except Refusal (Answer Unit)

/-- An evaluation of an event by the rules that a reader had loaded. -/
structure Reading (World : Type) where
  reader : Nat
  evaluator : Evaluator World
  event : Event
  progress : Progress World
  records : List ExecutionRecord

inductive Move (World : Type) where
  /-- A writer is asked for an operation; it does not wait for the lock if the texts are bad. -/
  | ask (writer : Nat) (operation : Operation)
  /-- Answers an operation that has nothing to publish, without the lock. -/
  | look (writer : Nat)
  | acquire (writer : Nat)
  | load (writer : Nat)
  | apply (writer : Nat)
  | publish (writer : Nat)
  | release (writer : Nat)
  | read (reader : Nat)
  | evaluate (reader : Nat) (evaluator : Evaluator World) (event : Event)
      (progress : Progress World)

end Sharing

open Sharing

structure Shared (World : Type) where
  current : RuleGraph := {}
  /-- The writer that has the lock. -/
  holder : Option Nat := none
  stages : Nat → Stage := fun _ => .idle
  /-- What the readers loaded last. -/
  snapshots : Nat → Option RuleGraph := fun _ => none
  /-- All graphs that were ever current, one after the other. -/
  published : List RuleGraph := [{}]
  /-- Who got the lock for which operation, in this order. -/
  order : List (Nat × Operation) := []
  /-- What was answered by writers that had the lock. -/
  replies : List Reply := []
  /-- What was answered without the lock. -/
  asides : List Reply := []
  loads : List (Nat × RuleGraph) := []
  passes : List (Reading World) := []

namespace Shared

variable {World : Type}

def enter (writer : Nat) (stage : Stage) (shared : Shared World) : Shared World :=
  { shared with stages := Function.update shared.stages writer stage }

/-- A writer gives the lock back with the answer to its operation. -/
def leave (reply : Reply) (shared : Shared World) : Shared World :=
  { shared.enter reply.writer .idle with
    holder := none
    replies := shared.replies ++ [reply] }

def ask (writer : Nat) (operation : Operation) (shared : Shared World) : Shared World :=
  match shared.stages writer, operation.screen with
  | .idle, .ok () => shared.enter writer (.waiting operation)
  | .idle, .error refusal =>
    { shared with asides := shared.asides ++ [⟨writer, operation, .error refusal⟩] }
  | _, _ => shared

def look (writer : Nat) (shared : Shared World) : Shared World :=
  match shared.stages writer with
  | .waiting operation =>
    if operation.publishes then shared
    else { shared.enter writer .idle with
      asides := shared.asides ++
        [⟨writer, operation, (operation.perform shared.current).map (·.1)⟩] }
  | _ => shared

def acquire (writer : Nat) (shared : Shared World) : Shared World :=
  match shared.stages writer, shared.holder with
  | .waiting operation, none =>
    if operation.publishes then
      { shared.enter writer (.locked operation) with
        holder := some writer
        order := shared.order ++ [(writer, operation)] }
    else shared
  | _, _ => shared

def load (writer : Nat) (shared : Shared World) : Shared World :=
  match shared.stages writer with
  | .locked operation => shared.enter writer (.loaded operation shared.current)
  | _ => shared

def apply (writer : Nat) (shared : Shared World) : Shared World :=
  match shared.stages writer with
  | .loaded operation copy => shared.enter writer (.applied operation (operation.perform copy))
  | _ => shared

def publish (writer : Nat) (shared : Shared World) : Shared World :=
  match shared.stages writer with
  | .applied operation (.ok (answer, graph)) =>
    { shared.enter writer (.published operation answer) with
      current := graph
      published := shared.published ++ [graph] }
  | _ => shared

def release (writer : Nat) (shared : Shared World) : Shared World :=
  match shared.stages writer with
  | .applied operation (.error refusal) => shared.leave ⟨writer, operation, .error refusal⟩
  | .published operation answer => shared.leave ⟨writer, operation, .ok answer⟩
  | _ => shared

def read (reader : Nat) (shared : Shared World) : Shared World :=
  { shared with
    snapshots := Function.update shared.snapshots reader (some shared.current)
    loads := shared.loads ++ [(reader, shared.current)] }

def evaluate (reader : Nat) (evaluator : Evaluator World) (event : Event)
    (progress : Progress World) (shared : Shared World) : Shared World :=
  match shared.snapshots reader with
  | some graph =>
    { shared with passes := shared.passes ++
        [⟨reader, evaluator, event, progress, (evaluator.evaluate graph event progress).1⟩] }
  | none => shared

/-- A move that is not possible changes nothing. -/
def step (shared : Shared World) : Move World → Shared World
  | .ask writer operation => shared.ask writer operation
  | .look writer => shared.look writer
  | .acquire writer => shared.acquire writer
  | .load writer => shared.load writer
  | .apply writer => shared.apply writer
  | .publish writer => shared.publish writer
  | .release writer => shared.release writer
  | .read reader => shared.read reader
  | .evaluate reader evaluator event progress => shared.evaluate reader evaluator event progress

def run (moves : List (Move World)) : Shared World :=
  moves.foldl step {}

/-! Writers that nobody gets in the way of -/

/-- How a writer with the lock comes to give it back, however far it has come. -/
def completion (writer : Nat) : List (Move World) :=
  [.load writer, .apply writer, .publish writer, .release writer]

/-- How a writer goes about an operation from beginning to end. -/
def writing (writer : Nat) (operation : Operation) : List (Move World) :=
  .ask writer operation :: .acquire writer :: completion writer

/-- A writer has done an operation on the rules that were there, and all is as before but for what
comes of that. -/
structure IsWritten (writer : Nat) (operation : Operation) (shared next : Shared World) : Prop where
  current : next.current = operation.apply shared.current
  holder : next.holder = none
  stages : next.stages = shared.stages
  replies : next.replies = shared.replies ++
    [⟨writer, operation, (operation.perform shared.current).map (·.1)⟩]

theorem writing_isWritten {shared : Shared World} {writer : Nat} {operation : Operation}
    (idle : shared.stages writer = .idle) (free : shared.holder = none)
    (fine : operation.screen = .ok ()) (publishes : operation.publishes = true) :
    IsWritten writer operation shared ((writing writer operation).foldl step shared) := by
  have back : Function.update shared.stages writer Stage.idle = shared.stages := by
    rw [← idle, Function.update_eq_self]
  have outcome := operation.perform_outcome shared.current
  -- Refused or not, the writer comes to its answer.
  cases done : operation.perform shared.current with
  | ok | error =>
      constructor <;> simp [← outcome, Operation.apply, writing, completion, step, ask, acquire,
        load, apply, publish, release, enter, leave, idle, free, fine, publishes, done, back,
        Except.map]

/-! What a move needs, and what it leads to -/

inductive Step (shared : Shared World) : Shared World → Prop where
  | still : Step shared shared
  | asked {writer : Nat} {operation : Operation} :
      shared.stages writer = .idle → operation.screen = .ok () →
      Step shared (shared.enter writer (.waiting operation))
  | turned {writer : Nat} {operation : Operation} {refusal : Refusal} :
      operation.screen = .error refusal →
      Step shared { shared with asides := shared.asides ++ [⟨writer, operation, .error refusal⟩] }
  | looked {writer : Nat} {operation : Operation} :
      shared.stages writer = .waiting operation → operation.publishes = false →
      Step shared { shared.enter writer .idle with
        asides := shared.asides ++
          [⟨writer, operation, (operation.perform shared.current).map (·.1)⟩] }
  | acquired {writer : Nat} {operation : Operation} :
      shared.stages writer = .waiting operation → shared.holder = none →
      operation.publishes = true →
      Step shared { shared.enter writer (.locked operation) with
        holder := some writer
        order := shared.order ++ [(writer, operation)] }
  | loaded {writer : Nat} {operation : Operation} :
      shared.stages writer = .locked operation →
      Step shared (shared.enter writer (.loaded operation shared.current))
  | applied {writer : Nat} {operation : Operation} {copy : RuleGraph} :
      shared.stages writer = .loaded operation copy →
      Step shared (shared.enter writer (.applied operation (operation.perform copy)))
  | published {writer : Nat} {operation : Operation} {answer : Answer Unit} {graph : RuleGraph} :
      shared.stages writer = .applied operation (.ok (answer, graph)) →
      Step shared { shared.enter writer (.published operation answer) with
        current := graph
        published := shared.published ++ [graph] }
  | refused {writer : Nat} {operation : Operation} {refusal : Refusal} :
      shared.stages writer = .applied operation (.error refusal) →
      Step shared (shared.leave ⟨writer, operation, .error refusal⟩)
  | released {writer : Nat} {operation : Operation} {answer : Answer Unit} :
      shared.stages writer = .published operation answer →
      Step shared (shared.leave ⟨writer, operation, .ok answer⟩)
  | read (reader : Nat) : Step shared (shared.read reader)
  | evaluated {reader : Nat} {graph : RuleGraph} (evaluator : Evaluator World) (event : Event)
      (progress : Progress World) :
      shared.snapshots reader = some graph →
      Step shared { shared with passes := shared.passes ++
        [⟨reader, evaluator, event, progress, (evaluator.evaluate graph event progress).1⟩] }

theorem step_cases (shared : Shared World) (move : Move World) : Step shared (shared.step move) := by
  cases move with
  | ask writer operation =>
      rw [step, ask]
      split
      next idle fine => exact .asked idle fine
      next idle turned => exact .turned turned
      next => exact .still
  | look writer =>
      rw [step, look]
      split
      next operation waiting =>
        split
        next => exact .still
        next silent => exact .looked waiting (Bool.eq_false_iff.mpr silent)
      next => exact .still
  | acquire writer =>
      rw [step, acquire]
      split
      next operation waiting free =>
        split
        next publishes => exact .acquired waiting free publishes
        next => exact .still
      next => exact .still
  | load writer =>
      rw [step, load]
      split
      next operation locked => exact .loaded locked
      next => exact .still
  | apply writer =>
      rw [step, apply]
      split
      next operation copy loaded => exact .applied loaded
      next => exact .still
  | publish writer =>
      rw [step, publish]
      split
      next operation answer graph applied => exact .published applied
      next => exact .still
  | release writer =>
      rw [step, release]
      split
      next operation refusal applied => exact .refused applied
      next operation answer published => exact .released published
      next => exact .still
  | read reader => exact .read reader
  | evaluate reader evaluator event progress =>
      rw [step, evaluate]
      split
      next graph loaded => exact .evaluated evaluator event progress loaded
      next => exact .still

/-- What the first state has and every move keeps, all states have. -/
theorem run_induction {property : Shared World → Prop} (start : property {})
    (keeps : ∀ shared next, property shared → Step shared next → property next)
    (moves : List (Move World)) : property (run moves) := by
  have kept : ∀ shared : Shared World, property shared → property (moves.foldl step shared) := by
    induction moves with
    | nil => exact fun _ holds => holds
    | cons move rest ih =>
        exact fun shared holds => ih _ (keeps shared _ holds (step_cases shared move))
  exact kept {} start

end Shared

end Rulebook
