import Mathlib.Data.List.Induction
import Rulebook.Proofs.Engine.Sharing

/-!
However writers and readers take their turns, the rules come out as if the operations had been
carried out one after the other, in the order of the lock: so they are answered, and so the graphs
are published. Readers see these graphs and no others, and never an older one after a newer one.
-/

namespace Rulebook

/-! Operations one after the other -/

namespace Operation

variable {operation : Operation} {graph next : RuleGraph} {answer : Answer Unit}
  {refusal : Refusal}

theorem outcome_of_answer (done : operation.perform graph = .ok (answer, next)) :
    operation.outcome graph = .ok next := by
  rw [← perform_outcome, done]
  rfl

theorem outcome_of_refusal (refused : operation.perform graph = .error refusal) :
    operation.outcome graph = .error refusal := by
  rw [← perform_outcome, refused]
  rfl

theorem apply_of_answer (done : operation.perform graph = .ok (answer, next)) :
    operation.apply graph = next := by
  rw [apply, outcome_of_answer done]

theorem apply_of_refusal (refused : operation.perform graph = .error refusal) :
    operation.apply graph = graph := by
  rw [apply, outcome_of_refusal refused]

theorem answers_append (earlier later : List Operation) (graph : RuleGraph) :
    answers (earlier ++ later) graph =
      answers earlier graph ++ answers later (run earlier graph) := by
  induction earlier generalizing graph with
  | nil => rfl
  | cons operation rest ih => simp only [List.cons_append, answers, run, ih]

theorem editions_append (earlier later : List Operation) (graph : RuleGraph) :
    editions (earlier ++ later) graph =
      editions earlier graph ++ editions later (run earlier graph) := by
  induction earlier generalizing graph with
  | nil => rfl
  | cons operation rest ih =>
      simp only [List.cons_append, editions, run, apply]
      cases operation.outcome graph with
      | ok next => simp only [ih, List.cons_append]
      | error refusal => exact ih graph

theorem editions_length (operations : List Operation) (graph : RuleGraph) :
    (editions operations graph).length = (answers operations graph).countP (·.isOk) := by
  induction operations generalizing graph with
  | nil => rfl
  | cons operation rest ih =>
      rw [editions, answers]
      cases done : operation.perform graph with
      | ok reached =>
          rw [outcome_of_answer done, apply_of_answer done, List.length_cons, ih]
          exact (List.countP_cons_of_pos rfl).symm
      | error refusal =>
          rw [outcome_of_refusal done, apply_of_refusal done, ih]
          exact (List.countP_cons_of_neg Bool.false_ne_true).symm

/-- The graph that operations begin with and those that come of them have one version after the
other. -/
theorem editions_versions {operations : List Operation}
    (publish : ∀ operation ∈ operations, operation.publishes = true) (graph : RuleGraph) :
    (graph :: editions operations graph).map (·.version) =
      List.range' graph.version ((editions operations graph).length + 1) := by
  induction operations generalizing graph with
  | nil => rfl
  | cons operation rest ih =>
      rw [editions]
      cases done : operation.outcome graph with
      | ok next =>
          have older := outcome_published done
          rw [publish operation List.mem_cons_self, if_pos rfl] at older
          rw [List.map_cons, ih fun other held => publish other (List.mem_cons_of_mem _ held),
            List.length_cons, older]
          rfl
      | error refusal =>
          exact ih (fun other held => publish other (List.mem_cons_of_mem _ held)) graph

theorem run_version {operations : List Operation}
    (publish : ∀ operation ∈ operations, operation.publishes = true) (graph : RuleGraph) :
    (run operations graph).version = graph.version + (editions operations graph).length := by
  induction operations generalizing graph with
  | nil => rfl
  | cons operation rest ih =>
      rw [editions, run, ih fun other held => publish other (List.mem_cons_of_mem _ held), apply]
      cases done : operation.outcome graph with
      | ok next =>
          have older := outcome_published done
          rw [publish operation List.mem_cons_self, if_pos rfl] at older
          simp only [older, List.length_cons]
          omega
      | error refusal => rfl

end Operation

open Sharing

namespace Shared

variable {World : Type} {shared next : Shared World} {writer : Nat} {operation : Operation}
  {stage : Stage} {reply : Reply}

/-! Writers -/

def answered (shared : Shared World) : List Operation :=
  shared.replies.map (·.operation)

/-- What the rules were when the lock was given back the last time. -/
def base (shared : Shared World) : RuleGraph :=
  Operation.run shared.answered {}

/-- What had been published by then. -/
def editions (shared : Shared World) : List RuleGraph :=
  {} :: Operation.editions shared.answered {}

def turns (shared : Shared World) : List (Nat × Operation) :=
  shared.replies.map fun reply => (reply.writer, reply.operation)

theorem enter_self : (shared.enter writer stage).stages writer = stage :=
  Function.update_self ..

theorem enter_of_ne {other : Nat} (differs : other ≠ writer) :
    (shared.enter writer stage).stages other = shared.stages other :=
  Function.update_of_ne differs ..

/-- What a writer with the lock has done so far, beginning with the rules that were there. -/
def Works (operation : Operation) (base : RuleGraph) (before : List RuleGraph)
    (current : RuleGraph) (published : List RuleGraph) : Stage → Prop
  | .locked other => other = operation ∧ current = base ∧ published = before
  | .loaded other copy => other = operation ∧ copy = base ∧ current = base ∧ published = before
  | .applied other result =>
    other = operation ∧ result = operation.perform base ∧ current = base ∧ published = before
  | .published other answer => other = operation ∧
      operation.perform base = .ok (answer, current) ∧ published = before ++ [current]
  | .idle | .waiting _ => False

/-- A writer with the lock has no effect until it publishes. -/
theorem Works.effect {base current : RuleGraph} {before published : List RuleGraph}
    (works : Works operation base before current published stage) :
    (current = base ∧ published = before) ∨
      ∃ answer, operation.perform base = .ok (answer, current) ∧
        published = before ++ [current] := by
  cases stage with
  | idle | waiting => exact works.elim
  | locked => exact .inl works.2
  | loaded => exact .inl works.2.2
  | applied => exact .inl works.2.2
  | published other answer => exact .inr ⟨answer, works.2⟩

def IsOutside : Stage → Prop
  | .idle | .waiting _ => True
  | _ => False

/-- One writer at most is at work, and the rules are what the operations come to that were
answered, but for what this writer has done. -/
structure IsSerial (shared : Shared World) : Prop where
  free : shared.holder = none →
    shared.order = shared.turns ∧ shared.current = shared.base ∧
      shared.published = shared.editions
  held : ∀ writer, shared.holder = some writer → ∃ operation : Operation,
    operation.publishes = true ∧ shared.order = shared.turns ++ [(writer, operation)] ∧
      Works operation shared.base shared.editions shared.current shared.published
        (shared.stages writer)
  outside : ∀ writer, shared.holder ≠ some writer → IsOutside (shared.stages writer)
  publish : ∀ operation ∈ shared.answered, operation.publishes = true
  answers : shared.replies.map (·.answer) = Operation.answers shared.answered {}

namespace IsSerial

theorem start : IsSerial ({} : Shared World) where
  free _ := ⟨rfl, rfl, rfl⟩
  held _ held := nomatch held
  outside _ _ := trivial
  publish _ held := nomatch held
  answers := rfl

theorem holds (serial : shared.IsSerial) (inside : ¬ IsOutside (shared.stages writer)) :
    shared.holder = some writer := by
  by_contra other
  exact inside (serial.outside writer other)

theorem notHeld (serial : shared.IsSerial) (outside : IsOutside (shared.stages writer)) :
    shared.holder ≠ some writer := by
  intro holds
  obtain ⟨operation, _, _, works⟩ := serial.held writer holds
  cases stage : shared.stages writer with
  | idle | waiting => rw [stage] at works; exact works
  | locked | loaded | applied | published => rw [stage] at outside; exact outside

/-- What the writer with the lock works on, in a stage that it has come to. -/
theorem works (serial : shared.IsSerial) (inside : ¬ IsOutside stage)
    (reached : shared.stages writer = stage) : shared.holder = some writer ∧
      ∃ operation : Operation, operation.publishes = true ∧
        shared.order = shared.turns ++ [(writer, operation)] ∧
        Works operation shared.base shared.editions shared.current shared.published stage := by
  subst reached
  have holder := serial.holds inside
  exact ⟨holder, serial.held writer holder⟩

theorem enter (serial : shared.IsSerial) (before : IsOutside (shared.stages writer))
    (after : IsOutside stage) : IsSerial (shared.enter writer stage) where
  free := serial.free
  held other holds := by
    have differs : other ≠ writer := by
      rintro rfl
      exact serial.notHeld before holds
    rw [enter_of_ne differs]
    exact serial.held other holds
  outside other notHolder := by
    by_cases same : other = writer
    · rw [same, enter_self]
      exact after
    · rw [enter_of_ne same]
      exact serial.outside other notHolder
  publish := serial.publish
  answers := serial.answers

theorem advance (serial : shared.IsSerial) (holder : shared.holder = some writer)
    (publishes : operation.publishes = true)
    (order : shared.order = shared.turns ++ [(writer, operation)])
    {current : RuleGraph} {published : List RuleGraph}
    (works : Works operation shared.base shared.editions current published stage) :
    IsSerial { shared.enter writer stage with current, published } where
  free free := by
    rw [show shared.holder = none from free] at holder
    cases holder
  held other holds := by
    have same : other = writer := Option.some.inj (holds.symm.trans holder)
    subst same
    refine ⟨operation, publishes, order, ?_⟩
    change Works operation _ _ _ _ ((shared.enter other stage).stages other)
    rw [enter_self]
    exact works
  outside other notHolder := by
    have differs : other ≠ writer := by
      rintro rfl
      exact notHolder holder
    change IsOutside ((shared.enter writer stage).stages other)
    rw [enter_of_ne differs]
    exact serial.outside other notHolder
  publish := serial.publish
  answers := serial.answers

theorem acquire (serial : shared.IsSerial) (waiting : shared.stages writer = .waiting operation)
    (free : shared.holder = none) (publishes : operation.publishes = true) :
    IsSerial { shared.enter writer (.locked operation) with
      holder := some writer, order := shared.order ++ [(writer, operation)] } where
  free free := nomatch free
  held other holds := by
    cases holds
    obtain ⟨order, current, published⟩ := serial.free free
    refine ⟨operation, publishes, congrArg (· ++ _) order, ?_⟩
    change Works operation _ _ _ _ ((shared.enter writer (.locked operation)).stages writer)
    rw [enter_self]
    exact ⟨rfl, current, published⟩
  outside other notHolder := by
    have differs : other ≠ writer := by
      rintro rfl
      exact notHolder rfl
    change IsOutside ((shared.enter writer (.locked operation)).stages other)
    rw [enter_of_ne differs]
    exact serial.outside other (by rw [free]; nofun)
  publish := serial.publish
  answers := serial.answers

theorem leave (serial : shared.IsSerial) (holder : shared.holder = some reply.writer)
    (publishes : reply.operation.publishes = true)
    (order : shared.order = shared.turns ++ [(reply.writer, reply.operation)])
    (answer : (reply.operation.perform shared.base).map (·.1) = reply.answer)
    (current : shared.current = reply.operation.apply shared.base)
    (published : shared.published =
      shared.editions ++ Operation.editions [reply.operation] shared.base) :
    IsSerial (shared.leave reply) := by
  have answered : (shared.leave reply).answered = shared.answered ++ [reply.operation] := by
    rw [Shared.answered, Shared.leave, List.map_append]
    rfl
  constructor
  · intro _
    refine ⟨?_, ?_, ?_⟩
    · rw [turns, Shared.leave, List.map_append]
      exact order
    · rw [base, answered, Operation.run_append]
      exact current
    · rw [editions, answered, Operation.editions_append]
      exact published
  · intro other holds
    cases holds
  · intro other _
    change IsOutside ((shared.enter reply.writer .idle).stages other)
    by_cases same : other = reply.writer
    · rw [same, enter_self]
      trivial
    · rw [enter_of_ne same]
      refine serial.outside other fun holds => same ?_
      exact Option.some.inj (holds.symm.trans holder)
  · intro operation held
    rw [answered, List.mem_append, List.mem_singleton] at held
    rcases held with held | rfl
    · exact serial.publish operation held
    · exact publishes
  · rw [answered, Operation.answers_append, ← serial.answers, Shared.leave, List.map_append]
    exact congrArg (_ ++ [·]) answer.symm

theorem step (serial : shared.IsSerial) (step : Step shared next) : next.IsSerial := by
  cases step with
  | still => exact serial
  | asked idle _ => exact serial.enter (by rw [idle]; trivial) trivial
  | turned => exact ⟨serial.free, serial.held, serial.outside, serial.publish, serial.answers⟩
  | looked waiting =>
      have entered : IsSerial (shared.enter _ .idle) :=
        serial.enter (by rw [waiting]; trivial) trivial
      exact ⟨entered.free, entered.held, entered.outside, entered.publish, entered.answers⟩
  | acquired waiting free publishes => exact serial.acquire waiting free publishes
  | loaded locked =>
      obtain ⟨holder, operation, publishes, order, rfl, current, published⟩ :=
        serial.works id locked
      exact serial.advance holder publishes order ⟨rfl, current, current, published⟩
  | applied loaded =>
      obtain ⟨holder, operation, publishes, order, rfl, rfl, current, published⟩ :=
        serial.works id loaded
      exact serial.advance holder publishes order ⟨rfl, rfl, current, published⟩
  | published applied =>
      obtain ⟨holder, operation, publishes, order, rfl, result, current, published⟩ :=
        serial.works id applied
      exact serial.advance holder publishes order
        ⟨rfl, result.symm, congrArg (· ++ _) published⟩
  | @refused writer operation refusal applied =>
      obtain ⟨holder, _, publishes, order, rfl, result, current, published⟩ :=
        serial.works id applied
      refine serial.leave holder publishes order ?_ ?_ ?_
      · rw [← result]
        rfl
      · rw [current, Operation.apply_of_refusal result.symm]
      · rw [published, Operation.editions, Operation.outcome_of_refusal result.symm]
        exact (List.append_nil _).symm
  | released published =>
      obtain ⟨holder, operation, publishes, order, rfl, result, published⟩ :=
        serial.works id published
      refine serial.leave holder publishes order ?_ ?_ ?_
      · rw [result]
        rfl
      · rw [Operation.apply_of_answer result]
      · rw [published, Operation.editions, Operation.outcome_of_answer result]
        rfl
  | read => exact ⟨serial.free, serial.held, serial.outside, serial.publish, serial.answers⟩
  | evaluated => exact ⟨serial.free, serial.held, serial.outside, serial.publish, serial.answers⟩

end IsSerial

/-- Whatever came of an operation, the writer gives the lock back with it. -/
theorem release_of_applied {start : Shared World}
    {result : Except Refusal (Answer Unit × RuleGraph)}
    (applied : shared.stages = Function.update start.stages writer (.applied operation result)) :
    let after := (shared.publish writer).release writer
    after.holder = none ∧ after.stages = Function.update start.stages writer .idle := by
  cases result <;> simp [publish, release, Shared.enter, leave, applied]

theorem IsSerial.completes (serial : shared.IsSerial) (holder : shared.holder = some writer) :
    let after := (completion writer).foldl Shared.step shared
    after.holder = none ∧ after.stages = Function.update shared.stages writer .idle := by
  intro after
  obtain ⟨_, _, _, works⟩ := serial.held writer holder
  let ready := (shared.load writer).apply writer
  cases stage : shared.stages writer with
  | idle | waiting =>
      rw [stage] at works
      exact works.elim
  | locked operation =>
      have applied : ready.stages = Function.update shared.stages writer
          (.applied operation (operation.perform shared.current)) := by
        simp [ready, load, Shared.apply, Shared.enter, stage]
      exact release_of_applied applied
  | loaded operation copy =>
      have applied : ready.stages = Function.update shared.stages writer
          (.applied operation (operation.perform copy)) := by
        simp [ready, load, Shared.apply, Shared.enter, stage]
      exact release_of_applied applied
  | applied operation result =>
      have applied : ready.stages = Function.update shared.stages writer
          (.applied operation result) := by
        rw [← stage, Function.update_eq_self]
        simp [ready, load, Shared.apply, stage]
      exact release_of_applied applied
  | published operation answer =>
      simp [after, completion, Shared.step, load, Shared.apply, Shared.publish, release,
        Shared.enter, Shared.leave, stage]

/-- All operations that have taken effect: those that were answered, and that of the writer at
work if it has published already. -/
theorem IsSerial.settled (serial : shared.IsSerial) : ∃ settled : List Operation,
    shared.answered <+: settled ∧ settled <+: shared.order.map (·.2) ∧
      (∀ operation ∈ settled, operation.publishes = true) ∧
      shared.published = {} :: Operation.editions settled {} ∧
      shared.current = Operation.run settled {} := by
  have answered : shared.turns.map (·.2) = shared.answered := by
    rw [turns, Shared.answered, List.map_map]
    rfl
  cases holder : shared.holder with
  | none =>
      obtain ⟨order, current, published⟩ := serial.free holder
      rw [order, answered]
      exact ⟨_, List.prefix_rfl, List.prefix_rfl, serial.publish, published, current⟩
  | some writer =>
      obtain ⟨operation, publishes, order, works⟩ := serial.held writer holder
      rw [order, List.map_append, answered]
      -- What the writer at work has published counts, though it has not been answered yet.
      rcases works.effect with ⟨current, published⟩ | ⟨answer, done, published⟩
      · exact ⟨_, List.prefix_rfl, List.prefix_append _ _, serial.publish, published, current⟩
      · refine ⟨_, List.prefix_append _ _, List.prefix_rfl, ?_, ?_, ?_⟩
        · intro other held
          rcases List.mem_append.mp held with held | last
          · exact serial.publish other held
          · rw [List.mem_singleton.mp last]
            exact publishes
        · have edition : Operation.editions [operation] shared.base = [shared.current] := by
            rw [Operation.editions, Operation.outcome_of_answer done]
            rfl
          rw [published, ← edition, editions, List.cons_append]
          exact congrArg _ (Operation.editions_append _ _ _).symm
        · rw [Operation.run_append]
          exact (Operation.apply_of_answer done).symm

/-! Readers -/

/-- An operation that was answered without the lock, as it might have been by this graph. -/
structure IsAside (reply : Reply) (graph : RuleGraph) : Prop where
  answer : (reply.operation.perform graph).map (·.1) = reply.answer
  without : reply.operation.apply graph = graph

theorem IsAside.turned {refusal : Refusal} (screened : operation.screen = .error refusal)
    (graph : RuleGraph) : IsAside ⟨writer, operation, .error refusal⟩ graph := by
  have refused : operation.perform graph = .error refusal := by
    have outcome := Operation.outcome_of_screen screened graph
    rw [← Operation.perform_outcome] at outcome
    cases done : operation.perform graph with
    | ok reached => rw [done] at outcome; cases outcome
    | error other => rw [done] at outcome; cases outcome; rfl
  exact ⟨by rw [refused]; rfl, Operation.apply_of_refusal refused⟩

theorem IsAside.looked (silent : operation.publishes = false) (graph : RuleGraph) :
    IsAside ⟨writer, operation, (operation.perform graph).map (·.1)⟩ graph := by
  refine ⟨rfl, ?_⟩
  change operation.apply graph = graph
  rw [Operation.apply]
  cases done : operation.outcome graph with
  | ok next =>
      have same := Operation.outcome_published done
      rw [silent] at same
      exact same
  | error refusal => rfl

/-- Readers see what was published, and do not go back to older versions. -/
structure IsSeen (shared : Shared World) : Prop where
  last : shared.current ∈ shared.published
  loads : ∀ load ∈ shared.loads,
    load.2 ∈ shared.published ∧ load.2.version ≤ shared.current.version
  ordered : shared.loads.Pairwise fun earlier later => earlier.2.version ≤ later.2.version
  snapshots : ∀ reader graph, shared.snapshots reader = some graph → (reader, graph) ∈ shared.loads
  passes : ∀ pass ∈ shared.passes, ∃ graph, (pass.reader, graph) ∈ shared.loads ∧
    pass.records = (pass.evaluator.evaluate graph pass.event pass.progress).1
  asides : ∀ reply ∈ shared.asides, ∃ graph ∈ shared.published, IsAside reply graph

namespace IsSeen

theorem start : IsSeen ({} : Shared World) where
  last := List.mem_singleton.mpr rfl
  loads _ held := nomatch held
  ordered := .nil
  snapshots _ _ held := nomatch held
  passes _ held := nomatch held
  asides _ held := nomatch held

theorem aside (seen : shared.IsSeen) (answered : IsAside reply shared.current) :
    ∀ other ∈ shared.asides ++ [reply], ∃ graph ∈ shared.published, IsAside other graph := by
  intro other held
  rcases List.mem_append.mp held with held | new
  · exact seen.asides other held
  · rw [List.mem_singleton.mp new]
    exact ⟨shared.current, seen.last, answered⟩

theorem publish (seen : shared.IsSeen) {graph : RuleGraph}
    (newer : shared.current.version ≤ graph.version) :
    IsSeen { shared.enter writer stage with
      current := graph, published := shared.published ++ [graph] } where
  last := List.mem_append_right _ (List.mem_singleton.mpr rfl)
  loads load held := by
    obtain ⟨published, older⟩ := seen.loads load held
    exact ⟨List.mem_append_left _ published, Nat.le_trans older newer⟩
  ordered := seen.ordered
  snapshots := seen.snapshots
  passes := seen.passes
  asides reply held := by
    obtain ⟨other, published, answered⟩ := seen.asides reply held
    exact ⟨other, List.mem_append_left _ published, answered⟩

theorem read (seen : shared.IsSeen) (reader : Nat) : (shared.read reader).IsSeen where
  last := seen.last
  loads load held := by
    rcases List.mem_append.mp held with held | new
    · exact seen.loads load held
    · rw [List.mem_singleton.mp new]
      exact ⟨seen.last, Nat.le_refl _⟩
  ordered := by
    refine List.pairwise_append.mpr ⟨seen.ordered, List.pairwise_singleton _ _, ?_⟩
    intro earlier held later new
    rw [List.mem_singleton.mp new]
    exact (seen.loads earlier held).2
  snapshots other graph held := by
    change Function.update shared.snapshots reader (some shared.current) other = some graph at held
    by_cases same : other = reader
    · rw [same, Function.update_self] at held
      cases held
      exact List.mem_append_right _ (List.mem_singleton.mpr (by rw [same]))
    · rw [Function.update_of_ne same] at held
      exact List.mem_append_left _ (seen.snapshots other graph held)
  passes pass held := by
    obtain ⟨graph, loaded, records⟩ := seen.passes pass held
    exact ⟨graph, List.mem_append_left _ loaded, records⟩
  asides := seen.asides

theorem evaluated (seen : shared.IsSeen) {reader : Nat} {graph : RuleGraph}
    (loaded : shared.snapshots reader = some graph) (evaluator : Evaluator World) (event : Event)
    (progress : Progress World) :
    ∀ pass ∈ shared.passes ++
        [⟨reader, evaluator, event, progress, (evaluator.evaluate graph event progress).1⟩],
      ∃ graph, (pass.reader, graph) ∈ shared.loads ∧
        pass.records = (pass.evaluator.evaluate graph pass.event pass.progress).1 := by
  intro pass held
  rcases List.mem_append.mp held with held | new
  · exact seen.passes pass held
  · rw [List.mem_singleton.mp new]
    exact ⟨graph, seen.snapshots reader graph loaded, rfl⟩

theorem step (seen : shared.IsSeen) (serial : shared.IsSerial) (step : Step shared next) :
    next.IsSeen := by
  have ⟨last, loads, ordered, snapshots, passes, asides⟩ := seen
  cases step with
  | still => exact seen
  | asked | acquired | loaded | applied | refused | released =>
      exact ⟨last, loads, ordered, snapshots, passes, asides⟩
  | turned screened =>
      exact ⟨last, loads, ordered, snapshots, passes, seen.aside (.turned screened _)⟩
  | looked _ silent =>
      exact ⟨last, loads, ordered, snapshots, passes, seen.aside (.looked silent _)⟩
  | published applied =>
      -- The copy is still the current graph: it was loaded under the lock.
      obtain ⟨_, operation, publishes, _, rfl, result, current, _⟩ := serial.works id applied
      have older := Operation.outcome_published (Operation.outcome_of_answer result.symm)
      rw [publishes, if_pos rfl, ← current] at older
      exact seen.publish (by omega)
  | read reader => exact seen.read reader
  | evaluated evaluator event progress loaded =>
      exact ⟨last, loads, ordered, snapshots, seen.evaluated loaded evaluator event progress,
        asides⟩

end IsSeen

/-! All together -/

/-- Nothing that was recorded is taken back. -/
structure Grows (shared next : Shared World) : Prop where
  order : shared.order <+: next.order
  replies : shared.replies <+: next.replies
  published : shared.published <+: next.published
  loads : shared.loads <+: next.loads

theorem Grows.refl (shared : Shared World) : shared.Grows shared :=
  ⟨List.prefix_rfl, List.prefix_rfl, List.prefix_rfl, List.prefix_rfl⟩

theorem Grows.trans {last : Shared World} (first : shared.Grows next) (second : next.Grows last) :
    shared.Grows last :=
  ⟨first.order.trans second.order, first.replies.trans second.replies,
    first.published.trans second.published, first.loads.trans second.loads⟩

theorem Step.grows (step : Step shared next) : shared.Grows next := by
  have ⟨order, replies, graphs, loads⟩ := Grows.refl shared
  cases step with
  | still | asked | turned | looked | loaded | applied | evaluated =>
      exact ⟨order, replies, graphs, loads⟩
  | acquired => exact ⟨List.prefix_append _ _, replies, graphs, loads⟩
  | published => exact ⟨order, replies, List.prefix_append _ _, loads⟩
  | refused | released => exact ⟨order, List.prefix_append _ _, graphs, loads⟩
  | read => exact ⟨order, replies, graphs, List.prefix_append _ _⟩

theorem run_append (moves later : List (Move World)) :
    run (moves ++ later) = later.foldl Shared.step (run moves) :=
  List.foldl_append

theorem run_grows (moves later : List (Move World)) : (run moves).Grows (run (moves ++ later)) := by
  rw [run_append]
  generalize run moves = shared
  induction later generalizing shared with
  | nil => exact .refl shared
  | cons move rest ih => exact (step_cases shared move).grows.trans (ih _)

/-- The writers' operations came one after the other in the order of the lock, and readers saw one
of the graphs in between. -/
structure IsLinearizable (shared : Shared World) : Prop where
  /-- Of all that got the lock, at most the last one has not been answered. -/
  turns : ∃ pending, shared.order = shared.turns ++ pending ∧
    pending.map (·.1) = shared.holder.toList
  answers : shared.replies.map (·.answer) = Operation.answers shared.answered {}
  /-- The published graphs are those of the operations in this order, and none is left out that
  was answered. -/
  published : ∃ settled, shared.answered <+: settled ∧ settled <+: shared.order.map (·.2) ∧
    shared.published = {} :: Operation.editions settled {} ∧
    shared.current = Operation.run settled {}
  versions : shared.published.map (·.version) = List.range shared.published.length
  /-- Each success counts for one version. -/
  successes : shared.replies.countP (·.answer.isOk) ≤ shared.current.version ∧
    (shared.holder = none →
      shared.current.version = shared.replies.countP (·.answer.isOk))
  loads : ∀ load ∈ shared.loads, load.2 ∈ shared.published
  ordered : shared.loads.Pairwise fun earlier later => earlier.2.version ≤ later.2.version
  passes : ∀ pass ∈ shared.passes, ∃ graph ∈ shared.published,
    (pass.reader, graph) ∈ shared.loads ∧
      pass.records = (pass.evaluator.evaluate graph pass.event pass.progress).1
  asides : ∀ reply ∈ shared.asides, ∃ graph ∈ shared.published, IsAside reply graph

theorem IsSerial.turns (serial : shared.IsSerial) : ∃ pending,
    shared.order = shared.turns ++ pending ∧ pending.map (·.1) = shared.holder.toList := by
  cases holder : shared.holder with
  | none => exact ⟨[], by rw [(serial.free holder).1, List.append_nil], rfl⟩
  | some writer =>
      obtain ⟨operation, _, order, _⟩ := serial.held writer holder
      exact ⟨[(writer, operation)], order, rfl⟩

theorem IsSerial.versions (serial : shared.IsSerial) :
    shared.published.map (·.version) = List.range shared.published.length := by
  obtain ⟨settled, _, _, publish, published, _⟩ := serial.settled
  rw [published, Operation.editions_versions publish, List.length_cons, List.range_eq_range']

theorem IsSerial.successes (serial : shared.IsSerial) :
    shared.replies.countP (·.answer.isOk) ≤ shared.current.version ∧
      (shared.holder = none →
        shared.current.version = shared.replies.countP (·.answer.isOk)) := by
  have counted : shared.replies.countP (·.answer.isOk) =
      (Operation.editions shared.answered {}).length := by
    rw [Operation.editions_length, ← serial.answers, List.countP_map]
    rfl
  have version {operations : List Operation}
      (publish : ∀ operation ∈ operations, operation.publishes = true) :
      (Operation.run operations {}).version = (Operation.editions operations {}).length := by
    rw [Operation.run_version publish]
    exact Nat.zero_add _
  rw [counted]
  constructor
  · obtain ⟨settled, ⟨rest, rfl⟩, _, publish, _, current⟩ := serial.settled
    rw [current, version publish, Operation.editions_append, List.length_append]
    exact Nat.le_add_right _ _
  · intro free
    rw [(serial.free free).2.1, base, version serial.publish]

/-- Whatever has happened, a writer that is idle can have its operation done, once the one with the
lock has given it back. -/
theorem run_writes (moves : List (Move World)) (serial : (run moves).IsSerial)
    (idle : (run moves).stages writer = .idle) (fine : operation.screen = .ok ())
    (publishes : operation.publishes = true) :
    ∃ between, ((run moves).holder = none → between = []) ∧
      (run (moves ++ between)).holder = none ∧
      IsWritten writer operation (run (moves ++ between))
        (run (moves ++ between ++ writing writer operation)) := by
  cases holder : (run moves).holder with
  | none =>
      refine ⟨[], fun _ => rfl, ?_, ?_⟩
      · rw [List.append_nil, holder]
      · rw [run_append (moves ++ []), List.append_nil]
        exact writing_isWritten idle holder fine publishes
  | some other =>
      obtain ⟨free, stages⟩ := serial.completes holder
      rw [← run_append] at free stages
      have differs : writer ≠ other := by
        rintro rfl
        exact serial.notHeld (by rw [idle]; trivial) holder
      refine ⟨completion other, nofun, free, ?_⟩
      rw [run_append (moves ++ completion other)]
      refine writing_isWritten ?_ free fine publishes
      rw [stages, Function.update_of_ne differs, idle]

/-- However writers and readers take their turns, what they do is linearizable, and nothing is
taken back later on. Nor does anyone keep an idle writer from having its operation done. -/
theorem run_linearizable (moves : List (Move World)) :
    (run moves).IsLinearizable ∧ (∀ later, (run moves).Grows (run (moves ++ later))) ∧
      ∀ writer operation, (run moves).stages writer = .idle → operation.screen = .ok () →
        operation.publishes = true →
        ∃ between, ((run moves).holder = none → between = []) ∧
          (run (moves ++ between)).holder = none ∧
          IsWritten writer operation (run (moves ++ between))
            (run (moves ++ between ++ writing writer operation)) := by
  let both (shared : Shared World) : Prop := shared.IsSerial ∧ shared.IsSeen
  have start : both {} := ⟨.start, .start⟩
  have keeps (shared next : Shared World) (holds : both shared) (step : Step shared next) :
      both next := ⟨holds.1.step step, holds.2.step holds.1 step⟩
  obtain ⟨serial, seen⟩ := run_induction start keeps moves
  obtain ⟨settled, answered, ordered, _, published, current⟩ := serial.settled
  refine ⟨⟨serial.turns, serial.answers, ⟨settled, answered, ordered, published, current⟩,
    serial.versions, serial.successes, fun load held => (seen.loads load held).1, seen.ordered,
    ?_, seen.asides⟩, run_grows moves, fun _ _ => run_writes moves serial⟩
  intro pass held
  obtain ⟨graph, loaded, records⟩ := seen.passes pass held
  exact ⟨graph, (seen.loads _ loaded).1, loaded, records⟩

/-- The second writer asks for the lock, and for the rules, before the first one is done. -/
example :
    let hot : Operation := .createRule (fun _ => .ok ()) ⟨1⟩ ⟨0, 0⟩ ⟨"hot", "true", 0, true⟩
    let shared : Shared Unit := run [.ask 0 hot, .ask 1 (.deleteRule ⟨1⟩), .acquire 0, .acquire 1,
      .load 0, .load 1, .apply 0, .read 2, .publish 0, .read 2, .release 0, .acquire 1, .load 1,
      .apply 1, .publish 1, .release 1, .read 2]
    shared.order.map (·.1) = [0, 1] ∧ shared.loads.map (·.2.version) = [0, 1, 2] := by
  decide +kernel

end Shared

end Rulebook
