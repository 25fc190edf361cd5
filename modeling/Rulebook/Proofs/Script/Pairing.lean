import Rulebook.Script.Library
import Rulebook.Script.Machine

/-!
Two runs side by side. Their hosts may answer differently, and their time may be different, but
as long as neither is lost for comparison and neither runs out of time, they do the same.
-/

namespace Rulebook.Script

variable {Left Right α β : Type}

def machineOf : EStateM.Result Interrupt (Machine Left) α → Machine Left
  | .ok _ machine | .error _ machine => machine

def continued (rest : α → Run Left β) (setup : Setup Left) :
    EStateM.Result Interrupt (Machine Left) α → EStateM.Result Interrupt (Machine Left) β
  | .ok value machine => rest value setup machine
  | .error interrupt machine => .error interrupt machine

theorem bind_apply (part : Run Left α) (rest : α → Run Left β) (setup : Setup Left)
    (machine : Machine Left) :
    (part >>= rest) setup machine = continued rest setup (part setup machine) := by
  simp only [bind, ReaderT.bind, EStateM.bind]
  cases part setup machine <;> rfl

def handled (handler : Interrupt → Run Left α) (setup : Setup Left) :
    EStateM.Result Interrupt (Machine Left) α → EStateM.Result Interrupt (Machine Left) α
  | .ok value machine => .ok value machine
  | .error interrupt machine => handler interrupt setup machine

theorem tryCatch_apply (part : Run Left α) (handler : Interrupt → Run Left α)
    (setup : Setup Left) (machine : Machine Left) :
    (tryCatch part handler) setup machine = handled handler setup (part setup machine) := by
  change EStateM.tryCatch (part setup) (fun interrupt => handler interrupt setup) machine = _
  delta EStateM.tryCatch
  cases part setup machine <;> rfl

def ofHost (call : Left → β × Left) : Run Left β := fun _ machine =>
  .ok (call machine.host).1 { machine with host := (call machine.host).2 }

def KeepsHost (property : Left → Prop) (setup : Setup Left) (part : Run Left α) : Prop :=
  ∀ machine, property machine.host → property (machineOf (part setup machine)).host

namespace KeepsHost

variable {property : Left → Prop} {setup : Setup Left}

theorem continued {rest : α → Run Left β} (next : ∀ value, KeepsHost property setup (rest value))
    (result : EStateM.Result Interrupt (Machine Left) α)
    (holds : property (machineOf result).host) :
    property (machineOf (continued rest setup result)).host := by
  cases result with
  | ok value after => exact next value after holds
  | error interrupt after => exact holds

theorem bind {part : Run Left α} {rest : α → Run Left β} (start : KeepsHost property setup part)
    (next : ∀ value, KeepsHost property setup (rest value)) :
    KeepsHost property setup (part >>= rest) := by
  intro machine holds
  rw [bind_apply]
  exact continued next _ (start machine holds)

theorem handled {handler : Interrupt → Run Left α}
    (next : ∀ interrupt, KeepsHost property setup (handler interrupt))
    (result : EStateM.Result Interrupt (Machine Left) α)
    (holds : property (machineOf result).host) :
    property (machineOf (handled handler setup result)).host := by
  cases result with
  | ok value after => exact holds
  | error interrupt after => exact next interrupt after holds

theorem tryCatch {part : Run Left α} {handler : Interrupt → Run Left α}
    (start : KeepsHost property setup part)
    (next : ∀ interrupt, KeepsHost property setup (handler interrupt)) :
    KeepsHost property setup (MonadExcept.tryCatch part handler) := by
  intro machine holds
  rw [tryCatch_apply]
  exact handled next _ (start machine holds)

end KeepsHost

/-- Two hosts are asked for the same, with states that may be alike or lost. -/
structure HostStep (kin : Left → Right → Prop) (lostLeft : Left → Prop) (lostRight : Right → Prop)
    (first : Left → β × Left) (second : Right → β × Right) : Prop where
  agree : ∀ left right, kin left right →
    lostLeft (first left).2 ∨ lostRight (second right).2 ∨
      ((first left).1 = (second right).1 ∧ kin (first left).2 (second right).2)
  left : ∀ left, lostLeft left → lostLeft (first left).2
  right : ∀ right, lostRight right → lostRight (second right).2

/-- Two setups with their hosts compared: which states of the hosts are alike, and which are such
that a run is lost for comparison from then on. -/
structure Pairing (Left Right : Type) where
  left : Setup Left
  right : Setup Right
  kin : Left → Right → Prop
  lostLeft : Left → Prop
  lostRight : Right → Prop
  someLeft : Nonempty Left
  someRight : Nonempty Right
  functions : right.functions = left.functions
  limits : right.limits = { left.limits with timeout := right.limits.timeout }
  print : ∀ text, HostStep kin lostLeft lostRight
    (fun state => ((), left.host.print text state)) fun state => ((), right.host.print text state)
  debug : ∀ text, HostStep kin lostLeft lostRight
    (fun state => ((), left.host.debug text state)) fun state => ((), right.host.debug text state)
  missing : ∀ name arguments, left.host.function? name arguments = none ↔
    right.host.function? name arguments = none
  function : ∀ name arguments first second, left.host.function? name arguments = some first →
    right.host.function? name arguments = some second →
      HostStep kin lostLeft lostRight first second

namespace Pairing

variable (pairing : Pairing Left Right)

/-- Machines that differ in nothing but the states of their hosts, which are alike. -/
inductive Machines : Machine Left → Machine Right → Prop where
  | alike {scope : List Variable} {cells : Array Cell} {globals : List (String × Value)}
      {receiver : Option Receiver} {operations level : Nat} {left : Left} {right : Right} :
      pairing.kin left right →
      Machines ⟨scope, cells, globals, receiver, operations, level, left⟩
        ⟨scope, cells, globals, receiver, operations, level, right⟩

/-- Whether one of the runs has less time than the other one. -/
def IsTimed : Prop :=
  pairing.left.limits.timeout ≠ pairing.right.limits.timeout

/-- Parts of two runs ended in the same way, unless there is nothing to say of one of them. -/
inductive Results : EStateM.Result Interrupt (Machine Left) α →
    EStateM.Result Interrupt (Machine Right) α → Prop where
  | lostLeft {first : EStateM.Result Interrupt (Machine Left) α}
      {second : EStateM.Result Interrupt (Machine Right) α} :
      pairing.lostLeft (machineOf first).host → Results first second
  | lostRight {first : EStateM.Result Interrupt (Machine Left) α}
      {second : EStateM.Result Interrupt (Machine Right) α} :
      pairing.lostRight (machineOf second).host → Results first second
  | timedLeft {machine : Machine Left} {second : EStateM.Result Interrupt (Machine Right) α} :
      pairing.IsTimed → Results (.error .timedOut machine) second
  | timedRight {first : EStateM.Result Interrupt (Machine Left) α} {machine : Machine Right} :
      pairing.IsTimed → Results first (.error .timedOut machine)
  | ok {value : α} {first : Machine Left} {second : Machine Right} :
      pairing.Machines first second → Results (.ok value first) (.ok value second)
  | error {interrupt : Interrupt} {first : Machine Left} {second : Machine Right} :
      pairing.Machines first second → Results (.error interrupt first) (.error interrupt second)

/-- Two parts of runs do the same on machines that are alike, and a run that is lost stays so. -/
structure Alike (first : Run Left α) (second : Run Right α) : Prop where
  agree : ∀ left right, pairing.Machines left right →
    pairing.Results (first pairing.left left) (second pairing.right right)
  left : KeepsHost pairing.lostLeft pairing.left first
  right : KeepsHost pairing.lostRight pairing.right second

variable {pairing}

namespace Alike

theorem pure (value : α) : pairing.Alike (Pure.pure value) (Pure.pure value) :=
  ⟨fun _ _ alike => .ok alike, fun _ lost => lost, fun _ lost => lost⟩

theorem throw (interrupt : Interrupt) :
    pairing.Alike (MonadExcept.throw interrupt : Run Left α) (MonadExcept.throw interrupt) :=
  ⟨fun _ _ alike => .error alike, fun _ lost => lost, fun _ lost => lost⟩

theorem bind {first : Run Left α} {second : Run Right α} {rest : α → Run Left β}
    {others : α → Run Right β} (start : pairing.Alike first second)
    (next : ∀ value, pairing.Alike (rest value) (others value)) :
    pairing.Alike (first >>= rest) (second >>= others) := by
  refine ⟨?_, start.left.bind fun value => (next value).left,
    start.right.bind fun value => (next value).right⟩
  intro left right alike
  have result := start.agree left right alike
  rw [bind_apply, bind_apply]
  generalize first pairing.left left = ended at result ⊢
  generalize second pairing.right right = finished at result ⊢
  cases result with
  | lostLeft lost => exact .lostLeft (KeepsHost.continued (fun value => (next value).left) _ lost)
  | lostRight lost =>
      exact .lostRight (KeepsHost.continued (fun value => (next value).right) _ lost)
  | timedLeft timed => exact .timedLeft timed
  | timedRight timed => exact .timedRight timed
  | ok alike => exact (next _).agree _ _ alike
  | error alike => exact .error alike

/-- Handlers that do the same, and hand on when there is no time left. -/
theorem tryCatch {first : Run Left α} {second : Run Right α} {handler : Interrupt → Run Left α}
    {other : Interrupt → Run Right α} (start : pairing.Alike first second)
    (next : ∀ interrupt, pairing.Alike (handler interrupt) (other interrupt))
    (timeLeft : ∀ machine, ∃ after, handler .timedOut pairing.left machine = .error .timedOut after)
    (timeRight : ∀ machine, ∃ after,
      other .timedOut pairing.right machine = .error .timedOut after) :
    pairing.Alike (MonadExcept.tryCatch first handler) (MonadExcept.tryCatch second other) := by
  refine ⟨?_, start.left.tryCatch fun interrupt => (next interrupt).left,
    start.right.tryCatch fun interrupt => (next interrupt).right⟩
  intro left right alike
  have result := start.agree left right alike
  rw [tryCatch_apply, tryCatch_apply]
  generalize first pairing.left left = ended at result ⊢
  generalize second pairing.right right = finished at result ⊢
  cases result with
  | lostLeft lost =>
      exact .lostLeft (KeepsHost.handled (fun interrupt => (next interrupt).left) _ lost)
  | lostRight lost =>
      exact .lostRight (KeepsHost.handled (fun interrupt => (next interrupt).right) _ lost)
  | @timedLeft machine _ timed =>
      obtain ⟨after, timedOut⟩ := timeLeft machine
      change pairing.Results (handler .timedOut pairing.left machine) _
      rw [timedOut]
      exact .timedLeft timed
  | @timedRight _ machine timed =>
      obtain ⟨after, timedOut⟩ := timeRight machine
      change pairing.Results _ (other .timedOut pairing.right machine)
      rw [timedOut]
      exact .timedRight timed
  | ok alike => exact .ok alike
  | error alike => exact (next _).agree _ _ alike

theorem placing {first : Run Left α} {second : Run Right α} (place : Position)
    (start : pairing.Alike first second) :
    pairing.Alike (Run.placing place first) (Run.placing place second) := by
  constructor
  · intro left right alike
    have result := start.agree left right alike
    unfold Run.placing
    generalize first pairing.left left = ended at result ⊢
    generalize second pairing.right right = finished at result ⊢
    cases result with
    | lostLeft lost =>
        apply Results.lostLeft
        cases ended <;> exact lost
    | lostRight lost =>
        apply Results.lostRight
        cases finished <;> exact lost
    | timedLeft timed => exact .timedLeft timed
    | timedRight timed => exact .timedRight timed
    | ok alike => exact .ok alike
    | error alike => exact .error alike
  · intro machine lost
    have kept := start.left machine lost
    unfold Run.placing
    generalize first pairing.left machine = ended at kept ⊢
    cases ended <;> exact kept
  · intro machine lost
    have kept := start.right machine lost
    unfold Run.placing
    generalize second pairing.right machine = ended at kept ⊢
    cases ended <;> exact kept

/-! Lists -/

theorem mapM {first : α → Run Left β} {second : α → Run Right β} (items : List α)
    (each : ∀ item, pairing.Alike (first item) (second item)) :
    pairing.Alike (items.mapM first) (items.mapM second) := by
  induction items with
  | nil => exact pure []
  | cons item rest ih =>
      rw [List.mapM_cons, List.mapM_cons]
      exact (each item).bind fun value => ih.bind fun values => pure (value :: values)

theorem foldlM {first : β → α → Run Left β} {second : β → α → Run Right β} (items : List α)
    (each : ∀ value item, pairing.Alike (first value item) (second value item)) (start : β) :
    pairing.Alike (items.foldlM first start) (items.foldlM second start) := by
  induction items generalizing start with
  | nil => exact pure start
  | cons item rest ih =>
      rw [List.foldlM_cons, List.foldlM_cons]
      exact (each start item).bind ih

theorem allM {first : α → Run Left Bool} {second : α → Run Right Bool} (items : List α)
    (each : ∀ item, pairing.Alike (first item) (second item)) :
    pairing.Alike (items.allM first) (items.allM second) := by
  induction items with
  | nil => exact pure true
  | cons item rest ih =>
      refine (each item).bind fun holds => ?_
      cases holds with
      | false => exact pure false
      | true => exact ih

/-! Reading and changing machines -/

theorem withSetup {first : Setup Left → Run Left α} {second : Setup Right → Run Right α}
    (same : pairing.Alike (first pairing.left) (second pairing.right)) :
    pairing.Alike (read >>= first) (read >>= second) :=
  ⟨same.agree, same.left, same.right⟩

/-- What goes by machines may go by all but the states of their hosts. -/
theorem withMachine {first : Machine Left → Run Left α}
    {second : Machine Right → Run Right α}
    (same : ∀ scope cells globals receiver operations level left right,
      pairing.Alike (first ⟨scope, cells, globals, receiver, operations, level, left⟩)
        (second ⟨scope, cells, globals, receiver, operations, level, right⟩)) :
    pairing.Alike (get >>= first) (get >>= second) := by
  constructor
  · rintro _ _ ⟨kin⟩
    exact (same _ _ _ _ _ _ _ _).agree _ _ (.alike kin)
  · intro machine lost
    obtain ⟨other⟩ := pairing.someRight
    exact (same _ _ _ _ _ _ _ other).left machine lost
  · intro machine lost
    obtain ⟨other⟩ := pairing.someLeft
    exact (same _ _ _ _ _ _ other _).right machine lost

theorem change {first : Machine Left → Machine Left} {second : Machine Right → Machine Right}
    (same : ∀ left right, pairing.Machines left right →
      pairing.Machines (first left) (second right))
    (left : ∀ machine, (first machine).host = machine.host)
    (right : ∀ machine, (second machine).host = machine.host) :
    pairing.Alike (modify first) (modify second) := by
  refine ⟨fun _ _ alike => .ok (same _ _ alike), fun machine lost => ?_, fun machine lost => ?_⟩
  · change pairing.lostLeft (first machine).host
    rwa [left]
  · change pairing.lostRight (second machine).host
    rwa [right]

theorem host {first : Left → β × Left} {second : Right → β × Right}
    (step : HostStep pairing.kin pairing.lostLeft pairing.lostRight first second) :
    pairing.Alike (ofHost first) (ofHost second) := by
  refine ⟨?_, fun machine lost => step.left _ lost, fun machine lost => step.right _ lost⟩
  rintro _ _ ⟨kin⟩
  rcases step.agree _ _ kin with lost | lost | ⟨same, kept⟩
  · exact .lostLeft lost
  · exact .lostRight lost
  · simp only [ofHost, same]
    exact .ok (.alike kept)

/-! What runs are made of -/

theorem fail (problem : Problem) (place : Position) :
    pairing.Alike (Run.fail problem place : Run Left α) (Run.fail problem place) :=
  throw _

theorem lift (result : Except Interrupt α) :
    pairing.Alike (Run.lift result : Run Left α) (Run.lift result) := by
  cases result with
  | ok value => exact pure value
  | error interrupt => exact throw interrupt

theorem accept_eq (value : Value) :
    pairing.right.limits.accept value = pairing.left.limits.accept value := by
  rw [pairing.limits]
  rfl

theorem excess_eq (size : Value.Size) :
    pairing.right.limits.excess? size = pairing.left.limits.excess? size := by
  rw [pairing.limits]
  rfl

theorem admitted (value : Value) : pairing.Alike (Run.admitted value) (Run.admitted value) := by
  refine bind ?_ fun _ => pure value
  refine withSetup ?_
  rw [accept_eq]
  exact lift _

theorem timedLeft {second : Run Right α} (timed : pairing.IsTimed)
    (right : KeepsHost pairing.lostRight pairing.right second) :
    pairing.Alike (MonadExcept.throw .timedOut) second :=
  ⟨fun _ _ _ => .timedLeft timed, fun _ lost => lost, right⟩

theorem timedRight {first : Run Left α} (timed : pairing.IsTimed)
    (left : KeepsHost pairing.lostLeft pairing.left first) :
    pairing.Alike first (MonadExcept.throw .timedOut) :=
  ⟨fun _ _ _ => .timedRight timed, left, fun _ lost => lost⟩

theorem watchTime (count : Nat) :
    pairing.Alike
      (if count % clockInterval = 0 ∧ pairing.left.limits.timeout ≤ count * operationTime
        then MonadExcept.throw .timedOut else Pure.pure ())
      (if count % clockInterval = 0 ∧ pairing.right.limits.timeout ≤ count * operationTime
        then MonadExcept.throw .timedOut else Pure.pure ()) := by
  by_cases left : count % clockInterval = 0 ∧ pairing.left.limits.timeout ≤ count * operationTime
  · by_cases right :
        count % clockInterval = 0 ∧ pairing.right.limits.timeout ≤ count * operationTime
    · rw [if_pos left, if_pos right]
      exact throw _
    · rw [if_pos left, if_neg right]
      exact timedLeft (fun same => right (same ▸ left)) (pure ()).right
  · by_cases right :
        count % clockInterval = 0 ∧ pairing.right.limits.timeout ≤ count * operationTime
    · rw [if_neg left, if_pos right]
      exact timedRight (fun same => left (same ▸ right)) (pure ()).left
    · rw [if_neg left, if_neg right]
      exact pure ()

theorem tick : pairing.Alike Run.tick Run.tick := by
  have operations : pairing.right.limits.operations = pairing.left.limits.operations := by
    rw [pairing.limits]
  refine withSetup (withMachine fun scope cells globals receiver count level left right => ?_)
  refine bind (change ?_ (fun _ => rfl) fun _ => rfl) fun _ => ?_
  · rintro _ _ ⟨kin⟩
    exact .alike kin
  · rw [operations]
    split
    · exact throw _
    · exact watchTime _

/-- Loops of which each round does the same, and which may do different numbers of rounds only if
the runs have different times. -/
theorem rounds (loop : β → Nat → Run Left α) (other : β → Nat → Run Right α)
    (endLeft : ∀ start, loop start 0 = MonadExcept.throw .timedOut)
    (endRight : ∀ start, other start 0 = MonadExcept.throw .timedOut)
    (step : ∀ count others, (∀ start, pairing.Alike (loop start count) (other start others)) →
      ∀ start, pairing.Alike (loop start (count + 1)) (other start (others + 1)))
    (start : β) (count others : Nat) (timed : count ≠ others → pairing.IsTimed) :
    pairing.Alike (loop start count) (other start others) := by
  have same (count : Nat) : ∀ start, pairing.Alike (loop start count) (other start count) := by
    induction count with
    | zero =>
        intro start
        rw [endLeft, endRight]
        exact throw _
    | succ count ih => exact step count count ih
  induction count generalizing start others with
  | zero =>
      rw [endLeft]
      cases others with
      | zero =>
          rw [endRight]
          exact throw _
      | succ others => exact timedLeft (timed (by omega)) (same _ start).right
  | succ count ih =>
      cases others with
      | zero =>
          rw [endRight]
          exact timedRight (timed (by omega)) (same _ start).left
      | succ others => exact step count others (fun start =>
        ih start others fun different => timed (by omega)) start

theorem rounds_timed (different : pairing.left.limits.rounds ≠ pairing.right.limits.rounds) :
    pairing.IsTimed := by
  intro same
  apply different
  rw [pairing.limits, ← same]

end Alike

end Pairing

end Rulebook.Script
