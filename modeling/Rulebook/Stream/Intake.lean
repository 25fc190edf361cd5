import Rulebook.Stream

/-!
Events of a stream that are evaluated side by side. Lines are read one after the other, and each
event gets a task of its own as soon as there is a permit for it. In the end, whatever ended the
reading, tasks are waited for; which of them move when is left open.
-/

namespace Rulebook.Stream

/-- How far a task has come. Unless it is finished, it keeps its permit. -/
inductive Stage where
  | started
  | evaluated (records : List ExecutionRecord)
  /-- There is nothing to do any more but to give the permit back. -/
  | done
  | finished

structure Task where
  event : Event
  stage : Stage

def Task.isFinished (task : Task) : Bool :=
  match task.stage with
  | .finished => true
  | _ => false

structure Summary where
  accepted : Nat
  skipped : Nat
  deriving DecidableEq

structure Intake (World : Type) where
  engine : Engine World
  /-- How many tasks can have a permit at a time. -/
  permits : Nat
  /-- The lines that are still to come. -/
  unread : List (List UInt8)
  /-- An event that has no permit yet. -/
  waiting : Option Event := none
  /-- All tasks that were ever started; they go by their places. -/
  tasks : List Task := []
  /-- The tasks that are waited for in the end. -/
  handles : List Nat := []
  /-- What was handed over by which task. -/
  delivered : List (Nat × List ExecutionRecord) := []
  accepted : Nat := 0
  skipped : Nat := 0
  /-- How the reading came to its end. -/
  outcome : Option (Except Refusal Unit) := none

inductive Move (World : Type) where
  /-- Reads a line, or finds that there are no more. -/
  | read
  /-- Starts a task, and forgets those tasks that are noticed to be finished. -/
  | dispatch (noticed : List Nat)
  | evaluate (task : Nat)
  | deliver (task : Nat)
  | finish (task : Nat)
  /-- Stops reading. -/
  | shutdown
  /-- Something else happens to the engine. -/
  | meanwhile (change : Engine World → Engine World)

/-- How reading ends when there is nothing more to read. -/
def verdict (ending : Ending) : Except Refusal Unit :=
  match failure ending with
  | some refusal => .error refusal
  | none => .ok ()

variable {World : Type}

namespace Intake

def start (permits : Nat) (lines : List (List UInt8)) (engine : Engine World) : Intake World :=
  ⟨engine, permits, lines, none, [], [], [], 0, 0, none⟩

/-- Opens a stream, if there can be as many permits as the limit says. -/
def opened? (limit : Nat) (lines : List (List UInt8)) (engine : Engine World) :
    Option (Intake World) :=
  (permits? limit).map fun permits => start permits lines engine

def hasFinished (intake : Intake World) (task : Nat) : Bool :=
  intake.tasks[task]?.any Task.isFinished

/-- How many permits are taken. -/
def inFlight (intake : Intake World) : Nat :=
  intake.tasks.countP (!·.isFinished)

def readLine (line : List UInt8) (intake : Intake World) : Intake World :=
  match Content.ofBytes line with
  | .blank => intake
  | .malformed => { intake with skipped := intake.skipped + 1 }
  | .event payload =>
    let (event, engine) := (Engine.receive (eventIdOf payload) payload).run intake.engine
    { intake with engine, waiting := event.toOption }

def read (ending : Ending) (intake : Intake World) : Option (Intake World) :=
  if intake.outcome.isSome ∨ intake.waiting.isSome then none
  else match intake.unread, ending with
    | line :: unread, _ => some (readLine line { intake with unread })
    | [], .pending => none
    | [], _ => some { intake with outcome := some (verdict ending) }

def dispatch (noticed : List Nat) (intake : Intake World) : Option (Intake World) :=
  match intake.outcome, intake.waiting with
  | none, some event =>
    let remembered := intake.handles.filter fun task =>
      !(noticed.contains task && intake.hasFinished task)
    if intake.inFlight < intake.permits then
      some { intake with
        waiting := none
        tasks := intake.tasks ++ [⟨event, .started⟩]
        handles := remembered ++ [intake.tasks.length]
        accepted := intake.accepted + 1 }
    else none
  | _, _ => none

def place (task : Nat) (event : Event) (stage : Stage) (intake : Intake World) : Intake World :=
  { intake with tasks := intake.tasks.set task ⟨event, stage⟩ }

def evaluate (task : Nat) (intake : Intake World) : Option (Intake World) :=
  match intake.tasks[task]? with
  | some ⟨event, .started⟩ =>
    let (records, engine) := (Engine.evaluate event).run intake.engine
    let stage := match records with
      | .ok records => .evaluated records
      | .error _ => .done
    some (place task event stage { intake with engine })
  | _ => none

def deliver (task : Nat) (intake : Intake World) : Option (Intake World) :=
  match intake.tasks[task]? with
  | some ⟨event, .evaluated records⟩ =>
    some (place task event .done
      { intake with delivered := intake.delivered ++ [(task, records)] })
  | _ => none

def finish (task : Nat) (intake : Intake World) : Option (Intake World) :=
  match intake.tasks[task]? with
  | some ⟨event, .done⟩ => some (place task event .finished intake)
  | _ => none

def shutdown (intake : Intake World) : Option (Intake World) :=
  if intake.outcome.isSome then none
  else some { intake with waiting := none, outcome := some (.ok ()) }

def step (ending : Ending) : Move World → Intake World → Option (Intake World)
  | .read, intake => intake.read ending
  | .dispatch noticed, intake => intake.dispatch noticed
  | .evaluate task, intake => intake.evaluate task
  | .deliver task, intake => intake.deliver task
  | .finish task, intake => intake.finish task
  | .shutdown, intake => intake.shutdown
  | .meanwhile change, intake => some { intake with engine := change intake.engine }

def run (ending : Ending) (moves : List (Move World)) (intake : Intake World) :
    Option (Intake World) :=
  moves.foldlM (fun intake move => intake.step ending move) intake

/-- What comes of a stream, once all tasks are finished that are waited for. -/
def result (intake : Intake World) : Option (Except Refusal Summary) :=
  if ∀ task ∈ intake.handles, intake.hasFinished task then
    intake.outcome.map fun outcome => outcome.map fun _ => ⟨intake.accepted, intake.skipped⟩
  else none

end Intake

end Rulebook.Stream
