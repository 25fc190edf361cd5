import Mathlib.Data.List.Perm.Basic
import Rulebook.Proofs.Stream.Intake

/-!
Each event of a stream is evaluated once by its task, and what it comes to is handed over once,
before the task is finished.
-/

namespace Rulebook.Stream.Intake

variable {World : Type}

/-- What a task has handed over. -/
def handedBy (intake : Intake World) (task : Nat) : List (List ExecutionRecord) :=
  (intake.delivered.filter (·.1 = task)).map (·.2)

theorem handedBy_concat (intake : Intake World) (task other : Nat)
    (records : List ExecutionRecord) :
    handedBy { intake with delivered := intake.delivered ++ [(task, records)] } other =
      intake.handedBy other ++ if task = other then [records] else [] := by
  by_cases same : task = other <;> simp [handedBy, same]

/-! What has become of events -/

/-- Whether an event was read by some move. It has the identifier of its payload, or else one that
was fresh at that time. -/
def Received (ending : Ending) (start : Intake World) (moves : List (Move World))
    (event : Event) : Prop :=
  ∃ before after between, moves = before ++ .read :: after ∧
    start.run ending before = some between ∧
    event.id = (eventIdOf event.payload).getD
      (between.engine.evaluator.platform.fresh between.engine.world).1

/-- Whether a task evaluated its event by one of the moves only, and came to some records. -/
def EvaluatedOnce (ending : Ending) (start : Intake World)
    (moves : List (Move World)) (task : Nat) (event : Event) (records : List ExecutionRecord) :
    Prop :=
  ∃ before after between engine, moves = before ++ .evaluate task :: after ∧
    (∀ move ∈ before ++ after, move ≠ .evaluate task) ∧
    start.run ending before = some between ∧
    (Engine.evaluate event).run between.engine = (.ok records, engine)

variable {ending : Ending} {start : Intake World} {moves : List (Move World)}
  {move : Move World} {task : Nat} {event : Event} {records : List ExecutionRecord}

theorem Received.later (received : Received ending start moves event) (move : Move World) :
    Received ending start (moves ++ [move]) event := by
  obtain ⟨before, after, between, split, ran, identified⟩ := received
  exact ⟨before, after ++ [move], between, by simp [split], ran, identified⟩

theorem EvaluatedOnce.later
    (once : EvaluatedOnce ending start moves task event records)
    (other : move ≠ .evaluate task) :
    EvaluatedOnce ending start (moves ++ [move]) task event records := by
  obtain ⟨before, after, between, engine, split, others, ran, evaluated⟩ := once
  refine ⟨before, after ++ [move], between, engine, by simp [split], ?_, ran, evaluated⟩
  rw [← List.append_assoc, List.forall_mem_append, List.forall_mem_singleton]
  exact ⟨others, other⟩

/-- What there is to tell of a task at each stage. -/
def Told (ending : Ending) (start : Intake World) (moves : List (Move World))
    (task : Nat) (event : Event) (handed : List (List ExecutionRecord)) : Stage → Prop
  | .started => (∀ move ∈ moves, move ≠ .evaluate task) ∧ handed = []
  | .evaluated records =>
    EvaluatedOnce ending start moves task event records ∧ handed = []
  | .done | .finished =>
    ∃ records, EvaluatedOnce ending start moves task event records ∧ handed = [records]

theorem Told.later {handed : List (List ExecutionRecord)} {stage : Stage}
    (told : Told ending start moves task event handed stage)
    (other : move ≠ .evaluate task) :
    Told ending start (moves ++ [move]) task event handed stage := by
  cases stage with
  | started =>
      rw [Told, List.forall_mem_append, List.forall_mem_singleton]
      exact ⟨⟨told.1, other⟩, told.2⟩
  | evaluated records => exact ⟨told.1.later other, told.2⟩
  | done =>
      obtain ⟨records, once, handed⟩ := told
      exact ⟨records, once.later other, handed⟩
  | finished =>
      obtain ⟨records, once, handed⟩ := told
      exact ⟨records, once.later other, handed⟩

/-- What the moves so far tell of all events and tasks. -/
structure TellsAll (ending : Ending) (start : Intake World)
    (moves : List (Move World)) (intake : Intake World) : Prop where
  received : ∀ event ∈ intake.tasks.map (·.event) ++ intake.waiting.toList,
    Received ending start moves event
  told : ∀ task known, intake.tasks[task]? = some known →
    Told ending start moves task known.event (intake.handedBy task) known.stage
  unknown : ∀ task, intake.tasks.length ≤ task →
    (∀ move ∈ moves, move ≠ .evaluate task) ∧ intake.handedBy task = []

namespace TellsAll

variable {intake next : Intake World}

theorem fresh (permits : Nat) (lines : List (List UInt8)) (engine : Engine World) :
    TellsAll ending (.start permits lines engine) [] (.start permits lines engine) :=
  ⟨nofun, nofun, fun _ _ => ⟨nofun, rfl⟩⟩

/-- A move that leaves the tasks alone. -/
theorem still (tells : TellsAll ending start moves intake) (tasks : next.tasks = intake.tasks)
    (delivered : next.delivered = intake.delivered) (other : ∀ task, move ≠ .evaluate task)
    (waiting : ∀ event ∈ next.waiting,
      event ∈ intake.waiting ∨ Received ending start (moves ++ [move]) event) :
    TellsAll ending start (moves ++ [move]) next := by
  have handed (task : Nat) : next.handedBy task = intake.handedBy task := by
    rw [handedBy, handedBy, delivered]
  refine ⟨fun event held => ?_, fun task known held => ?_, fun task beyond => ?_⟩
  · rw [tasks] at held
    rcases List.mem_append.mp held with given | waits
    · exact (tells.received event (List.mem_append_left _ given)).later move
    · rcases waiting event (Option.mem_toList.mp waits) with before | received
      · have waited := List.mem_append_right (intake.tasks.map (·.event))
          (Option.mem_toList.mpr before)
        exact (tells.received event waited).later move
      · exact received
  · rw [tasks] at held
    rw [handed]
    exact (tells.told task known held).later (other task)
  · rw [tasks] at beyond
    obtain ⟨never, nothing⟩ := tells.unknown task beyond
    rw [handed, List.forall_mem_append, List.forall_mem_singleton]
    exact ⟨⟨never, other task⟩, nothing⟩

/-- A move that brings one task to another stage. -/
theorem place {known : Task} {stage : Stage} (tells : TellsAll ending start moves intake)
    (held : intake.tasks[task]? = some known)
    (tasks : next.tasks = intake.tasks.set task ⟨known.event, stage⟩)
    (waiting : next.waiting = intake.waiting)
    (others : ∀ other ≠ task,
      move ≠ .evaluate other ∧ next.handedBy other = intake.handedBy other)
    (own : Told ending start (moves ++ [move]) task known.event (next.handedBy task) stage) :
    TellsAll ending start (moves ++ [move]) next := by
  have within : task < intake.tasks.length := (List.getElem?_eq_some_iff.mp held).1
  refine ⟨fun event listed => ?_, fun other found foundThere => ?_, fun other beyond => ?_⟩
  · have events : next.tasks.map (·.event) = intake.tasks.map (·.event) := by
      obtain ⟨before, after, split, replaced⟩ := exists_split held
      rw [tasks, replaced, split]
      simp
    rw [events, waiting] at listed
    exact (tells.received event listed).later move
  · by_cases same : other = task
    · subst same
      rw [tasks, List.getElem?_set_self within] at foundThere
      cases foundThere
      exact own
    · obtain ⟨unlike, handed⟩ := others other same
      rw [tasks, List.getElem?_set_ne (Ne.symm same)] at foundThere
      rw [handed]
      exact (tells.told other found foundThere).later unlike
  · rw [tasks, List.length_set] at beyond
    obtain ⟨unlike, handed⟩ := others other (by omega)
    obtain ⟨never, nothing⟩ := tells.unknown other beyond
    rw [handed, List.forall_mem_append, List.forall_mem_singleton]
    exact ⟨⟨never, unlike⟩, nothing⟩

/-- A move that gives the waiting event a task of its own. -/
theorem dispatch {noticed : List Nat} (tells : TellsAll ending start moves intake)
    (waits : intake.waiting = some event) (waiting : next.waiting = none)
    (tasks : next.tasks = intake.tasks ++ [⟨event, .started⟩])
    (delivered : next.delivered = intake.delivered) :
    TellsAll ending start (moves ++ [.dispatch noticed]) next := by
  have handed (task : Nat) : next.handedBy task = intake.handedBy task := by
    rw [handedBy, handedBy, delivered]
  refine ⟨fun other listed => ?_, fun other found foundThere => ?_, fun other beyond => ?_⟩
  · have events : next.tasks.map (·.event) =
        intake.tasks.map (·.event) ++ intake.waiting.toList := by
      rw [tasks, waits, List.map_append]
      rfl
    rw [waiting, Option.toList_none, List.append_nil, events] at listed
    exact (tells.received other listed).later _
  · rw [tasks] at foundThere
    rw [handed]
    rcases Nat.lt_trichotomy other intake.tasks.length with before | same | behind
    · rw [List.getElem?_append_left before] at foundThere
      exact (tells.told other found foundThere).later nofun
    · subst same
      rw [List.getElem?_concat_length] at foundThere
      cases foundThere
      obtain ⟨never, nothing⟩ := tells.unknown _ (Nat.le_refl _)
      refine ⟨?_, nothing⟩
      rw [List.forall_mem_append, List.forall_mem_singleton]
      exact ⟨never, nofun⟩
    · rw [List.getElem?_eq_none (by simp; omega)] at foundThere
      cases foundThere
  · rw [tasks, List.length_append] at beyond
    obtain ⟨never, nothing⟩ := tells.unknown other (by omega)
    rw [handed, List.forall_mem_append, List.forall_mem_singleton]
    exact ⟨⟨never, nofun⟩, nothing⟩

theorem step (tells : TellsAll ending start moves intake)
    (ran : start.run ending moves = some intake)
    (moved : Step ending intake move next) :
    TellsAll ending start (moves ++ [move]) next := by
  cases moved with
  | blank => exact tells.still rfl rfl nofun fun _ => .inl
  | skip => exact tells.still rfl rfl nofun fun _ => .inl
  | close => exact tells.still rfl rfl nofun fun _ => .inl
  | shutdown => exact tells.still rfl rfl nofun nofun
  | meanwhile => exact tells.still rfl rfl nofun fun _ => .inl
  | accept notOver free first some fine received same =>
      refine tells.still rfl rfl nofun fun event waits => .inr ?_
      cases waits
      cases received
      exact ⟨moves, [], intake, rfl, ran, rfl⟩
  | @evaluate task event records engine held evaluated =>
      obtain ⟨never, nothing⟩ := tells.told task _ held
      refine tells.place held rfl rfl (fun other differs => ⟨?_, rfl⟩) ⟨?_, nothing⟩
      · rintro ⟨⟩
        exact differs rfl
      · refine ⟨moves, [], intake, engine, rfl, ?_, ran, evaluated⟩
        rwa [List.append_nil]
  | @deliver task event records held =>
      obtain ⟨once, nothing⟩ := tells.told task _ held
      refine tells.place held rfl rfl (fun other differs => ⟨nofun, ?_⟩)
        ⟨records, once.later nofun, ?_⟩
      · exact (handedBy_concat intake task other records).trans (by simp [differs.symm])
      · exact (handedBy_concat intake task task records).trans (by simp [nothing])
  | finish held =>
      obtain ⟨records, once, handed⟩ := tells.told _ _ held
      exact tells.place held rfl rfl (fun _ _ => ⟨nofun, rfl⟩) ⟨records, once.later nofun, handed⟩
  | dispatch notOver waits => exact tells.dispatch waits rfl rfl rfl

theorem run {permits : Nat} {lines : List (List UInt8)} {engine : Engine World}
    {reached : Intake World}
    (ran : (Intake.start permits lines engine).run ending moves = some reached) :
    TellsAll ending (.start permits lines engine) moves reached :=
  run_induction (TellsAll ending (.start permits lines engine)) (fresh permits lines engine)
    (fun _ _ _ _ before tells moved => tells.step before moved) ran

end TellsAll

/-! When all tasks are finished -/

theorem count_delivered (intake : Intake World) (task : Nat) :
    (intake.delivered.map (·.1)).count task = (intake.handedBy task).length := by
  rw [List.count, List.countP_map, handedBy, List.length_map, List.countP_eq_length_filter]
  rfl

theorem result_eq_some_iff {intake : Intake World} {answer : Except Refusal Summary} :
    intake.result = some answer ↔ ∃ outcome, intake.outcome = some outcome ∧
      (∀ task ∈ intake.handles, intake.hasFinished task = true) ∧
      outcome.map (fun _ => ⟨intake.accepted, intake.skipped⟩) = answer := by
  rw [result]
  by_cases waited : ∀ task ∈ intake.handles, intake.hasFinished task = true
  · rw [if_pos waited, Option.map_eq_some_iff]
    exact exists_congr fun outcome => and_congr_right fun _ => (and_iff_right waited).symm
  · rw [if_neg waited]
    exact iff_of_false nofun fun ⟨_, _, all, _⟩ => waited all

/-- The tasks that are waited for are all tasks that there is something to wait for. -/
theorem IsSound.finished {intake : Intake World} (sound : intake.IsSound)
    (waited : ∀ task ∈ intake.handles, intake.hasFinished task = true) {known : Task}
    (held : intake.tasks[task]? = some known) : known.stage = .finished := by
  have finished : intake.hasFinished task = true := by
    by_contra going
    rw [Bool.not_eq_true] at going
    have handle := sound.handles task (List.getElem?_eq_some_iff.mp held).1 going
    rw [waited task handle] at going
    cases going
  rw [hasFinished_of_held held, Task.isFinished] at finished
  split at finished
  · assumption
  · cases finished

theorem TellsAll.delivered_once {intake : Intake World}
    (tells : TellsAll ending start moves intake) (sound : intake.IsSound)
    (waited : ∀ task ∈ intake.handles, intake.hasFinished task = true) :
    (intake.delivered.map (·.1)).Perm (List.range intake.tasks.length) ∧
      ∀ task known, intake.tasks[task]? = some known →
        ∃ records, EvaluatedOnce ending start moves task known.event records ∧
          intake.handedBy task = [records] := by
  have each (task : Nat) (known : Task) (held : intake.tasks[task]? = some known) :
      ∃ records, EvaluatedOnce ending start moves task known.event records ∧
        intake.handedBy task = [records] := by
    have told := tells.told task known held
    rwa [sound.finished waited held] at told
  refine ⟨List.perm_iff_count.mpr fun task => ?_, each⟩
  rw [count_delivered, List.nodup_range.count]
  by_cases within : task < intake.tasks.length
  · obtain ⟨records, _, handed⟩ := each task _ (List.getElem?_eq_getElem within)
    rw [handed, if_pos (List.mem_range.mpr within)]
    rfl
  · rw [(tells.unknown task (by omega)).2, if_neg (mt List.mem_range.mp within)]
    rfl

end Rulebook.Stream.Intake
