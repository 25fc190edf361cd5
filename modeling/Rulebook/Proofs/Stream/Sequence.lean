import Rulebook.Proofs.Rules.Steps
import Rulebook.Proofs.Stream.Progress

/-!
Whoever takes the lines of a stream one after the other, does nothing else than its tasks could do
side by side.
-/

namespace Rulebook.Stream

variable {World : Type}

namespace Intake

variable {ending : Ending} {intake : Intake World} {task : Nat} {event : Event}
  {records : List ExecutionRecord}

/-! Single moves -/

theorem run_cons (move : Move World) (moves : List (Move World)) :
    intake.run ending (move :: moves) =
      (intake.step ending move).bind (run ending moves) := by
  rw [run, List.foldlM_cons]
  rfl

theorem step_read {line : List UInt8} {unread : List (List UInt8)}
    (notOver : intake.outcome = none) (free : intake.waiting = none)
    (first : intake.unread = line :: unread) :
    intake.step ending .read = some (readLine line { intake with unread }) := by
  simp [step, read, notOver, free, first]

theorem step_dispatch (notOver : intake.outcome = none) (waits : intake.waiting = some event)
    (free : intake.inFlight < intake.permits) :
    intake.step ending (.dispatch []) = some { intake with
      waiting := none
      tasks := intake.tasks ++ [⟨event, .started⟩]
      handles := intake.handles ++ [intake.tasks.length]
      accepted := intake.accepted + 1 } := by
  simp only [step, dispatch, notOver, waits, if_pos free]
  simp

theorem step_evaluate {engine : Engine World}
    (held : intake.tasks[task]? = some ⟨event, .started⟩)
    (evaluates : (Engine.evaluate event).run intake.engine = (.ok records, engine)) :
    intake.step ending (.evaluate task) =
      some (place task event (.evaluated records) { intake with engine }) := by
  simp only [step, evaluate, held, evaluates]

theorem step_deliver (held : intake.tasks[task]? = some ⟨event, .evaluated records⟩) :
    intake.step ending (.deliver task) = some (place task event .done
      { intake with delivered := intake.delivered ++ [(task, records)] }) := by
  simp only [step, deliver, held]

theorem step_finish (held : intake.tasks[task]? = some ⟨event, .done⟩) :
    intake.step ending (.finish task) = some (place task event .finished intake) := by
  simp only [step, finish, held]

/-! One event after the other -/

/-- Between two lines: nothing is under way. -/
structure IsIdle (intake : Intake World) : Prop where
  outcome : intake.outcome = none
  waiting : intake.waiting = none
  positive : 0 < intake.permits
  inFlight : intake.inFlight = 0

/-- An idle intake, when it has seen to one more event. -/
def having (event : Event) (records : List ExecutionRecord) (unread : List (List UInt8))
    (engine : Engine World) (intake : Intake World) : Intake World :=
  { intake with
    engine
    unread
    tasks := intake.tasks ++ [⟨event, .finished⟩]
    handles := intake.handles ++ [intake.tasks.length]
    delivered := intake.delivered ++ [(intake.tasks.length, records)]
    accepted := intake.accepted + 1 }

/-- All moves for an event that nothing comes between. -/
def movesFor (task : Nat) : List (Move World) :=
  [.read, .dispatch [], .evaluate task, .deliver task, .finish task]

theorem IsIdle.run_event {line : List UInt8} {unread : List (List UInt8)} {payload : Json}
    {received evaluated : Engine World} (idle : intake.IsIdle)
    (first : intake.unread = line :: unread) (content : Content.ofBytes line = .event payload)
    (receives : (Engine.receive (eventIdOf payload) payload).run intake.engine =
      (.ok event, received))
    (evaluates : (Engine.evaluate event).run received = (.ok records, evaluated)) :
    intake.run ending (movesFor intake.tasks.length) =
      some (intake.having event records unread evaluated) := by
  let task := intake.tasks.length
  have held (known : Task) : (intake.tasks ++ [known])[task]? = some known :=
    List.getElem?_concat_length
  have replaced (old new : Task) :
      (intake.tasks ++ [old]).set task new = intake.tasks ++ [new] := by
    rw [List.set_append_right _ _ (Nat.le_refl _)]
    simp
  have free : intake.inFlight < intake.permits := by
    rw [idle.inFlight]
    exact idle.positive
  have reads : readLine line { intake with unread } =
      { intake with engine := received, unread, waiting := some event } := by
    simp only [readLine, content, receives]
    rfl
  rw [movesFor, run_cons, step_read idle.outcome idle.waiting first, reads, Option.bind_some]
  rw [run_cons, step_dispatch (by exact idle.outcome) (by rfl) (by exact free), Option.bind_some]
  rw [run_cons, step_evaluate (by exact held _) (by exact evaluates), Option.bind_some, place,
    replaced]
  rw [run_cons, step_deliver (by exact held _), Option.bind_some, place, replaced]
  rw [run_cons, step_finish (by exact held _), Option.bind_some, place, replaced]
  simp [run, having, idle.waiting]

theorem IsIdle.having (idle : intake.IsIdle) (event : Event) (records : List ExecutionRecord)
    (unread : List (List UInt8)) (engine : Engine World) :
    (intake.having event records unread engine).IsIdle := by
  refine ⟨idle.outcome, idle.waiting, idle.positive, ?_⟩
  have before := idle.inFlight
  rw [Intake.inFlight] at before
  rw [Intake.inFlight, Intake.having, List.countP_append, before]
  rfl

theorem IsIdle.passing (idle : intake.IsIdle) (unread : List (List UInt8)) (skipped : Nat) :
    IsIdle { intake with unread, skipped } :=
  ⟨idle.outcome, idle.waiting, idle.positive, idle.inFlight⟩

/-- What a report says is what was added to an intake. -/
structure Adds (report : Report) (intake last : Intake World) : Prop where
  delivered : last.delivered.map (·.2) = intake.delivered.map (·.2) ++ report.delivered
  accepted : last.accepted = intake.accepted + report.accepted
  skipped : last.skipped = intake.skipped + report.skipped

/-- A report on some lines, with that on the lines before them. -/
def following (before report : Report) : Report :=
  ⟨before.delivered ++ report.delivered, report.accepted + before.accepted,
    report.skipped + before.skipped⟩

theorem Adds.trans {before report : Report} {between last : Intake World}
    (early : Adds before intake between) (late : Adds report between last) :
    Adds (following before report) intake last where
  delivered := by rw [late.delivered, early.delivered, List.append_assoc, following]
  accepted := by
    rw [late.accepted, early.accepted, following, Nat.add_assoc, Nat.add_comm before.accepted]
  skipped := by
    rw [late.skipped, early.skipped, following, Nat.add_assoc, Nat.add_comm before.skipped]

/-- An idle intake takes the next line by some moves, and whoever takes all lines takes it too. -/
structure TakesLine (ending : Ending) (line : List UInt8) (rest : List (List UInt8))
    (intake : Intake World) (moves : List (Move World)) (next : Intake World) (report : Report) :
    Prop where
  own : ∀ move ∈ moves, move.isOwn = true
  ran : intake.run ending moves = some next
  idle : next.IsIdle
  unread : next.unread = rest
  adds : Adds report intake next
  takes : ∀ later engine, (takeLines none rest).run next.engine = (.ok later, engine) →
    (takeLines none (line :: rest)).run intake.engine = (.ok (following report later), engine)

theorem IsIdle.takesLine (ending : Ending) {line : List UInt8}
    {rest : List (List UInt8)} (idle : intake.IsIdle) (unread : intake.unread = line :: rest) :
    ∃ moves next report, TakesLine ending line rest intake moves next report := by
  have reads : intake.run ending [.read] =
      some (readLine line { intake with unread := rest }) := by
    rw [run_singleton]
    exact step_read idle.outcome idle.waiting unread
  rw [readLine] at reads
  cases content : Content.ofBytes line with
  | blank =>
      rw [content] at reads
      refine ⟨[.read], { intake with unread := rest }, ⟨[], 0, 0⟩,
        List.forall_mem_singleton.mpr rfl, reads, idle.passing _ _, rfl,
        ⟨(List.append_nil _).symm, rfl, rfl⟩, fun later engine took => ?_⟩
      rw [takeLines, if_neg nofun, content]
      exact took
  | malformed =>
      rw [content] at reads
      refine ⟨[.read], { intake with unread := rest, skipped := intake.skipped + 1 }, ⟨[], 0, 1⟩,
        List.forall_mem_singleton.mpr rfl, reads, idle.passing _ _, rfl,
        ⟨(List.append_nil _).symm, rfl, rfl⟩, fun later engine took => ?_⟩
      rw [takeLines, if_neg nofun, content]
      change (takeLines none rest >>= _).run _ = _
      rw [EngineM.run_bind, took]
      rfl
  | event payload =>
      obtain ⟨event, received, receives⟩ : ∃ event received,
          (Engine.receive (eventIdOf payload) payload).run intake.engine = (.ok event, received) :=
        ⟨_, _, receive_run (eventIdOf payload) payload intake.engine⟩
      obtain ⟨records, evaluated, evaluates⟩ : ∃ records evaluated,
          (Engine.evaluate event).run received = (.ok records, evaluated) := ⟨_, _, rfl⟩
      have whole : (Stream.evaluate payload).run intake.engine = (.ok records, evaluated) := by
        rw [Stream.evaluate, EngineM.run_bind, receives]
        exact evaluates
      refine ⟨movesFor intake.tasks.length, intake.having event records rest evaluated,
        ⟨[records], 1, 0⟩, by simp [movesFor, Move.isOwn],
        idle.run_event unread content receives evaluates, idle.having event records rest evaluated,
        rfl, ⟨by rw [Intake.having, List.map_append]; rfl, rfl, rfl⟩, fun later engine took => ?_⟩
      rw [takeLines, if_neg nofun, content]
      change (Stream.evaluate payload >>= _).run _ = _
      rw [EngineM.run_bind, whole]
      change (takeLines none rest >>= _).run evaluated = _
      have tookHere : (takeLines none rest).run evaluated = (.ok later, engine) := took
      rw [EngineM.run_bind, tookHere]
      rfl

/-- Taking lines one after the other is one way for the tasks to take turns. -/
theorem takeLines_run (ending : Ending) {lines : List (List UInt8)}
    (idle : intake.IsIdle) (unread : intake.unread = lines) :
    ∃ moves last report, (∀ move ∈ moves, move.isOwn = true) ∧
      intake.run ending moves = some last ∧ last.IsIdle ∧ last.unread = [] ∧
      (takeLines none lines).run intake.engine = (.ok report, last.engine) ∧
      Adds report intake last := by
  induction lines generalizing intake with
  | nil =>
      have nothing : Adds ⟨[], 0, 0⟩ intake intake := ⟨(List.append_nil _).symm, rfl, rfl⟩
      exact ⟨[], intake, ⟨[], 0, 0⟩, nofun, rfl, idle, unread, rfl, nothing⟩
  | cons line rest ih =>
      obtain ⟨first, next, before, takes⟩ := idle.takesLine ending unread
      obtain ⟨moves, last, report, own, ran, still, finished, took, adds⟩ :=
        ih takes.idle takes.unread
      refine ⟨first ++ moves, last, following before report,
        List.forall_mem_append.mpr ⟨takes.own, own⟩, ?_, still, finished,
        takes.takes report last.engine took, takes.adds.trans adds⟩
      rw [run_append, takes.ran]
      exact ran

theorem IsIdle.step_close (idle : intake.IsIdle) (finished : intake.unread = [])
    (closes : ending ≠ .pending) :
    intake.step ending .read = some { intake with outcome := some (verdict ending) } := by
  cases ending with
  | pending => exact absurd rfl closes
  | finished => simp [step, read, idle.outcome, idle.waiting, finished, verdict]
  | broken reason => simp [step, read, idle.outcome, idle.waiting, finished, verdict]

theorem IsIdle.waited (idle : intake.IsIdle) (sound : intake.IsSound) :
    ∀ task ∈ intake.handles, intake.hasFinished task = true := by
  intro task handle
  have within := sound.known task handle
  have all := List.countP_eq_zero.mp idle.inFlight _ (List.getElem_mem within)
  rw [hasFinished_of_held (List.getElem?_eq_getElem within)]
  simpa using all

/-- The report on all lines of a stream is what the tasks come to if each of them is done before
the next line is read. -/
theorem takeLines_result {permits : Nat} (positive : 0 < permits) (lines : List (List UInt8))
    (engine : Engine World) (closes : ending ≠ .pending) :
    ∃ moves last report, (∀ move ∈ moves, move.isOwn = true) ∧
      (start permits lines engine).run ending moves = some last ∧
      (takeLines none lines).run engine = (.ok report, last.engine) ∧
      last.result = some ((verdict ending).map fun _ => ⟨report.accepted, report.skipped⟩) ∧
      last.delivered.map (·.2) = report.delivered := by
  have beginning : (start permits lines engine).IsIdle := ⟨rfl, rfl, positive, rfl⟩
  obtain ⟨moves, last, report, own, ran, idle, finished, took, adds⟩ :=
    takeLines_run ending beginning rfl
  let closed : Intake World := { last with outcome := some (verdict ending) }
  have waited : ∀ task ∈ closed.handles, closed.hasFinished task = true :=
    idle.waited ((IsSound.start positive lines engine).run ran)
  refine ⟨moves ++ [.read], closed, report, ?_, ?_, took, ?_, adds.delivered⟩
  · exact List.forall_mem_append.mpr ⟨own, List.forall_mem_singleton.mpr rfl⟩
  · rw [run_append, ran, Option.bind_some, run_singleton]
    exact idle.step_close finished closes
  · have accepted : last.accepted = report.accepted := adds.accepted.trans (Nat.zero_add _)
    have skipped : last.skipped = report.skipped := adds.skipped.trans (Nat.zero_add _)
    rw [result, if_pos waited, ← accepted, ← skipped]
    rfl

end Intake

end Rulebook.Stream
