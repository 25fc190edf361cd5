import Mathlib.Data.List.Induction
import Rulebook.Proofs.Stream.Lines
import Rulebook.Stream.Intake

/-!
What the moves of a stream's tasks come to, and what they keep: the permits, the tasks that are
waited for, and the account of the lines that were read.
-/

namespace Rulebook.Stream

variable {World : Type}

/-- An event that is received brings its identifier, or gets a fresh one. -/
theorem receive_run (id : Option Uuid) (payload : Json) (engine : Engine World) :
    let fresh := engine.evaluator.platform.fresh engine.world
    let read := engine.evaluator.platform.now fresh.2
    (Engine.receive id payload).run engine =
      (.ok ⟨id.getD fresh.1, payload, read.1⟩, { engine with world := read.2 }) := rfl

namespace Intake

/-! Single moves -/

/-- What a move needs, and what it leads to. -/
inductive Step (ending : Ending) (intake : Intake World) :
    Move World → Intake World → Prop where
  | blank {line : List UInt8} {unread : List (List UInt8)} :
      intake.outcome = none → intake.waiting = none → intake.unread = line :: unread →
      payloadOf line = none → ¬ IsMalformed line →
      Step ending intake .read { intake with unread }
  | skip {line : List UInt8} {unread : List (List UInt8)} :
      intake.outcome = none → intake.waiting = none → intake.unread = line :: unread →
      payloadOf line = none → IsMalformed line →
      Step ending intake .read { intake with unread, skipped := intake.skipped + 1 }
  | accept {line : List UInt8} {unread : List (List UInt8)} {payload : Json} {event : Event}
      {engine : Engine World} :
      intake.outcome = none → intake.waiting = none → intake.unread = line :: unread →
      payloadOf line = some payload → ¬ IsMalformed line →
      (Engine.receive (eventIdOf payload) payload).run intake.engine = (.ok event, engine) →
      event.payload = payload →
      Step ending intake .read { intake with unread, engine, waiting := some event }
  | close :
      intake.outcome = none → intake.waiting = none → intake.unread = [] → ending ≠ .pending →
      Step ending intake .read { intake with outcome := some (verdict ending) }
  | dispatch {noticed : List Nat} {event : Event} :
      intake.outcome = none → intake.waiting = some event → intake.inFlight < intake.permits →
      Step ending intake (.dispatch noticed) { intake with
        waiting := none
        tasks := intake.tasks ++ [⟨event, .started⟩]
        handles := (intake.handles.filter fun task =>
          !(noticed.contains task && intake.hasFinished task)) ++ [intake.tasks.length]
        accepted := intake.accepted + 1 }
  | evaluate {task : Nat} {event : Event} {records : List ExecutionRecord}
      {engine : Engine World} :
      intake.tasks[task]? = some ⟨event, .started⟩ →
      (Engine.evaluate event).run intake.engine = (.ok records, engine) →
      Step ending intake (.evaluate task)
        (place task event (.evaluated records) { intake with engine })
  | deliver {task : Nat} {event : Event} {records : List ExecutionRecord} :
      intake.tasks[task]? = some ⟨event, .evaluated records⟩ →
      Step ending intake (.deliver task) (place task event .done
        { intake with delivered := intake.delivered ++ [(task, records)] })
  | finish {task : Nat} {event : Event} :
      intake.tasks[task]? = some ⟨event, .done⟩ →
      Step ending intake (.finish task) (place task event .finished intake)
  | shutdown :
      intake.outcome = none →
      Step ending intake .shutdown { intake with waiting := none, outcome := some (.ok ()) }
  | meanwhile {change : Engine World → Engine World} :
      Step ending intake (.meanwhile change) { intake with engine := change intake.engine }

variable {ending : Ending} {intake next : Intake World}

theorem readLine_step {line : List UInt8} {unread : List (List UInt8)}
    (notOver : intake.outcome = none) (free : intake.waiting = none)
    (first : intake.unread = line :: unread) :
    Step ending intake .read (readLine line { intake with unread }) := by
  unfold readLine
  cases content : Content.ofBytes line with
  | blank =>
      refine .blank notOver free first (by simp [payloadOf, content]) ?_
      rw [← ofBytes_eq_malformed_iff, content]
      exact Content.noConfusion
  | malformed =>
      exact .skip notOver free first (by simp [payloadOf, content])
        (ofBytes_eq_malformed_iff.mp content)
  | event payload =>
      refine .accept notOver free first (by simp [payloadOf, content]) ?_
        (receive_run (eventIdOf payload) payload intake.engine) rfl
      rw [← ofBytes_eq_malformed_iff, content]
      exact Content.noConfusion

/-- A move leads nowhere else. -/
theorem steps_of_step {move : Move World} (moved : intake.step ending move = some next) :
    Step ending intake move next := by
  cases move with
  | read =>
      simp only [step, read] at moved
      split at moved
      · cases moved
      next ready =>
        obtain ⟨notOver, free⟩ := not_or.mp ready
        rw [Option.not_isSome_iff_eq_none] at notOver free
        split at moved
        next line unread first =>
          cases moved
          exact readLine_step notOver free first
        · cases moved
        next empty goes =>
          cases moved
          exact .close notOver free empty goes
  | dispatch noticed =>
      simp only [step, dispatch] at moved
      split at moved
      next event notOver held =>
        split at moved
        next free =>
          cases moved
          exact .dispatch notOver held free
        · cases moved
      · cases moved
  | evaluate task =>
      simp only [step, evaluate] at moved
      split at moved
      next event held =>
        cases moved
        exact .evaluate held rfl
      · cases moved
  | deliver task =>
      simp only [step, deliver] at moved
      split at moved
      next event records held =>
        cases moved
        exact .deliver held
      · cases moved
  | finish task =>
      simp only [step, finish] at moved
      split at moved
      next event held =>
        cases moved
        exact .finish held
      · cases moved
  | shutdown =>
      simp only [step, shutdown] at moved
      split at moved
      · cases moved
      next notOver =>
        cases moved
        exact .shutdown (by simpa using notOver)
  | meanwhile change =>
      cases moved
      exact .meanwhile

theorem Step.permits {move : Move World} (moved : Step ending intake move next) :
    next.permits = intake.permits := by
  cases moved <;> rfl

/-! Tasks -/

theorem exists_split {tasks : List Task} {task : Nat} {known : Task}
    (held : tasks[task]? = some known) :
    ∃ before after, tasks = before ++ known :: after ∧
      ∀ new, tasks.set task new = before ++ new :: after := by
  obtain ⟨within, rfl⟩ := List.getElem?_eq_some_iff.mp held
  refine ⟨tasks.take task, tasks.drop (task + 1), ?_, fun new => ?_⟩
  · rw [List.getElem_cons_drop, List.take_append_drop]
  · rw [List.set_eq_take_append_cons_drop, if_pos within]

theorem hasFinished_place {task other : Nat} {event : Event} {stage : Stage}
    (differs : other ≠ task) :
    (place task event stage intake).hasFinished other = intake.hasFinished other := by
  simp [hasFinished, place, differs.symm]

theorem hasFinished_of_held {task : Nat} {known : Task} (held : intake.tasks[task]? = some known) :
    intake.hasFinished task = known.isFinished := by
  rw [hasFinished, held]
  rfl

/-- What stays true whatever moves are made: no task is forgotten that is not finished. -/
structure IsSound (intake : Intake World) : Prop where
  accepted : intake.accepted = intake.tasks.length
  positive : 0 < intake.permits
  permits : intake.inFlight ≤ intake.permits
  handles : ∀ task < intake.tasks.length, intake.hasFinished task = false → task ∈ intake.handles
  known : ∀ task ∈ intake.handles, task < intake.tasks.length

namespace IsSound

theorem start {permits : Nat} (positive : 0 < permits) (lines : List (List UInt8))
    (engine : Engine World) : IsSound (start permits lines engine) :=
  ⟨rfl, positive, Nat.zero_le _, nofun, nofun⟩

theorem still (sound : intake.IsSound) (permits : next.permits = intake.permits)
    (tasks : next.tasks = intake.tasks) (handles : next.handles = intake.handles)
    (accepted : next.accepted = intake.accepted) : next.IsSound := by
  obtain ⟨counted, positive, taken, kept, known⟩ := sound
  simp only [inFlight, hasFinished, ← permits, ← tasks, ← handles, ← accepted]
    at counted positive taken kept known
  exact ⟨counted, positive, taken, kept, known⟩

theorem place {task : Nat} {known : Task} (sound : intake.IsSound)
    (held : intake.tasks[task]? = some known) (unfinished : known.isFinished = false)
    (stage : Stage) : (place task known.event stage intake).IsSound := by
  refine ⟨?_, sound.positive, ?_, fun other within going => ?_, fun other handle => ?_⟩
  · exact sound.accepted.trans List.length_set.symm
  · obtain ⟨before, after, split, replaced⟩ := exists_split held
    have permits := sound.permits
    simp only [inFlight, Intake.place, replaced] at permits ⊢
    rw [split] at permits
    simp only [List.countP_append, List.countP_cons, unfinished, Bool.not_false, if_true]
      at permits ⊢
    split <;> omega
  · by_cases same : other = task
    · subst same
      refine sound.handles other (List.getElem?_eq_some_iff.mp held).1 ?_
      rw [hasFinished_of_held held, unfinished]
    · rw [hasFinished_place same] at going
      have known : other < intake.tasks.length := by
        rw [Intake.place, List.length_set] at within
        exact within
      exact sound.handles other known going
  · rw [Intake.place, List.length_set]
    exact sound.known other handle

theorem step {move : Move World} (sound : intake.IsSound)
    (moved : Step ending intake move next) : next.IsSound := by
  cases moved with
  | blank => exact sound.still rfl rfl rfl rfl
  | skip => exact sound.still rfl rfl rfl rfl
  | accept => exact sound.still rfl rfl rfl rfl
  | close => exact sound.still rfl rfl rfl rfl
  | shutdown => exact sound.still rfl rfl rfl rfl
  | meanwhile => exact sound.still rfl rfl rfl rfl
  | @evaluate task event records engine held evaluated =>
      have alike : IsSound { intake with engine := engine } := sound.still rfl rfl rfl rfl
      exact alike.place held rfl _
  | @deliver task event records held =>
      let delivered := intake.delivered ++ [(task, records)]
      have alike : IsSound { intake with delivered := delivered } := sound.still rfl rfl rfl rfl
      exact alike.place held rfl _
  | finish held => exact sound.place held rfl _
  | @dispatch noticed event notOver held free =>
      refine ⟨?_, sound.positive, ?_, fun other within going => List.mem_append.mpr ?_,
        fun other handle => ?_⟩
      · rw [sound.accepted, List.length_append]
        rfl
      · have one : [(⟨event, .started⟩ : Task)].countP (!·.isFinished) = 1 := rfl
        rw [inFlight, List.countP_append, one]
        exact free
      · rw [List.length_append, List.length_singleton, Nat.lt_succ_iff_lt_or_eq] at within
        rcases within with before | same
        · have goesOn : intake.hasFinished other = false := by
            rw [← going, hasFinished, hasFinished, List.getElem?_append_left before]
          refine .inl (List.mem_filter.mpr ⟨sound.handles other before goesOn, ?_⟩)
          simp [goesOn]
        · exact .inr (List.mem_singleton.mpr same)
      · rw [List.length_append, List.length_singleton, Nat.lt_succ_iff_lt_or_eq]
        rcases List.mem_append.mp handle with before | same
        · exact .inl (sound.known other (List.mem_filter.mp before).1)
        · exact .inr (List.mem_singleton.mp same)

end IsSound

/-! Runs -/

theorem run_append (moves later : List (Move World)) :
    intake.run ending (moves ++ later) =
      (intake.run ending moves).bind (run ending later) := by
  rw [run, List.foldlM_append]
  rfl

theorem run_singleton (move : Move World) :
    intake.run ending [move] = intake.step ending move := by
  simp [run]

/-- What holds in the beginning and is kept by each move, holds after every run. -/
theorem run_induction (holds : List (Move World) → Intake World → Prop) {moves : List (Move World)}
    {reached : Intake World} (start : holds [] intake)
    (keep : ∀ moves between move next, intake.run ending moves = some between →
      holds moves between → Step ending between move next → holds (moves ++ [move]) next)
    (ran : intake.run ending moves = some reached) : holds moves reached := by
  induction moves using List.reverseRecOn generalizing reached with
  | nil =>
      cases ran
      exact start
  | append_singleton moves move ih =>
      rw [run_append] at ran
      obtain ⟨between, before, last⟩ := Option.bind_eq_some_iff.mp ran
      rw [run_singleton] at last
      exact keep moves between move reached before (ih before) (steps_of_step last)

theorem IsSound.run {moves : List (Move World)} {reached : Intake World}
    (sound : intake.IsSound) (ran : intake.run ending moves = some reached) :
    reached.IsSound :=
  run_induction (fun _ reached => reached.IsSound) sound
    (fun _ _ _ _ _ sound moved => sound.step moved) ran

theorem run_permits {moves : List (Move World)} {reached : Intake World}
    (ran : intake.run ending moves = some reached) : reached.permits = intake.permits :=
  run_induction (fun _ reached => reached.permits = intake.permits) rfl
    (fun _ _ _ _ _ same moved => moved.permits.trans same) ran

/-! Lines -/

/-- The lines that were read are accounted for; when reading is over, these are all lines. -/
structure HasRead (ending : Ending) (lines : List (List UInt8)) (intake : Intake World) :
    Prop where
  account : ∃ past, lines = past ++ intake.unread ∧
    intake.skipped = past.countP (fun line => decide (IsMalformed line)) ∧
    intake.tasks.map (·.event.payload) ++ intake.waiting.toList.map (·.payload) =
      past.filterMap payloadOf
  closed : ∀ outcome, intake.outcome = some outcome →
    intake.unread = [] ∧ intake.waiting = none ∧ outcome = verdict ending

namespace HasRead

variable {lines : List (List UInt8)}

theorem start (permits : Nat) (lines : List (List UInt8)) (engine : Engine World) :
    HasRead ending lines (start permits lines engine) :=
  ⟨⟨[], rfl, rfl, rfl⟩, nofun⟩

theorem place {task : Nat} {known : Task} (read : intake.HasRead ending lines)
    (held : intake.tasks[task]? = some known) (stage : Stage) :
    (place task known.event stage intake).HasRead ending lines := by
  refine ⟨?_, read.closed⟩
  obtain ⟨before, after, split, replaced⟩ := exists_split held
  obtain ⟨past, same, skipped, payloads⟩ := read.account
  refine ⟨past, same, skipped, ?_⟩
  rw [← payloads, Intake.place, replaced, split]
  simp

/-- What it takes to account for one more line. -/
theorem line {line : List UInt8} (read : intake.HasRead ending lines)
    (free : intake.waiting = none) (first : intake.unread = line :: next.unread)
    (notOver : next.outcome = none) (tasks : next.tasks = intake.tasks)
    (skipped : next.skipped = intake.skipped + if IsMalformed line then 1 else 0)
    (waiting : next.waiting.toList.map (·.payload) = (payloadOf line).toList) :
    next.HasRead ending lines := by
  obtain ⟨past, same, counted, payloads⟩ := read.account
  refine ⟨⟨past ++ [line], ?_, ?_, ?_⟩, fun outcome closed => ?_⟩
  · rw [same, first, List.append_assoc, List.singleton_append]
  · rw [skipped, counted, List.countP_append, List.countP_singleton]
    simp
  · rw [free, Option.toList_none, List.map_nil, List.append_nil] at payloads
    rw [tasks, payloads, waiting, List.filterMap_append]
    cases known : payloadOf line <;> simp [known]
  · rw [notOver] at closed
    cases closed

theorem step {move : Move World} (read : intake.HasRead ending lines) (goesOn : move ≠ .shutdown)
    (moved : Step ending intake move next) : next.HasRead ending lines := by
  cases moved with
  | blank notOver free first nothing fine =>
      refine read.line free first notOver rfl ?_ ?_
      · rw [if_neg fine]
        rfl
      · simp [free, nothing]
  | skip notOver free first nothing bad =>
      refine read.line free first notOver rfl ?_ ?_
      · rw [if_pos bad]
      · simp [free, nothing]
  | accept notOver free first holds fine received same =>
      refine read.line free first notOver rfl ?_ ?_
      · rw [if_neg fine]
        rfl
      · simp [holds, same]
  | close notOver free empty goes =>
      refine ⟨read.account, fun outcome closed => ⟨empty, free, ?_⟩⟩
      exact (Option.some.inj closed).symm
  | shutdown => exact absurd rfl goesOn
  | meanwhile => exact ⟨read.account, read.closed⟩
  | @evaluate task event records engine held evaluated =>
      have alike : HasRead ending lines { intake with engine := engine } :=
        ⟨read.account, read.closed⟩
      exact alike.place held _
  | @deliver task event records held =>
      let delivered := intake.delivered ++ [(task, records)]
      have alike : HasRead ending lines { intake with delivered := delivered } :=
        ⟨read.account, read.closed⟩
      exact alike.place held _
  | finish held => exact read.place held _
  | @dispatch noticed event notOver held free =>
      obtain ⟨past, same, skipped, payloads⟩ := read.account
      refine ⟨⟨past, same, skipped, ?_⟩, fun outcome closed => ?_⟩
      · rw [← payloads, held]
        simp
      · rw [notOver] at closed
        cases closed

theorem run {moves : List (Move World)} {reached : Intake World}
    (read : intake.HasRead ending lines) (goesOn : ∀ move ∈ moves, move ≠ .shutdown)
    (ran : intake.run ending moves = some reached) : reached.HasRead ending lines := by
  refine run_induction (fun moves reached => (∀ move ∈ moves, move ≠ .shutdown) →
    reached.HasRead ending lines) (fun _ => read) ?_ ran goesOn
  intro moves between move next _ before moved goesOn
  obtain ⟨earlier, last⟩ := List.forall_mem_append.mp goesOn
  exact (before earlier).step (last move (List.mem_singleton_self _)) moved

end HasRead

end Intake

end Rulebook.Stream
