import Mathlib.Algebra.GroupWithZero.Nat
import Rulebook.Proofs.Stream.Delivery

/-!
A stream that is not left open comes to its end: there is always something to do until the result
is there, and only so much of it.
-/

namespace Rulebook.Stream

variable {World : Type}

/-- Moves that are made on behalf of the stream. -/
def Move.isOwn : Move World → Bool
  | .shutdown | .meanwhile _ => false
  | _ => true

/-- How many moves a task still has before it. -/
def Stage.work : Stage → Nat
  | .started => 3
  | .evaluated _ => 2
  | .done => 1
  | .finished => 0

namespace Intake

/-- How many moves there are at most before it comes to the result. -/
def work (intake : Intake World) : Nat :=
  5 * intake.unread.length + 4 * intake.waiting.toList.length +
    (intake.tasks.map (·.stage.work)).sum + if intake.outcome.isNone then 1 else 0

variable {ending : Ending} {intake next : Intake World} {move : Move World}

theorem work_place {task : Nat} {known : Task} {stage : Stage}
    (held : intake.tasks[task]? = some known) (less : stage.work < known.stage.work) :
    (place task known.event stage intake).work < intake.work := by
  obtain ⟨before, after, split, replaced⟩ := exists_split held
  simp only [work, place, replaced]
  rw [split]
  simp only [List.map_append, List.map_cons, List.sum_append, List.sum_cons]
  omega

/-- Each move does some of the work. -/
theorem Step.works (moved : Step ending intake move next) :
    next.work + (if move.isOwn then 1 else 0) ≤ intake.work := by
  cases moved with
  | blank notOver free first =>
      simp only [work, first, List.length_cons, Move.isOwn, ↓reduceIte]
      omega
  | skip notOver free first =>
      simp only [work, first, List.length_cons, Move.isOwn, ↓reduceIte]
      omega
  | accept notOver free first =>
      simp only [work, first, free, List.length_cons, Move.isOwn, ↓reduceIte,
        Option.toList_some, Option.toList_none, List.length_nil]
      omega
  | close notOver =>
      simp only [work, notOver, Move.isOwn, Option.isNone_some, Option.isNone_none,
        Bool.false_eq_true, ↓reduceIte]
      omega
  | shutdown notOver =>
      simp only [work, notOver, Move.isOwn, Option.isNone_some, Option.isNone_none,
        Bool.false_eq_true, ↓reduceIte, Option.toList_none, List.length_nil]
      omega
  | meanwhile => exact Nat.le_refl _
  | @evaluate task event records engine held evaluated =>
      have less : (Stage.evaluated records).work < Stage.started.work := Nat.lt_succ_self 2
      have alike : { intake with engine := engine }.tasks[task]? = some ⟨event, .started⟩ := held
      exact work_place alike less
  | @deliver task event records held =>
      let delivered := intake.delivered ++ [(task, records)]
      have less : Stage.done.work < (Stage.evaluated records).work := Nat.lt_succ_self 1
      have alike : { intake with delivered := delivered }.tasks[task]? =
        some ⟨event, .evaluated records⟩ := held
      exact work_place alike less
  | finish held => exact work_place held Nat.zero_lt_one
  | dispatch notOver held =>
      simp only [work, held, Move.isOwn, ↓reduceIte, List.map_append, List.map_cons, List.map_nil,
        List.sum_append, List.sum_cons, List.sum_nil, Stage.work, Option.toList_some,
        Option.toList_none, List.length_cons, List.length_nil]
      omega

theorem run_works {moves : List (Move World)} {reached : Intake World}
    (ran : intake.run ending moves = some reached) :
    reached.work + moves.countP (·.isOwn) ≤ intake.work := by
  refine run_induction (fun moves reached => reached.work + moves.countP (·.isOwn) ≤ intake.work)
    (Nat.le_refl _) (fun moves between move next _ before moved => ?_) ran
  have works := moved.works
  rw [List.countP_append, List.countP_singleton]
  omega

/-- Whether there is a move to make. -/
def CanMove (ending : Ending) (intake : Intake World) : Prop :=
  ∃ move : Move World, move.isOwn = true ∧ (intake.step ending move).isSome = true

theorem canMove_of_unfinished {task : Nat} {known : Task}
    (held : intake.tasks[task]? = some known) (unfinished : known.isFinished = false) :
    intake.CanMove ending := by
  obtain ⟨event, stage⟩ := known
  cases stage with
  | started => exact ⟨.evaluate task, rfl, by simp only [step, evaluate, held]; rfl⟩
  | evaluated records => exact ⟨.deliver task, rfl, by simp [step, deliver, held]⟩
  | done => exact ⟨.finish task, rfl, by simp [step, finish, held]⟩
  | finished => cases unfinished

/-- As long as there is no result, there is a move to make. -/
theorem canMove_of_noResult (sound : intake.IsSound) (closes : ending ≠ .pending)
    (goesOn : intake.result = none) : intake.CanMove ending := by
  cases closed : intake.outcome with
  | some outcome =>
      obtain ⟨task, handle, unfinished⟩ :
          ∃ task ∈ intake.handles, intake.hasFinished task = false := by
        by_contra none
        have waited : ∀ task ∈ intake.handles, intake.hasFinished task = true := by
          intro task handle
          by_contra going
          exact none ⟨task, handle, by simpa using going⟩
        rw [result, if_pos waited, closed] at goesOn
        cases goesOn
      have held := List.getElem?_eq_getElem (sound.known task handle)
      rw [hasFinished_of_held held] at unfinished
      exact canMove_of_unfinished held unfinished
  | none =>
      cases waits : intake.waiting with
      | none =>
          refine ⟨.read, rfl, ?_⟩
          cases rest : intake.unread with
          | nil => cases ending <;> simp_all [step, read]
          | cons line unread => simp [step, read, closed, waits, rest]
      | some event =>
          by_cases free : intake.inFlight < intake.permits
          · exact ⟨.dispatch [], rfl, by
              simp only [step, dispatch, closed, waits, if_pos free]
              rfl⟩
          · have busy : 0 < intake.tasks.countP (!·.isFinished) := by
              have positive := sound.positive
              rw [inFlight] at free
              omega
            obtain ⟨known, member, unfinished⟩ := List.countP_pos_iff.mp busy
            obtain ⟨task, held⟩ := List.getElem?_of_mem member
            exact canMove_of_unfinished held (by simpa using unfinished)

/-- From wherever it is, a stream can go on until there is a result. -/
theorem exists_result (sound : intake.IsSound) (closes : ending ≠ .pending) :
    ∃ moves last, (∀ move ∈ moves, move.isOwn = true) ∧
      intake.run ending moves = some last ∧ last.result.isSome = true := by
  induction amount : intake.work using Nat.strongRecOn generalizing intake with
  | ind amount ih =>
      cases result : intake.result with
      | some answer => exact ⟨[], intake, nofun, rfl, by rw [result]; rfl⟩
      | none =>
          obtain ⟨move, own, moves⟩ := canMove_of_noResult sound closes result
          obtain ⟨next, moved⟩ := Option.isSome_iff_exists.mp moves
          have works := (steps_of_step moved).works
          rw [own, if_pos rfl] at works
          obtain ⟨later, last, owns, ran, done⟩ :=
            ih next.work (by omega) (sound.step (steps_of_step moved)) rfl
          refine ⟨move :: later, last, List.forall_mem_cons.mpr ⟨own, owns⟩, ?_, done⟩
          rw [← List.singleton_append, run_append, run_singleton, moved]
          exact ran

end Intake

end Rulebook.Stream
