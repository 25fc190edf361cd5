import Rulebook.Proofs.Engine.Accounting
import Rulebook.Proofs.Stream.Sequence

/-!
A stream accounts for each of its lines: those that are events are evaluated and handed over once,
those that are malformed are counted, and neither makes a difference to the others.
-/

namespace Rulebook.Stream

variable {World : Type}

/-- The lines that are events. -/
def eventLines (lines : List (List UInt8)) : List (List UInt8) :=
  lines.filter fun line => decide (∃ payload, IsEvent line payload)

def malformedLines (lines : List (List UInt8)) : List (List UInt8) :=
  lines.filter fun line => decide (IsMalformed line)

/-- What a stream comes to when all its lines were read. -/
def answerOf (ending : Ending) (lines : List (List UInt8)) : Except Refusal Summary :=
  match ending with
  | .broken reason => .error (.internal s!"读取事件流失败: {reason}")
  | .finished | .pending => .ok ⟨(eventLines lines).length, (malformedLines lines).length⟩

theorem filterMap_payloadOf (lines : List (List UInt8)) :
    List.Forall₂ IsEvent (eventLines lines) (lines.filterMap payloadOf) := by
  induction lines with
  | nil => exact .nil
  | cons line rest ih =>
      cases known : payloadOf line with
      | none =>
          have plain : ¬ ∃ payload, IsEvent line payload := fun ⟨payload, isEvent⟩ => by
            rw [payloadOf_eq_some_iff.mpr isEvent] at known
            cases known
          rw [List.filterMap_cons_none known, eventLines,
            List.filter_cons_of_neg (by simpa using plain)]
          exact ih
      | some payload =>
          have isEvent : IsEvent line payload := payloadOf_eq_some_iff.mp known
          have held : ∃ payload, IsEvent line payload := ⟨payload, isEvent⟩
          rw [List.filterMap_cons_some known, eventLines,
            List.filter_cons_of_pos (by simpa using held)]
          exact .cons isEvent ih

namespace Intake

variable {ending : Ending} {lines : List (List UInt8)} {engine : Engine World} {permits : Nat}
  {moves : List (Move World)} {reached : Intake World}

/-- What there is to say when a stream comes to its answer. -/
structure IsSettled (ending : Ending) (start : Intake World)
    (moves : List (Move World)) (reached : Intake World) : Prop where
  /-- Each accepted event was evaluated once, by its own task, and handed over once. -/
  evaluated : ∀ task < reached.accepted, ∃ known records, reached.tasks[task]? = some known ∧
    Received ending start moves known.event ∧
    EvaluatedOnce ending start moves task known.event records ∧
    reached.handedBy task = [records]
  delivered : (reached.delivered.map (·.1)).Perm (List.range reached.accepted)

theorem settled (positive : 0 < permits)
    (ran : (start permits lines engine).run ending moves = some reached)
    {answer : Except Refusal Summary} (answered : reached.result = some answer) :
    IsSettled ending (start permits lines engine) moves reached := by
  obtain ⟨outcome, closed, waited, _⟩ := result_eq_some_iff.mp answered
  have sound := (IsSound.start positive lines engine).run ran
  have tells := TellsAll.run ran
  obtain ⟨delivered, each⟩ := tells.delivered_once sound waited
  rw [← sound.accepted] at delivered
  refine ⟨fun task within => ?_, delivered⟩
  rw [sound.accepted] at within
  have held := List.getElem?_eq_getElem within
  obtain ⟨records, once, handed⟩ := each task _ held
  have listed : reached.tasks[task].event ∈
      reached.tasks.map (·.event) ++ reached.waiting.toList :=
    List.mem_append_left _ (List.mem_map_of_mem (List.getElem_mem within))
  exact ⟨_, records, held, tells.received _ listed, once, handed⟩

theorem answered_of_read (sound : reached.IsSound) (read : reached.HasRead ending lines)
    {answer : Except Refusal Summary} (answered : reached.result = some answer) :
    answer = answerOf ending lines ∧ reached.accepted = (eventLines lines).length ∧
      List.Forall₂ IsEvent (eventLines lines) (reached.tasks.map (·.event.payload)) := by
  obtain ⟨outcome, closed, _, rfl⟩ := result_eq_some_iff.mp answered
  obtain ⟨nothing, free, rfl⟩ := read.closed outcome closed
  obtain ⟨past, same, skipped, payloads⟩ := read.account
  rw [nothing, List.append_nil] at same
  subst same
  rw [free, Option.toList_none, List.map_nil, List.append_nil] at payloads
  have events := filterMap_payloadOf lines
  rw [← payloads] at events
  have accepted : reached.accepted = (eventLines lines).length := by
    rw [sound.accepted, events.length_eq, List.length_map]
  rw [List.countP_eq_length_filter] at skipped
  refine ⟨?_, accepted, events⟩
  rw [accepted, skipped]
  cases ending <;> rfl

/-- What holds of every run of a stream. -/
structure IsOrderly (ending : Ending) (lines : List (List UInt8)) (start : Intake World)
    (moves : List (Move World)) (reached : Intake World) : Prop where
  permits : reached.inFlight ≤ start.permits
  bounded : moves.countP (·.isOwn) ≤ 5 * lines.length + 1
  /-- Unless it is left open, the stream does not get stuck before its answer. -/
  goesOn : ending ≠ .pending → reached.result = none → reached.CanMove ending
  returns : ending ≠ .pending → ∃ more last, (∀ move ∈ more, move.isOwn = true) ∧
    reached.run ending more = some last ∧ last.result.isSome = true
  settled : ∀ answer, reached.result = some answer → IsSettled ending start moves reached
  /-- Unless it is shut down, the stream answers for all of its lines. -/
  answered : (∀ move ∈ moves, move ≠ .shutdown) → ∀ answer, reached.result = some answer →
    answer = answerOf ending lines ∧ reached.accepted = (eventLines lines).length ∧
      List.Forall₂ IsEvent (eventLines lines) (reached.tasks.map (·.event.payload))

theorem orderly (positive : 0 < permits)
    (ran : (start permits lines engine).run ending moves = some reached) :
    IsOrderly ending lines (start permits lines engine) moves reached := by
  have sound : reached.IsSound := (IsSound.start positive lines engine).run ran
  have works : reached.work + moves.countP (·.isOwn) ≤ 5 * lines.length + 1 := run_works ran
  exact {
    permits := run_permits ran ▸ sound.permits
    bounded := by omega
    goesOn := canMove_of_noResult sound
    returns := exists_result sound
    settled := fun _ => settled positive ran
    answered := fun goesOn _ =>
      answered_of_read sound ((HasRead.start permits lines engine).run goesOn ran) }

/-- All that comes of a stream from where it is opened, however its tasks take turns. -/
structure AccountsFor (ending : Ending) (lines : List (List UInt8)) (start : Intake World) :
    Prop where
  orderly : ∀ moves reached, start.run ending moves = some reached →
    IsOrderly ending lines start moves reached
  /-- Taking the lines one after the other is one of the ways. -/
  inTurn : ending ≠ .pending → ∃ moves last report, (∀ move ∈ moves, move.isOwn = true) ∧
    start.run ending moves = some last ∧
    (takeLines none lines).run start.engine = (.ok report, last.engine) ∧
    last.result = some ((verdict ending).map fun _ => ⟨report.accepted, report.skipped⟩) ∧
    last.delivered.map (·.2) = report.delivered

theorem start_accountsFor (positive : 0 < permits) :
    (start permits lines engine).AccountsFor ending lines where
  orderly _ _ ran := Intake.orderly positive ran
  inTurn closes := takeLines_result positive lines engine closes

theorem opened?_eq_some_iff {limit : Nat} {opened : Intake World} :
    opened? limit lines engine = some opened ↔
      limit ≤ mostPermits ∧ start (max limit 1) lines engine = opened := by
  have one : 1 ≤ mostPermits := by decide
  rw [opened?, permits?, Option.map_eq_some_iff]
  by_cases few : max limit 1 ≤ mostPermits
  · have within : limit ≤ mostPermits := by omega
    simp [few, within]
  · have beyond : ¬ limit ≤ mostPermits := by omega
    simp [few, beyond]

end Intake

/-- The lines of a stream are what stands between its newlines. However its tasks take turns, the
stream comes to its answer, unless it is left open, and when it does, each line that is an event was
evaluated once and its records were handed over once, whatever the other lines were. This holds just
for the limits that there can be permits for; with any other the stream is not even opened. -/
theorem lines_accounted_for_iff (limit : Nat) (ending : Ending) (bytes : List UInt8)
    (engine : Engine World) :
    let lines := linesOf bytes ending
    (∃ ended tail, AreSplit bytes ended tail) ∧
      (∀ ended tail, AreSplit bytes ended tail →
        lines = if ending = .finished ∧ tail ≠ [] then ended ++ [tail] else ended) ∧
      (∀ payload id, eventIdOf payload = some id ↔ ∃ fields text, payload = .obj fields ∧
        Json.lookup "id" fields = some (.str text) ∧ Uuid.ofText? text = some id) ∧
      ((∃ start, Intake.opened? limit lines engine = some start ∧
        start.permits = max limit 1 ∧ start.engine = engine ∧ start.AccountsFor ending lines) ↔
          limit ≤ mostPermits) := by
  intro lines
  have split : AreSplit bytes (splitLines bytes).1 (splitLines bytes).2 := splitLines_eq_iff.mp rfl
  refine ⟨⟨_, _, split⟩, fun ended tail alike => linesOf_eq alike ending,
    fun payload id => eventIdOf_eq_some_iff, ?_⟩
  constructor
  · rintro ⟨start, opened, _⟩
    exact (Intake.opened?_eq_some_iff.mp opened).1
  · intro within
    have positive : 0 < max limit 1 := by omega
    exact ⟨Intake.start (max limit 1) lines engine,
      Intake.opened?_eq_some_iff.mpr ⟨within, rfl⟩, rfl, rfl, Intake.start_accountsFor positive⟩

def bytesOf (text : String) : List UInt8 :=
  text.toList.map fun character => UInt8.ofNat character.toNat

/-- Two events, the second without a newline, and between them lines that are none. -/
def mixedBytes : List UInt8 :=
  bytesOf "\x7b\"id\":\"00000000-0000-0000-0000-000000000009\"\x7d\n" ++ [0xFF, newline] ++
    bytesOf "\n  \r\nno\n[1]"

/-- The later event is evaluated first, and handed over first. -/
def crossedMoves : List (Move Nat) :=
  [.read, .dispatch [], .read, .read, .read, .read, .read, .dispatch [0], .evaluate 1, .evaluate 0,
    .deliver 1, .finish 1, .deliver 0, .finish 0, .read]

theorem mixedBytes_accounted_for :
    let engine := Engine.create countingPlatform {} 0
    let lines := linesOf mixedBytes .finished
    (∀ move ∈ crossedMoves, move ≠ .shutdown) ∧
      ∃ start reached answer, Intake.opened? 2 lines engine = some start ∧
        start.run .finished crossedMoves = some reached ∧
        reached.result = some answer ∧ answer = answerOf .finished lines ∧
        answer.toOption = some ⟨2, 2⟩ ∧
        Intake.IsSettled .finished start crossedMoves reached ∧
        reached.tasks[0]?.map (·.event.id) = some ⟨9⟩ ∧
        reached.delivered.map (·.1) = [1, 0] := by
  intro engine lines
  have noShutdown : ∀ move ∈ crossedMoves, move ≠ .shutdown := by
    simp [crossedMoves]
  have arrives : ((Intake.opened? 2 lines engine).bind fun start =>
      start.run .finished crossedMoves).any fun reached =>
        (reached.result.any fun answer => answer.toOption = some ⟨2, 2⟩) &&
          decide (reached.tasks[0]?.map (·.event.id) = some ⟨9⟩ ∧
            reached.delivered.map (·.1) = [1, 0]) := by decide +kernel
  obtain ⟨_, _, _, accounted⟩ := lines_accounted_for_iff 2 .finished mixedBytes engine
  obtain ⟨start, opened, _, _, accounts⟩ := accounted.mpr (by decide)
  rw [opened] at arrives
  obtain ⟨reached, ran, facts⟩ := (Option.any_eq_true _ _).mp arrives
  obtain ⟨counts, places⟩ := (Bool.and_eq_true _ _).mp facts
  obtain ⟨answer, answered, counted⟩ := (Option.any_eq_true _ _).mp counts
  have ends := accounts.orderly crossedMoves reached ran
  obtain ⟨whole, _, _⟩ := ends.answered noShutdown answer answered
  exact ⟨noShutdown, start, reached, answer, opened, ran, answered, whole,
    of_decide_eq_true counted, ends.settled answer answered, of_decide_eq_true places⟩

/-- The same bytes with a limit that is a word, but one above what there can be permits for: the
stream is not opened, and so there is no account of its lines. -/
theorem mixedBytes_not_opened :
    let engine := Engine.create countingPlatform {} 0
    let lines := linesOf mixedBytes .finished
    mostPermits + 1 < twoTo 64 ∧ Intake.opened? (mostPermits + 1) lines engine = none ∧
      ¬ ∃ start, Intake.opened? (mostPermits + 1) lines engine = some start ∧
        start.AccountsFor .finished lines := by
  intro engine lines
  have unopened : Intake.opened? (mostPermits + 1) lines engine = none := rfl
  refine ⟨by decide, unopened, ?_⟩
  rintro ⟨start, opened, _⟩
  rw [unopened] at opened
  cases opened

end Rulebook.Stream
