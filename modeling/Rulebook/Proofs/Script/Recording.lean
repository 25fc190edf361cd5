import Rulebook.Proofs.Script.Statement

/-!
A host can be recorded: it remembers every call of one of its functions with its answer, and answers
as before. What a run asks of its host is then there to be read, whatever the run comes to.
-/

namespace Rulebook.Script

variable {State : Type}

structure HostCall where
  name : String
  arguments : List Value
  answer : Except Problem Value

/-- A host that remembers its calls, the latest first. -/
def Host.recorded (host : Host State) : Host (State × List HostCall) where
  print text state := (host.print text state.1, state.2)
  debug text state := (host.debug text state.1, state.2)
  function? name arguments := (host.function? name arguments).map fun call state =>
    ((call state.1).1, (call state.1).2, ⟨name, arguments, (call state.1).1⟩ :: state.2)

/-- The calls lead from a state of a host to another one, with something printed now and then. -/
inductive Host.Trail (host : Host State) (start : State) : List HostCall → State → Prop where
  | start : Trail host start [] start
  | print {calls : List HostCall} {state : State} (text : String) :
      Trail host start calls state → Trail host start calls (host.print text state)
  | debug {calls : List HostCall} {state : State} (text : String) :
      Trail host start calls state → Trail host start calls (host.debug text state)
  | call {calls : List HostCall} {state : State} {name : String} {arguments : List Value}
      {call : State → Except Problem Value × State} :
      Trail host start calls state → host.function? name arguments = some call →
        Trail host start (⟨name, arguments, (call state).1⟩ :: calls) (call state).2

def Pairing.recording (setup : Setup State) (start : State) :
    Pairing State (State × List HostCall) where
  left := setup
  right := { setup with host := setup.host.recorded }
  kin plain seen := seen.1 = plain ∧ setup.host.Trail start seen.2 plain
  lostLeft _ := False
  lostRight _ := False
  someLeft := ⟨start⟩
  someRight := ⟨(start, [])⟩
  functions := rfl
  limits := rfl
  print text := by
    refine ⟨?_, fun _ lost => lost, fun _ lost => lost⟩
    rintro _ ⟨state, calls⟩ ⟨rfl, trail⟩
    exact .inr (.inr ⟨rfl, rfl, trail.print text⟩)
  debug text := by
    refine ⟨?_, fun _ lost => lost, fun _ lost => lost⟩
    rintro _ ⟨state, calls⟩ ⟨rfl, trail⟩
    exact .inr (.inr ⟨rfl, rfl, trail.debug text⟩)
  missing name arguments := by
    simp only [Host.recorded, Option.map_eq_none_iff]
  function name arguments first second here there := by
    simp only [Host.recorded, here, Option.map_some, Option.some.injEq] at there
    subst there
    refine ⟨?_, fun _ lost => lost, fun _ lost => lost⟩
    rintro _ ⟨state, calls⟩ ⟨rfl, trail⟩
    exact .inr (.inr ⟨rfl, rfl, trail.call here⟩)

/-- A run that is recorded comes to the same, and its host gets to its state by the calls that were
recorded. -/
theorem Program.run_recorded (program : Program) (limits : Limits) (host : Host State)
    (constants : List (String × Value)) (state : State) :
    let plain := program.run limits host constants state
    let seen := program.run limits host.recorded constants (state, [])
    plain.result = seen.result ∧ plain.operations = seen.operations ∧ seen.host.1 = plain.host ∧
      host.Trail state seen.host.2 plain.host := by
  intro plain seen
  have start : (Pairing.recording ⟨limits, program.functions, host⟩ state).kin state (state, []) :=
    ⟨rfl, .start⟩
  rcases Program.run_alike (.recording ⟨limits, program.functions, host⟩ state) program constants
      rfl start with lost | lost | ⟨timed, _⟩ | same
  · exact lost.elim
  · exact lost.elim
  · exact absurd rfl timed
  · exact same

end Rulebook.Script
