import Rulebook.Proofs.Script.Statement
import Rulebook.Sandbox.Functions

/-!
A host can be watched: it remembers whether certain of its functions were called, and answers as
before. Two runs that call none of those on which their hosts differ come to the same.
-/

namespace Rulebook

namespace Script

variable {State Left Right : Type}

/-- A host that remembers whether a function was called that counts. -/
def Host.watched (host : Host State) (counts : String → List Value → Bool) :
    Host (State × Bool) where
  print text state := (host.print text state.1, state.2)
  debug text state := (host.debug text state.1, state.2)
  function? name arguments := (host.function? name arguments).map fun call state =>
    ((call state.1).1, (call state.1).2, state.2 || counts name arguments)

/-- Whether a host has no function that counts. -/
def Host.IsClear (host : Host State) (counts : String → List Value → Bool) : Prop :=
  ∀ name arguments, host.function? name arguments ≠ none → counts name arguments = false

def Pairing.watching (setup : Setup State) (counts : String → List Value → Bool) (state : State) :
    Pairing State (State × Bool) where
  left := setup
  right := { setup with host := setup.host.watched counts }
  kin plain seen := seen.1 = plain ∧ (setup.host.IsClear counts → seen.2 = false)
  lostLeft _ := False
  lostRight _ := False
  someLeft := ⟨state⟩
  someRight := ⟨(state, false)⟩
  functions := rfl
  limits := rfl
  print text := by
    refine ⟨?_, fun _ lost => lost, fun _ lost => lost⟩
    rintro _ ⟨state, flag⟩ ⟨rfl, clear⟩
    exact .inr (.inr ⟨rfl, rfl, clear⟩)
  debug text := by
    refine ⟨?_, fun _ lost => lost, fun _ lost => lost⟩
    rintro _ ⟨state, flag⟩ ⟨rfl, clear⟩
    exact .inr (.inr ⟨rfl, rfl, clear⟩)
  missing name arguments := by
    simp only [Host.watched, Option.map_eq_none_iff]
  function name arguments first second here there := by
    simp only [Host.watched, here, Option.map_some, Option.some.injEq] at there
    subst there
    refine ⟨?_, fun _ lost => lost, fun _ lost => lost⟩
    rintro _ ⟨state, flag⟩ ⟨rfl, clear⟩
    refine .inr (.inr ⟨rfl, rfl, fun none => ?_⟩)
    rw [clear none, none name arguments (by simp [here])]
    rfl

theorem Program.run_watched (program : Program) (limits : Limits) (host : Host State)
    (counts : String → List Value → Bool) (constants : List (String × Value)) (state : State) :
    let plain := program.run limits host constants state
    let seen := program.run limits (host.watched counts) constants (state, false)
    plain.result = seen.result ∧ plain.operations = seen.operations ∧ seen.host.1 = plain.host ∧
      (host.IsClear counts → seen.host.2 = false) := by
  intro plain seen
  have start : (Pairing.watching ⟨limits, program.functions, host⟩ counts state).kin state
    (state, false) := ⟨rfl, fun _ => rfl⟩
  rcases Program.run_alike (.watching ⟨limits, program.functions, host⟩ counts state) program
      constants rfl start with lost | lost | ⟨timed, _⟩ | same
  · exact lost.elim
  · exact lost.elim
  · exact absurd rfl timed
  · exact same

/-- Two hosts that answer in the same way, apart from functions that count, as long as their
states are alike. -/
structure Host.Agree (counts : String → List Value → Bool) (kin : Left → Right → Prop)
    (first : Host Left) (second : Host Right) : Prop where
  print : ∀ text left right, kin left right → kin (first.print text left) (second.print text right)
  debug : ∀ text left right, kin left right → kin (first.debug text left) (second.debug text right)
  missing : ∀ name arguments, first.function? name arguments = none ↔
    second.function? name arguments = none
  function : ∀ name arguments call other, counts name arguments = false →
    first.function? name arguments = some call → second.function? name arguments = some other →
      ∀ left right, kin left right →
        (call left).1 = (other right).1 ∧ kin (call left).2 (other right).2

/-- Two hosts, of which the first one is watched. Its run is lost for comparison once a function was
called that counts. -/
def Pairing.watched {counts : String → List Value → Bool} {kin : Left → Right → Prop}
    {first : Host Left} {second : Host Right} (agree : first.Agree counts kin second)
    (functions : List Function) {limits others : Limits}
    (same : others = { limits with timeout := others.timeout }) (left : Left) (right : Right) :
    Pairing (Left × Bool) Right where
  left := ⟨limits, functions, first.watched counts⟩
  right := ⟨others, functions, second⟩
  kin left right := kin left.1 right
  lostLeft left := left.2 = true
  lostRight _ := False
  someLeft := ⟨(left, false)⟩
  someRight := ⟨right⟩
  functions := rfl
  limits := same
  print text := ⟨fun _ _ alike => .inr (.inr ⟨rfl, agree.print text _ _ alike⟩),
    fun _ lost => lost, fun _ lost => lost⟩
  debug text := ⟨fun _ _ alike => .inr (.inr ⟨rfl, agree.debug text _ _ alike⟩),
    fun _ lost => lost, fun _ lost => lost⟩
  missing name arguments := by
    simp only [Host.watched, Option.map_eq_none_iff]
    exact agree.missing name arguments
  function name arguments call other here there := by
    obtain ⟨call, found, rfl⟩ := Option.map_eq_some_iff.mp here
    refine ⟨?_, ?_, fun _ lost => lost⟩
    · intro left right alike
      cases counted : counts name arguments with
      | true => exact .inl (by simp)
      | false =>
          exact .inr (.inr (agree.function name arguments call other counted found there _ _ alike))
    · intro left lost
      simp [lost]

def Program.calls (counts : String → List Value → Bool) (program : Program) (limits : Limits)
    (host : Host State) (constants : List (String × Value)) (state : State) : Bool :=
  (program.run limits (host.watched counts) constants (state, false)).host.2

theorem Program.calls_eq_false (program : Program) (limits : Limits) {host : Host State}
    {counts : String → List Value → Bool} (clear : host.IsClear counts)
    (constants : List (String × Value)) (state : State) :
    program.calls counts limits host constants state = false :=
  (program.run_watched limits host counts constants state).2.2.2 clear

section Agreement

variable {counts : String → List Value → Bool} {kin : Left → Right → Prop} {first : Host Left}
  {second : Host Right} (agree : first.Agree counts kin second) (program : Program)
  {limits others : Limits} (constants : List (String × Value)) {left : Left} {right : Right}
  (alike : kin left right)

include agree alike

/-- Two runs of a program that differ in their time and in functions that are not called come to
the same, unless one of them has less time than the other one and runs out of it. -/
theorem Program.run_agree_or (same : others = { limits with timeout := others.timeout })
    (inward : program.calls counts limits first constants left = false) :
    (limits.timeout ≠ others.timeout ∧
      ((program.run limits first constants left).result = .error .timedOut ∨
        (program.run others second constants right).result = .error .timedOut)) ∨
    ((program.run limits first constants left).result =
        (program.run others second constants right).result ∧
      (program.run limits first constants left).operations =
        (program.run others second constants right).operations ∧
      kin (program.run limits first constants left).host
        (program.run others second constants right).host) := by
  obtain ⟨result, operations, state, _⟩ := program.run_watched limits first counts constants left
  rw [result, operations, ← state]
  have start : (Pairing.watched agree program.functions same left right).kin (left, false)
    right := alike
  rcases Program.run_alike (.watched agree program.functions same left right) program constants
      rfl start with lost | lost | late | same
  · exact absurd (inward.symm.trans lost) (by simp)
  · exact lost.elim
  · exact .inl late
  · exact .inr same

theorem Program.run_agree (same : others = { limits with timeout := others.timeout })
    (inward : program.calls counts limits first constants left = false)
    (inTime : (program.run limits first constants left).result ≠ .error .timedOut)
    (otherInTime : (program.run others second constants right).result ≠ .error .timedOut) :
    (program.run limits first constants left).result =
        (program.run others second constants right).result ∧
      kin (program.run limits first constants left).host
        (program.run others second constants right).host := by
  rcases Program.run_agree_or agree program constants alike same inward with
    ⟨_, late | late⟩ | ⟨results, _, states⟩
  · exact absurd late inTime
  · exact absurd late otherInTime
  · exact ⟨results, states⟩

/-- With the same limits two runs also take the same time, or run out of it together. -/
theorem Program.run_agree_same
    (inward : program.calls counts limits first constants left = false) :
    (program.run limits first constants left).result =
        (program.run limits second constants right).result ∧
      (program.run limits first constants left).time =
        (program.run limits second constants right).time ∧
      kin (program.run limits first constants left).host
        (program.run limits second constants right).host := by
  have same : limits = { limits with timeout := limits.timeout } := rfl
  rcases Program.run_agree_or agree program constants alike same inward with
    ⟨different, _⟩ | ⟨results, operations, states⟩
  · exact absurd rfl different
  · exact ⟨results, by rw [Ending.time, operations]; rfl, states⟩

end Agreement

/-- Two hosts that always answer in the same way make no difference to a run. -/
theorem Program.run_same {kin : Left → Right → Prop} {first : Host Left} {second : Host Right}
    (agree : first.Agree (fun _ _ => false) kin second) (program : Program) (limits : Limits)
    (constants : List (String × Value)) {left : Left} {right : Right} (alike : kin left right) :
    (program.run limits first constants left).result =
        (program.run limits second constants right).result ∧
      (program.run limits first constants left).time =
        (program.run limits second constants right).time ∧
      kin (program.run limits first constants left).host
        (program.run limits second constants right).host :=
  Program.run_agree_same agree program constants alike
    (program.calls_eq_false limits (fun _ _ _ => rfl) constants left)

end Script

namespace HostFunctions

open Script (Host Limits Value)

/-- Whether a function tells the time or reaches for the network. -/
def isOutward (name : String) (arguments : List Value) : Bool :=
  (clock? default name arguments).isSome || (order? name arguments).isSome

theorem clock?_eq_none_iff (now later : Instant) (name : String) (arguments : List Value) :
    clock? now name arguments = none ↔ clock? later name arguments = none := by
  unfold clock?
  split <;> simp

theorem clock?_of_inward {name : String} {arguments : List Value}
    (inward : isOutward name arguments = false) (now : Instant) :
    clock? now name arguments = none := by
  rw [clock?_eq_none_iff now default]
  rw [isOutward, Bool.or_eq_false_iff] at inward
  simpa using inward.1

theorem order?_of_inward {name : String} {arguments : List Value}
    (inward : isOutward name arguments = false) : order? name arguments = none := by
  rw [isOutward, Bool.or_eq_false_iff] at inward
  simpa using inward.2

theorem readOnly_agree (now later : Instant) :
    (readOnly now).Agree isOutward (fun _ _ => True) (readOnly later) where
  print _ _ _ _ := trivial
  debug _ _ _ _ := trivial
  missing name arguments := by
    simp only [readOnly, Option.map_eq_none_iff]
    exact clock?_eq_none_iff now later name arguments
  function name arguments call other inward here there := by
    simp [readOnly, clock?_of_inward inward] at here

theorem readOnly_same (now : Instant) :
    (readOnly now).Agree (fun _ _ => false) (fun _ _ => True) (readOnly now) where
  print _ _ _ _ := trivial
  debug _ _ _ _ := trivial
  missing _ _ := Iff.rfl
  function name arguments call other _ here there left right _ := by
    rw [here] at there
    cases there
    obtain ⟨value, _, rfl⟩ := Option.map_eq_some_iff.mp here
    exact ⟨rfl, trivial⟩

/-- Effects with the same log and the same data, whatever was traced. -/
structure SameEffects (left right : Effects) : Prop where
  logs : left.logs = right.logs
  shelf : left.shelf = right.shelf

theorem log_agree (invocation : Invocation) (level message : String) {left right : Effects}
    (same : SameEffects left right) :
    (log invocation level message left).1 = (log invocation level message right).1 ∧
      SameEffects (log invocation level message left).2
        (log invocation level message right).2 :=
  ⟨rfl, congrArg (_ :: ·) same.logs, same.shelf⟩

theorem put_agree (limit : Nat) (key : String) (value : Value) {left right : Effects}
    (same : SameEffects left right) :
    (put limit key value left).1 = (put limit key value right).1 ∧
      SameEffects (put limit key value left).2 (put limit key value right).2 := by
  unfold put
  rw [same.shelf]
  cases right.shelf.put limit key value with
  | ok shelf => exact ⟨rfl, same.logs, rfl⟩
  | error problem => exact ⟨rfl, same⟩

section Effects

variable (now later : Instant) (invocation : Invocation) (limits : Limits) {others : Limits}
  (sameLimits : others = { limits with timeout := others.timeout }) (http : Option HttpAccess)

theorem effect?_eq_none_iff (name : String) (arguments : List Value) :
    effect? invocation limits http name arguments = none ↔
      effect? invocation others http name arguments = none := by
  unfold effect?
  split
  · simp
  · simp
  · simp
  · simp
  · cases http with
    | none => simp
    | some access => cases order? name arguments <;> simp

include sameLimits

theorem effect?_agree {name : String} {arguments : List Value}
    (inward : isOutward name arguments = false)
    {call other : Effects → Except Script.Problem Value × Effects}
    (here : effect? invocation limits http name arguments = some call)
    (there : effect? invocation others http name arguments = some other)
    {left right : Effects} (same : SameEffects left right) :
    (call left).1 = (other right).1 ∧ SameEffects (call left).2 (other right).2 := by
  have mapSize : others.mapSize = limits.mapSize := by rw [sameLimits]
  unfold effect? at here there
  split at here
  · cases here
    cases there
    exact log_agree invocation _ _ same
  · cases here
    cases there
    exact log_agree invocation _ _ same
  · cases here
    cases there
    rw [mapSize]
    exact put_agree _ _ _ same
  · cases here
    cases there
    exact ⟨by simp only [same.shelf], same⟩
  · rw [order?_of_inward inward] at here
    cases http <;> cases here

theorem withEffects_agree :
    (withEffects now invocation limits http).Agree isOutward SameEffects
      (withEffects later invocation others http) where
  print _ _ _ same := ⟨same.logs, same.shelf⟩
  debug _ _ _ same := ⟨same.logs, same.shelf⟩
  missing name arguments := by
    have clocks := clock?_eq_none_iff now later name arguments
    have effects : effect? invocation limits http name arguments = none ↔
        effect? invocation others http name arguments = none :=
      effect?_eq_none_iff invocation limits http name arguments
    simp only [withEffects]
    cases first : clock? now name arguments with
    | some value =>
        cases second : clock? later name arguments with
        | some other => simp
        | none => simp [first, second] at clocks
    | none =>
        rw [clocks.mp first]
        exact effects
  function name arguments call other inward here there left right same := by
    simp only [withEffects, clock?_of_inward inward] at here there
    exact effect?_agree invocation limits sameLimits http inward here there same

omit sameLimits

theorem effect?_same {name : String} {arguments : List Value}
    {call : Effects → Except Script.Problem Value × Effects}
    (here : effect? invocation limits http name arguments = some call) {left right : Effects}
    (same : SameEffects left right) :
    (call left).1 = (call right).1 ∧ SameEffects (call left).2 (call right).2 := by
  unfold effect? at here
  split at here
  · cases here
    exact log_agree invocation _ _ same
  · cases here
    exact log_agree invocation _ _ same
  · cases here
    exact put_agree _ _ _ same
  · cases here
    exact ⟨by simp only [same.shelf], same⟩
  · split at here
    · cases here
      exact ⟨rfl, same⟩
    · cases here

theorem withEffects_same :
    (withEffects now invocation limits http).Agree (fun _ _ => false) SameEffects
      (withEffects now invocation limits http) where
  print _ _ _ same := ⟨same.logs, same.shelf⟩
  debug _ _ _ same := ⟨same.logs, same.shelf⟩
  missing _ _ := Iff.rfl
  function name arguments call other _ here there left right same := by
    rw [here] at there
    cases there
    simp only [withEffects] at here
    cases told : clock? now name arguments with
    | some value =>
        simp only [told, Option.some.injEq] at here
        subst here
        exact ⟨rfl, same⟩
    | none =>
        simp only [told] at here
        exact effect?_same invocation limits http here same

end Effects

end HostFunctions

end Rulebook
