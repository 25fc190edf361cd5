import Rulebook.Proofs.Sandbox.Watch
import Rulebook.Sandbox

/-!
Whatever a script does in a sandbox stays within the scope it runs for, and what a script comes to
depends on nothing outside of that scope: not on the programs that happen to be kept, not on the
data of other scopes, and not on what was traced.
-/

namespace Rulebook

theorem DataStore.shelf_setShelf (store : DataStore) (scope other : DataScope) (shelf : Shelf) :
    (store.setShelf scope shelf).shelf other =
      if scope = other then shelf else store.shelf other := by
  unfold DataStore.shelf setShelf
  by_cases same : scope = other
  · simp [same]
  · have kept : (store.shelves.filter (·.1 ≠ scope)).find? (·.1 = other) =
        store.shelves.find? (·.1 = other) := by
      rw [List.find?_filter]
      congr 1
      funext entry
      by_cases found : entry.1 = other
      · simp [found, Ne.symm same]
      · simp [found]
    simp only [List.find?_cons, same, decide_false, if_false, kept]

namespace Sandbox

open Script (Fault Limits Program Value)

variable {sandbox other : Sandbox} {script : String} {context : ScriptContext}

/-! The programs that are kept -/

/-- Every program that is kept is what its text is compiled to. -/
def IsSound (sandbox : Sandbox) : Prop :=
  ∀ entry ∈ sandbox.programs, compileAnew sandbox.settings entry.1 = .ok entry.2

theorem IsSound.compile_eq (sound : sandbox.IsSound) (script : String) :
    (sandbox.compile script).1 = compileAnew sandbox.settings script := by
  unfold compile
  cases found : sandbox.kept? script with
  | some program =>
      obtain ⟨entry, search, rfl⟩ := Option.map_eq_some_iff.mp found
      have text : entry.1 = script := by simpa using List.find?_some search
      rw [← text, sound entry (List.mem_of_find?_eq_some search)]
  | none => cases compileAnew sandbox.settings script <;> rfl

theorem compile_keeps (sandbox : Sandbox) (script : String) :
    (sandbox.compile script).2 =
      { sandbox with programs := (sandbox.compile script).2.programs } := by
  unfold compile
  cases sandbox.kept? script with
  | some program => rfl
  | none => cases compileAnew sandbox.settings script <;> rfl

theorem IsSound.compile (sound : sandbox.IsSound) (script : String) :
    (sandbox.compile script).2.IsSound := by
  unfold Sandbox.compile
  cases sandbox.kept? script with
  | some program => exact sound
  | none =>
      cases compiled : compileAnew sandbox.settings script with
      | error fault => exact sound
      | ok program =>
          intro entry held
          rcases List.mem_cons.mp (List.mem_of_mem_take held) with rfl | held
          · exact compiled
          · exact sound entry held

/-! One run -/

def constantsOf (context : ScriptContext) : List (String × Value) :=
  context.values.map fun field => (field.1, Value.ofJson field.2)

def runProgram (now : Instant) (program : Program) (context : ScriptContext) (limits : Limits)
    (sandbox : Sandbox) : Except Fault ScriptOutput × Sandbox :=
  match context.capability with
  | .readOnly => sandbox.runReadOnly now program limits (constantsOf context)
  | .effects =>
    sandbox.runWithEffects now program context.invocation limits (constantsOf context)

theorem run_eq (now : Instant) (script : String) (context : ScriptContext) (limits : Limits)
    (sandbox : Sandbox) :
    sandbox.run now script context limits =
      match (sandbox.compile script).1 with
      | .error fault => (.error fault, (sandbox.compile script).2)
      | .ok program => (sandbox.compile script).2.runProgram now program context limits := by
  unfold run
  obtain ⟨_ | program, after⟩ := sandbox.compile script
  · rfl
  · rfl

theorem runProgram_settings (now : Instant) (program : Program) (limits : Limits) :
    (sandbox.runProgram now program context limits).2.settings = sandbox.settings := by
  unfold runProgram
  cases context.capability <;> rfl

theorem runProgram_programs (now : Instant) (program : Program) (limits : Limits) :
    (sandbox.runProgram now program context limits).2.programs = sandbox.programs := by
  unfold runProgram
  cases context.capability <;> rfl

theorem runProgram_shelf (now : Instant) (program : Program) (limits : Limits) {scope : DataScope}
    (foreign : context.invocation.scope ≠ scope) :
    (sandbox.runProgram now program context limits).2.data.shelf scope =
      sandbox.data.shelf scope := by
  unfold runProgram
  cases context.capability with
  | readOnly => rfl
  | effects =>
      change (sandbox.data.setShelf context.invocation.scope _).shelf scope = _
      rw [DataStore.shelf_setShelf, if_neg foreign]

theorem run_settings (now : Instant) (limits : Limits) :
    (sandbox.run now script context limits).2.settings = sandbox.settings := by
  have kept := compile_keeps sandbox script
  rw [run_eq]
  cases (sandbox.compile script).1 with
  | error fault =>
      change (sandbox.compile script).2.settings = _
      rw [kept]
  | ok program =>
      change ((sandbox.compile script).2.runProgram now program context limits).2.settings = _
      rw [runProgram_settings, kept]

theorem run_time_le (now : Instant) (limits : Limits) :
    sandbox.time ≤ (sandbox.run now script context limits).2.time := by
  have kept := compile_keeps sandbox script
  rw [run_eq]
  cases (sandbox.compile script).1 with
  | error fault =>
      change sandbox.time ≤ (sandbox.compile script).2.time
      exact kept ▸ Nat.le_refl _
  | ok program =>
      change sandbox.time ≤ ((sandbox.compile script).2.runProgram now program context limits).2.time
      rw [kept, runProgram]
      cases context.capability with
      | readOnly => exact Nat.le_add_right ..
      | effects => exact Nat.le_add_right ..

theorem IsSound.run (sound : sandbox.IsSound) (now : Instant) (script : String)
    (context : ScriptContext) (limits : Limits) :
    (sandbox.run now script context limits).2.IsSound := by
  have kept := sound.compile script
  rw [run_eq]
  cases (sandbox.compile script).1 with
  | error fault => exact kept
  | ok program =>
      change ((sandbox.compile script).2.runProgram now program context limits).2.IsSound
      unfold IsSound
      rw [runProgram_settings, runProgram_programs]
      exact kept

/-- A script leaves the data of all scopes alone but that of its own. -/
theorem run_shelf (now : Instant) (limits : Limits) {scope : DataScope}
    (foreign : context.invocation.scope ≠ scope) :
    (sandbox.run now script context limits).2.data.shelf scope = sandbox.data.shelf scope := by
  have kept := compile_keeps sandbox script
  rw [run_eq]
  cases (sandbox.compile script).1 with
  | error fault =>
      change (sandbox.compile script).2.data.shelf scope = _
      rw [kept]
  | ok program =>
      change ((sandbox.compile script).2.runProgram now program context limits).2.data.shelf scope
        = _
      rw [runProgram_shelf now program limits foreign, kept]

/-! Two runs -/

def programReachesOut (now : Instant) (program : Program) (context : ScriptContext)
    (limits : Limits) (sandbox : Sandbox) : Bool :=
  match context.capability with
  | .readOnly =>
    program.calls HostFunctions.isOutward limits (HostFunctions.readOnly now)
      (constantsOf context) sandbox.trace
  | .effects =>
    program.calls HostFunctions.isOutward limits
      (HostFunctions.withEffects now context.invocation limits sandbox.settings.http)
      (constantsOf context) ⟨[], sandbox.trace, sandbox.data.shelf context.invocation.scope⟩

/-- Whether a script tells the time or reaches for the network when it runs. -/
def reachesOut (now : Instant) (script : String) (context : ScriptContext) (limits : Limits)
    (sandbox : Sandbox) : Bool :=
  match (sandbox.compile script).1 with
  | .ok program => programReachesOut now program context limits sandbox
  | .error _ => false

theorem resultOf_eq {limits others : Limits}
    (same : others = { limits with timeout := others.timeout })
    {result : Except Script.Interrupt Value} (inTime : result ≠ .error .timedOut) :
    resultOf limits result = resultOf others result := by
  cases result with
  | ok value => rfl
  | error interrupt =>
      cases interrupt with
      | timedOut => exact absurd rfl inTime
      | _ => rw [same]; rfl

theorem not_timedOut {α : Type} {limits : Limits} {result : Except Script.Interrupt Value}
    {output : Json → α}
    (inTime : ∀ time, (resultOf limits result).map output ≠ .error (.timeout time)) :
    result ≠ .error .timedOut := by
  rintro rfl
  exact inTime _ rfl

section TwoRuns

variable (now later : Instant) (program : Program) (limits : Limits) {others : Limits}
  (sameLimits : others = { limits with timeout := others.timeout })
  (sameSettings : other.settings = sandbox.settings)
  (sameShelf : sandbox.data.shelf context.invocation.scope =
    other.data.shelf context.invocation.scope)

include sameLimits sameSettings sameShelf

theorem runProgram_agree
    (inward : programReachesOut now program context limits sandbox = false)
    (inTime : ∀ time, (sandbox.runProgram now program context limits).1 ≠ .error (.timeout time))
    (otherInTime :
      ∀ time, (other.runProgram later program context others).1 ≠ .error (.timeout time)) :
    (sandbox.runProgram now program context limits).1 =
        (other.runProgram later program context others).1 ∧
      (sandbox.runProgram now program context limits).2.data.shelf context.invocation.scope =
        (other.runProgram later program context others).2.data.shelf context.invocation.scope := by
  unfold runProgram at inTime otherInTime ⊢
  unfold programReachesOut at inward
  cases capability : context.capability with
  | readOnly =>
      simp only [capability] at inTime otherInTime inward ⊢
      obtain ⟨results, _⟩ := Program.run_agree (HostFunctions.readOnly_agree now later) program
        (constantsOf context) trivial sameLimits inward (not_timedOut inTime)
        (not_timedOut otherInTime)
      refine ⟨?_, sameShelf⟩
      simp only [runReadOnly]
      rw [← results, resultOf_eq sameLimits (not_timedOut inTime)]
  | effects =>
      simp only [capability] at inTime otherInTime inward ⊢
      have same : HostFunctions.SameEffects
          ⟨[], sandbox.trace, sandbox.data.shelf context.invocation.scope⟩
          ⟨[], other.trace, other.data.shelf context.invocation.scope⟩ := ⟨rfl, sameShelf⟩
      simp only [runWithEffects, sameSettings] at inTime otherInTime ⊢
      obtain ⟨results, effects⟩ := Program.run_agree
        (HostFunctions.withEffects_agree now later context.invocation limits sameLimits
          sandbox.settings.http) program (constantsOf context) same sameLimits inward
        (not_timedOut inTime) (not_timedOut otherInTime)
      refine ⟨?_, ?_⟩
      · rw [← results, resultOf_eq sameLimits (not_timedOut inTime), effects.logs]
      · rw [DataStore.shelf_setShelf, DataStore.shelf_setShelf, if_pos rfl, if_pos rfl,
          effects.shelf]

variable (script : String)

/-- A script comes to the same in two sandboxes, whatever is in them beside the data of its
scope. -/
theorem run_agree (sound : sandbox.IsSound) (otherSound : other.IsSound)
    (inward : sandbox.reachesOut now script context limits = false)
    (inTime : ∀ time, (sandbox.run now script context limits).1 ≠ .error (.timeout time))
    (otherInTime : ∀ time, (other.run later script context others).1 ≠ .error (.timeout time)) :
    (sandbox.run now script context limits).1 = (other.run later script context others).1 ∧
      (sandbox.run now script context limits).2.data.shelf context.invocation.scope =
        (other.run later script context others).2.data.shelf context.invocation.scope := by
  have kept := compile_keeps sandbox script
  have otherKept := compile_keeps other script
  rw [run_eq] at inTime otherInTime
  rw [run_eq now, run_eq later]
  unfold reachesOut at inward
  rw [sound.compile_eq] at inTime inward ⊢
  rw [otherSound.compile_eq, sameSettings] at otherInTime ⊢
  cases compiled : compileAnew sandbox.settings script with
  | error fault =>
      refine ⟨rfl, ?_⟩
      change (sandbox.compile script).2.data.shelf _ = (other.compile script).2.data.shelf _
      rw [kept, otherKept]
      exact sameShelf
  | ok program =>
      simp only [compiled] at inTime otherInTime inward
      refine runProgram_agree now later program limits sameLimits ?_ ?_ ?_ inTime otherInTime
      · rw [kept, otherKept]
        exact sameSettings
      · rw [kept, otherKept]
        exact sameShelf
      · rw [kept]
        exact inward

end TwoRuns

/-! Two runs at one time -/

section AtOneTime

variable (now : Instant) (program : Program) (limits : Limits)
  (sameSettings : other.settings = sandbox.settings)
  (sameShelf : sandbox.data.shelf context.invocation.scope =
    other.data.shelf context.invocation.scope)

include sameSettings sameShelf

theorem runProgram_same : ∃ spent,
    (sandbox.runProgram now program context limits).1 =
        (other.runProgram now program context limits).1 ∧
      (sandbox.runProgram now program context limits).2.time = sandbox.time + spent ∧
      (other.runProgram now program context limits).2.time = other.time + spent ∧
      (sandbox.runProgram now program context limits).2.data.shelf context.invocation.scope =
        (other.runProgram now program context limits).2.data.shelf context.invocation.scope := by
  unfold runProgram
  cases capability : context.capability with
  | readOnly =>
      obtain ⟨results, times, _⟩ := program.run_same (HostFunctions.readOnly_same now) limits
        (constantsOf context) trivial
      refine ⟨_, ?_, rfl, ?_, sameShelf⟩
      · simp only [runReadOnly]
        rw [results]
      · simp only [runReadOnly]
        rw [times]
  | effects =>
      have alike : HostFunctions.SameEffects
          ⟨[], sandbox.trace, sandbox.data.shelf context.invocation.scope⟩
          ⟨[], other.trace, other.data.shelf context.invocation.scope⟩ := ⟨rfl, sameShelf⟩
      obtain ⟨results, times, effects⟩ := program.run_same
        (HostFunctions.withEffects_same now context.invocation limits sandbox.settings.http) limits
        (constantsOf context) alike
      refine ⟨_, ?_, rfl, ?_, ?_⟩
      · simp only [runWithEffects, sameSettings, results, effects.logs]
      · simp only [runWithEffects, sameSettings, times]
      · simp only [runWithEffects, sameSettings, DataStore.shelf_setShelf, if_true, effects.shelf]

/-- A script comes to the same at one time in two sandboxes, and takes the same time, if there is
the same data in its scope. -/
theorem run_same (script : String) (sound : sandbox.IsSound) (otherSound : other.IsSound) : ∃ spent,
    (sandbox.run now script context limits).1 = (other.run now script context limits).1 ∧
      (sandbox.run now script context limits).2.time = sandbox.time + spent ∧
      (other.run now script context limits).2.time = other.time + spent ∧
      (sandbox.run now script context limits).2.data.shelf context.invocation.scope =
        (other.run now script context limits).2.data.shelf context.invocation.scope := by
  have kept := compile_keeps sandbox script
  have otherKept := compile_keeps other script
  rw [run_eq, run_eq, sound.compile_eq, otherSound.compile_eq, sameSettings]
  cases compileAnew sandbox.settings script with
  | error fault =>
      refine ⟨0, rfl, ?_, ?_, ?_⟩
      · rw [kept]
        rfl
      · rw [otherKept]
        rfl
      · rw [kept, otherKept]
        exact sameShelf
  | ok program =>
      have settings : (other.compile script).2.settings = (sandbox.compile script).2.settings := by
        rw [kept, otherKept]
        exact sameSettings
      have shelf : (sandbox.compile script).2.data.shelf context.invocation.scope =
          (other.compile script).2.data.shelf context.invocation.scope := by
        rw [kept, otherKept]
        exact sameShelf
      obtain ⟨spent, result, time, otherTime, after⟩ :=
        runProgram_same now program limits settings shelf
      refine ⟨spent, result, time.trans ?_, otherTime.trans ?_, after⟩
      · rw [kept]
      · rw [otherKept]

end AtOneTime

end Sandbox

end Rulebook
