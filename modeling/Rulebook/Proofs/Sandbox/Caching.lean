import Mathlib.Data.List.Dedup
import Mathlib.Data.List.Perm.Subperm
import Rulebook.Proofs.Sandbox.Confinement

/-!
The programs that a sandbox keeps only save it work. Whichever of them leave, and whenever, every
call is answered as if none were kept, and texts without a program are never among them.
-/

namespace Rulebook

open Script (Fault Limits Program)

/-! Calls -/

inductive ScriptCall where
  | check (script : String)
  | run (now : Instant) (script : String) (context : ScriptContext) (limits : Limits)

inductive ScriptReply where
  | checked (result : Except Fault Unit)
  | ran (result : Except Fault ScriptOutput)

namespace ScriptCall

def script : ScriptCall → String
  | .check script => script
  | .run _ script _ _ => script

def failing (fault : Fault) : ScriptCall → ScriptReply
  | .check _ => .checked (.error fault)
  | .run .. => .ran (.error fault)

end ScriptCall

namespace Sandbox

variable {sandbox start last : Sandbox} {script : String} {call : ScriptCall}
  {calls : List ScriptCall} {replies : List ScriptReply}

def serve (call : ScriptCall) (sandbox : Sandbox) : ScriptReply × Sandbox :=
  match call with
  | .check script =>
    let (result, sandbox) := sandbox.check script
    (.checked result, sandbox)
  | .run now script context limits =>
    let (result, sandbox) := sandbox.run now script context limits
    (.ran result, sandbox)

def serveAll : List ScriptCall → Sandbox → List ScriptReply × Sandbox
  | [], sandbox => ([], sandbox)
  | call :: rest, sandbox =>
    let (reply, sandbox) := sandbox.serve call
    let (replies, sandbox) := sandbox.serveAll rest
    (reply :: replies, sandbox)

/-- The same sandbox with its cache switched off. -/
def uncached (sandbox : Sandbox) : Sandbox :=
  { sandbox with settings := { sandbox.settings with cacheSize := 0 }, programs := [] }

def texts (sandbox : Sandbox) : List String :=
  sandbox.programs.map (·.1)

/-- What there is to keep once a text was compiled, before anything leaves. -/
def keepable (script : String) (sandbox : Sandbox) : List (String × Program) :=
  if sandbox.settings.cacheSize = 0 then []
  else match sandbox.kept? script, compileAnew sandbox.settings script with
    | none, .ok program => (script, program) :: sandbox.programs
    | _, _ => sandbox.programs

/-- Calls that are answered one after the other, where some of the kept programs may leave after
each of them: `leaves` says what may be left of those that there are to keep. -/
inductive Course (leaves : List (String × Program) → List (String × Program) → Prop) :
    Sandbox → List ScriptCall → List ScriptReply → Sandbox → Prop where
  | done (sandbox : Sandbox) : Course leaves sandbox [] [] sandbox
  | call {sandbox last : Sandbox} {call : ScriptCall} {programs : List (String × Program)}
      {calls : List ScriptCall} {replies : List ScriptReply} :
      leaves programs (sandbox.keepable call.script) →
      Course leaves { (sandbox.serve call).2 with programs } calls replies last →
        Course leaves sandbox (call :: calls) ((sandbox.serve call).1 :: replies) last

/-! One call -/

theorem serve_settings (call : ScriptCall) (sandbox : Sandbox) :
    (sandbox.serve call).2.settings = sandbox.settings := by
  cases call with
  | check script =>
      change (sandbox.compile script).2.settings = sandbox.settings
      rw [compile_keeps]
  | run now script context limits => exact run_settings now limits

theorem runProgram_uncached (now : Instant) (program : Program) (context : ScriptContext)
    (limits : Limits) (sandbox : Sandbox) :
    sandbox.uncached.runProgram now program context limits =
      ((sandbox.runProgram now program context limits).1,
        (sandbox.runProgram now program context limits).2.uncached) := by
  unfold runProgram
  cases context.capability with
  | readOnly => rfl
  | effects => rfl

theorem uncached_isSound (sandbox : Sandbox) : sandbox.uncached.IsSound :=
  fun _ held => nomatch held

theorem compile_uncached (script : String) (sandbox : Sandbox) :
    (sandbox.compile script).2.uncached = sandbox.uncached := by
  rw [compile_keeps]
  rfl

theorem uncached_compile (script : String) (sandbox : Sandbox) :
    (sandbox.uncached.compile script).2 = sandbox.uncached := by
  have nothing : sandbox.uncached.kept? script = none := rfl
  rw [compile, nothing]
  cases compileAnew sandbox.uncached.settings script <;> rfl

theorem IsSound.serve_uncached (sound : sandbox.IsSound) (call : ScriptCall) :
    sandbox.uncached.serve call =
      ((sandbox.serve call).1, (sandbox.serve call).2.uncached) := by
  have same (script : String) :
      (sandbox.uncached.compile script).1 = (sandbox.compile script).1 := by
    rw [sandbox.uncached_isSound.compile_eq, sound.compile_eq]
    rfl
  cases call with
  | check script =>
      change (ScriptReply.checked ((sandbox.uncached.compile script).1.map fun _ => ()),
        (sandbox.uncached.compile script).2) = (.checked ((sandbox.compile script).1.map fun _ => ()),
          (sandbox.compile script).2.uncached)
      rw [same, uncached_compile, compile_uncached]
  | run now script context limits =>
      change (ScriptReply.ran (sandbox.uncached.run now script context limits).1,
        (sandbox.uncached.run now script context limits).2) =
          (.ran (sandbox.run now script context limits).1,
            (sandbox.run now script context limits).2.uncached)
      rw [run_eq, run_eq, same, uncached_compile, ← compile_uncached script]
      cases (sandbox.compile script).1 with
      | error fault => rfl
      | ok program =>
          exact congrArg (fun reached : _ × Sandbox => (ScriptReply.ran reached.1, reached.2))
            (runProgram_uncached now program context limits (sandbox.compile script).2)

theorem IsSound.serve_failing (sound : sandbox.IsSound) {fault : Fault}
    (fails : compileAnew sandbox.settings call.script = .error fault) :
    (sandbox.serve call).1 = call.failing fault := by
  have compiled := sound.compile_eq call.script
  rw [fails] at compiled
  cases call with
  | check script =>
      change ScriptReply.checked ((sandbox.compile script).1.map fun _ => ()) = _
      rw [show (sandbox.compile script).1 = .error fault from compiled]
      rfl
  | run now script context limits =>
      change ScriptReply.ran (sandbox.run now script context limits).1 = _
      rw [run_eq, show (sandbox.compile script).1 = .error fault from compiled]
      rfl

/-! What is kept -/

theorem kept_eq_none_iff : sandbox.kept? script = none ↔ script ∉ sandbox.texts := by
  rw [kept?, Option.map_eq_none_iff, List.find?_eq_none, texts, List.mem_map]
  constructor
  · rintro none ⟨entry, held, rfl⟩
    exact none entry held (beq_self_eq_true _)
  · intro none entry held same
    exact none ⟨entry, held, eq_of_beq same⟩

def compiles (settings : SandboxSettings) (script : String) : Bool :=
  (compileAnew settings script).isOk

/-- The text joins those that are kept if it has a program and is not among them. -/
theorem keepable_texts (caches : sandbox.settings.cacheSize ≠ 0) (script : String) :
    (sandbox.keepable script).map (·.1) =
      if compiles sandbox.settings script then sandbox.texts.insert script else sandbox.texts := by
  rw [keepable, if_neg caches, compiles]
  cases kept : sandbox.kept? script with
  | none =>
      have missing := kept_eq_none_iff.mp kept
      cases compileAnew sandbox.settings script with
      | ok program => exact (List.insert_of_not_mem missing).symm
      | error fault => rfl
  | some program =>
      have held : script ∈ sandbox.texts := by
        by_contra missing
        rw [kept_eq_none_iff.mpr missing] at kept
        cases kept
      cases compileAnew sandbox.settings script with
      | ok program => exact (List.insert_of_mem held).symm
      | error fault => rfl

theorem IsSound.keepable (sound : sandbox.IsSound) (script : String) :
    ∀ entry ∈ sandbox.keepable script, compileAnew sandbox.settings entry.1 = .ok entry.2 := by
  intro entry held
  rw [Sandbox.keepable] at held
  split at held
  · cases held
  · split at held
    next program _ compiled =>
      rcases List.mem_cons.mp held with rfl | held
      · exact compiled
      · exact sound entry held
    next => exact sound entry held

/-! Courses -/

namespace Course

variable {leaves : List (String × Program) → List (String × Program) → Prop}

theorem settings (course : Course leaves start calls replies last) :
    last.settings = start.settings := by
  induction course with
  | done sandbox => rfl
  | @call sandbox _ call _ _ _ _ _ ih => exact ih.trans (serve_settings call sandbox)

end Course

theorem IsSound.left (sound : sandbox.IsSound) {programs : List (String × Program)}
    (left : programs.Sublist (sandbox.keepable call.script)) :
    IsSound { (sandbox.serve call).2 with programs } := by
  intro entry held
  change compileAnew (sandbox.serve call).2.settings entry.1 = .ok entry.2
  rw [serve_settings]
  exact sound.keepable call.script entry (left.subset held)

namespace Course

theorem sound (course : Course List.Sublist start calls replies last) (sound : start.IsSound) :
    last.IsSound := by
  induction course with
  | done sandbox => exact sound
  | call left _ ih => exact ih (sound.left left)

theorem replies_eq (course : Course List.Sublist start calls replies last)
    (sound : start.IsSound) : start.uncached.serveAll calls = (replies, last.uncached) := by
  induction course with
  | done sandbox => rfl
  | @call sandbox last call programs calls replies left _ ih =>
      have rest : (sandbox.serve call).2.uncached.serveAll calls = (replies, last.uncached) :=
        ih (sound.left left)
      rw [serveAll, sound.serve_uncached]
      change (_ :: ((sandbox.serve call).2.uncached.serveAll calls).1,
        ((sandbox.serve call).2.uncached.serveAll calls).2) = _
      rw [rest]

theorem failing (course : Course List.Sublist start calls replies last) (sound : start.IsSound)
    {fault : Fault} (fails : compileAnew start.settings script = .error fault) :
    ∀ answered ∈ calls.zip replies, answered.1.script = script →
      answered.2 = answered.1.failing fault := by
  induction course with
  | done sandbox => exact fun _ held => nomatch held
  | @call sandbox last call programs calls replies left _ ih =>
      intro answered held same
      rcases List.mem_cons.mp held with rfl | later
      · exact sound.serve_failing (same ▸ fails)
      · refine ih (sound.left left) ?_ answered later same
        rw [← fails]
        exact congrArg (compileAnew · script) (serve_settings call sandbox)

theorem not_kept (course : Course List.Sublist start calls replies last) (sound : start.IsSound)
    {fault : Fault} (fails : compileAnew start.settings script = .error fault) :
    script ∉ last.texts := by
  intro held
  obtain ⟨entry, kept, rfl⟩ := List.mem_map.mp held
  have compiled := course.sound sound entry kept
  rw [course.settings, fails] at compiled
  cases compiled

end Course

/-- The texts among those of calls that have programs. -/
def compiled (settings : SandboxSettings) (calls : List ScriptCall) : List String :=
  (calls.map (·.script)).filter (compiles settings)

namespace Course

theorem texts (course : Course Eq start calls replies last)
    (caches : start.settings.cacheSize ≠ 0) (distinct : start.texts.Nodup) :
    last.texts.Nodup ∧ ∀ text, text ∈ last.texts ↔
      text ∈ start.texts ∨ text ∈ compiled start.settings calls := by
  induction course with
  | done sandbox => exact ⟨distinct, fun text => by simp [compiled]⟩
  | @call sandbox last call programs calls replies left _ ih =>
      have same := serve_settings call sandbox
      have joined := keepable_texts caches call.script
      rw [← left] at joined
      change Sandbox.texts { (sandbox.serve call).2 with programs } = _ at joined
      obtain ⟨nodup, members⟩ := ih (same ▸ caches) (by
        rw [joined]
        split
        · exact distinct.insert
        · exact distinct)
      refine ⟨nodup, fun text => (members text).trans ?_⟩
      rw [joined]
      change _ ∨ text ∈ compiled (sandbox.serve call).2.settings calls ↔ _
      rw [same]
      by_cases compiles : compiles sandbox.settings call.script = true
      · simp only [compiles, if_true, List.mem_insert_iff, compiled, List.map_cons,
          List.filter_cons_of_pos, List.mem_cons]
        tauto
      · simp [compiles, compiled]

theorem programs_length (course : Course Eq start calls replies last)
    (empty : start.programs = []) : last.programs.length =
      if start.settings.cacheSize = 0 then 0
      else (compiled start.settings calls).dedup.length := by
  split
  next off =>
    induction course with
    | done sandbox => rw [empty]; rfl
    | @call sandbox last call programs calls replies left _ ih =>
        refine ih ?_ ?_
        · rw [left, Sandbox.keepable, if_pos off]
        · exact (congrArg SandboxSettings.cacheSize (serve_settings call sandbox)).trans off
  next caches =>
    have none : start.texts = [] := by rw [Sandbox.texts, empty, List.map_nil]
    obtain ⟨nodup, members⟩ := course.texts caches (by rw [none]; exact List.nodup_nil)
    have same : last.texts.Perm (compiled start.settings calls).dedup := by
      rw [List.perm_ext_iff_of_nodup nodup (List.nodup_dedup _)]
      intro text
      rw [members, none, List.mem_dedup]
      simp
    rw [← same.length_eq, Sandbox.texts, List.length_map]

end Course

/-! What a sandbox does by itself -/

/-- The latest programs are kept, as many as there is room for. -/
theorem serve_programs (fits : sandbox.programs.length ≤ sandbox.settings.cacheSize)
    (call : ScriptCall) : (sandbox.serve call).2.programs =
      (sandbox.keepable call.script).take sandbox.settings.cacheSize := by
  have compiled : (sandbox.serve call).2.programs =
      (sandbox.compile call.script).2.programs := by
    cases call with
    | check script => rfl
    | run now script context limits =>
        change (sandbox.run now script context limits).2.programs = (sandbox.compile script).2.programs
        rw [run_eq]
        cases (sandbox.compile script).1 with
        | error fault => rfl
        | ok program => exact runProgram_programs now program limits
  rw [compiled, Sandbox.compile, keepable]
  by_cases off : sandbox.settings.cacheSize = 0
  · have empty : sandbox.programs = [] := List.length_eq_zero_iff.mp (by omega)
    have missing : sandbox.kept? call.script = none := by rw [kept?, empty]; rfl
    rw [if_pos off, missing]
    cases compileAnew sandbox.settings call.script with
    | ok program => simp [keep, off]
    | error fault => simp [empty]
  · rw [if_neg off]
    cases sandbox.kept? call.script with
    | none =>
        cases compileAnew sandbox.settings call.script with
        | ok program => rfl
        | error fault => exact (List.take_of_length_le fits).symm
    | some program =>
        cases compileAnew sandbox.settings call.script with
        | ok program => exact (List.take_of_length_le fits).symm
        | error fault => exact (List.take_of_length_le fits).symm

theorem serve_fits (fits : sandbox.programs.length ≤ sandbox.settings.cacheSize)
    (call : ScriptCall) :
    (sandbox.serve call).2.programs.length ≤ (sandbox.serve call).2.settings.cacheSize := by
  rw [serve_programs fits, serve_settings]
  exact List.length_take_le _ _

theorem serveAll_course (fits : sandbox.programs.length ≤ sandbox.settings.cacheSize)
    (calls : List ScriptCall) : Course List.Sublist sandbox calls (sandbox.serveAll calls).1
      (sandbox.serveAll calls).2 := by
  induction calls generalizing sandbox with
  | nil => exact .done sandbox
  | cons call rest ih =>
      have left : (sandbox.serve call).2.programs.Sublist (sandbox.keepable call.script) := by
        rw [serve_programs fits]
        exact List.take_sublist _ _
      exact .call left (ih (serve_fits fits call))

theorem dedup_length_le {these those : List String} (among : these ⊆ those) :
    these.dedup.length ≤ those.dedup.length :=
  ((List.nodup_dedup these).subperm fun _ held =>
    List.mem_dedup.mpr (among (List.mem_dedup.mp held))).length_le

theorem compiled_cons (settings : SandboxSettings) (call : ScriptCall) (rest : List ScriptCall) :
    compiled settings (call :: rest) = compiled settings [call] ++ compiled settings rest := by
  rw [compiled, compiled, compiled, ← List.filter_append]
  rfl

theorem keepable_among (distinct : sandbox.texts.Nodup) (call : ScriptCall) :
    ((sandbox.keepable call.script).map (·.1)).Nodup ∧
      (sandbox.keepable call.script).map (·.1) ⊆
        sandbox.texts ++ compiled sandbox.settings [call] := by
  by_cases off : sandbox.settings.cacheSize = 0
  · rw [keepable, if_pos off]
    exact ⟨List.nodup_nil, List.nil_subset _⟩
  · rw [keepable_texts off]
    by_cases compiles : compiles sandbox.settings call.script = true
    · rw [if_pos compiles]
      refine ⟨distinct.insert, fun text held => ?_⟩
      simpa [compiled, compiles, or_comm] using held
    · rw [if_neg compiles]
      exact ⟨distinct, List.subset_append_left _ _⟩

/-- Nothing leaves while there is room for all texts that have programs. -/
theorem serveAll_keeps (fits : sandbox.programs.length ≤ sandbox.settings.cacheSize)
    (distinct : sandbox.texts.Nodup) (calls : List ScriptCall)
    (room : (sandbox.texts ++ compiled sandbox.settings calls).dedup.length ≤
      sandbox.settings.cacheSize) :
    Course Eq sandbox calls (sandbox.serveAll calls).1 (sandbox.serveAll calls).2 := by
  induction calls generalizing sandbox with
  | nil => exact .done sandbox
  | cons call rest ih =>
      obtain ⟨nodup, among⟩ := keepable_among distinct call
      rw [compiled_cons, ← List.append_assoc] at room
      have few : (sandbox.keepable call.script).length ≤ sandbox.settings.cacheSize := by
        have fewer := dedup_length_le (List.subset_append_of_subset_left
          (compiled sandbox.settings rest) among)
        rw [nodup.dedup, List.length_map] at fewer
        exact Nat.le_trans fewer room
      have left : (sandbox.serve call).2.programs = sandbox.keepable call.script := by
        rw [serve_programs fits, List.take_of_length_le few]
      have texts : (sandbox.serve call).2.texts = (sandbox.keepable call.script).map (·.1) := by
        rw [Sandbox.texts, left]
      refine .call left (ih (serve_fits fits call) (texts ▸ nodup) ?_)
      have fewer := dedup_length_le (List.append_subset_of_subset_of_subset
        (List.subset_append_of_subset_left (compiled sandbox.settings rest) among)
        (List.subset_append_right _ _))
      rw [texts, serve_settings]
      exact Nat.le_trans fewer room

/-- Whatever leaves the cache and whenever: every call is answered, and all that outlives it is, as
if there were no cache; a text without a program is not kept, and always fails by its own fault. If
nothing leaves, one program is kept for each text that has one, and none by a cache without room.
A sandbox that lets the oldest programs go is a case of this, and nothing leaves it while there is
room. -/
theorem cache_unnoticed (start : Sandbox) (empty : start.programs = []) (calls : List ScriptCall) :
    (∀ replies last, Course List.Sublist start calls replies last →
      start.uncached.serveAll calls = (replies, last.uncached) ∧
      ∀ script fault, (start.uncached.check script).1 = .error fault →
        script ∉ last.texts ∧ ∀ answered ∈ calls.zip replies, answered.1.script = script →
          answered.2 = answered.1.failing fault) ∧
    (∀ replies last, Course Eq start calls replies last → last.programs.length =
      if start.settings.cacheSize = 0 then 0
      else (compiled start.settings calls).dedup.length) ∧
    Course List.Sublist start calls (start.serveAll calls).1 (start.serveAll calls).2 ∧
    ((compiled start.settings calls).dedup.length ≤ start.settings.cacheSize →
      Course Eq start calls (start.serveAll calls).1 (start.serveAll calls).2) := by
  have sound : start.IsSound := fun entry held => by rw [empty] at held; cases held
  have fits : start.programs.length ≤ start.settings.cacheSize := by rw [empty]; exact Nat.zero_le _
  have none : start.texts = [] := by rw [texts, empty, List.map_nil]
  refine ⟨fun replies last course => ⟨course.replies_eq sound, fun script fault fails => ?_⟩,
    fun replies last course => course.programs_length empty, serveAll_course fits calls, ?_⟩
  · have failed : compileAnew start.settings script = .error fault := by
      change ((start.uncached.compile script).1.map fun _ => ()) = .error fault at fails
      rw [start.uncached_isSound.compile_eq] at fails
      change (compileAnew start.settings script).map _ = _ at fails
      cases compiled : compileAnew start.settings script with
      | ok program => rw [compiled] at fails; cases fails
      | error other => rw [compiled] at fails; cases fails; rfl
    exact ⟨course.not_kept sound failed, course.failing sound failed⟩
  · intro room
    refine serveAll_keeps fits (by rw [none]; exact List.nodup_nil) calls ?_
    rw [none]
    exact room

/-- Two texts of one program, and a text without any: there is room for both of them. -/
theorem blankBefore_unnoticed :
    let start : Sandbox := { settings := ⟨64, 2, none⟩ }
    let calls : List ScriptCall := ["1", "1 +", " 1", "1"].map .check
    start.programs = [] ∧ (start.serveAll calls).2.programs.length = 2 ∧
      start.uncached.serveAll calls =
        ((start.serveAll calls).1, (start.serveAll calls).2.uncached) := by
  intro start calls
  obtain ⟨unnoticed, counted, serving, keeps⟩ := cache_unnoticed start rfl calls
  have texts : (compiled start.settings calls).dedup.length = 2 := by decide +kernel
  refine ⟨rfl, ?_, (unnoticed _ _ serving).1⟩
  rw [counted _ _ (keeps (Nat.le_of_eq texts)), texts]
  rfl

end Sandbox

end Rulebook
