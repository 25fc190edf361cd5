import Rulebook.Proofs.Rules.Steps

/-!
What an engine is told to do with its rules, it does as a whole or not at all. Every version of the
rules comes from one command that went through, and a command that is refused might as well not
have been given.
-/

namespace Rulebook

variable {World Seen α β : Type}

/-! Parts of what an engine does -/

theorem Engine.look_run (question : RuleGraph → Except Refusal α) (engine : Engine World) :
    (Engine.look question).run engine = (question engine.graph, engine) := by
  change (MonadExcept.ofExcept (question engine.graph) : EngineM World α).run engine = _
  cases question engine.graph <;> rfl

/-- A part that is refused leaves the rules as they are; one that goes through publishes a single
version of them, or nothing if it is not one that publishes. -/
structure IsWhole (publishes : Bool) (part : EngineM World α) : Prop where
  refused : ∀ engine refusal after, part.run engine = (.error refusal, after) →
    after = { engine with world := after.world }
  done : ∀ engine value after, part.run engine = (.ok value, after) →
    after = { engine with world := after.world, graph := after.graph } ∧
      if publishes then after.graph.version = engine.graph.version + 1
      else after.graph = engine.graph

/-- A part that takes something from outside, and is never refused. -/
def OnlyReads (part : EngineM World α) : Prop :=
  ∀ engine, ∃ value world, part.run engine = (.ok value, { engine with world })

namespace OnlyReads

theorem check : OnlyReads (Engine.check : EngineM World ScriptCheck) :=
  fun _ => ⟨_, _, rfl⟩

theorem now : OnlyReads (Engine.now : EngineM World Instant) :=
  fun _ => ⟨_, _, rfl⟩

theorem fresh : OnlyReads (Engine.fresh : EngineM World Uuid) :=
  fun _ => ⟨_, _, rfl⟩

end OnlyReads

namespace IsWhole

variable {publishes : Bool}

theorem after {first : EngineM World α} {rest : α → EngineM World β} (reads : OnlyReads first)
    (whole : ∀ value, IsWhole publishes (rest value)) : IsWhole publishes (first >>= rest) where
  refused engine refusal after run := by
    obtain ⟨value, world, read⟩ := reads engine
    rw [EngineM.run_bind, read] at run
    exact (whole value).refused { engine with world } refusal after run
  done engine value after run := by
    obtain ⟨read, world, reading⟩ := reads engine
    rw [EngineM.run_bind, reading] at run
    exact (whole read).done { engine with world } value after run

theorem answer {part : EngineM World α} (whole : IsWhole publishes part) (form : α → β) :
    IsWhole publishes (do return form (← part)) where
  refused engine refusal after run := by
    rw [EngineM.run_bind] at run
    rcases reached : part.run engine with ⟨_ | value, between⟩ <;> rw [reached] at run <;> cases run
    exact whole.refused engine refusal after reached
  done engine value after run := by
    rw [EngineM.run_bind] at run
    rcases reached : part.run engine with ⟨_ | value, between⟩ <;> rw [reached] at run <;> cases run
    exact whole.done engine _ after reached

/-- A change that amounts to an operation is worked on apart from the rules that everyone sees, and
takes their place at its end. -/
theorem change {change : Change α} (operation : Operation)
    (same : ∀ graph, operation.outcome graph = (change graph).map (·.2)) :
    IsWhole operation.publishes (Engine.change change : EngineM World α) where
  refused engine refusal after run := by
    rw [Engine.change_run] at run
    cases done : change engine.graph <;> rw [done] at run <;> cases run
    rfl
  done engine value after run := by
    rw [Engine.change_run] at run
    cases done : change engine.graph <;> rw [done] at run <;> cases run
    have outcome := same engine.graph
    rw [done] at outcome
    exact ⟨rfl, Operation.outcome_published outcome⟩

theorem look (question : RuleGraph → Except Refusal α) :
    IsWhole false (Engine.look question : EngineM World α) where
  refused engine refusal after run := by
    rw [Engine.look_run] at run
    rw [← (Prod.mk.inj run).2]
  done engine value after run := by
    rw [Engine.look_run] at run
    rw [← (Prod.mk.inj run).2]
    exact ⟨rfl, rfl⟩

end IsWhole

/-! Commands -/

/-- What comes back from a command; what is seen of the rules may be anything. -/
inductive Answer (Seen : Type) where
  | rule (rule : Rule)
  | trigger (trigger : Trigger)
  | action (action : Action)
  | deletion (deletion : RuleDeletion)
  | done
  | seen (value : Seen)

/-- What an engine can be told to do with its rules, and what it can be asked about them. -/
inductive Command (Seen : Type) where
  | createRule (new : NewRule)
  | updateRule (id : Uuid) (patch : RulePatch)
  | deleteRule (id : Uuid)
  | createTrigger (new : NewTrigger)
  | updateTrigger (id : Uuid) (patch : TriggerPatch)
  | deleteTrigger (id : Uuid)
  | createAction (new : NewAction)
  | updateAction (id : Uuid) (patch : ActionPatch)
  | deleteAction (id : Uuid)
  | bind (trigger action : Uuid)
  | unbind (trigger action : Uuid)
  | addRuleAction (rule action : Uuid)
  | removeRuleAction (rule action : Uuid)
  | look (question : RuleGraph → Except Refusal Seen)

namespace Command

def perform : Command Seen → EngineM World (Answer Seen)
  | .createRule new => do return .rule (← Engine.createRule new)
  | .updateRule id patch => do return .rule (← Engine.updateRule id patch)
  | .deleteRule id => do return .deletion (← Engine.deleteRule id)
  | .createTrigger new => do return .trigger (← Engine.createTrigger new)
  | .updateTrigger id patch => do return .trigger (← Engine.updateTrigger id patch)
  | .deleteTrigger id => do Engine.deleteTrigger id; return .done
  | .createAction new => do return .action (← Engine.createAction new)
  | .updateAction id patch => do return .action (← Engine.updateAction id patch)
  | .deleteAction id => do Engine.deleteAction id; return .done
  | .bind trigger action => do Engine.bind trigger action; return .done
  | .unbind trigger action => do Engine.unbind trigger action; return .done
  | .addRuleAction rule action => do return .rule (← Engine.addRuleAction rule action)
  | .removeRuleAction rule action => do return .rule (← Engine.removeRuleAction rule action)
  | .look question => do return .seen (← Engine.look question)

/-- Whether a command publishes the rules anew when it goes through. -/
def publishes : Command Seen → Bool
  | .updateRule _ patch => !patch.isEmpty
  | .look _ => false
  | _ => true

theorem perform_isWhole (command : Command Seen) :
    IsWhole command.publishes (command.perform : EngineM World (Answer Seen)) := by
  cases command with
  | createRule new =>
      exact .answer (.after .check fun check => .after .fresh fun id => .after .now fun now =>
        .change (.createRule check id now new) fun _ => rfl) _
  | updateRule id patch =>
      exact .answer (.after .check fun check => .after .now fun now =>
        .change (.updateRule check now id patch) fun _ => rfl) _
  | deleteRule id => exact .answer (.change (.deleteRule id) fun _ => rfl) _
  | createTrigger new =>
      exact .answer (.after .check fun check => .after .fresh fun id => .after .now fun now =>
        .change (.createTrigger check id now new) fun _ => rfl) _
  | updateTrigger id patch =>
      exact .answer (.after .check fun check => .after .now fun now =>
        .change (.updateTrigger check now id patch) fun _ => rfl) _
  | deleteTrigger id => exact .answer (.change (.deleteTrigger id) fun _ => rfl) _
  | createAction new =>
      exact .answer (.after .check fun check => .after .fresh fun id => .after .now fun now =>
        .change (.createAction check id now new) fun _ => rfl) _
  | updateAction id patch =>
      exact .answer (.after .check fun check => .after .now fun now =>
        .change (.updateAction check now id patch) fun _ => rfl) _
  | deleteAction id => exact .answer (.change (.deleteAction id) fun _ => rfl) _
  | bind trigger action => exact .answer (.change (.bind trigger action) fun _ => rfl) _
  | unbind trigger action => exact .answer (.change (.unbind trigger action) fun _ => rfl) _
  | addRuleAction rule action =>
      exact .answer (.after .now fun now =>
        .change (.addRuleAction now rule action) fun _ => rfl) _
  | removeRuleAction rule action =>
      exact .answer (.after .now fun now =>
        .change (.removeRuleAction now rule action) fun _ => rfl) _
  | look question => exact .answer (.look question) _

theorem perform_version (command : Command Seen) (engine : Engine World) :
    (command.perform.run engine).2.graph.version = engine.graph.version +
      if command.publishes && (command.perform.run engine).1.isOk then 1 else 0 := by
  have whole : IsWhole command.publishes (command.perform : EngineM World _) :=
    command.perform_isWhole
  rcases reached : command.perform.run engine with ⟨_ | answer, after⟩
  · have same := whole.refused _ _ _ reached
    simp only [Except.isOk, Except.toBool, Bool.and_false]
    rw [same]
    rfl
  · have made := (whole.done _ _ _ reached).2
    simp only [Except.isOk, Except.toBool, Bool.and_true]
    split at made
    next publishes => simpa [publishes] using made
    next silent => simpa [silent] using congrArg RuleGraph.version made

/-! Runs -/

/-- Carries out commands one after the other. Each comes with what is outside of the engine at that
time: the clocks, the next identifiers, what there is to check scripts with. -/
def performAll : List (World × Command Seen) → Engine World →
    List (Except Refusal (Answer Seen)) × Engine World
  | [], engine => ([], engine)
  | (world, command) :: rest, engine =>
    let reached := command.perform.run { engine with world }
    let others := performAll rest reached.2
    (reached.1 :: others.1, others.2)

/-- How many commands went through, of those that publish. -/
def published (commands : List (World × Command Seen))
    (answers : List (Except Refusal (Answer Seen))) : Nat :=
  (commands.zip answers).countP fun (given, answer) => given.2.publishes && answer.isOk

theorem performAll_version (commands : List (World × Command Seen)) (engine : Engine World) :
    (performAll commands engine).2.graph.version =
      engine.graph.version + published commands (performAll commands engine).1 := by
  induction commands generalizing engine with
  | nil => rfl
  | cons given rest ih =>
      have step := given.2.perform_version { engine with world := given.1 }
      simp only [performAll, published, List.zip_cons_cons, List.countP_cons, ih] at step ⊢
      rw [step, Nat.add_assoc, Nat.add_comm (ite _ _ _)]

theorem performAll_append (earlier later : List (World × Command Seen)) (engine : Engine World) :
    performAll (earlier ++ later) engine =
      ((performAll earlier engine).1 ++ (performAll later (performAll earlier engine).2).1,
        (performAll later (performAll earlier engine).2).2) := by
  induction earlier generalizing engine with
  | nil => rfl
  | cons given rest ih => simp only [List.cons_append, performAll, ih]

theorem performAll_length (commands : List (World × Command Seen)) (engine : Engine World) :
    (performAll commands engine).1.length = commands.length := by
  induction commands generalizing engine with
  | nil => rfl
  | cons given rest ih => simp only [performAll, List.length_cons, ih]

/-- What was outside before the first command does not count. -/
theorem performAll_world (commands : List (World × Command Seen)) (engine : Engine World)
    (world : World) :
    (performAll commands { engine with world }).1 = (performAll commands engine).1 ∧
      (performAll commands { engine with world }).2.graph =
        (performAll commands engine).2.graph := by
  cases commands with
  | nil => exact ⟨rfl, rfl⟩
  | cons given rest => exact ⟨rfl, rfl⟩

/-- A command that is refused leaves an engine that nothing later can tell from the one before. -/
theorem performAll_refused {earlier later : List (World × Command Seen)}
    {given : World × Command Seen} {engine : Engine World} {refusal : Refusal}
    (refused : (performAll (earlier ++ given :: later) engine).1[earlier.length]? =
      some (.error refusal)) :
    (performAll (earlier ++ given :: later) engine).1.eraseIdx earlier.length =
        (performAll (earlier ++ later) engine).1 ∧
      (performAll (earlier ++ given :: later) engine).2.graph =
        (performAll (earlier ++ later) engine).2.graph := by
  have length := performAll_length earlier engine
  simp only [performAll_append, performAll] at refused ⊢
  generalize performAll earlier engine = reached at refused length ⊢
  rcases run : given.2.perform.run { reached.2 with world := given.1 } with ⟨answer, after⟩
  rw [run, List.getElem?_append_right (by omega), length] at refused
  have same : answer = .error refusal := by simpa using refused
  have untouched : after = { reached.2 with world := after.world } :=
    given.2.perform_isWhole.refused { reached.2 with world := given.1 } refusal after (same ▸ run)
  rw [List.eraseIdx_append_of_length_le (by omega), length, Nat.sub_self, List.eraseIdx_cons_zero,
    untouched]
  obtain ⟨answers, graph⟩ := performAll_world later reached.2 after.world
  exact ⟨by rw [answers], graph⟩

end Command

open Command

/-- Each command is done as a whole or refused as a whole; every version that is published is that
of one command that went through; and the run without a command that is refused is the same for
all other commands. -/
theorem commands_whole_or_refused (engine : Engine World) :
    (∀ command : Command Seen, IsWhole command.publishes (command.perform : EngineM World _)) ∧
    (∀ commands : List (World × Command Seen), (performAll commands engine).2.graph.version =
      engine.graph.version + published commands (performAll commands engine).1) ∧
    ∀ (earlier later : List (World × Command Seen)) (given : World × Command Seen)
      (refusal : Refusal),
      (performAll (earlier ++ given :: later) engine).1[earlier.length]? = some (.error refusal) →
      (performAll (earlier ++ given :: later) engine).1.eraseIdx earlier.length =
          (performAll (earlier ++ later) engine).1 ∧
        (performAll (earlier ++ given :: later) engine).2.graph =
          (performAll (earlier ++ later) engine).2.graph :=
  ⟨Command.perform_isWhole, fun commands => performAll_version commands engine,
    fun _ _ _ _ => performAll_refused⟩

/-- A platform in which every identifier is as good as any other: the next one is its world. -/
def givingPlatform : Platform Uuid where
  check _ _ := .ok ()
  run _ _ _ next := (.ok ⟨.null, []⟩, next)
  clock next := (0, next)
  now next := (⟨0, 0⟩, next)
  fresh next := (next, next)

def hotRuleCommands : List (Uuid × Command Nat) :=
  [(⟨1⟩, .createRule ⟨"hot", "true", 0, true⟩),
    (⟨2⟩, .createAction ⟨none, "1", true⟩),
    (⟨0⟩, .addRuleAction ⟨1⟩ ⟨2⟩)]

def furtherCommands : List (Uuid × Command Nat) :=
  [(⟨0⟩, .updateRule ⟨1⟩ ⟨none, none, none, none⟩),
    (⟨3⟩, .createTrigger ⟨⟨1⟩, .unconditional, none, true⟩),
    (⟨0⟩, .removeRuleAction ⟨1⟩ ⟨3⟩),
    (⟨0⟩, .look fun graph => .ok graph.version)]

/-- An action is added to its rule a second time. -/
theorem hotRuleCommands_whole_or_refused :
    let engine := Engine.create givingPlatform {} ⟨0⟩
    let again : Uuid × Command Nat := (⟨0⟩, .addRuleAction ⟨1⟩ ⟨2⟩)
    let conflict : Refusal := .conflict
      "动作 00000000-0000-0000-0000-000000000002 已在规则 00000000-0000-0000-0000-000000000001 中"
    let served := performAll (hotRuleCommands ++ again :: furtherCommands) engine
    let spared := performAll (hotRuleCommands ++ furtherCommands) engine
    served.1[3]? = some (.error conflict) ∧ served.2.graph.version = 4 ∧
      served.1.eraseIdx 3 = spared.1 ∧ served.2.graph = spared.2.graph := by
  intro engine again conflict served spared
  obtain ⟨_, version, unnoticed⟩ := @commands_whole_or_refused Uuid Nat engine
  have refused : served.1[3]? = some (.error conflict) := by rfl
  have counted : published (hotRuleCommands ++ again :: furtherCommands) served.1 = 4 := by
    decide +kernel
  refine ⟨refused, ?_, unnoticed hotRuleCommands furtherCommands again conflict refused⟩
  rw [version, counted]
  rfl

end Rulebook
