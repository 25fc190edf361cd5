import Rulebook.Proofs.Rules.Content

/-!
Patches of rules, triggers and actions. A patch that goes through touches its own entity, there its
own fields, and nothing else; two patches in a row are one patch, and patches that have no field in
common can go through in either order.
-/

namespace Rulebook

theorem IfGiven.or {good : String → Prop} {first second : Option String}
    (one : IfGiven good first) (other : IfGiven good second) : IfGiven good (first.or second) := by
  cases first with
  | none => simpa using other
  | some text => simpa using one

theorem Option.or_comm_of_apart {α : Type} {left right : Option α}
    (apart : left = none ∨ right = none) : left.or right = right.or left := by
  rcases apart with rfl | rfl
  · rw [Option.none_or, Option.or_none]
  · rw [Option.none_or, Option.or_none]

/-! Two patches as one -/

def RulePatch.overriddenBy (patch later : RulePatch) : RulePatch where
  name := later.name.or patch.name
  script := later.script.or patch.script
  priority := later.priority.or patch.priority
  enabled := later.enabled.or patch.enabled

def TriggerPatch.overriddenBy (patch later : TriggerPatch) : TriggerPatch where
  condition := later.condition.or patch.condition
  enabled := later.enabled.or patch.enabled

def ActionPatch.overriddenBy (patch later : ActionPatch) : ActionPatch where
  name := later.name.or patch.name
  script := later.script.or patch.script
  enabled := later.enabled.or patch.enabled

/-- No field is given by both. -/
structure RulePatch.IsApartFrom (patch other : RulePatch) : Prop where
  name : patch.name = none ∨ other.name = none
  script : patch.script = none ∨ other.script = none
  priority : patch.priority = none ∨ other.priority = none
  enabled : patch.enabled = none ∨ other.enabled = none

structure TriggerPatch.IsApartFrom (patch other : TriggerPatch) : Prop where
  condition : patch.condition = none ∨ other.condition = none
  enabled : patch.enabled = none ∨ other.enabled = none

structure ActionPatch.IsApartFrom (patch other : ActionPatch) : Prop where
  name : patch.name = none ∨ other.name = none
  script : patch.script = none ∨ other.script = none
  enabled : patch.enabled = none ∨ other.enabled = none

theorem RulePatch.IsApartFrom.overriddenBy_comm {patch other : RulePatch}
    (apart : patch.IsApartFrom other) : patch.overriddenBy other = other.overriddenBy patch := by
  simp only [overriddenBy, Option.or_comm_of_apart apart.name,
    Option.or_comm_of_apart apart.script, Option.or_comm_of_apart apart.priority,
    Option.or_comm_of_apart apart.enabled]

theorem TriggerPatch.IsApartFrom.overriddenBy_comm {patch other : TriggerPatch}
    (apart : patch.IsApartFrom other) : patch.overriddenBy other = other.overriddenBy patch := by
  simp only [overriddenBy, Option.or_comm_of_apart apart.condition,
    Option.or_comm_of_apart apart.enabled]

theorem ActionPatch.IsApartFrom.overriddenBy_comm {patch other : ActionPatch}
    (apart : patch.IsApartFrom other) : patch.overriddenBy other = other.overriddenBy patch := by
  simp only [overriddenBy, Option.or_comm_of_apart apart.name,
    Option.or_comm_of_apart apart.script, Option.or_comm_of_apart apart.enabled]

namespace Change

theorem applyRulePatch_overriddenBy (patch later : RulePatch) (earlier now : Instant)
    (rule : Rule) :
    applyRulePatch later now (applyRulePatch patch earlier rule) =
      applyRulePatch (patch.overriddenBy later) now rule := by
  simp only [applyRulePatch, RulePatch.overriddenBy, Option.getD_or]

theorem applyTriggerPatch_overriddenBy (patch later : TriggerPatch) (earlier now : Instant)
    (trigger : Trigger) :
    applyTriggerPatch later now (applyTriggerPatch patch earlier trigger) =
      applyTriggerPatch (patch.overriddenBy later) now trigger := by
  simp only [applyTriggerPatch, TriggerPatch.overriddenBy, Option.getD_or, Option.or_assoc]

theorem applyActionPatch_overriddenBy (patch later : ActionPatch) (earlier now : Instant)
    (action : Action) :
    applyActionPatch later now (applyActionPatch patch earlier action) =
      applyActionPatch (patch.overriddenBy later) now action := by
  simp only [applyActionPatch, ActionPatch.overriddenBy, Option.getD_or, Option.or_assoc]

theorem applyRulePatch_of_isEmpty {patch : RulePatch} (nothing : patch.isEmpty = true)
    (rule : Rule) : applyRulePatch patch rule.updatedAt rule = rule := by
  simp only [RulePatch.isEmpty, Bool.and_eq_true, Option.isNone_iff_eq_none] at nothing
  simp [applyRulePatch, nothing]

end Change

/-- A patch, and what it is for. -/
inductive Amendment where
  | rule (id : Uuid) (patch : RulePatch)
  | trigger (id : Uuid) (patch : TriggerPatch)
  | action (id : Uuid) (patch : ActionPatch)

namespace Amendment

variable {amendment first second merged : Amendment} {check : ScriptCheck} {now : Instant}
  {graph next : RuleGraph}

def operation (check : ScriptCheck) (now : Instant) : Amendment → Operation
  | .rule id patch => .updateRule check now id patch
  | .trigger id patch => .updateTrigger check now id patch
  | .action id patch => .updateAction check now id patch

/-- Two patches of one entity, and the one in which the fields of the second one prevail. -/
inductive Merge : Amendment → Amendment → Amendment → Prop where
  | rule (id : Uuid) (patch later : RulePatch) :
      Merge (.rule id patch) (.rule id later) (.rule id (patch.overriddenBy later))
  | trigger (id : Uuid) (patch later : TriggerPatch) :
      Merge (.trigger id patch) (.trigger id later) (.trigger id (patch.overriddenBy later))
  | action (id : Uuid) (patch later : ActionPatch) :
      Merge (.action id patch) (.action id later) (.action id (patch.overriddenBy later))

/-- The patches are for different entities, or for different fields of one. -/
def IsApartFrom : Amendment → Amendment → Prop
  | .rule id patch, .rule other later => id = other → patch.IsApartFrom later
  | .trigger id patch, .trigger other later => id = other → patch.IsApartFrom later
  | .action id patch, .action other later => id = other → patch.IsApartFrom later
  | _, _ => True

/-! What a patch asks for, and what it does -/

/-- What lets a patch go through. -/
def Suits (check : ScriptCheck) (graph : RuleGraph) : Amendment → Prop
  | .rule id patch =>
    IfGiven IsName patch.name ∧ IfGiven (IsScript check) patch.script ∧
      (graph.rules.get? id).isSome
  | .trigger id patch =>
    IfGiven (IsScript check) patch.condition ∧
      ∃ kind, (graph.triggers.get? id).map (·.kind) = some kind ∧
        (patch.condition.isSome → kind = .conditional)
  | .action id patch =>
    IfGiven IsName patch.name ∧ IfGiven (IsScript check) patch.script ∧
      (graph.actions.get? id).isSome

def amended (now : Instant) (graph : RuleGraph) : Amendment → RuleGraph
  | .rule id patch =>
    if patch.isEmpty then graph
    else { graph.aged with rules := graph.rules.modify id (Change.applyRulePatch patch now) }
  | .trigger id patch =>
    { graph.aged with triggers := graph.triggers.modify id (Change.applyTriggerPatch patch now) }
  | .action id patch =>
    { graph.aged with actions := graph.actions.modify id (Change.applyActionPatch patch now) }

theorem outcome_eq_ok (intact : graph.Intact) :
    (amendment.operation check now).outcome graph = .ok next ↔
      amendment.Suits check graph ∧ next = amendment.amended now graph := by
  cases amendment with
  | rule id patch =>
      have put {old : Rule} (found : graph.rules.get? id = some old) :=
        intact.rules.put_eq_modify found (Change.applyRulePatch patch now) rfl
      simp only [operation, Operation.outcome, Operation.map_snd_eq_ok, Change.updateRule_eq_ok,
        Suits, amended, Option.isSome_iff_exists]
      by_cases nothing : patch.isEmpty = true
      · simp only [nothing, if_true]
        constructor
        · rintro ⟨made, ⟨name, script⟩, old, found, _, rfl⟩
          exact ⟨⟨name, script, old, found⟩, rfl⟩
        · rintro ⟨⟨name, script, old, found⟩, rfl⟩
          exact ⟨old, ⟨name, script⟩, old, found, rfl, rfl⟩
      · simp only [nothing]
        constructor
        · rintro ⟨made, ⟨name, script⟩, old, found, rfl, rfl⟩
          exact ⟨⟨name, script, old, found⟩, by rw [put found]; rfl⟩
        · rintro ⟨⟨name, script, old, found⟩, rfl⟩
          exact ⟨_, ⟨name, script⟩, old, found, rfl, by rw [put found]; rfl⟩
  | trigger id patch =>
      have put {old : Trigger} (found : graph.triggers.get? id = some old) :=
        intact.triggers.put_eq_modify found (Change.applyTriggerPatch patch now) rfl
      simp only [operation, Operation.outcome, Operation.map_snd_eq_ok, Change.updateTrigger_eq_ok,
        Suits, amended, Option.map_eq_some_iff]
      constructor
      · rintro ⟨made, script, old, found, fits, rfl, rfl⟩
        exact ⟨⟨script, old.kind, ⟨old, found, rfl⟩, by simpa using fits⟩, by rw [put found]; rfl⟩
      · rintro ⟨⟨script, _, ⟨old, found, rfl⟩, fits⟩, rfl⟩
        exact ⟨_, script, old, found, by simpa using fits, rfl, by rw [put found]; rfl⟩
  | action id patch =>
      have put {old : Action} (found : graph.actions.get? id = some old) :=
        intact.actions.put_eq_modify found (Change.applyActionPatch patch now) rfl
      simp only [operation, Operation.outcome, Operation.map_snd_eq_ok, Change.updateAction_eq_ok,
        Suits, amended, Option.isSome_iff_exists]
      constructor
      · rintro ⟨made, ⟨name, script⟩, old, found, rfl, rfl⟩
        exact ⟨⟨name, script, old, found⟩, by rw [put found]; rfl⟩
      · rintro ⟨⟨name, script, old, found⟩, rfl⟩
        exact ⟨_, ⟨name, script⟩, old, found, rfl, by rw [put found]; rfl⟩

theorem intact_outcome (intact : graph.Intact)
    (done : (amendment.operation check now).outcome graph = .ok next) : next.Intact :=
  intact.outcome (by cases amendment <;> trivial) done

theorem suits_amended :
    second.Suits check (first.amended now graph) ↔ second.Suits check graph := by
  -- of a graph it is only asked what is there, and of which kind the triggers are
  have kept :
      (∀ id, ((first.amended now graph).rules.get? id).isSome = (graph.rules.get? id).isSome) ∧
        (∀ id, ((first.amended now graph).triggers.get? id).map (·.kind) =
          (graph.triggers.get? id).map (·.kind)) ∧
        ∀ id,
          ((first.amended now graph).actions.get? id).isSome = (graph.actions.get? id).isSome := by
    cases first with
    | rule id patch =>
        rw [amended]
        split
        · exact ⟨fun _ => rfl, fun _ => rfl, fun _ => rfl⟩
        · refine ⟨fun other => ?_, fun _ => rfl, fun _ => rfl⟩
          rw [Table.get?_modify]
          split <;> simp
    | trigger id patch =>
        refine ⟨fun _ => rfl, fun other => ?_, fun _ => rfl⟩
        rw [amended, Table.get?_modify]
        split
        · cases graph.triggers.get? other <;> rfl
        · rfl
    | action id patch =>
        refine ⟨fun _ => rfl, fun _ => rfl, fun other => ?_⟩
        rw [amended, Table.get?_modify]
        split <;> simp
  obtain ⟨rules, triggers, actions⟩ := kept
  cases second with
  | rule id patch => simp only [Suits, rules]
  | trigger id patch => simp only [Suits, triggers]
  | action id patch => simp only [Suits, actions]

theorem Merge.suits (merge : Merge first second merged) (one : first.Suits check graph)
    (other : second.Suits check graph) : merged.Suits check graph := by
  cases merge with
  | rule id patch later =>
      obtain ⟨name, script, known⟩ := one
      obtain ⟨laterName, laterScript, _⟩ := other
      exact ⟨laterName.or name, laterScript.or script, known⟩
  | trigger id patch later =>
      obtain ⟨script, kind, known, fits⟩ := one
      obtain ⟨laterScript, sameKind, sameKnown, laterFits⟩ := other
      rw [known] at sameKnown
      obtain rfl := Option.some.inj sameKnown
      refine ⟨laterScript.or script, kind, known, fun given => ?_⟩
      rcases Bool.or_eq_true_iff.mp (Option.isSome_or ▸ given) with ofLater | ofFirst
      · exact laterFits ofLater
      · exact fits ofFirst
  | action id patch later =>
      obtain ⟨name, script, known⟩ := one
      obtain ⟨laterName, laterScript, _⟩ := other
      exact ⟨laterName.or name, laterScript.or script, known⟩

/-! Patches that leave no date -/

def onto (graph : RuleGraph) : Amendment → RuleGraph
  | .rule id patch =>
    { graph with rules := graph.rules.modify id fun rule =>
        Change.applyRulePatch patch rule.updatedAt rule }
  | .trigger id patch =>
    { graph with triggers := graph.triggers.modify id fun trigger =>
        Change.applyTriggerPatch patch trigger.updatedAt trigger }
  | .action id patch =>
    { graph with actions := graph.actions.modify id fun action =>
        Change.applyActionPatch patch action.updatedAt action }

theorem undated_amended : (amendment.amended now graph).undated = amendment.onto graph.undated := by
  cases amendment with
  | rule id patch =>
      rw [amended]
      split
      next nothing =>
        have kept : (graph.rules.map Rule.undated).modify id (fun rule =>
            Change.applyRulePatch patch rule.updatedAt rule) = graph.rules.map Rule.undated :=
          Table.modify_eq_self fun rule _ => Change.applyRulePatch_of_isEmpty nothing rule
        simp only [onto, RuleGraph.undated, kept]
      next given =>
        have moved : (graph.rules.modify id (Change.applyRulePatch patch now)).map Rule.undated =
            (graph.rules.map Rule.undated).modify id fun rule =>
              Change.applyRulePatch patch rule.updatedAt rule := Table.map_modify fun _ => rfl
        simp only [onto, RuleGraph.undated, RuleGraph.aged, moved]
  | trigger id patch =>
      have moved :
          (graph.triggers.modify id (Change.applyTriggerPatch patch now)).map Trigger.undated =
            (graph.triggers.map Trigger.undated).modify id fun trigger =>
              Change.applyTriggerPatch patch trigger.updatedAt trigger :=
        Table.map_modify fun _ => rfl
      simp only [amended, onto, RuleGraph.undated, RuleGraph.aged, moved]
  | action id patch =>
      have moved :
          (graph.actions.modify id (Change.applyActionPatch patch now)).map Action.undated =
            (graph.actions.map Action.undated).modify id fun action =>
              Change.applyActionPatch patch action.updatedAt action :=
        Table.map_modify fun _ => rfl
      simp only [amended, onto, RuleGraph.undated, RuleGraph.aged, moved]

theorem Merge.onto_onto (merge : Merge first second merged) :
    second.onto (first.onto graph) = merged.onto graph := by
  cases merge with
  | rule id patch later =>
      simp only [onto, Table.modify_modify, Change.applyRulePatch_overriddenBy]
      rfl
  | trigger id patch later =>
      simp only [onto, Table.modify_modify, Change.applyTriggerPatch_overriddenBy]
      rfl
  | action id patch later =>
      simp only [onto, Table.modify_modify, Change.applyActionPatch_overriddenBy]
      rfl

theorem IsApartFrom.onto_comm (apart : first.IsApartFrom second) :
    second.onto (first.onto graph) = first.onto (second.onto graph) := by
  cases first with
  | rule id patch =>
      cases second with
      | rule other later =>
          by_cases same : id = other
          · subst same
            rw [(Merge.rule id patch later).onto_onto, (Merge.rule id later patch).onto_onto,
              (apart rfl).overriddenBy_comm]
          · simp only [onto, Table.modify_comm same]
      | trigger _ _ => rfl
      | action _ _ => rfl
  | trigger id patch =>
      cases second with
      | rule _ _ => rfl
      | trigger other later =>
          by_cases same : id = other
          · subst same
            rw [(Merge.trigger id patch later).onto_onto, (Merge.trigger id later patch).onto_onto,
              (apart rfl).overriddenBy_comm]
          · simp only [onto, Table.modify_comm same]
      | action _ _ => rfl
  | action id patch =>
      cases second with
      | rule _ _ => rfl
      | trigger _ _ => rfl
      | action other later =>
          by_cases same : id = other
          · subst same
            rw [(Merge.action id patch later).onto_onto, (Merge.action id later patch).onto_onto,
              (apart rfl).overriddenBy_comm]
          · simp only [onto, Table.modify_comm same]

/-! What a patch leaves alone -/

/-- A patch has changed its own entity, and there only its fields and the time of the last
change. A patch for a rule that has no field does not even change the time. -/
def Touches (now : Instant) (graph next : RuleGraph) : Amendment → Prop
  | .rule id patch => ∃ old,
    graph.rules.Changed id old
        { old with
          name := patch.name.getD old.name
          script := patch.script.getD old.script
          priority := patch.priority.getD old.priority
          enabled := patch.enabled.getD old.enabled
          updatedAt := if patch.isEmpty then old.updatedAt else now } next.rules ∧
      next = { graph with version := next.version, rules := next.rules }
  | .trigger id patch => ∃ old,
    graph.triggers.Changed id old
        { old with
          condition := patch.condition.or old.condition
          enabled := patch.enabled.getD old.enabled
          updatedAt := now } next.triggers ∧
      next = { graph with version := next.version, triggers := next.triggers }
  | .action id patch => ∃ old,
    graph.actions.Changed id old
        { old with
          name := patch.name.or old.name
          script := patch.script.getD old.script
          enabled := patch.enabled.getD old.enabled
          updatedAt := now } next.actions ∧
      next = { graph with version := next.version, actions := next.actions }

theorem touches_amended (suits : amendment.Suits check graph) :
    amendment.Touches now graph (amendment.amended now graph) := by
  cases amendment with
  | rule id patch =>
      obtain ⟨old, found⟩ := Option.isSome_iff_exists.mp suits.2.2
      rw [amended]
      split
      next nothing =>
        have same := Change.applyRulePatch_of_isEmpty nothing old
        refine ⟨old, ?_, rfl⟩
        rw [if_pos nothing]
        exact ⟨found, found.trans (congrArg some same.symm), rfl, fun _ _ => rfl⟩
      next given =>
        refine ⟨old, ?_, rfl⟩
        rw [if_neg given]
        exact .modify (Change.applyRulePatch patch now) found
  | trigger id patch =>
      obtain ⟨_, _, known, _⟩ := suits
      obtain ⟨old, found, _⟩ := Option.map_eq_some_iff.mp known
      exact ⟨old, .modify (Change.applyTriggerPatch patch now) found, rfl⟩
  | action id patch =>
      obtain ⟨old, found⟩ := Option.isSome_iff_exists.mp suits.2.2
      exact ⟨old, .modify (Change.applyActionPatch patch now) found, rfl⟩

end Amendment

/-- A patch that goes through changes its own fields of its own entity, in every graph that can be
reached. Two of them for one entity do what the one does in which the later fields prevail, and two
that have no field in common can also go through the other way round. -/
theorem patches_compose {graph : RuleGraph} (reachable : graph.Reachable) (check : ScriptCheck) :
    (∀ (amendment : Amendment) (now : Instant) (next : RuleGraph),
      (amendment.operation check now).outcome graph = .ok next →
        amendment.Touches now graph next) ∧
      ∀ (first second : Amendment) (now later : Instant) (between last : RuleGraph),
        (first.operation check now).outcome graph = .ok between →
        (second.operation check later).outcome between = .ok last →
        (∀ merged, Amendment.Merge first second merged → ∀ time, ∃ single,
          (merged.operation check time).outcome graph = .ok single ∧
            single.undated = last.undated) ∧
        (first.IsApartFrom second → ∀ time after, ∃ middle final,
          (second.operation check time).outcome graph = .ok middle ∧
            (first.operation check after).outcome middle = .ok final ∧
            final.undated = last.undated) := by
  have intact := reachable.intact
  refine ⟨?_, ?_⟩
  · intro amendment now next done
    obtain ⟨suits, rfl⟩ := (Amendment.outcome_eq_ok intact).mp done
    exact Amendment.touches_amended suits
  · intro first second now later between last done further
    have intactBetween := Amendment.intact_outcome intact done
    obtain ⟨firstSuits, rfl⟩ := (Amendment.outcome_eq_ok intact).mp done
    obtain ⟨stillSuits, rfl⟩ := (Amendment.outcome_eq_ok intactBetween).mp further
    have secondSuits : second.Suits check graph := Amendment.suits_amended.mp stillSuits
    refine ⟨?_, ?_⟩
    · intro merged merge time
      have suits := merge.suits firstSuits secondSuits
      refine ⟨merged.amended time graph, (Amendment.outcome_eq_ok intact).mpr ⟨suits, rfl⟩, ?_⟩
      simp only [Amendment.undated_amended, merge.onto_onto]
    · intro apart time after
      have swapped : (second.operation check time).outcome graph =
          .ok (second.amended time graph) :=
        (Amendment.outcome_eq_ok intact).mpr ⟨secondSuits, rfl⟩
      have intactMiddle := Amendment.intact_outcome intact swapped
      refine ⟨second.amended time graph, first.amended after (second.amended time graph), swapped,
        (Amendment.outcome_eq_ok intactMiddle).mpr
          ⟨Amendment.suits_amended.mpr firstSuits, rfl⟩, ?_⟩
      simp only [Amendment.undated_amended, apart.onto_comm]

/-- A rule gets a name, then a priority. -/
theorem boundOperations_patched :
    let graph := Operation.run boundOperations {}
    let check : ScriptCheck := fun _ => .ok ()
    let renamed : Amendment := .rule ⟨1⟩ ⟨some "warm", none, none, none⟩
    let ranked : Amendment := .rule ⟨1⟩ ⟨none, none, some 7, none⟩
    let both : Amendment := .rule ⟨1⟩ ⟨some "warm", none, some 7, none⟩
    ∃ between last,
      (renamed.operation check ⟨1, 0⟩).outcome graph = .ok between ∧
        (ranked.operation check ⟨2, 0⟩).outcome between = .ok last ∧
        renamed.Touches ⟨1, 0⟩ graph between ∧
        (∃ single, (both.operation check ⟨3, 0⟩).outcome graph = .ok single ∧
          single.undated = last.undated) ∧
        ∃ middle final,
          (ranked.operation check ⟨3, 0⟩).outcome graph = .ok middle ∧
            (renamed.operation check ⟨4, 0⟩).outcome middle = .ok final ∧
            final.undated = last.undated := by
  intro graph check renamed ranked both
  have reachable : graph.Reachable := ⟨boundOperations, History.ofFresh (by decide)⟩
  obtain ⟨touches, compose⟩ := patches_compose reachable check
  have done : (renamed.operation check ⟨1, 0⟩).outcome graph =
      .ok ((renamed.operation check ⟨1, 0⟩).apply graph) := by decide
  have further : (ranked.operation check ⟨2, 0⟩).outcome
      ((renamed.operation check ⟨1, 0⟩).apply graph) = .ok ((ranked.operation check ⟨2, 0⟩).apply
        ((renamed.operation check ⟨1, 0⟩).apply graph)) := by decide
  obtain ⟨merges, commutes⟩ := compose _ _ _ _ _ _ done further
  have apart : renamed.IsApartFrom ranked :=
    fun _ => ⟨.inr rfl, .inl rfl, .inl rfl, .inl rfl⟩
  exact ⟨_, _, done, further, touches _ _ _ done, merges both (.rule ⟨1⟩ _ _) ⟨3, 0⟩,
    commutes apart ⟨3, 0⟩ ⟨4, 0⟩⟩

end Rulebook
