import Mathlib.Data.List.Induction
import Rulebook.Proofs.Rules.Binding

/-!
What a rule takes along when it is deleted: its triggers, all that is bound to them, and those of
its actions that no other rule needs. Whether an action is needed is asked while the triggers, the
bindings and the actions are on their way out, one after the other.
-/

namespace Rulebook

/-- What is left without repetitions stands in the order in which it occurred first. -/
theorem eraseDups_pairwise_idxOf {α : Type} [BEq α] [LawfulBEq α] (values : List α) :
    values.eraseDups.Pairwise fun left right => values.idxOf left < values.idxOf right := by
  induction values using List.reverseRecOn with
  | nil => exact List.Pairwise.nil
  | append_singleton front last ih =>
      have position : ∀ value ∈ front, (front ++ [last]).idxOf value = front.idxOf value := by
        intro value held
        rw [List.idxOf_append, if_pos held]
      have unseen : ∀ value ∈ ([last].removeAll front).eraseDups, value ∉ front ∧ value = last := by
        intro value held
        have kept := List.mem_eraseDups.mp held
        simp only [List.removeAll, List.mem_filter, List.mem_singleton, List.elem_eq_mem,
          Bool.not_eq_true', decide_eq_false_iff_not] at kept
        exact ⟨kept.2, kept.1⟩
      rw [List.eraseDups_append, List.pairwise_append]
      refine ⟨ih.imp_of_mem ?_, ?_, ?_⟩
      · intro left right leftHeld rightHeld before
        rw [position left (List.mem_eraseDups.mp leftHeld),
          position right (List.mem_eraseDups.mp rightHeld)]
        exact before
      · by_cases seen : last ∈ front
        · simp [List.removeAll, seen]
        · simp [List.removeAll, seen, List.eraseDups_cons]
      · intro left leftHeld right rightHeld
        have inFront := List.mem_eraseDups.mp leftHeld
        obtain ⟨new, rfl⟩ := unseen right rightHeld
        rw [position left inFront, List.idxOf_append, if_neg new]
        exact Nat.lt_add_left _ (List.idxOf_lt_length_of_mem inFront)

theorem eraseDups_unseen_cons {α : Type} [BEq α] [LawfulBEq α] {value : α}
    {seen : List α} (new : value ∉ seen) (rest : List α) :
    ((value :: rest).filter (· ∉ seen)).eraseDups =
      value :: (rest.filter (· ∉ value :: seen)).eraseDups := by
  simp only [List.filter_cons, new, not_false_eq_true, decide_true, if_true, List.eraseDups_cons,
    List.filter_filter]
  congr 3
  funext other
  by_cases equal : other = value
  · simp [equal]
  · simp [equal]

namespace RuleGraph

variable {graph : RuleGraph} {id trigger action other : Uuid} {rule : Rule}

def owner? (graph : RuleGraph) (trigger : Uuid) : Option Uuid :=
  (graph.triggers.get? trigger).map (·.rule)

/-- A rule needs the actions that it lists, and those that are bound to a trigger of it. -/
def Needs (graph : RuleGraph) (rule action : Uuid) : Prop :=
  (∃ held, graph.rules.get? rule = some held ∧ action ∈ held.actions) ∨
    ∃ binding ∈ graph.bindings, graph.owner? binding.trigger = some rule ∧ binding.action = action

/-- The actions that a rule names: its own list, and then what is bound to its triggers. -/
def namedActions (graph : RuleGraph) (rule : Rule) : List Uuid :=
  rule.actions ++ rule.triggers.flatMap graph.boundActions

/-- What is left of a graph without a rule, and what is answered about it. -/
structure Cascade (graph : RuleGraph) (id : Uuid) (rule : Rule) (deletion : RuleDeletion)
    (next : RuleGraph) : Prop where
  rules : ∀ key, next.rules.get? key = if key = id then none else graph.rules.get? key
  triggers : ∀ key, next.triggers.get? key =
    if graph.owner? key = some id then none else graph.triggers.get? key
  bindings : next.bindings =
    graph.bindings.filter fun binding => graph.owner? binding.trigger ≠ some id
  actions : ∀ key, next.actions.get? key =
    if key ∈ deletion.actions then none else graph.actions.get? key
  /-- An action goes if the rule needs it and no other rule does. -/
  orphans : ∀ key, key ∈ deletion.actions ↔
    graph.Needs id key ∧ ∀ other, other ≠ id → ¬ graph.Needs other key
  wereThere : ∀ key ∈ deletion.actions, graph.actions.get? key ≠ none
  spared : ∀ key, ¬ graph.Needs id key → next.actions.get? key = graph.actions.get? key
  about : deletion.rule = id
  allTriggers : deletion.triggers = rule.triggers
  once : deletion.actions.Nodup
  ordered : deletion.actions.Pairwise fun left right =>
    (graph.namedActions rule).idxOf left < (graph.namedActions rule).idxOf right
  numbers : next.version = graph.version + 1 ∧ next.lastSequence = graph.lastSequence

/-! Who needs an action -/

namespace Intact

theorem owner?_eq_some_iff (intact : graph.Intact) (found : graph.rules.get? id = some rule) :
    graph.owner? trigger = some id ↔ trigger ∈ rule.triggers := by
  have listed := intact.listed trigger id
  simp only [found, Option.some.injEq, exists_eq_left'] at listed
  rw [owner?, Option.map_eq_some_iff, listed]

theorem mem_namedActions_iff (intact : graph.Intact) (found : graph.rules.get? id = some rule) :
    action ∈ graph.namedActions rule ↔ graph.Needs id action := by
  simp only [namedActions, Needs, List.mem_append, List.mem_flatMap, mem_boundActions_iff, found,
    Option.some.injEq, exists_eq_left', intact.owner?_eq_some_iff found]
  apply or_congr_right
  constructor
  · rintro ⟨trigger, listed, binding, held, rfl, same⟩
    exact ⟨binding, held, listed, same⟩
  · rintro ⟨binding, held, listed, same⟩
    exact ⟨binding.trigger, listed, binding, held, rfl, same⟩

theorem needed_held (intact : graph.Intact) (needed : graph.Needs id action) :
    graph.actions.get? action ≠ none := by
  rcases needed with ⟨held, found, listed⟩ | ⟨binding, held, _, rfl⟩
  · exact (intact.eachRule id held found).actionsHeld action listed
  · exact (intact.bindingsHeld binding held).2

theorem isReferenced_iff (intact : graph.Intact) :
    graph.isReferenced action = true ↔ ∃ rule, graph.Needs rule action := by
  rw [← not_iff_not, Bool.not_eq_true, isReferenced_eq_false_iff intact.rules.nodup]
  constructor
  · rintro ⟨unbound, unlisted⟩ ⟨id, ⟨held, found, listed⟩ | ⟨binding, held, _, same⟩⟩
    · exact unlisted id held found listed
    · exact unbound binding held same
  · intro free
    refine ⟨fun binding held same => ?_, fun key held found listed => ?_⟩
    · obtain ⟨owned, _⟩ := intact.bindingsHeld binding held
      obtain ⟨owner, search⟩ := Option.ne_none_iff_exists'.mp owned
      exact free ⟨owner.rule, .inr ⟨binding, held, by simp [owner?, search], same⟩⟩
    · exact free ⟨key, .inl ⟨held, found, listed⟩⟩

theorem needs_dropRule (intact : graph.Intact) (found : graph.rules.get? id = some rule) :
    (Change.dropTriggers rule.triggers { graph with rules := graph.rules.erase id }).Needs
        other action ↔
      other ≠ id ∧ graph.Needs other action := by
  have owners : ∀ trigger,
      (Change.dropTriggers rule.triggers { graph with rules := graph.rules.erase id }).owner?
          trigger =
        if trigger ∈ rule.triggers then none else graph.owner? trigger := by
    intro trigger
    change ((graph.triggers.eraseAll rule.triggers).get? trigger).map _ = _
    rw [Table.get?_eraseAll, owner?]
    split <;> rfl
  have own : ∀ trigger, graph.owner? trigger = some id ↔ trigger ∈ rule.triggers :=
    fun _ => intact.owner?_eq_some_iff found
  simp only [Needs, owners]
  simp only [Change.dropTriggers, Table.get?_erase, List.mem_filter, Bool.not_eq_true',
    List.contains_eq_mem, decide_eq_false_iff_not]
  by_cases same : other = id
  · subst same
    simp only [if_true, ne_eq, not_true_eq_false, false_and, iff_false]
    rintro (⟨held, absent, _⟩ | ⟨binding, ⟨_, foreign⟩, owned, _⟩)
    · simp at absent
    · rw [if_neg foreign] at owned
      exact foreign ((own binding.trigger).mp owned)
  · simp only [ne_eq, same, if_false, not_false_eq_true, true_and]
    apply or_congr_right
    constructor
    · rintro ⟨binding, ⟨held, foreign⟩, owned, bound⟩
      rw [if_neg foreign] at owned
      exact ⟨binding, held, owned, bound⟩
    · rintro ⟨binding, held, owned, bound⟩
      have foreign : binding.trigger ∉ rule.triggers := by
        intro listed
        rw [(own binding.trigger).mpr listed] at owned
        exact same (Option.some.inj owned).symm
      exact ⟨binding, ⟨held, foreign⟩, by rw [if_neg foreign]; exact owned, bound⟩

theorem cascade {deletion : RuleDeletion} {next : RuleGraph} (intact : graph.Intact)
    (found : graph.rules.get? id = some rule)
    (done : Change.deleteRule id graph = .ok (deletion, next)) :
    graph.Cascade id rule deletion next := by
  obtain ⟨old, search, rfl, rfl⟩ := Change.deleteRule_eq_ok.mp done
  obtain rfl : rule = old := Option.some.inj (found.symm.trans search)
  have afterRule := intact.dropRule found
  have inOrder := eraseDups_pairwise_idxOf (graph.namedActions rule)
  let without := Change.dropTriggers rule.triggers { graph with rules := graph.rules.erase id }
  let dropped := (graph.namedActions rule).eraseDups.filter fun action =>
    !without.isReferenced action && without.actions.contains action
  have sublist : dropped.Sublist (graph.namedActions rule).eraseDups := List.filter_sublist
  have orphans : ∀ key, key ∈ dropped ↔
      graph.Needs id key ∧ ∀ other, other ≠ id → ¬ graph.Needs other key := by
    intro key
    have free : without.isReferenced key = false ↔
        ∀ other, other ≠ id → ¬ graph.Needs other key := by
      rw [← Bool.not_eq_true, afterRule.isReferenced_iff, not_exists]
      simp only [intact.needs_dropRule found, not_and]
    simp only [dropped, List.mem_filter, List.mem_eraseDups, intact.mem_namedActions_iff found,
      Bool.and_eq_true, Bool.not_eq_true', free]
    refine and_congr_right fun needed => and_iff_left ?_
    exact (Table.contains_eq_isSome graph.actions key).trans
      (Option.isSome_iff_ne_none.mpr (intact.needed_held needed))
  have actions : ∀ key, (graph.actions.eraseAll dropped).get? key =
      if key ∈ dropped then none else graph.actions.get? key :=
    Table.get?_eraseAll dropped graph.actions
  refine {
    rules := Table.get?_erase graph.rules id
    triggers := fun key => ?_
    bindings := ?_
    actions := actions
    orphans := orphans
    wereThere := fun key gone => intact.needed_held ((orphans key).mp gone).1
    spared := fun key unneeded => ?_
    about := rfl
    allTriggers := rfl
    once := (inOrder.sublist sublist).imp fun before same => ?_
    ordered := inOrder.sublist sublist
    numbers := ⟨rfl, rfl⟩ }
  · change (graph.triggers.eraseAll rule.triggers).get? key = _
    simp only [Table.get?_eraseAll, intact.owner?_eq_some_iff found]
  · change graph.bindings.filter (fun binding => !rule.triggers.contains binding.trigger) = _
    apply List.filter_congr
    intro binding _
    simp [intact.owner?_eq_some_iff found]
  · exact (actions key).trans (if_neg fun gone => unneeded ((orphans key).mp gone).1)
  · exact absurd (same ▸ before) (Nat.lt_irrefl _)

end Intact

end RuleGraph

/-! One after the other -/

namespace Change

variable {graph : RuleGraph} {id : Uuid}

/-- A trigger goes with its bindings, once the actions bound to it have been noted. -/
def takeTrigger (state : List Uuid × RuleGraph) (trigger : Uuid) : List Uuid × RuleGraph :=
  (state.1 ++ state.2.boundActions trigger, { state.2 with
    triggers := state.2.triggers.erase trigger
    bindings := state.2.bindings.filter (·.trigger ≠ trigger) })

/-- The actions that were looked at, those of them that went, and the graph at that time. -/
structure Sweep where
  seen : List Uuid
  dropped : List Uuid
  graph : RuleGraph

/-- An action that has not been looked at goes if nothing refers to it at that time. -/
def Sweep.visit (sweep : Sweep) (action : Uuid) : Sweep :=
  if action ∈ sweep.seen then sweep
  else if !sweep.graph.isReferenced action && sweep.graph.actions.contains action then
    ⟨action :: sweep.seen, sweep.dropped ++ [action],
      { sweep.graph with actions := sweep.graph.actions.erase action }⟩
  else { sweep with seen := action :: sweep.seen }

def deleteRuleStepwise (id : Uuid) (graph : RuleGraph) :
    Except Refusal (RuleDeletion × RuleGraph) :=
  match graph.rules.get? id with
  | none => .error (.notFound "rule" id.toText)
  | some rule =>
    let taken := rule.triggers.foldl takeTrigger
      (rule.actions, { graph with rules := graph.rules.erase id })
    let swept := taken.1.foldl Sweep.visit ⟨[], [], taken.2⟩
    .ok (⟨id, rule.triggers, swept.dropped⟩, swept.graph.aged)

theorem takeTriggers {triggers : List Uuid} (nodup : triggers.Nodup) (noted : List Uuid)
    (graph : RuleGraph) :
    triggers.foldl takeTrigger (noted, graph) =
      (noted ++ triggers.flatMap graph.boundActions, dropTriggers triggers graph) := by
  induction triggers generalizing noted graph with
  | nil => simp [dropTriggers]
  | cons trigger rest ih =>
      obtain ⟨fresh, restNodup⟩ := List.nodup_cons.mp nodup
      let without : RuleGraph := { graph with
        triggers := graph.triggers.erase trigger
        bindings := graph.bindings.filter (·.trigger ≠ trigger) }
      -- The bindings of another trigger are still there when its turn comes.
      have bound : ∀ other ∈ rest, without.boundActions other = graph.boundActions other := by
        intro other listed
        have different : other ≠ trigger := fun same => fresh (same ▸ listed)
        simp only [RuleGraph.boundActions, without, List.filter_filter]
        congr 2
        apply List.filter_congr
        intro binding _
        by_cases ofOther : binding.trigger = other
        · simp [ofOther, different]
        · simp [ofOther]
      have left : dropTriggers rest without = dropTriggers (trigger :: rest) graph := by
        simp only [dropTriggers, without, List.foldl_cons, List.filter_filter]
        congr 1
        apply List.filter_congr
        intro binding _
        simp [Bool.and_comm]
      change rest.foldl takeTrigger (noted ++ graph.boundActions trigger, without) = _
      rw [ih restNodup, left, List.flatMap_cons, List.append_assoc, List.flatMap_congr bound]

theorem Sweep.visits (candidates : List Uuid) (sweep : Sweep) :
    let fresh := (candidates.filter (· ∉ sweep.seen)).eraseDups
    let gone := fresh.filter fun action =>
      !sweep.graph.isReferenced action && sweep.graph.actions.contains action
    (candidates.foldl visit sweep).dropped = sweep.dropped ++ gone ∧
      (candidates.foldl visit sweep).graph =
        { sweep.graph with actions := sweep.graph.actions.eraseAll gone } := by
  induction candidates generalizing sweep with
  | nil => simp [Table.eraseAll]
  | cons action rest ih =>
      intro fresh gone
      rw [List.foldl_cons]
      by_cases seen : action ∈ sweep.seen
      · have same : sweep.visit action = sweep := if_pos seen
        have skipped : fresh = (rest.filter (· ∉ sweep.seen)).eraseDups := by
          simp [fresh, seen]
        simp only [same, gone, skipped]
        exact ih sweep
      · have split : fresh = action :: (rest.filter (· ∉ action :: sweep.seen)).eraseDups :=
          eraseDups_unseen_cons seen rest
        by_cases goes :
            (!sweep.graph.isReferenced action && sweep.graph.actions.contains action) = true
        · have visited : sweep.visit action = ⟨action :: sweep.seen, sweep.dropped ++ [action],
              { sweep.graph with actions := sweep.graph.actions.erase action }⟩ := by
            rw [visit, if_neg seen, if_pos goes]
          -- Whether another action is needed, or there, is not a matter of this one.
          have goesFirst : gone =
              action :: ((rest.filter (· ∉ action :: sweep.seen)).eraseDups).filter fun other =>
                !sweep.graph.isReferenced other &&
                  (sweep.graph.actions.erase action).contains other := by
            simp only [gone, split, List.filter_cons, goes, if_true]
            congr 1
            apply List.filter_congr
            intro other held
            have different : other ≠ action := by
              have kept := (List.mem_filter.mp (List.mem_eraseDups.mp held)).2
              simp only [List.mem_cons, not_or, decide_eq_true_eq] at kept
              exact kept.1
            simp only [Table.contains_eq_isSome, Table.get?_erase, if_neg different]
          obtain ⟨dropped, graph⟩ := ih (sweep.visit action)
          rw [dropped, graph, visited, goesFirst]
          exact ⟨List.append_assoc _ _ _, rfl⟩
        · have visited : sweep.visit action = { sweep with seen := action :: sweep.seen } := by
            rw [visit, if_neg seen, if_neg goes]
          have stays : gone = ((rest.filter (· ∉ action :: sweep.seen)).eraseDups).filter
              fun action => !sweep.graph.isReferenced action &&
                sweep.graph.actions.contains action := by
            simp only [gone, split, List.filter_cons, goes]
            rfl
          rw [stays, visited]
          exact ih _

theorem deleteRule_of_absent (absent : graph.rules.get? id = none) :
    deleteRule id graph = .error (.notFound "rule" id.toText) := by
  have refused : graph.rule id = .error (.notFound "rule" id.toText) := by
    rw [RuleGraph.rule, absent]
  have notFound : findRule id graph = .error (.notFound "rule" id.toText) := by
    change (MonadExcept.ofExcept (graph.rule id) : Change Rule) graph = _
    rw [refused]
    rfl
  simp only [deleteRule, published, bind_assoc]
  change (findRule id graph >>= _) = _
  rw [notFound]
  rfl

theorem deleteRule_eq_stepwise (intact : graph.Intact) (id : Uuid) :
    deleteRule id graph = deleteRuleStepwise id graph := by
  cases found : graph.rules.get? id with
  | none => rw [deleteRule_of_absent found, deleteRuleStepwise, found]
  | some rule =>
      have taken := takeTriggers (intact.eachRule id rule found).triggersNodup rule.actions
        { graph with rules := graph.rules.erase id }
      let without := dropTriggers rule.triggers { graph with rules := graph.rules.erase id }
      obtain ⟨dropped, left⟩ := Sweep.visits (graph.namedActions rule) ⟨[], [], without⟩
      have all : (graph.namedActions rule).filter (fun action => decide (action ∉ [])) =
          graph.namedActions rule := by simp
      simp only [all, List.nil_append] at dropped left
      rw [deleteRuleStepwise, found]
      simp only [taken]
      refine deleteRule_eq_ok.mpr ⟨rule, found, ?_, ?_⟩
      · exact congrArg (RuleDeletion.mk id rule.triggers) dropped
      · exact congrArg RuleGraph.aged left

end Change

/-- Whatever operations led to a graph, a rule can be deleted, and with it go its triggers, their
bindings, and the actions that it needs and no other rule does, in the order in which it names
them; all else stays. It makes no difference that they go one after the other. A rule that is not
there is refused, and nothing is changed. -/
theorem rule_deleted_with_its_own {graph : RuleGraph} (reachable : graph.Reachable) (id : Uuid) :
    Change.deleteRule id graph = Change.deleteRuleStepwise id graph ∧
      match graph.rules.get? id with
      | some rule =>
        ∃ deletion next, Change.deleteRule id graph = .ok (deletion, next) ∧
          (Operation.deleteRule id).apply graph = next ∧ next.Reachable ∧
          graph.Cascade id rule deletion next
      | none =>
        Change.deleteRule id graph = .error (.notFound "rule" id.toText) ∧
          (Operation.deleteRule id).apply graph = graph := by
  obtain ⟨operations, history⟩ := reachable
  have intact := RuleGraph.Intact.ofHistory history
  refine ⟨Change.deleteRule_eq_stepwise intact id, ?_⟩
  cases found : graph.rules.get? id with
  | none =>
      have refused := Change.deleteRule_of_absent found
      refine ⟨refused, ?_⟩
      rw [Operation.apply, Operation.outcome, refused]
      rfl
  | some rule =>
      obtain ⟨deletion, next, done⟩ : ∃ deletion next,
          Change.deleteRule id graph = .ok (deletion, next) :=
        ⟨_, _, Change.deleteRule_eq_ok.mpr ⟨rule, found, rfl, rfl⟩⟩
      have applied : (Operation.deleteRule id).apply graph = next := by
        rw [Operation.apply, Operation.outcome, done]
        rfl
      refine ⟨deletion, next, done, applied, ?_, intact.cascade found done⟩
      rw [← applied]
      exact ⟨_, history.next trivial⟩

/-- Two rules that share an action; one of them names another action twice, and a last action is
needed by no rule. -/
def sharingOperations : List Operation :=
  let check : ScriptCheck := fun _ => .ok ()
  let now : Instant := ⟨0, 0⟩
  [.createRule check ⟨1⟩ now ⟨"hot", "true", 0, true⟩,
    .createRule check ⟨2⟩ now ⟨"cold", "true", 0, true⟩,
    .createTrigger check ⟨3⟩ now ⟨⟨1⟩, .unconditional, none, true⟩,
    .createTrigger check ⟨4⟩ now ⟨⟨2⟩, .unconditional, none, true⟩,
    .createAction check ⟨5⟩ now ⟨none, "1", true⟩,
    .createAction check ⟨6⟩ now ⟨none, "2", true⟩,
    .createAction check ⟨7⟩ now ⟨none, "3", true⟩,
    .addRuleAction now ⟨1⟩ ⟨5⟩,
    .addRuleAction now ⟨1⟩ ⟨6⟩,
    .bind ⟨4⟩ ⟨5⟩,
    .bind ⟨3⟩ ⟨6⟩]

theorem sharingOperations_deleted :
    let graph := Operation.run sharingOperations {}
    let rule : Rule :=
      ⟨⟨1⟩, "hot", "true", 0, true, [⟨3⟩], [⟨5⟩, ⟨6⟩], ⟨0, 0⟩, ⟨0, 0⟩, 1⟩
    graph.Reachable ∧ graph.rules.get? ⟨1⟩ = some rule ∧ ∃ deletion next,
      Change.deleteRule ⟨1⟩ graph = .ok (deletion, next) ∧
        graph.Cascade ⟨1⟩ rule deletion next ∧ deletion.actions = [⟨6⟩] := by
  intro graph rule
  have history : History sharingOperations graph := History.ofFresh (by decide)
  have found : graph.rules.get? ⟨1⟩ = some rule := by decide
  obtain ⟨_, deleted⟩ := rule_deleted_with_its_own ⟨sharingOperations, history⟩ ⟨1⟩
  simp only [found] at deleted
  obtain ⟨deletion, next, done, _, _, cascade⟩ := deleted
  have bound : graph.boundActions ⟨3⟩ = [⟨6⟩] :=
    (Ledger.follow_history history).2.ordered.boundActions.trans (by decide)
  have named : graph.namedActions rule = [⟨5⟩, ⟨6⟩, ⟨6⟩] := by
    change [⟨5⟩, ⟨6⟩] ++ (graph.boundActions ⟨3⟩ ++ []) = _
    rw [bound]
    rfl
  refine ⟨⟨sharingOperations, history⟩, found, deletion, next, done, cascade, ?_⟩
  obtain ⟨old, search, rfl, _⟩ := Change.deleteRule_eq_ok.mp done
  obtain rfl : rule = old := Option.some.inj (found.symm.trans search)
  change (Change.dropUnreferenced (graph.namedActions rule) _).1 = _
  rw [named]
  decide

end Rulebook
