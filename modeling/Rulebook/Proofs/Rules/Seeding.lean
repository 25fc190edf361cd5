import Rulebook.Proofs.Rules.Growth
import Rulebook.Proofs.Rules.Loading

/-!
What a seed leaves behind that could be loaded. Each thing of it is mirrored by one that was made
for it, the keys of its actions lead to the actions that were made, and all lists are in its order.
-/

namespace Rulebook

variable {World α β : Type}

/-! What is asked of a platform -/

inductive Draw where
  | identifier
  | time

/-- What is asked for when something is made. -/
def Draw.forCreation : List Draw := [.identifier, .time]

/-- The identifiers that a platform gives out while it is asked for these, one after the other. -/
def Platform.identifiers (platform : Platform World) : List Draw → World → List Uuid
  | [], _ => []
  | .identifier :: rest, world =>
    (platform.fresh world).1 :: platform.identifiers rest (platform.fresh world).2
  | .time :: rest, world => platform.identifiers rest (platform.now world).2

/-- All identifiers that an engine is going to get are new to its rules, and no two are the same. -/
structure Engine.Spares (engine : Engine World) (draws : List Draw) : Prop where
  nodup : (engine.evaluator.platform.identifiers draws engine.world).Nodup
  lacks : ∀ id ∈ engine.evaluator.platform.identifiers draws engine.world, engine.graph.Lacks id

theorem EngineM.bind_eq_ok {part : EngineM World α} {rest : α → EngineM World β}
    {engine after : Engine World} {value : β} :
    (part >>= rest).run engine = (.ok value, after) ↔
      ∃ first between, part.run engine = (.ok first, between) ∧
        (rest first).run between = (.ok value, after) := by
  rw [EngineM.run_bind]
  rcases part.run engine with ⟨_ | first, between⟩
  · exact ⟨nofun, nofun⟩
  · constructor
    · exact fun done => ⟨first, between, rfl, done⟩
    · rintro ⟨_, _, ⟨⟩, done⟩
      exact done

namespace Engine

variable {engine after : Engine World} {rest : List Draw} {value : α}

theorem change_eq_ok {change : Change α} :
    (Engine.change change).run engine = (.ok value, after) ↔
      ∃ graph, change engine.graph = .ok (value, graph) ∧ after = { engine with graph } := by
  rw [change_run]
  rcases change engine.graph with _ | ⟨made, graph⟩
  · exact ⟨nofun, nofun⟩
  · constructor
    · rintro ⟨⟩
      exact ⟨graph, rfl, rfl⟩
    · rintro ⟨_, ⟨⟩, rfl⟩
      rfl

theorem Spares.still {graph : RuleGraph} (spares : engine.Spares rest)
    (kept : ∀ id, engine.graph.Lacks id → graph.Lacks id) : Spares { engine with graph } rest :=
  ⟨spares.nodup, fun id drawn => kept id (spares.lacks id drawn)⟩

theorem Spares.time (spares : engine.Spares (.time :: rest)) :
    Spares { engine with world := (engine.evaluator.platform.now engine.world).2 } rest :=
  ⟨spares.nodup, spares.lacks⟩

/-- What is made gets an identifier of its own, and leaves the others for what follows. -/
theorem creating_spares {creation : ScriptCheck → Uuid → Instant → Change α}
    (operation : ScriptCheck → Uuid → Instant → Operation)
    (same : ∀ check id now graph,
      (operation check id now).outcome graph = (creation check id now graph).map (·.2))
    (own : ∀ check id now, (operation check id now).identifier? = some id)
    (intact : engine.graph.Intact) (spares : engine.Spares (Draw.forCreation ++ rest))
    (done : (creating creation).run engine = (.ok value, after)) :
    ∃ check id now, engine.graph.Lacks id ∧
      creation check id now engine.graph = .ok (value, after.graph) ∧ after.Spares rest := by
  let platform := engine.evaluator.platform
  let drawn := platform.fresh engine.world
  let read := platform.now drawn.2
  have run : (Engine.change (creation (platform.check engine.world) drawn.1 read.1)).run
      { engine with world := read.2 } = (.ok value, after) := done
  obtain ⟨graph, made, rfl⟩ := change_eq_ok.mp run
  obtain ⟨notAmong, nodup⟩ := List.nodup_cons.mp spares.nodup
  have outcome := same (platform.check engine.world) drawn.1 read.1 engine.graph
  rw [made] at outcome
  refine ⟨platform.check engine.world, drawn.1, read.1, spares.lacks _ List.mem_cons_self, made,
    nodup, fun id further => ?_⟩
  -- an identifier for later is not there yet, and it is not the one that was just taken
  refine intact.lacks_outcome outcome (spares.lacks id (List.mem_cons_of_mem _ further)) ?_
  rw [own]
  rintro ⟨⟩
  exact notAmong further

theorem addRuleAction_spares {rule action : Uuid} {made : Rule} (intact : engine.graph.Intact)
    (spares : engine.Spares (.time :: rest))
    (done : (Engine.addRuleAction rule action).run engine = (.ok made, after)) :
    ∃ now, Change.addRuleAction now rule action engine.graph = .ok (made, after.graph) ∧
      after.Spares rest := by
  let read := engine.evaluator.platform.now engine.world
  have run : (Engine.change (Change.addRuleAction read.1 rule action)).run
      { engine with world := read.2 } = (.ok made, after) := done
  obtain ⟨graph, added, rfl⟩ := change_eq_ok.mp run
  refine ⟨read.1, added, spares.time.still fun id lacks => ?_⟩
  have outcome : (Operation.addRuleAction read.1 rule action).outcome engine.graph = .ok graph :=
    Operation.map_snd_eq_ok.mpr ⟨made, added⟩
  exact intact.lacks_outcome outcome lacks nofun

theorem bind_spares {trigger action : Uuid} (intact : engine.graph.Intact)
    (spares : engine.Spares rest)
    (done : (Engine.bind trigger action).run engine = (.ok (), after)) :
    Change.bind trigger action engine.graph = .ok ((), after.graph) ∧ after.Spares rest := by
  obtain ⟨graph, bound, rfl⟩ := change_eq_ok.mp done
  refine ⟨bound, spares.still fun id lacks => ?_⟩
  have outcome : (Operation.bind trigger action).outcome engine.graph = .ok graph :=
    Operation.map_snd_eq_ok.mpr ⟨(), bound⟩
  exact intact.lacks_outcome outcome lacks nofun

end Engine

/-! What mirrors what -/

structure SeedAction.MirroredBy (given : SeedAction) (made : Action) : Prop where
  name : made.name = some (given.name.getD given.key)
  script : made.script = given.script
  enabled : made.enabled = given.enabled

/-- A trigger, and what is bound to it, are as a seed has them for a rule; keys name actions. -/
structure SeedTrigger.MirroredBy (names : String → Uuid → Prop) (rule : Uuid)
    (given : SeedTrigger) (made : Trigger × List Uuid) : Prop where
  rule : made.1.rule = rule
  kind : made.1.kind = given.kind
  condition : made.1.condition = given.condition
  enabled : made.1.enabled = given.enabled
  actions : List.Forall₂ names given.actions made.2

/-- A rule and its triggers are as a seed has them. -/
structure SeedRule.MirroredBy (names : String → Uuid → Prop) (given : SeedRule)
    (made : Rule × List (Trigger × List Uuid)) : Prop where
  name : made.1.name = given.name
  script : made.1.script = given.script
  priority : made.1.priority = given.priority
  enabled : made.1.enabled = given.enabled
  actions : List.Forall₂ names given.actions made.1.actions
  triggers : made.1.triggers = made.2.map (·.1.id)
  eachTrigger : List.Forall₂ (SeedTrigger.MirroredBy names made.1.id) given.triggers made.2

theorem SeedTrigger.MirroredBy.imp {names others : String → Uuid → Prop} {rule : Uuid}
    {given : SeedTrigger} {made : Trigger × List Uuid}
    (mirrored : given.MirroredBy names rule made) (more : ∀ key id, names key id → others key id) :
    given.MirroredBy others rule made :=
  { mirrored with actions := mirrored.actions.imp more }

theorem SeedRule.MirroredBy.imp {names others : String → Uuid → Prop} {given : SeedRule}
    {made : Rule × List (Trigger × List Uuid)} (mirrored : given.MirroredBy names made)
    (more : ∀ key id, names key id → others key id) : given.MirroredBy others made :=
  { mirrored with
    actions := mirrored.actions.imp more
    eachTrigger := mirrored.eachTrigger.imp fun _ _ trigger => trigger.imp more }

/-! What loading asks for -/

def SeedRule.draws (rule : SeedRule) : List Draw :=
  Draw.forCreation ++ (rule.actions.map fun _ => .time) ++
    rule.triggers.flatMap fun _ => Draw.forCreation

def Seed.draws (seed : Seed) : List Draw :=
  (seed.actions.flatMap fun _ => Draw.forCreation) ++ seed.rules.flatMap SeedRule.draws

namespace Seed

variable {graph : RuleGraph} {actions : List Action} {rules : List Rule}
  {triggers : List (Trigger × List Uuid)} {engine after : Engine World} {rest : List Draw}
  {keys : Keys}

open RuleGraph (Grown)

theorem resolve_eq_ok {key : String} {id : Uuid} :
    (MonadExcept.ofExcept (resolve keys key) : EngineM World Uuid).run engine = (.ok id, after) ↔
      keys.lookup key = some id ∧ after = engine := by
  rw [resolve]
  cases keys.lookup key with
  | none => exact ⟨nofun, nofun⟩
  | some found =>
      constructor
      · rintro ⟨⟩
        exact ⟨rfl, rfl⟩
      · rintro ⟨⟨⟩, rfl⟩
        rfl

theorem loadActions_grown {given : List SeedAction} {names : Keys}
    (grown : Grown graph engine.graph actions rules triggers)
    (spares : engine.Spares ((given.flatMap fun _ => Draw.forCreation) ++ rest))
    (distinct : (keys.map (·.1)).Nodup)
    (loaded : (loadActions keys given).run engine = (.ok names, after)) :
    ∃ made, Grown graph after.graph (actions ++ made) rules triggers ∧ after.Spares rest ∧
      List.Forall₂ SeedAction.MirroredBy given made ∧
      names = ((given.map (·.key)).zip (made.map (·.id))).reverse ++ keys ∧
      (names.map (·.1)).Nodup := by
  -- on what is still to be loaded: `keys` has what was loaded before, the latest first
  induction given generalizing keys actions engine with
  | nil =>
      obtain ⟨rfl, rfl⟩ : names = keys ∧ after = engine := by
        cases loaded
        exact ⟨rfl, rfl⟩
      exact ⟨[], by rwa [List.append_nil], spares, .nil, rfl, distinct⟩
  | cons action others ih =>
      rw [loadActions] at loaded
      by_cases known : (keys.lookup action.key).isSome
      · rw [if_pos known] at loaded
        cases loaded
      · rw [if_neg known] at loaded
        have new : action.key ∉ keys.map (·.1) := by
          rw [Bool.not_eq_true, Option.isSome_eq_false_iff, Option.isNone_iff_eq_none,
            List.lookup_eq_none_iff] at known
          rintro held
          obtain ⟨entry, among, same⟩ := List.mem_map.mp held
          simpa [same] using known entry among
        obtain ⟨created, between, creates, further⟩ := EngineM.bind_eq_ok.mp loaded
        obtain ⟨check, id, now, lacks, done, left⟩ := Engine.creating_spares
          (fun check id now => .createAction check id now (newAction action)) (fun _ _ _ _ => rfl)
          (fun _ _ _ => rfl) grown.reachable.intact spares creates
        have stillDistinct : (((action.key, created.id) :: keys).map (·.1)).Nodup :=
          List.nodup_cons.mpr ⟨new, distinct⟩
        obtain ⟨made, allGrown, allLeft, mirrored, namesEq, nodup⟩ :=
          ih (grown.createAction lacks done) left stillDistinct further
        obtain ⟨_, rfl, _⟩ := Change.createAction_eq_ok.mp done
        refine ⟨_ :: made, by rwa [List.append_assoc] at allGrown, allLeft,
          .cons ⟨rfl, rfl, rfl⟩ mirrored, ?_, nodup⟩
        simpa using namesEq

def Names (keys : Keys) (key : String) (id : Uuid) : Prop :=
  keys.lookup key = some id

theorem addActions_grown {rule : Rule} {given : List String}
    (grown : Grown graph engine.graph actions (rules ++ [rule]) triggers)
    (spares : engine.Spares ((given.map fun _ => .time) ++ rest))
    (loaded : (given.forM fun key => do
      let action ← MonadExcept.ofExcept (resolve keys key)
      let _ ← Engine.addRuleAction rule.id action : EngineM World Unit).run engine =
        (.ok (), after)) :
    ∃ ids time, after.Spares rest ∧ List.Forall₂ (Names keys) given ids ∧
      Grown graph after.graph actions
        (rules ++ [{ rule with actions := rule.actions ++ ids, updatedAt := time }]) triggers := by
  induction given generalizing rule engine with
  | nil =>
      cases loaded
      exact ⟨[], rule.updatedAt, spares, .nil, by rwa [List.append_nil]⟩
  | cons key others ih =>
      obtain ⟨_, between, first, further⟩ := EngineM.bind_eq_ok.mp loaded
      obtain ⟨id, _, resolved, adds⟩ := EngineM.bind_eq_ok.mp first
      obtain ⟨named, rfl⟩ := resolve_eq_ok.mp resolved
      obtain ⟨made, _, added, ⟨⟩⟩ := EngineM.bind_eq_ok.mp adds
      obtain ⟨now, done, left⟩ := Engine.addRuleAction_spares grown.reachable.intact spares added
      obtain ⟨rfl, more⟩ := grown.addRuleAction done
      obtain ⟨ids, time, allLeft, allNamed, allGrown⟩ := ih more left further
      refine ⟨id :: ids, time, allLeft, .cons named allNamed, ?_⟩
      simpa only [List.append_assoc, List.singleton_append] using allGrown

theorem bindActions_grown {trigger : Trigger} {bound : List Uuid} {given : List String}
    (grown : Grown graph engine.graph actions rules (triggers ++ [(trigger, bound)]))
    (spares : engine.Spares rest)
    (loaded : (given.forM fun key => do
      let action ← MonadExcept.ofExcept (resolve keys key)
      Engine.bind trigger.id action : EngineM World Unit).run engine = (.ok (), after)) :
    ∃ ids, after.Spares rest ∧ List.Forall₂ (Names keys) given ids ∧
      Grown graph after.graph actions rules (triggers ++ [(trigger, bound ++ ids)]) := by
  induction given generalizing bound engine with
  | nil =>
      cases loaded
      exact ⟨[], spares, .nil, by rwa [List.append_nil]⟩
  | cons key others ih =>
      obtain ⟨_, between, first, further⟩ := EngineM.bind_eq_ok.mp loaded
      obtain ⟨id, _, resolved, binds⟩ := EngineM.bind_eq_ok.mp first
      obtain ⟨named, rfl⟩ := resolve_eq_ok.mp resolved
      obtain ⟨done, left⟩ := Engine.bind_spares grown.reachable.intact spares binds
      obtain ⟨ids, allLeft, allNamed, allGrown⟩ := ih (grown.bind done) left further
      refine ⟨id :: ids, allLeft, .cons named allNamed, ?_⟩
      simpa only [List.append_assoc, List.singleton_append] using allGrown

theorem loadTrigger_grown {rule : Rule} {given : SeedTrigger}
    (grown : Grown graph engine.graph actions (rules ++ [rule]) triggers)
    (spares : engine.Spares (Draw.forCreation ++ rest))
    (loaded : (loadTrigger keys rule.id given).run engine = (.ok (), after)) :
    ∃ made, after.Spares rest ∧ given.MirroredBy (Names keys) rule.id made ∧
      Grown graph after.graph actions
        (rules ++ [{ rule with triggers := rule.triggers ++ [made.1.id] }])
        (triggers ++ [made]) := by
  obtain ⟨created, between, creates, binds⟩ := EngineM.bind_eq_ok.mp loaded
  let new : NewTrigger := ⟨rule.id, given.kind, given.condition, given.enabled⟩
  obtain ⟨check, id, now, lacks, done, left⟩ := Engine.creating_spares
    (fun check id now => .createTrigger check id now new) (fun _ _ _ _ => rfl) (fun _ _ _ => rfl)
    grown.reachable.intact spares creates
  have more := grown.createTrigger lacks rfl done
  obtain ⟨ids, allLeft, allNamed, allGrown⟩ := bindActions_grown more left binds
  obtain ⟨_, rfl, _⟩ := Change.createTrigger_eq_ok.mp done
  rw [List.nil_append] at allGrown
  exact ⟨(⟨id, rule.id, given.kind, given.condition, given.enabled, now, now⟩, ids), allLeft,
    ⟨rfl, rfl, rfl, rfl, allNamed⟩, allGrown⟩

theorem loadTriggers_grown {rule : Rule} {given : List SeedTrigger}
    (grown : Grown graph engine.graph actions (rules ++ [rule]) triggers)
    (spares : engine.Spares ((given.flatMap fun _ => Draw.forCreation) ++ rest))
    (loaded : (given.forM (loadTrigger keys rule.id)).run engine = (.ok (), after)) :
    ∃ made, after.Spares rest ∧
      List.Forall₂ (SeedTrigger.MirroredBy (Names keys) rule.id) given made ∧
      Grown graph after.graph actions
        (rules ++ [{ rule with triggers := rule.triggers ++ made.map (·.1.id) }])
        (triggers ++ made) := by
  induction given generalizing rule triggers engine with
  | nil =>
      cases loaded
      exact ⟨[], spares, .nil, by simpa only [List.map_nil, List.append_nil] using grown⟩
  | cons trigger others ih =>
      obtain ⟨_, between, first, further⟩ := EngineM.bind_eq_ok.mp loaded
      obtain ⟨made, left, mirrored, more⟩ := loadTrigger_grown grown spares first
      obtain ⟨later, allLeft, allMirrored, allGrown⟩ := ih more left further
      refine ⟨made :: later, allLeft, .cons mirrored allMirrored, ?_⟩
      simpa only [List.append_assoc, List.singleton_append, List.map_cons] using allGrown

theorem loadRule_grown {given : SeedRule}
    (grown : Grown graph engine.graph actions rules triggers)
    (spares : engine.Spares (given.draws ++ rest))
    (loaded : (loadRule keys given).run engine = (.ok (), after)) :
    ∃ made, after.Spares rest ∧ given.MirroredBy (Names keys) made ∧
      Grown graph after.graph actions (rules ++ [made.1]) (triggers ++ made.2) := by
  let new : NewRule := ⟨given.name, given.script, given.priority, given.enabled⟩
  rw [SeedRule.draws, List.append_assoc, List.append_assoc] at spares
  obtain ⟨created, between, creates, further⟩ := EngineM.bind_eq_ok.mp loaded
  obtain ⟨check, id, now, lacks, done, left⟩ := Engine.creating_spares
    (fun check id now => .createRule check id now new) (fun _ _ _ _ => rfl) (fun _ _ _ => rfl)
    grown.reachable.intact spares creates
  have withRule := grown.createRule lacks done
  obtain ⟨_, _, adds, loads⟩ := EngineM.bind_eq_ok.mp further
  obtain ⟨ids, time, leftForTriggers, named, withActions⟩ := addActions_grown withRule left adds
  obtain ⟨made, allLeft, mirrored, allGrown⟩ := loadTriggers_grown withActions leftForTriggers loads
  obtain ⟨_, same, _⟩ := Change.createRule_eq_ok.mp done
  have noActions : created.actions = [] := by rw [same]
  have noTriggers : created.triggers = [] := by rw [same]
  simp only [noActions, noTriggers, List.nil_append] at allGrown
  refine ⟨({ created with
    triggers := made.map (·.1.id), actions := ids, updatedAt := time }, made), allLeft, ?_,
    allGrown⟩
  exact ⟨by rw [same], by rw [same], by rw [same], by rw [same], named, rfl, mirrored⟩

theorem loadRules_grown {given : List SeedRule}
    (grown : Grown graph engine.graph actions rules triggers)
    (spares : engine.Spares (given.flatMap SeedRule.draws ++ rest))
    (loaded : (given.forM (loadRule keys)).run engine = (.ok (), after)) :
    ∃ made, List.Forall₂ (SeedRule.MirroredBy (Names keys)) given made ∧
      Grown graph after.graph actions (rules ++ made.map (·.1))
        (triggers ++ made.flatMap (·.2)) := by
  induction given generalizing rules triggers engine with
  | nil =>
      cases loaded
      exact ⟨[], .nil, by simpa using grown⟩
  | cons rule others ih =>
      obtain ⟨_, between, first, further⟩ := EngineM.bind_eq_ok.mp loaded
      rw [List.flatMap_cons, List.append_assoc] at spares
      obtain ⟨made, left, mirrored, more⟩ := loadRule_grown grown spares first
      obtain ⟨later, allMirrored, allGrown⟩ := ih more left further
      refine ⟨made :: later, .cons mirrored allMirrored, ?_⟩
      simpa only [List.append_assoc, List.singleton_append, List.map_cons, List.flatMap_cons]
        using allGrown

theorem load_grown {seed : Seed} {summary : SeedSummary} (reachable : engine.graph.Reachable)
    (spares : engine.Spares seed.draws)
    (loaded : seed.load.run engine = (.ok summary, after)) :
    ∃ actions rules,
      Grown engine.graph after.graph actions (rules.map (·.1)) (rules.flatMap (·.2)) ∧
        (seed.actions.map (·.key)).Nodup ∧
        List.Forall₂ SeedAction.MirroredBy seed.actions actions ∧
        List.Forall₂ (SeedRule.MirroredBy
          fun key id => (key, id) ∈ (seed.actions.map (·.key)).zip (actions.map (·.id)))
          seed.rules rules ∧
        summary = seed.summary := by
  rw [load] at loaded
  obtain ⟨names, between, first, further⟩ := EngineM.bind_eq_ok.mp loaded
  obtain ⟨_, _, loads, ends⟩ := EngineM.bind_eq_ok.mp further
  cases ends
  have noKeys : (([] : Keys).map (·.1)).Nodup := List.nodup_nil
  obtain ⟨actions, withActions, left, mirrored, rfl, distinct⟩ :=
    loadActions_grown (Grown.refl reachable) spares noKeys first
  rw [← List.append_nil (seed.rules.flatMap _)] at left
  obtain ⟨rules, rulesMirrored, grown⟩ := loadRules_grown withActions left loads
  -- no key was given twice, so that a key that is looked up leads to the action it was given to
  have named : ∀ key id, Names (((seed.actions.map (·.key)).zip (actions.map (·.id))).reverse ++ [])
      key id → (key, id) ∈ (seed.actions.map (·.key)).zip (actions.map (·.id)) := by
    intro key id found
    obtain ⟨before, behind, split, _⟩ := List.lookup_eq_some_iff.mp found
    rw [List.append_nil] at split
    rw [← List.mem_reverse, split]
    simp
  have sameLength : (seed.actions.map (·.key)).length ≤ (actions.map (·.id)).length := by
    simp [mirrored.length_eq]
  refine ⟨actions, rules, grown, ?_, mirrored,
    rulesMirrored.imp fun _ _ rule => rule.imp named, rfl⟩
  rw [List.append_nil, List.map_reverse, List.nodup_reverse] at distinct
  rwa [← List.map_fst_zip sameLength]

theorem triggers_length {names : String → Uuid → Prop} {given : List SeedRule}
    {made : List (Rule × List (Trigger × List Uuid))}
    (mirrored : List.Forall₂ (SeedRule.MirroredBy names) given made) :
    (given.flatMap (·.triggers)).length = (made.flatMap (·.2)).length := by
  induction mirrored with
  | nil => rfl
  | cons first _ ih =>
      rw [List.flatMap_cons, List.flatMap_cons, List.length_append, List.length_append, ih,
        first.eachTrigger.length_eq]

/-- All that a seed leaves behind: what was there before is still there, and there is just what the
seed has, in its order. New triggers stand with what is bound to them. -/
structure MirroredBy (seed : Seed) (graph next : RuleGraph) (newActions : List Action)
    (newRules : List (Rule × List (Trigger × List Uuid))) : Prop where
  kept : (∀ id rule, graph.rules.get? id = some rule → next.rules.get? id = some rule) ∧
    (∀ id trigger, graph.triggers.get? id = some trigger → next.triggers.get? id = some trigger) ∧
    ∀ id action, graph.actions.get? id = some action → next.actions.get? id = some action
  grown : Grown graph next newActions (newRules.map (·.1)) (newRules.flatMap (·.2))
  keys : (seed.actions.map (·.key)).Nodup
  actions : List.Forall₂ SeedAction.MirroredBy seed.actions newActions
  rules : List.Forall₂ (SeedRule.MirroredBy
    fun key id => (key, id) ∈ (seed.actions.map (·.key)).zip (newActions.map (·.id)))
    seed.rules newRules
  bound : ∀ trigger ids, (trigger, ids) ∈ newRules.flatMap (·.2) →
    next.boundActions trigger.id = ids
  boundBefore : ∀ id, graph.triggers.get? id ≠ none → next.boundActions id = graph.boundActions id

end Seed

/-- A seed that can be loaded is mirrored by what is made for it, in every graph that can be
reached, and its rules come behind those of their priority in its order. -/
theorem seed_mirrored {text : String} {engine after : Engine World} {summary : SeedSummary}
    (reachable : engine.graph.Reachable)
    (spares : ∀ seed, Seed.codec.parse text = .ok seed → engine.Spares seed.draws)
    (loaded : (Seed.loadText text).run engine = (.ok summary, after)) :
    ∃ seed actions rules, Seed.codec.parse text = .ok seed ∧
      seed.MirroredBy engine.graph after.graph actions rules ∧
      summary = ⟨actions.length, rules.length, (rules.flatMap (·.2)).length⟩ ∧
      ∀ enabledOnly priority,
        (after.graph.rulesInOrder enabledOnly).filter (·.priority = priority) =
          (engine.graph.rulesInOrder enabledOnly).filter (·.priority = priority) ++
            ((rules.map (·.1)).filter fun rule => !enabledOnly || rule.enabled).filter
              (·.priority = priority) := by
  rw [Seed.loadText_run] at loaded
  cases parsed : Seed.codec.parse text with
  | error problem =>
      rw [parsed] at loaded
      cases loaded
  | ok seed =>
      rw [parsed] at loaded
      obtain ⟨actions, rules, grown, keys, actionsMirrored, rulesMirrored, rfl⟩ :=
        Seed.load_grown reachable (spares seed parsed) loaded
      refine ⟨seed, actions, rules, rfl, ?_, ?_, grown.rulesInOrder_append reachable⟩
      · exact ⟨grown.kept reachable, grown, keys, actionsMirrored, rulesMirrored,
          fun _ _ new => grown.boundActions_of_new reachable new,
          fun _ old => grown.boundActions_of_old reachable old⟩
      · rw [Seed.summary, actionsMirrored.length_eq, rulesMirrored.length_eq,
          Seed.triggers_length rulesMirrored]

instance (engine : Engine World) (draws : List Draw) : Decidable (engine.Spares draws) :=
  decidable_of_iff
    ((engine.evaluator.platform.identifiers draws engine.world).Nodup ∧
      ∀ id ∈ engine.evaluator.platform.identifiers draws engine.world, engine.graph.Lacks id)
    ⟨fun both => ⟨both.1, both.2⟩, fun spares => ⟨spares.nodup, spares.lacks⟩⟩

/-- A rule with an action that has no name, and a trigger to which it is bound as well. -/
def alarmSeed : String :=
  "\x7b\"actions\":[\x7b\"key\":\"ring\",\"script\":\"1\"\x7d]," ++
  "\"rules\":[\x7b\"name\":\"hot\",\"script\":\"true\",\"actions\":[\"ring\"],\"triggers\":[" ++
  "\x7b\"type\":\"UNCONDITIONAL\",\"actions\":[\"ring\"]\x7d]\x7d]\x7d"

theorem alarmSeed_mirrored :
    let start : Engine SandboxWorld :=
      { Engine.create SandboxWorld.platform seededSettings newWorld with
        graph := Operation.run boundOperations {} }
    ∃ after seed actions rules,
      (Seed.loadText alarmSeed).run start = (.ok ⟨1, 1, 1⟩, after) ∧
        Seed.codec.parse alarmSeed = .ok seed ∧
        seed.MirroredBy start.graph after.graph actions rules ∧ actions.length = 1 := by
  intro start
  have reachable : start.graph.Reachable := ⟨boundOperations, History.ofFresh (by decide)⟩
  have checked : (Seed.codec.parse alarmSeed).toOption.all fun seed =>
      decide (start.Spares seed.draws) := by decide +kernel
  have spares : ∀ seed, Seed.codec.parse alarmSeed = .ok seed → start.Spares seed.draws := by
    intro seed parsed
    rw [parsed] at checked
    exact of_decide_eq_true checked
  have summed : ((Seed.loadText alarmSeed).run start).1.toOption = some ⟨1, 1, 1⟩ := by
    decide +kernel
  rcases loaded : (Seed.loadText alarmSeed).run start with ⟨_ | summary, after⟩
  · rw [loaded] at summed
    cases summed
  · rw [loaded] at summed
    cases summed
    obtain ⟨seed, actions, rules, parsed, mirrored, counts, _⟩ :=
      seed_mirrored reachable spares loaded
    exact ⟨after, seed, actions, rules, rfl, parsed, mirrored, (SeedSummary.mk.inj counts).1.symm⟩

end Rulebook
