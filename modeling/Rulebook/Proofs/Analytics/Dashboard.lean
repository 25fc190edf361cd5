import Rulebook.Analytics.Dashboard
import Rulebook.Proofs.Analytics.Archive
import Rulebook.Proofs.Analytics.Grouping

/-!
A dashboard says of the records in its window what can be counted of them: of all of them, of those
of each rule, and of the actions that were executed. It is the same in whatever order the records
came in.
-/

namespace Rulebook

/-! What tallies say -/

/-- The counts of records, one by one. -/
structure OverallTally.Reflects (window : List ExecutionRecord) (tally : OverallTally) : Prop where
  executions : tally.executions = window.length
  matched : tally.matched = window.countP (·.matched)
  errors : tally.errors = window.countP fun record => !record.failures.isEmpty
  timeouts : tally.timeouts = (window.flatMap (·.failures)).countP (·.kind == .timeout)
  exhausted : tally.exhausted = (window.flatMap (·.failures)).countP (·.kind == .exhausted)
  partials : tally.partials = window.countP (·.status == .partiallyEvaluated)
  triggersFired : tally.triggersFired = (window.flatMap (·.triggers)).countP (·.fired)
  actionsExecuted : tally.actionsExecuted = (window.flatMap (·.actions)).countP (·.executed)
  actionsFailed : tally.actionsFailed =
    (window.flatMap (·.actions)).countP fun outcome => outcome.executed && !outcome.succeeded
  milliseconds : tally.milliseconds = (window.map (·.milliseconds)).foldl (· + ·) 0

/-- The counts of the records of a rule, and what the last one of them says of it. -/
structure RuleTally.Reflects (own : List ExecutionRecord) (tally : RuleTally) : Prop where
  executions : tally.executions = own.length
  matched : tally.matched = own.countP (·.matched)
  errors : tally.errors = own.countP fun record => !record.failures.isEmpty
  milliseconds : tally.milliseconds = (own.map (·.milliseconds)).foldl (· + ·) 0
  last : ∃ last ∈ own, (∀ record ∈ own, record = last ∨ record.order last = .lt) ∧
    tally.name = last.ruleName ∧ tally.lastExecuted = last.timestamp

/-- The counts of what became of an action. -/
structure ActionTally.Reflects (own : List ActionOutcome) (tally : ActionTally) : Prop where
  executions : tally.executions = own.length
  successes : tally.successes = own.countP (·.succeeded)
  failures : tally.failures = own.countP (!·.succeeded)
  complete : tally.successes + tally.failures = tally.executions
  milliseconds : tally.milliseconds = (own.map (·.milliseconds)).foldl (· + ·) 0

structure Dashboard.Reflects (window : List ExecutionRecord) (dashboard : Dashboard) : Prop where
  overall : dashboard.overall.Reflects window
  /-- Each rule of the window has one tally. -/
  ruleIds : (dashboard.rules.map (·.rule)).Nodup ∧
    ∀ id, id ∈ dashboard.rules.map (·.rule) ↔ id ∈ window.map (·.rule)
  rules : ∀ tally ∈ dashboard.rules, tally.Reflects (window.filter (·.rule = tally.rule))
  rulesInOrder : dashboard.rules.Pairwise fun left right =>
    right.executions < left.executions ∨ (left.executions = right.executions ∧
      left.rule.bits.toNat < right.rule.bits.toNat)
  /-- However a table lists them, the tallies are sorted in this way. -/
  rulesSorted : ∀ listed : List RuleTally, listed.Perm dashboard.rules →
    listed.mergeSort RuleTally.precedes = dashboard.rules
  /-- Each action that was executed in the window has one tally. -/
  actionIds : (dashboard.actions.map (·.action)).Nodup ∧
    ∀ id, id ∈ dashboard.actions.map (·.action) ↔
      id ∈ (window.flatMap (·.executedActions)).map (·.action)
  actions : ∀ tally ∈ dashboard.actions,
    tally.Reflects ((window.flatMap (·.executedActions)).filter (·.action = tally.action))
  actionsInOrder : dashboard.actions.Pairwise fun left right =>
    right.executions < left.executions ∨ (left.executions = right.executions ∧
      left.action.bits.toNat < right.action.bits.toNat)
  actionsSorted : ∀ listed : List ActionTally, listed.Perm dashboard.actions →
    listed.mergeSort ActionTally.precedes = dashboard.actions
  executionsByRule : (dashboard.rules.map (·.executions)).sum = dashboard.overall.executions
  matchedByRule : (dashboard.rules.map (·.matched)).sum = dashboard.overall.matched
  errorsByRule : (dashboard.rules.map (·.errors)).sum = dashboard.overall.errors
  executionsByAction :
    (dashboard.actions.map (·.executions)).sum = dashboard.overall.actionsExecuted
  failuresByAction : (dashboard.actions.map (·.failures)).sum = dashboard.overall.actionsFailed

/-! Counting -/

theorem countP_append_tick {α : Type} (test : α → Bool) (items : List α) (item : α) :
    (items ++ [item]).countP test = items.countP test + tick (test item) := by
  simp [List.countP_append, tick]

theorem OverallTally.Reflects.add {window : List ExecutionRecord} {tally : OverallTally}
    (reflects : tally.Reflects window) (record : ExecutionRecord) :
    (tally.add record).Reflects (window ++ [record]) where
  executions := by simp [OverallTally.add, reflects.executions]
  matched := by rw [countP_append_tick, ← reflects.matched]; rfl
  errors := by rw [countP_append_tick, ← reflects.errors]; rfl
  timeouts := by
    simp [OverallTally.add, reflects.timeouts, List.countP_eq_length_filter]
  exhausted := by
    simp [OverallTally.add, reflects.exhausted, List.countP_eq_length_filter]
  partials := by rw [countP_append_tick, ← reflects.partials]; rfl
  triggersFired := by
    simp [OverallTally.add, reflects.triggersFired, List.countP_eq_length_filter,
      ExecutionRecord.firedTriggers]
  actionsExecuted := by
    simp [OverallTally.add, reflects.actionsExecuted, List.countP_eq_length_filter,
      ExecutionRecord.executedActions]
  actionsFailed := by
    simp [OverallTally.add, reflects.actionsFailed, List.countP_eq_length_filter,
      ExecutionRecord.executedActions, Bool.and_comm]
  milliseconds := by simp [OverallTally.add, reflects.milliseconds]

theorem OverallTally.foldl_reflects (window : List ExecutionRecord) :
    (window.foldl OverallTally.add {}).Reflects window := by
  induction window using List.reverseRecOn with
  | nil => constructor <;> rfl
  | append_singleton window record ih =>
      rw [List.foldl_concat]
      exact ih.add record

/-! Tallies of rules -/

def ruleGrouping : Grouping ExecutionRecord RuleTally where
  key := (·.rule)
  name := (·.rule)
  start := RuleTally.start
  count := RuleTally.count
  size := (·.executions)
  name_start _ := rfl
  name_count _ _ := rfl

namespace RuleTally

theorem add_eq (record : ExecutionRecord) (tallies : List RuleTally) :
    add record tallies = ruleGrouping.add record tallies := by
  induction tallies with
  | nil => rfl
  | cons first rest ih => rw [add, Grouping.add, ih]; rfl

theorem foldl_counts (first : ExecutionRecord) (own : List ExecutionRecord) :
    let tally := own.foldl count (start first)
    tally.executions = own.length ∧ tally.matched = own.countP (·.matched) ∧
      tally.errors = own.countP (fun record => !record.failures.isEmpty) ∧
      tally.milliseconds = (own.map (·.milliseconds)).foldl (· + ·) 0 := by
  induction own using List.reverseRecOn with
  | nil => exact ⟨rfl, rfl, rfl, rfl⟩
  | append_singleton own record ih =>
      obtain ⟨executions, matched, errors, milliseconds⟩ := ih
      simp only [List.foldl_concat, countP_append_tick, ← matched, ← errors]
      refine ⟨?_, rfl, rfl, ?_⟩
      · simp [count, executions]
      · simp [count, milliseconds]

theorem total_reflects {own : List ExecutionRecord} {tally : RuleTally}
    (ordered : ExecutionRecord.AreOrdered own) (whole : ruleGrouping.total own = some tally) :
    tally.Reflects own := by
  obtain ⟨first, head, rfl⟩ := Option.map_eq_some_iff.mp whole
  obtain ⟨executions, matched, errors, milliseconds⟩ := foldl_counts first own
  refine ⟨executions, matched, errors, milliseconds, ?_⟩
  rcases List.eq_nil_or_concat' own with rfl | ⟨earlier, last, rfl⟩
  · exact nomatch head
  · refine ⟨last, by simp, fun record held => ?_, ?_⟩
    · rcases List.mem_append.mp held with before | same
      · exact .inr ((List.pairwise_append.mp ordered).2.2 record before last (by simp))
      · exact .inl (List.eq_of_mem_singleton same)
    · rw [List.foldl_concat]
      exact ⟨rfl, rfl⟩

end RuleTally

/-! Tallies of actions -/

def actionGrouping : Grouping ActionOutcome ActionTally where
  key := (·.action)
  name := (·.action)
  start outcome := ⟨outcome.action, 0, 0, 0⟩
  count := ActionTally.count
  size := (·.executions)
  name_start _ := rfl
  name_count _ _ := rfl

namespace ActionTally

theorem add_eq (outcome : ActionOutcome) (tallies : List ActionTally) :
    add outcome tallies = actionGrouping.add outcome tallies := by
  induction tallies with
  | nil => rfl
  | cons first rest ih => rw [add, Grouping.add, ih]; rfl

theorem foldl_counts (action : Uuid) (own : List ActionOutcome) :
    let tally := own.foldl count ⟨action, 0, 0, 0⟩
    tally.executions = own.length ∧ tally.failures = own.countP (!·.succeeded) ∧
      tally.milliseconds = (own.map (·.milliseconds)).foldl (· + ·) 0 := by
  induction own using List.reverseRecOn with
  | nil => exact ⟨rfl, rfl, rfl⟩
  | append_singleton own outcome ih =>
      obtain ⟨executions, failures, milliseconds⟩ := ih
      simp only [List.foldl_concat, countP_append_tick, ← failures]
      refine ⟨?_, rfl, ?_⟩
      · simp [count, executions]
      · simp [count, milliseconds]

theorem total_reflects {own : List ActionOutcome} {tally : ActionTally}
    (whole : actionGrouping.total own = some tally) : tally.Reflects own := by
  obtain ⟨first, -, rfl⟩ := Option.map_eq_some_iff.mp whole
  change ActionTally.Reflects own (own.foldl count ⟨first.action, 0, 0, 0⟩)
  obtain ⟨executions, failures, milliseconds⟩ := foldl_counts first.action own
  have parts : own.length = own.countP (·.succeeded) + own.countP (!·.succeeded) := by
    simpa using List.length_eq_countP_add_countP (fun outcome : ActionOutcome => outcome.succeeded)
  have successes : successes (own.foldl count ⟨first.action, 0, 0, 0⟩) =
      own.countP (·.succeeded) := by
    rw [ActionTally.successes, executions, failures]
    omega
  exact ⟨executions, successes, failures, by rw [successes, failures, executions, parts],
    milliseconds⟩

end ActionTally

/-! Dashboards -/

theorem Tally.foldl_add (start : Instant) (range : TimeRange) (trend : List TrendPoint)
    (window : List ExecutionRecord) :
    window.foldl (Tally.add start range) ⟨{}, [], [], trend⟩ =
      ⟨window.foldl OverallTally.add {}, ruleGrouping.addAll window,
        actionGrouping.addAll (window.flatMap (·.executedActions)),
        window.foldl (fun points record =>
          points.modify (TrendPoint.place start range record) (TrendPoint.count record)) trend⟩ := by
  have counted (outcomes : List ActionOutcome) (tallies : List ActionTally) :
      outcomes.foldl (fun tallies outcome => ActionTally.add outcome tallies) tallies =
        outcomes.foldl (fun tallies outcome => actionGrouping.add outcome tallies) tallies := by
    simp only [ActionTally.add_eq]
  induction window using List.reverseRecOn with
  | nil => rfl
  | append_singleton window record ih =>
      simp only [List.foldl_concat, ih, Tally.add, RuleTally.add_eq, counted,
        Grouping.addAll_append]
      simp [Grouping.addAll]

theorem Archive.dashboard_eq (archive : Archive) (range : TimeRange) (now : Instant) :
    let start := range.start now
    let window := archive.between start now
    archive.dashboard range now =
      { range
        windowStart := start
        windowEnd := now
        overall := window.foldl OverallTally.add {}
        rules := ruleGrouping.ranked window
        actions := actionGrouping.ranked (window.flatMap (·.executedActions))
        trend := window.foldl (fun points record =>
          points.modify (TrendPoint.place start range record) (TrendPoint.count record))
          (TrendPoint.blank start range) } := by
  simp only [Archive.dashboard, Tally.foldl_add]
  rfl

theorem sum_map_tick {α : Type} (test : α → Bool) (items : List α) :
    (items.map fun item => tick (test item)).sum = items.countP test := by
  induction items with
  | nil => rfl
  | cons first rest ih =>
      rw [List.map_cons, List.sum_cons, ih, List.countP_cons]
      exact Nat.add_comm _ _

theorem flatMap_executedActions (window : List ExecutionRecord) :
    window.flatMap (·.executedActions) = (window.flatMap (·.actions)).filter (·.executed) :=
  List.filter_flatMap.symm

theorem Archive.dashboard_reflects {archive : Archive} (range : TimeRange) (now : Instant)
    (ordered : ExecutionRecord.AreOrdered archive.records) :
    (archive.dashboard range now).Reflects (archive.between (range.start now) now) := by
  rw [dashboard_eq]
  have windowOrdered : ExecutionRecord.AreOrdered (archive.between (range.start now) now) :=
    ordered.filter _
  generalize archive.between (range.start now) now = window at windowOrdered ⊢
  have overall := OverallTally.foldl_reflects window
  exact {
    overall
    ruleIds := ruleGrouping.names_ranked window
    rules := fun tally held =>
      RuleTally.total_reflects (windowOrdered.filter _) (Grouping.mem_ranked.mp held)
    rulesInOrder := ruleGrouping.ranked_precede window
    rulesSorted := fun listed perm => Grouping.mergeSort_eq_ranked perm
    actionIds := actionGrouping.names_ranked _
    actions := fun tally held => ActionTally.total_reflects (Grouping.mem_ranked.mp held)
    actionsInOrder := actionGrouping.ranked_precede _
    actionsSorted := fun listed perm => Grouping.mergeSort_eq_ranked perm
    executionsByRule := by
      rw [overall.executions, Grouping.sum_ranked (fun _ => rfl) (fun _ _ => rfl)]
      simp
    matchedByRule := by
      rw [overall.matched, Grouping.sum_ranked (fun _ => rfl) (fun _ _ => rfl), sum_map_tick]
    errorsByRule := by
      rw [overall.errors, Grouping.sum_ranked (fun _ => rfl) (fun _ _ => rfl), sum_map_tick]
      rfl
    executionsByAction := by
      rw [overall.actionsExecuted, Grouping.sum_ranked (fun _ => rfl) (fun _ _ => rfl),
        flatMap_executedActions, List.countP_eq_length_filter]
      simp
    failuresByAction := by
      rw [overall.actionsFailed, Grouping.sum_ranked (fun _ => rfl) (fun _ _ => rfl),
        sum_map_tick, flatMap_executedActions, List.countP_filter]
      simp [Bool.and_comm] }

/-- Nothing but the records that an archive holds shows on a dashboard. -/
theorem Archive.dashboard_congr {archive other : Archive} (same : archive.records = other.records)
    (range : TimeRange) (now : Instant) :
    archive.dashboard range now = other.dashboard range now := by
  simp only [Archive.dashboard, Archive.between, same]

open Archive in
/-- Whatever was recorded, a dashboard reflects the records that are held in its window. It is the
same for all histories that led to these records; these are all histories that passed the same
records in some order and in some batches, as far as their clocks keep the same of them in the
end. -/
theorem dashboards_reflect_records (retention : Duration) (history : Archive.History)
    (range : TimeRange) (now : Instant) :
    let archive := recorded retention history
    let start := (now.earlier? range.seconds).getD .earliest
    let window := archive.records.filter fun record =>
      start.isAtMost record.timestamp && record.timestamp.isAtMost now
    let dashboard := archive.dashboard range now
    dashboard.Reflects window ∧
      (∀ (otherRetention : Duration) (other : Archive.History),
        (∀ record, record ∈ (recorded otherRetention other).records ↔ record ∈ archive.records) →
        (recorded otherRetention other).dashboard range now = dashboard) ∧
      ∀ other : Archive.History, history.IsSteady → other.IsSteady →
        AreUnambiguous (passed history) →
        (∀ record, record ∈ passed other ↔ record ∈ passed history) →
        (∀ record ∈ passed history,
          keepsLast retention other record = keepsLast retention history record) →
        (recorded retention other).dashboard range now = dashboard := by
  intro archive start window dashboard
  have same (otherRetention : Duration) (other : Archive.History) (held : ∀ record,
      record ∈ (recorded otherRetention other).records ↔ record ∈ archive.records) :
      (recorded otherRetention other).dashboard range now = dashboard :=
    dashboard_congr (records_eq_of_mem_iff held) range now
  refine ⟨dashboard_reflects range now (recorded_ordered retention history), same, ?_⟩
  intro other steady otherSteady unambiguous rearranged agree
  have otherUnambiguous : AreUnambiguous (passed other) := fun left held right alsoHeld =>
    unambiguous left ((rearranged left).mp held) right ((rearranged right).mp alsoHeld)
  refine same retention other fun record => ?_
  rw [mem_recorded retention steady unambiguous,
    mem_recorded retention otherSteady otherUnambiguous, rearranged]
  exact and_congr_right fun passed => by rw [agree record passed]

def hotRecord (id : Uuid) (second : Int) (actions : List ActionOutcome) : ExecutionRecord :=
  ⟨id, ⟨4⟩, ⟨1⟩, "hot", true, none, [], actions, 1, ⟨second, 0⟩, .completed⟩

def failedRecord : ExecutionRecord :=
  hotRecord ⟨5⟩ 200 [⟨⟨2⟩, ⟨9⟩, true, false, some ⟨.timeout, "timeout"⟩, 1, []⟩]

def hotHistory : Archive.History :=
  [(⟨300, 0⟩, [hotRecord ⟨6⟩ 100 []]), (⟨400, 0⟩, [hotRecord ⟨7⟩ 40 [], failedRecord])]

def hotHistoryReordered : Archive.History :=
  [(⟨250, 0⟩, [failedRecord, hotRecord ⟨7⟩ 40 []]), (⟨350, 0⟩, []),
    (⟨400, 0⟩, [hotRecord ⟨6⟩ 100 []])]

open Archive in
/-- The oldest of the records was there, but it is dropped in the end by either history. -/
theorem hotHistory_reflected :
    let hour : TimeRange := ⟨"1h", 3600⟩
    let dashboard := (recorded 350 hotHistory).dashboard hour ⟨400, 0⟩
    (recorded 350 hotHistoryReordered).dashboard hour ⟨400, 0⟩ = dashboard ∧
      dashboard.overall.executions = 2 ∧ dashboard.overall.timeouts = 1 ∧
      (dashboard.actions.map (·.failures)).sum = 1 := by
  intro hour dashboard
  obtain ⟨reflects, -, sameFor⟩ := dashboards_reflect_records 350 hotHistory hour ⟨400, 0⟩
  have steady : hotHistory.IsSteady := ⟨by decide, by decide⟩
  have alsoSteady : hotHistoryReordered.IsSteady := ⟨by decide, by decide⟩
  have unambiguous : AreUnambiguous (passed hotHistory) := .of_distinct (by decide)
  have rearranged (record : ExecutionRecord) :
      record ∈ passed hotHistoryReordered ↔ record ∈ passed hotHistory := by
    simp [passed, hotHistory, hotHistoryReordered]
    tauto
  refine ⟨sameFor hotHistoryReordered steady alsoSteady unambiguous rearranged fun _ _ => rfl, ?_⟩
  refine ⟨by decide +kernel, by decide +kernel, ?_⟩
  exact reflects.failuresByAction.trans (by decide +kernel)

end Rulebook
