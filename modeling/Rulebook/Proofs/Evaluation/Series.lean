import Mathlib.Data.List.Nodup
import Rulebook.Evaluation.Metric

/-!
Every metric counts in a series of its own, so that what the tally of a series says is how often
its metric was counted.
-/

namespace Rulebook.Metric

/-- What the tally says of a series; it leaves out those that were never counted in. -/
def total (metrics : List Metric) (name : String) : Nat :=
  ((tally metrics).lookup name).getD 0

theorem lookup_map_self (names : List String) (number : String → Nat) (name : String) :
    (names.map fun other => (other, number other)).lookup name =
      if name ∈ names then some (number name) else none := by
  induction names with
  | nil => rfl
  | cons first rest ih =>
      rw [List.map_cons, List.lookup_cons, ih]
      by_cases same : name = first
      · simp [same]
      · simp [same, beq_eq_false_iff_ne.mpr same]

theorem total_eq_count (metrics : List Metric) (name : String) :
    total metrics name = (metrics.flatMap seriesOf).count name := by
  rw [total, tally, lookup_map_self]
  split
  next listed => rfl
  next absent =>
    have never : name ∉ metrics.flatMap seriesOf := fun held =>
      absent (List.mem_eraseDups.mpr held)
    rw [List.count_eq_zero_of_not_mem never]
    rfl

/-- The series in which a metric counts itself, and not a duration. -/
def counter (metric : Metric) : String :=
  (seriesOf metric).headD ""

def durations (metric : Metric) : List String :=
  (seriesOf metric).tail

theorem seriesOf_eq (metric : Metric) : seriesOf metric = metric.counter :: metric.durations := by
  cases metric <;> rfl

def all : List Metric :=
  [true, false].map ruleEvaluated ++
    [TriggerKind.unconditional, .conditional].flatMap (fun kind =>
      [true, false].map (triggerEvaluated kind)) ++
    [true, false].map actionExecuted ++
    [ScriptStage.predicate, .trigger, .action].flatMap (fun stage =>
      [Script.FaultKind.syntactic, .runtime, .timeout, .exhausted, .misshapen].map
        (scriptFailed stage)) ++
    [EvaluationStatus.completed, .partiallyEvaluated].map eventEvaluated

theorem mem_all (metric : Metric) : metric ∈ all := by
  rcases metric with matched | ⟨kind, fired⟩ | succeeded | ⟨stage, kind⟩ | status
  · cases matched <;> decide
  · cases kind <;> cases fired <;> decide
  · cases succeeded <;> decide
  · cases stage <;> cases kind <;> decide
  · cases status <;> decide

theorem counter_injective : Function.Injective counter := by
  have distinct : (all.map counter).Nodup := by decide +kernel
  intro left right same
  exact List.inj_on_of_nodup_map distinct (mem_all left) (mem_all right) same

theorem counter_not_duration (metric other : Metric) : metric.counter ∉ other.durations := by
  have apart : ∀ other ∈ all, ∀ metric ∈ all, metric.counter ∉ other.durations := by
    decide +kernel
  exact apart other (mem_all other) metric (mem_all metric)

/-- The tally of the series of a metric says how often the metric was counted. -/
theorem total_counter (metrics : List Metric) (metric : Metric) :
    total metrics metric.counter = metrics.count metric := by
  rw [total_eq_count]
  induction metrics with
  | nil => rfl
  | cons first rest ih =>
      have behind : first.durations.count metric.counter = 0 :=
        List.count_eq_zero_of_not_mem (counter_not_duration metric first)
      rw [List.flatMap_cons, List.count_append, ih, seriesOf_eq, List.count_cons, behind,
        List.count_cons]
      by_cases same : first = metric
      · simp [same, Nat.add_comm]
      · have differs : first.counter ≠ metric.counter := fun alike =>
          same (counter_injective alike)
        simp [same, differs]

end Rulebook.Metric
