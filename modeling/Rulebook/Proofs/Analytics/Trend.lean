import Mathlib.Algebra.Order.BigOperators.Group.List
import Mathlib.Data.List.Flatten
import Rulebook.Power
import Rulebook.Proofs.Analytics.Tiling

/-!
The trend of a dashboard is computed with numbers and instants that have bounds, and stays within
them for every time range that can be asked for. Nor does anything count further than there are
things held.
-/

namespace Rulebook

open Instant ExecutionRecord

/-! Computing with bounded numbers -/

namespace Bounded

/-- A number, if it is one of so many bits with a sign. -/
def int? (bits : Nat) (number : Int) : Option Int :=
  if -(twoTo (bits - 1) : Int) ≤ number ∧ number < twoTo (bits - 1) then some number else none

/-- A span of whole seconds, if it has a number of milliseconds. -/
def span? (seconds : Int) : Option Int :=
  (int? 64 (seconds * 1000)).map fun _ => seconds

def quotient? (dividend divisor : Int) : Option Int :=
  if divisor = 0 then none else int? 64 (dividend.tdiv divisor)

/-- The instant so many seconds later, if there is one. -/
def later? (instant : Instant) (seconds : Int) : Option Instant :=
  if isRepresentable (instant.second + seconds) then
    some ⟨instant.second + seconds, instant.nano⟩
  else none

def point? (start : Instant) (range : TimeRange) (index : Nat) : Option TrendPoint := do
  let factor ← int? 32 index
  let offset ← span? (range.step * factor)
  let time ← later? start offset
  return ⟨time, 0, 0, 0⟩

def stepCount? (range : TimeRange) : Option Nat := do
  let sum ← int? 64 (range.seconds + range.step)
  let rounded ← int? 64 (sum - 1)
  let count ← quotient? rounded range.step
  return (max count 1).toNat

def blank? (start : Instant) (range : TimeRange) : Option (List TrendPoint) := do
  (List.range (← stepCount? range)).mapM (point? start range)

/-- The position of a record, if it is one of the trend's. -/
def place? (start : Instant) (range : TimeRange) (trend : List TrendPoint)
    (record : ExecutionRecord) : Option Nat := do
  let elapsed ← span? (record.timestamp.secondsSince start)
  let index ← quotient? elapsed range.step
  if 0 ≤ index ∧ 0 < trend.length then
    let place := min index.toNat (trend.length - 1)
    if place < trend.length then some place else none
  else none

/-- The trend of a dashboard, unless a number or an instant is out of its bounds, or a record has
no point to count for. -/
def trend? (archive : Archive) (range : TimeRange) (now : Instant) : Option (List TrendPoint) := do
  let start := range.start now
  (archive.between start now).foldlM (fun trend record => do
    return trend.modify (← place? start range trend record) (TrendPoint.count record))
    (← blank? start range)

variable {range : TimeRange} {start now : Instant} {number : Int} {record : ExecutionRecord}

theorem int64_eq_some (low : -9000000000000000000 ≤ number)
    (high : number ≤ 9000000000000000000) : int? 64 number = some number := by
  have limit : (twoTo (64 - 1) : Int) = 9223372036854775808 := by decide
  exact if_pos (by omega)

theorem int32_eq_some {index : Nat} (small : index ≤ 366) : int? 32 index = some (index : Int) := by
  have limit : (twoTo (32 - 1) : Int) = 2147483648 := by decide
  exact if_pos (by omega)

theorem span?_eq_some (low : 0 ≤ number) (high : number ≤ 9000000000000000) :
    span? number = some number := by
  rw [span?, int64_eq_some (by omega) (by omega), Option.map_some]

theorem quotient?_eq_some {divisor : Nat} (divisorPos : 0 < divisor) (low : 0 ≤ number)
    (high : number ≤ 9000000000000000000) :
    quotient? number divisor = some ((number.toNat / divisor : Nat) : Int) := by
  have notNegative : 0 ≤ ((number.toNat / divisor : Nat) : Int) := Int.natCast_nonneg _
  have notLarger : ((number.toNat / divisor : Nat) : Int) ≤ number :=
    (Int.ofNat_le.mpr (Nat.div_le_self _ _)).trans_eq (Int.toNat_of_nonneg low)
  have same : number.tdiv divisor = ((number.toNat / divisor : Nat) : Int) := by
    rw [Int.tdiv_eq_ediv_of_nonneg low, Int.natCast_ediv, Int.toNat_of_nonneg low]
  have notZero : (divisor : Int) ≠ 0 := by omega
  rw [quotient?, if_neg notZero, same]
  exact int64_eq_some (Int.le_trans (by decide) notNegative) (notLarger.trans high)

theorem later?_eq_some {seconds : Nat} (ordinary : start.IsOrdinary)
    (within : start.second + seconds ≤ latestSecond) :
    later? start seconds = some (start.later seconds) := by
  have bounds := ordinary.bounds
  exact if_pos (isRepresentable_iff.mpr ⟨by omega, within⟩)

theorem stepCount?_eq_some (allowed : range.IsAllowed) :
    stepCount? range = some range.stepCount := by
  have pos := allowed.pos
  have bounded := allowed.bounded
  have step := range.step_le
  rw [TimeRange.longest, TimeRange.day] at bounded
  have rounded : ((range.seconds : Int) + range.step - 1).toNat =
      range.seconds + range.step - 1 := by omega
  simp only [stepCount?, Option.bind_eq_bind]
  rw [int64_eq_some (by omega) (by omega), Option.bind_some, int64_eq_some (by omega) (by omega),
    Option.bind_some, quotient?_eq_some range.step_pos (by omega) (by omega), rounded]
  change some _ = some _
  rw [TimeRange.stepCount]
  congr 1
  omega

theorem later_le (allowed : range.IsAllowed) (nowOrdinary : now.IsOrdinary) {index : Nat}
    (inside : index < range.stepCount) :
    (range.start now).second + (range.step * index : Nat) ≤ latestSecond := by
  have notLast : index * range.step ≤ (range.stepCount - 1) * range.step :=
    Nat.mul_le_mul_right _ (by omega)
  have beforeEnd := allowed.lastStep.1
  have bounded := allowed.bounded
  have bounds := nowOrdinary.bounds
  rw [TimeRange.longest, TimeRange.day] at bounded
  rw [Nat.mul_comm, TimeRange.start, nowOrdinary.isReading.earlier?]
  -- Either the range ends now, or it begins with the calendar, which is longer than any range.
  split
  · change now.second - range.seconds + _ ≤ latestSecond
    omega
  · change earliestSecond + _ ≤ latestSecond
    rw [earliestSecond, latestSecond]
    omega

theorem point?_eq_some (allowed : range.IsAllowed) (ordinary : start.IsOrdinary) {index : Nat}
    (inside : index < range.stepCount)
    (within : start.second + (range.step * index : Nat) ≤ latestSecond) :
    point? start range index = some ⟨start.later (range.step * index), 0, 0, 0⟩ := by
  have few := allowed.stepCount_le
  have offset : range.step * index ≤ 86400 * 366 := Nat.mul_le_mul range.step_le (by omega)
  simp only [point?, Option.bind_eq_bind]
  rw [int32_eq_some (by omega), Option.bind_some, ← Int.natCast_mul,
    span?_eq_some (by omega) (by omega), Option.bind_some, later?_eq_some ordinary within]
  rfl

theorem mapM_eq_some {α β : Type} {make? : α → Option β} {make : α → β} {items : List α}
    (made : ∀ item ∈ items, make? item = some (make item)) :
    items.mapM make? = some (items.map make) := by
  induction items with
  | nil => rfl
  | cons first rest ih =>
      rw [List.mapM_cons, made first (by simp), ih fun item held => made item (by simp [held])]
      rfl

theorem blank?_eq_some (allowed : range.IsAllowed) (nowOrdinary : now.IsOrdinary)
    (startOrdinary : (range.start now).IsOrdinary) :
    blank? (range.start now) range = some (TrendPoint.blank (range.start now) range) := by
  rw [blank?, stepCount?_eq_some allowed, Option.bind_eq_bind, Option.bind_some]
  apply mapM_eq_some
  intro index held
  have inside := List.mem_range.mp held
  exact point?_eq_some allowed startOrdinary inside (later_le allowed nowOrdinary inside)

theorem place?_eq_some {trend : List TrendPoint} (whole : trend.length = range.stepCount)
    (startOrdinary : start.IsOrdinary) (ordinary : record.timestamp.IsOrdinary)
    (notBefore : start.nanoseconds ≤ record.timestamp.nanoseconds) :
    place? start range trend record = some (TrendPoint.place start range record) := by
  have notEmpty := range.stepCount_pos
  have place := TrendPoint.place_lt start range record
  have elapsed : 0 ≤ record.timestamp.secondsSince start ∧
      record.timestamp.secondsSince start ≤ 9000000000000000 := by
    have bounds := ordinary.bounds
    have startBounds := startOrdinary.bounds
    have nano := ordinary.nano
    rw [ordinary.secondsSince notBefore]
    rw [earliestSecond, latestSecond] at bounds startBounds
    simp only [nanoseconds] at notBefore ⊢
    omega
  simp only [place?, Option.bind_eq_bind]
  rw [span?_eq_some elapsed.1 elapsed.2, Option.bind_some,
    quotient?_eq_some range.step_pos elapsed.1 (by omega), Option.bind_some, whole,
    Int.toNat_natCast]
  exact (if_pos ⟨Int.natCast_nonneg _, notEmpty⟩).trans (if_pos place)

theorem foldlM_eq_some {window : List ExecutionRecord} {trend : List TrendPoint}
    (whole : trend.length = range.stepCount) (startOrdinary : start.IsOrdinary)
    (ordinary : ∀ record ∈ window, record.timestamp.IsOrdinary ∧
      start.nanoseconds ≤ record.timestamp.nanoseconds) :
    window.foldlM (fun trend record => do
      return trend.modify (← place? start range trend record) (TrendPoint.count record)) trend =
        some (TrendPoint.countAll (TrendPoint.place start range) window trend) := by
  induction window generalizing trend with
  | nil => rfl
  | cons record rest ih =>
      obtain ⟨its, notBefore⟩ := ordinary record (by simp)
      rw [List.foldlM_cons, place?_eq_some whole startOrdinary its notBefore]
      exact ih (by rw [List.length_modify, whole]) fun other held => ordinary other (by simp [held])

theorem trend?_eq_some {archive : Archive} (allowed : range.IsAllowed)
    (nowOrdinary : now.IsOrdinary)
    (ordinary : ∀ record ∈ archive.records, record.timestamp.IsOrdinary) :
    trend? archive range now = some (archive.dashboard range now).trend := by
  have startOrdinary : (range.start now).IsOrdinary := by
    rw [TimeRange.start]
    cases begins : now.earlier? range.seconds with
    | none => exact IsOrdinary.earliest
    | some start => exact (nowOrdinary.earlier begins).1
  rw [trend?, blank?_eq_some allowed nowOrdinary startOrdinary, Option.bind_eq_bind,
    Option.bind_some, Archive.dashboard_trend]
  apply foldlM_eq_some (TrendPoint.length_blank _ _) startOrdinary
  intro record held
  obtain ⟨stored, inWindow⟩ := List.mem_filter.mp held
  have its := ordinary record stored
  rw [Bool.and_eq_true, startOrdinary.isAtMost_iff its] at inWindow
  exact ⟨its, inWindow.1⟩

end Bounded

/-! How far it is counted -/

/-- How many things an archive holds: records, and what they tell of triggers, actions and
failures. -/
def Archive.holdings (archive : Archive) : Nat :=
  archive.records.length + (archive.records.flatMap (·.triggers)).length +
    (archive.records.flatMap (·.actions)).length + (archive.records.flatMap (·.failures)).length

def OverallTally.counters (tally : OverallTally) : List Nat :=
  [tally.executions, tally.matched, tally.errors, tally.timeouts, tally.exhausted, tally.partials,
    tally.triggersFired, tally.actionsExecuted, tally.actionsFailed]

structure Dashboard.CountsAtMost (limit : Nat) (dashboard : Dashboard) : Prop where
  overall : ∀ counter ∈ dashboard.overall.counters, counter ≤ limit
  rules : ∀ tally ∈ dashboard.rules,
    tally.executions ≤ limit ∧ tally.matched ≤ limit ∧ tally.errors ≤ limit
  actions : ∀ tally ∈ dashboard.actions,
    tally.executions ≤ limit ∧ tally.successes ≤ limit ∧ tally.failures ≤ limit
  trend : ∀ point ∈ dashboard.trend,
    point.executions ≤ limit ∧ point.matched ≤ limit ∧ point.errors ≤ limit

theorem OverallTally.Reflects.counters_le {window : List ExecutionRecord} {tally : OverallTally}
    (reflects : tally.Reflects window) :
    ∀ counter ∈ tally.counters, counter ≤ window.length + (window.flatMap (·.triggers)).length +
      (window.flatMap (·.actions)).length + (window.flatMap (·.failures)).length := by
  have records (test : ExecutionRecord → Bool) : window.countP test ≤ window.length :=
    List.countP_le_length
  have failures (test : Script.Failure → Bool) :
      (window.flatMap (·.failures)).countP test ≤ (window.flatMap (·.failures)).length :=
    List.countP_le_length
  have triggers (test : TriggerOutcome → Bool) :
      (window.flatMap (·.triggers)).countP test ≤ (window.flatMap (·.triggers)).length :=
    List.countP_le_length
  have actions (test : ActionOutcome → Bool) :
      (window.flatMap (·.actions)).countP test ≤ (window.flatMap (·.actions)).length :=
    List.countP_le_length
  have matched := records (·.matched)
  have errors := records fun record => !record.failures.isEmpty
  have partials := records (·.status == .partiallyEvaluated)
  have timeouts := failures (·.kind == .timeout)
  have exhausted := failures (·.kind == .exhausted)
  have fired := triggers (·.fired)
  have executed := actions (·.executed)
  have failed := actions fun outcome => outcome.executed && !outcome.succeeded
  simp only [counters, List.forall_mem_cons, reflects.executions, reflects.matched,
    reflects.errors, reflects.timeouts, reflects.exhausted, reflects.partials,
    reflects.triggersFired, reflects.actionsExecuted, reflects.actionsFailed]
  refine ⟨?_, ?_, ?_, ?_, ?_, ?_, ?_, ?_, ?_, fun counter held => nomatch held⟩
  all_goals omega

theorem RuleTally.le_length {window : List ExecutionRecord} {tally : RuleTally}
    (listed : tally ∈ ruleGrouping.ranked window) :
    tally.executions ≤ window.length ∧ tally.matched ≤ window.length ∧
      tally.errors ≤ window.length := by
  obtain ⟨first, _, whole⟩ := Option.map_eq_some_iff.mp (Grouping.mem_ranked.mp listed)
  obtain ⟨executions, matched, errors, _⟩ :=
    foldl_counts first (window.filter (·.rule = tally.rule))
  change (window.filter (·.rule = tally.rule)).foldl count (start first) = tally at whole
  rw [whole] at executions matched errors
  have own : (window.filter (·.rule = tally.rule)).length ≤ window.length :=
    List.length_filter_le _ _
  have ofOwn (test : ExecutionRecord → Bool) :
      (window.filter (·.rule = tally.rule)).countP test ≤ window.length :=
    List.countP_le_length.trans own
  exact ⟨executions.trans_le own, matched.trans_le (ofOwn _), errors.trans_le (ofOwn _)⟩

theorem ActionTally.le_length {window : List ExecutionRecord} {tally : ActionTally}
    (listed : tally ∈ actionGrouping.ranked (window.flatMap (·.executedActions))) :
    tally.executions ≤ (window.flatMap (·.actions)).length ∧
      tally.successes + tally.failures = tally.executions := by
  have own := total_reflects (Grouping.mem_ranked.mp listed)
  refine ⟨?_, own.complete⟩
  rw [own.executions, flatMap_executedActions]
  exact (List.length_filter_le _ _).trans (List.length_filter_le _ _)

theorem Dashboard.AddsUp.point_le {dashboard : Dashboard} {point : TrendPoint}
    (addsUp : dashboard.AddsUp) (listed : point ∈ dashboard.trend) :
    point.executions ≤ dashboard.overall.executions ∧
      point.matched ≤ dashboard.overall.matched ∧ point.errors ≤ dashboard.overall.errors := by
  rw [← addsUp.executions, ← addsUp.matched, ← addsUp.errors]
  exact ⟨List.le_sum_of_mem (List.mem_map_of_mem listed),
    List.le_sum_of_mem (List.mem_map_of_mem listed),
    List.le_sum_of_mem (List.mem_map_of_mem listed)⟩

namespace Archive

theorem holdings_between (archive : Archive) (first last : Instant) :
    let window := archive.between first last
    window.length + (window.flatMap (·.triggers)).length + (window.flatMap (·.actions)).length +
      (window.flatMap (·.failures)).length ≤ archive.holdings := by
  intro window
  have part : window.Sublist archive.records := List.filter_sublist
  have records := part.length_le
  have triggers := (part.flatMap (·.triggers)).length_le
  have actions := (part.flatMap (·.actions)).length_le
  have failures := (part.flatMap (·.failures)).length_le
  rw [holdings]
  omega

theorem dashboard_countsAtMost (archive : Archive) (range : TimeRange) (now : Instant) :
    (archive.dashboard range now).CountsAtMost archive.holdings := by
  have held := archive.holdings_between (range.start now) now
  have addsUp := archive.dashboard_addsUp range now
  have overall : ∀ counter ∈ (archive.dashboard range now).overall.counters,
      counter ≤ archive.holdings := by
    intro counter counted
    rw [dashboard_eq] at counted
    exact ((OverallTally.foldl_reflects _).counters_le counter counted).trans held
  refine ⟨overall, fun tally listed => ?_, fun tally listed => ?_, fun point listed => ?_⟩
  · rw [dashboard_eq] at listed
    have few := RuleTally.le_length listed
    omega
  · rw [dashboard_eq] at listed
    have few := ActionTally.le_length listed
    omega
  · have few := addsUp.point_le listed
    simp only [OverallTally.counters, List.forall_mem_cons] at overall
    omega

end Archive

/-- For every time range that can be asked for, and whatever records are held, the trend is
computed within the bounds of its numbers. Its points divide the range, each record of the range
counts for one of them, and all of them add up to what is said of all records. -/
theorem trend_tiles_range {text : String} {range : TimeRange} {archive : Archive} {now : Instant}
    (parsed : TimeRange.parse text = .ok range) (nowOrdinary : now.IsOrdinary)
    (ordinary : ∀ record ∈ archive.records, record.timestamp.IsOrdinary) :
    let dashboard := archive.dashboard range now
    Bounded.trend? archive range now = some dashboard.trend ∧
      dashboard.CountsAtMost archive.holdings ∧ dashboard.AddsUp ∧
      ∀ start, now.earlier? range.seconds = some start →
        range.Tiles start now (archive.between start now) dashboard.trend := by
  intro dashboard
  have allowed := TimeRange.parse_allowed parsed
  exact ⟨Bounded.trend?_eq_some allowed nowOrdinary ordinary,
    archive.dashboard_countsAtMost range now, archive.dashboard_addsUp range now,
    fun start begins => archive.dashboard_tiles allowed nowOrdinary ordinary begins⟩

/-- Records at both ends of a range of one step and a half, and at both sides of the end of the
first step. -/
def edgeArchive : Archive :=
  let record (id : Uuid) (timestamp : Instant) : ExecutionRecord :=
    ⟨id, ⟨4⟩, ⟨1⟩, "hot", true, none, [], [], 1, timestamp, .completed⟩
  ⟨[record ⟨5⟩ ⟨4600, 500000000⟩, record ⟨6⟩ ⟨8200, 499999999⟩, record ⟨7⟩ ⟨8200, 500000000⟩,
    record ⟨8⟩ ⟨10000, 500000000⟩], 3600⟩

theorem edgeArchive_tiled :
    let range : TimeRange := ⟨"90m", 5400⟩
    let now : Instant := ⟨10000, 500000000⟩
    let start : Instant := ⟨4600, 500000000⟩
    let trend := (edgeArchive.dashboard range now).trend
    TimeRange.parse "90m" = .ok range ∧ now.earlier? range.seconds = some start ∧
      range.Tiles start now (edgeArchive.between start now) trend ∧
      (trend.map (·.executions)) = [2, 2] := by
  intro range now start trend
  have parsed : TimeRange.parse "90m" = .ok range := by decide +kernel
  have begins : now.earlier? range.seconds = some start := by decide
  have nowOrdinary : now.IsOrdinary := by decide
  have ordinary : ∀ record ∈ edgeArchive.records, record.timestamp.IsOrdinary := by decide
  obtain ⟨_, _, _, tiles⟩ := trend_tiles_range parsed nowOrdinary ordinary
  exact ⟨parsed, begins, tiles start begins, by decide +kernel⟩

end Rulebook
