import Rulebook.Proofs.Analytics.Dashboard
import Rulebook.Proofs.Analytics.Span

/-!
The trend of a dashboard divides its time range into steps, none of which begins at the end of the
range or behind it. Each record of the range counts for one step, the one that it falls into, and
so the steps add up to what is said of all records.
-/

namespace Rulebook

open Instant ExecutionRecord

namespace TimeRange

/-- Whether an instant is in a step: not before it begins, and before the next one does. -/
def Contains (range : TimeRange) (start : Instant) (index : Nat) (instant : Instant) : Prop :=
  start.nanoseconds + ((index * range.step : Nat) : Int) * 1000000000 ≤ instant.nanoseconds ∧
    instant.nanoseconds <
      start.nanoseconds + (((index + 1) * range.step : Nat) : Int) * 1000000000

/-- Whether an instant counts for a step; the end of the range does for the last one. -/
def Takes (range : TimeRange) (start now : Instant) (index : Nat) (instant : Instant) : Prop :=
  if instant = now then index + 1 = range.stepCount else range.Contains start index instant

instance (range : TimeRange) (start now : Instant) (index : Nat) (instant : Instant) :
    Decidable (range.Takes start now index instant) :=
  inferInstanceAs (Decidable (if instant = now then index + 1 = range.stepCount else
    start.nanoseconds + ((index * range.step : Nat) : Int) * 1000000000 ≤ instant.nanoseconds ∧
      instant.nanoseconds <
        start.nanoseconds + (((index + 1) * range.step : Nat) : Int) * 1000000000))

/-- A trend over a time range that begins at an instant, of the records in it. -/
structure Tiles (range : TimeRange) (start now : Instant) (window : List ExecutionRecord)
    (trend : List TrendPoint) : Prop where
  spans : now.nanoseconds = start.nanoseconds + (range.seconds : Int) * 1000000000
  length : trend.length = range.seconds ⌈/⌉ range.step
  starts : ∀ index point, trend[index]? = some point → point.start.nanoseconds =
    start.nanoseconds + ((index * range.step : Nat) : Int) * 1000000000
  beginsBefore : ∀ point ∈ trend, point.start.nanoseconds < now.nanoseconds
  reaches : ∀ point, trend.getLast? = some point →
    now.nanoseconds ≤ point.start.nanoseconds + (range.step : Int) * 1000000000
  /-- Each record counts for one of the points. -/
  taken : ∀ record ∈ window, ∃! index,
    index < trend.length ∧ range.Takes start now index record.timestamp
  counts : ∀ index point, trend[index]? = some point →
    let own := window.filter fun record => range.Takes start now index record.timestamp
    point.executions = own.length ∧ point.matched = own.countP (·.matched) ∧
      point.errors = own.countP (·.hasError)

end TimeRange

/-- The points add up to what is counted of all records. -/
structure Dashboard.AddsUp (dashboard : Dashboard) : Prop where
  executions : (dashboard.trend.map (·.executions)).sum = dashboard.overall.executions
  matched : (dashboard.trend.map (·.matched)).sum = dashboard.overall.matched
  errors : (dashboard.trend.map (·.errors)).sum = dashboard.overall.errors

/-! Where records count -/

namespace TimeRange

variable {range : TimeRange} {start now instant : Instant} {index : Nat}

theorem width_pos (range : TimeRange) : 0 < 1000000000 * range.step :=
  Nat.mul_pos (by decide) range.step_pos

theorem mul_width (range : TimeRange) (count : Nat) :
    count * (1000000000 * range.step) = count * range.step * 1000000000 := by
  rw [Nat.mul_comm 1000000000, Nat.mul_assoc]

theorem contains_iff (notBefore : start.nanoseconds ≤ instant.nanoseconds) :
    range.Contains start index instant ↔
      (instant.nanoseconds - start.nanoseconds).toNat / (1000000000 * range.step) = index := by
  have widthPos := range.width_pos
  rw [Nat.div_eq_iff widthPos, range.mul_width, Contains, Nat.succ_mul]
  constructor <;> (rintro ⟨low, high⟩; constructor <;> omega)

end TimeRange

namespace TrendPoint

variable {range : TimeRange} {start now : Instant} {record : ExecutionRecord}

theorem place_eq (ordinary : record.timestamp.IsOrdinary)
    (notBefore : start.nanoseconds ≤ record.timestamp.nanoseconds) :
    place start range record =
      min ((record.timestamp.nanoseconds - start.nanoseconds).toNat / (1000000000 * range.step))
        (range.stepCount - 1) := by
  have whole : (record.timestamp.secondsSince start).toNat =
      (record.timestamp.nanoseconds - start.nanoseconds).toNat / 1000000000 := by
    rw [ordinary.secondsSince notBefore]
    omega
  rw [place, whole, Nat.div_div_eq_div_mul]

theorem place_lt (start : Instant) (range : TimeRange) (record : ExecutionRecord) :
    place start range record < range.stepCount := by
  have notEmpty := range.stepCount_pos
  have bound : place start range record ≤ range.stepCount - 1 := Nat.min_le_right _ _
  omega

theorem takes_iff {index : Nat} (allowed : range.IsAllowed) (nowOrdinary : now.IsOrdinary)
    (spans : now.nanoseconds = start.nanoseconds + (range.seconds : Int) * 1000000000)
    (ordinary : record.timestamp.IsOrdinary)
    (notBefore : start.nanoseconds ≤ record.timestamp.nanoseconds)
    (notAfter : record.timestamp.nanoseconds ≤ now.nanoseconds) :
    range.Takes start now index record.timestamp ↔ place start range record = index := by
  have notEmpty := range.stepCount_pos
  obtain ⟨beforeEnd, reachesEnd⟩ := allowed.lastStep
  rw [place_eq ordinary notBefore, TimeRange.Takes]
  split
  · rename_i atEnd
    -- What is at the end is in the last step already, or just behind it.
    have last : range.stepCount - 1 ≤
        (record.timestamp.nanoseconds - start.nanoseconds).toNat / (1000000000 * range.step) := by
      rw [Nat.le_div_iff_mul_le range.width_pos, range.mul_width, atEnd, spans]
      omega
    rw [Nat.min_eq_right last]
    omega
  · rename_i notAtEnd
    have earlier : record.timestamp.nanoseconds ≠ now.nanoseconds := fun same =>
      notAtEnd ((ordinary.eq_iff nowOrdinary).mpr same)
    have inside : (record.timestamp.nanoseconds - start.nanoseconds).toNat /
        (1000000000 * range.step) < range.stepCount := by
      rw [Nat.div_lt_iff_lt_mul range.width_pos, range.mul_width]
      omega
    rw [TimeRange.contains_iff notBefore, Nat.min_eq_left (by omega)]

/-! What points count -/

theorem foldl_count (records : List ExecutionRecord) (point : TrendPoint) :
    records.foldl (fun point record => point.count record) point =
      ⟨point.start, point.executions + records.length, point.matched + records.countP (·.matched),
        point.errors + records.countP (·.hasError)⟩ := by
  induction records using List.reverseRecOn with
  | nil => rfl
  | append_singleton earlier record ih =>
      rw [List.foldl_concat, ih]
      simp [TrendPoint.count, List.countP_append, tick, List.countP_singleton, Nat.add_assoc]

variable {points : List TrendPoint} {positions : ExecutionRecord → Nat}
  {window : List ExecutionRecord}

def countAll (positions : ExecutionRecord → Nat) (window : List ExecutionRecord)
    (points : List TrendPoint) : List TrendPoint :=
  window.foldl (fun points record => points.modify (positions record) (count record)) points

theorem countAll_append (record : ExecutionRecord) :
    countAll positions (window ++ [record]) points =
      (countAll positions window points).modify (positions record) (count record) :=
  List.foldl_concat ..

theorem length_countAll : (countAll positions window points).length = points.length := by
  induction window using List.reverseRecOn with
  | nil => rfl
  | append_singleton earlier record ih => rw [countAll_append, List.length_modify, ih]

theorem getElem?_countAll (index : Nat) :
    (countAll positions window points)[index]? =
      points[index]?.map fun point => (window.filter (positions · = index)).foldl
        (fun point record => point.count record) point := by
  induction window using List.reverseRecOn with
  | nil => simp [countAll]
  | append_singleton earlier record ih =>
      rw [countAll_append, List.getElem?_modify, ih, List.filter_append, List.filter_singleton]
      cases points[index]? with
      | none => rfl
      | some point =>
          by_cases own : positions record = index
          · simp [own]
          · simp [own]

theorem sum_modify {measure : TrendPoint → Nat} {weight : Nat} {change : TrendPoint → TrendPoint}
    (changed : ∀ point, measure (change point) = measure point + weight) {index : Nat}
    (inside : index < points.length) :
    ((points.modify index change).map measure).sum = (points.map measure).sum + weight := by
  induction points generalizing index with
  | nil => exact absurd inside (Nat.not_lt_zero index)
  | cons first rest ih =>
      cases index with
      | zero =>
          simp only [List.modify_zero_cons, List.map_cons, List.sum_cons, changed]
          omega
      | succ index =>
          have further : index < rest.length := Nat.lt_of_succ_lt_succ inside
          simp only [List.modify_succ_cons, List.map_cons, List.sum_cons, ih further]
          omega

theorem sum_countAll {measure : TrendPoint → Nat} (weight : ExecutionRecord → Nat)
    (counted : ∀ record point, measure (count record point) = measure point + weight record)
    (inside : ∀ record, positions record < points.length) :
    ((countAll positions window points).map measure).sum =
      (points.map measure).sum + (window.map weight).sum := by
  induction window using List.reverseRecOn with
  | nil => rfl
  | append_singleton earlier record ih =>
      have alsoInside : positions record < (countAll positions earlier points).length := by
        rw [length_countAll]
        exact inside record
      rw [countAll_append, sum_modify (counted record) alsoInside, ih]
      simp [Nat.add_assoc]

theorem length_blank (start : Instant) (range : TimeRange) :
    (blank start range).length = range.stepCount := by
  simp [blank]

theorem getElem?_blank {index : Nat} {point : TrendPoint}
    (found : (blank start range)[index]? = some point) :
    index < range.stepCount ∧ point = ⟨start.later (range.step * index), 0, 0, 0⟩ := by
  have inside : index < range.stepCount := by
    rw [← length_blank start range]
    exact (List.getElem?_eq_some_iff.mp found).1
  simp only [blank, List.getElem?_map, List.getElem?_range inside, Option.map_some,
    Option.some.injEq] at found
  exact ⟨inside, found.symm⟩

theorem sum_blank {measure : TrendPoint → Nat} (none : ∀ start, measure ⟨start, 0, 0, 0⟩ = 0) :
    ((blank start range).map measure).sum = 0 := by
  rw [blank, List.map_map, List.sum_eq_zero_iff_forall_eq_nat]
  intro number held
  obtain ⟨index, _, rfl⟩ := List.mem_map.mp held
  exact none _

end TrendPoint

namespace Archive

variable {archive : Archive} {range : TimeRange} {start now : Instant}

theorem dashboard_trend (archive : Archive) (range : TimeRange) (now : Instant) :
    (archive.dashboard range now).trend =
      TrendPoint.countAll (TrendPoint.place (range.start now) range)
        (archive.between (range.start now) now) (TrendPoint.blank (range.start now) range) := by
  rw [dashboard_eq]
  rfl

theorem dashboard_addsUp (archive : Archive) (range : TimeRange) (now : Instant) :
    (archive.dashboard range now).AddsUp := by
  have overall : (archive.dashboard range now).overall =
      (archive.between (range.start now) now).foldl OverallTally.add {} := by rw [dashboard_eq]
  have reflects := OverallTally.foldl_reflects (archive.between (range.start now) now)
  have inside (record : ExecutionRecord) : TrendPoint.place (range.start now) range record <
      (TrendPoint.blank (range.start now) range).length := by
    rw [TrendPoint.length_blank]
    exact TrendPoint.place_lt _ _ _
  constructor
  · rw [dashboard_trend, overall, reflects.executions,
      TrendPoint.sum_countAll (fun _ => 1) (fun _ _ => rfl) inside,
      TrendPoint.sum_blank fun _ => rfl]
    simp
  · rw [dashboard_trend, overall, reflects.matched,
      TrendPoint.sum_countAll _ (fun _ _ => rfl) inside, TrendPoint.sum_blank fun _ => rfl,
      sum_map_tick, Nat.zero_add]
  · rw [dashboard_trend, overall, reflects.errors,
      TrendPoint.sum_countAll _ (fun _ _ => rfl) inside, TrendPoint.sum_blank fun _ => rfl,
      sum_map_tick, Nat.zero_add]
    rfl

theorem dashboard_tiles (allowed : range.IsAllowed) (nowOrdinary : now.IsOrdinary)
    (ordinary : ∀ record ∈ archive.records, record.timestamp.IsOrdinary)
    (begins : now.earlier? range.seconds = some start) :
    range.Tiles start now (archive.between start now) (archive.dashboard range now).trend := by
  obtain ⟨startOrdinary, earlier⟩ := nowOrdinary.earlier begins
  have spans : now.nanoseconds = start.nanoseconds + (range.seconds : Int) * 1000000000 := by omega
  have started : range.start now = start := by rw [TimeRange.start, begins, Option.getD_some]
  obtain ⟨beforeEnd, reachesEnd⟩ := allowed.lastStep
  have trend := dashboard_trend archive range now
  rw [started] at trend
  have length : (archive.dashboard range now).trend.length = range.stepCount := by
    rw [trend, TrendPoint.length_countAll, TrendPoint.length_blank]
  have takes {record : ExecutionRecord} (held : record ∈ archive.between start now) (index : Nat) :
      range.Takes start now index record.timestamp ↔
        TrendPoint.place start range record = index := by
    obtain ⟨stored, inWindow⟩ := List.mem_filter.mp held
    have its := ordinary record stored
    rw [Bool.and_eq_true, startOrdinary.isAtMost_iff its, its.isAtMost_iff nowOrdinary] at inWindow
    exact TrendPoint.takes_iff allowed nowOrdinary spans its inWindow.1 inWindow.2
  have pointAt {index : Nat} {point : TrendPoint}
      (found : (archive.dashboard range now).trend[index]? = some point) :
      index < range.stepCount ∧ point = ((archive.between start now).filter fun record =>
        range.Takes start now index record.timestamp).foldl
          (fun point record => point.count record) ⟨start.later (range.step * index), 0, 0, 0⟩ := by
    rw [trend, TrendPoint.getElem?_countAll, Option.map_eq_some_iff] at found
    obtain ⟨first, blank, rfl⟩ := found
    obtain ⟨inside, rfl⟩ := TrendPoint.getElem?_blank blank
    refine ⟨inside, ?_⟩
    congr 1
    apply List.filter_congr
    intro record held
    exact decide_eq_decide.mpr (takes held index).symm
  have starts : ∀ index point, (archive.dashboard range now).trend[index]? = some point →
      point.start.nanoseconds =
        start.nanoseconds + ((index * range.step : Nat) : Int) * 1000000000 := by
    intro index point found
    obtain ⟨_, rfl⟩ := pointAt found
    rw [TrendPoint.foldl_count, later_nanoseconds, Nat.mul_comm]
  refine {
    spans
    length := length.trans allowed.stepCount
    starts
    beginsBefore := ?_, reaches := ?_, taken := ?_, counts := ?_ }
  · intro point held
    obtain ⟨index, found⟩ := List.mem_iff_getElem?.mp held
    have notLast : index * range.step ≤ (range.stepCount - 1) * range.step :=
      Nat.mul_le_mul_right _ (by have := (pointAt found).1; omega)
    rw [starts index point found, spans]
    omega
  · intro point last
    rw [List.getLast?_eq_getElem?, length] at last
    have whole : (range.stepCount - 1) * range.step + range.step =
        range.stepCount * range.step := by
      rw [← Nat.succ_mul, Nat.succ_eq_add_one, Nat.sub_add_cancel range.stepCount_pos]
    rw [starts _ point last, spans]
    omega
  · intro record held
    refine ⟨TrendPoint.place start range record, ⟨?_, (takes held _).mpr rfl⟩, ?_⟩
    · rw [length]
      exact TrendPoint.place_lt _ _ _
    · rintro index ⟨_, taken⟩
      exact ((takes held index).mp taken).symm
  · intro index point found
    obtain ⟨_, rfl⟩ := pointAt found
    rw [TrendPoint.foldl_count]
    simp

end Archive

end Rulebook
