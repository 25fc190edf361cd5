import Mathlib.Algebra.Order.Floor.Div
import Rulebook.Analytics.TimeRange
import Rulebook.Proofs.Analytics.Archive

/-!
Instants as counts of nanoseconds, and the time ranges that can be asked for: how long they are,
and into how many steps they are divided.
-/

namespace Rulebook

namespace Instant

variable {left right instant start : Instant}

/-- An instant of the calendar, and not one within a leap second. -/
structure IsOrdinary (instant : Instant) : Prop where
  nano : instant.nano < 1000000000
  representable : isRepresentable instant.second = true

instance (instant : Instant) : Decidable instant.IsOrdinary :=
  decidable_of_iff (_ ∧ _) ⟨fun both => ⟨both.1, both.2⟩, fun ordinary => ⟨ordinary.1, ordinary.2⟩⟩

theorem IsOrdinary.bounds (ordinary : instant.IsOrdinary) :
    earliestSecond ≤ instant.second ∧ instant.second ≤ latestSecond :=
  isRepresentable_iff.mp ordinary.representable

theorem IsOrdinary.isReading (ordinary : instant.IsOrdinary) : instant.IsReading :=
  ⟨ordinary.nano, ordinary.bounds.2⟩

theorem IsOrdinary.isAtMost_iff (leftOrdinary : left.IsOrdinary)
    (rightOrdinary : right.IsOrdinary) :
    left.isAtMost right = true ↔ left.nanoseconds ≤ right.nanoseconds :=
  isAtMost_iff_nanoseconds leftOrdinary.nano rightOrdinary.nano

theorem IsOrdinary.eq_iff (leftOrdinary : left.IsOrdinary) (rightOrdinary : right.IsOrdinary) :
    left = right ↔ left.nanoseconds = right.nanoseconds :=
  eq_iff_nanoseconds leftOrdinary.nano rightOrdinary.nano

theorem IsOrdinary.earliest : Instant.earliest.IsOrdinary := by
  decide

theorem IsOrdinary.earlier {seconds : Nat} (ordinary : instant.IsOrdinary)
    (found : instant.earlier? seconds = some start) :
    start.IsOrdinary ∧ start.nanoseconds = instant.nanoseconds - seconds * 1000000000 := by
  rw [ordinary.isReading.earlier?, Option.ite_none_right_eq_some, Option.some.injEq] at found
  obtain ⟨notTooEarly, rfl⟩ := found
  have bounds := ordinary.bounds
  refine ⟨⟨ordinary.nano, isRepresentable_iff.mpr ⟨notTooEarly, ?_⟩⟩, ?_⟩
  · change instant.second - seconds ≤ latestSecond
    omega
  · simp only [nanoseconds]
    omega

theorem later_nanoseconds (start : Instant) (seconds : Nat) :
    (start.later seconds).nanoseconds = start.nanoseconds + seconds * 1000000000 := by
  simp only [later, nanoseconds]
  omega

theorem IsOrdinary.secondsSince (ordinary : instant.IsOrdinary)
    (notBefore : start.nanoseconds ≤ instant.nanoseconds) :
    instant.secondsSince start = (instant.nanoseconds - start.nanoseconds) / 1000000000 := by
  have noLeap : instant.inLeapSecond = false := by simp [inLeapSecond, ordinary.nano]
  have difference : (instant.second - start.second) * 1000000000 + (instant.nano : Int) -
      start.nano = instant.nanoseconds - start.nanoseconds := by
    rw [nanoseconds, nanoseconds]
    omega
  simp only [Instant.secondsSince, noLeap, Bool.false_eq_true, and_false, if_false, difference]
  exact Int.tdiv_eq_ediv_of_nonneg (by omega)

end Instant

namespace TimeRange

variable {range : TimeRange}

/-- A time range that is not empty, and not longer than the longest one. -/
structure IsAllowed (range : TimeRange) : Prop where
  pos : 0 < range.seconds
  bounded : range.seconds ≤ longest

theorem seconds?_bounds {text : String} {seconds : Nat} (found : seconds? text = some seconds) :
    0 < seconds ∧ seconds ≤ longest := by
  simp only [seconds?, Option.bind_eq_bind, Option.bind_eq_some_iff] at found
  obtain ⟨character, _, unit, unitFound, count, _, total⟩ := found
  have unitPos : 0 < unit := by
    unfold unit? at unitFound
    split at unitFound <;> cases unitFound <;> decide
  split at total
  · rename_i inside
    have totalPos : 0 < count * (unit : Int) := Int.mul_pos inside.1 (by omega)
    have same := Option.some.inj total
    omega
  · exact nomatch total

theorem parse_allowed {text : String} (parsed : parse text = .ok range) : range.IsAllowed := by
  simp only [parse] at parsed
  split at parsed
  · obtain rfl := Except.ok.inj parsed
    exact ⟨by decide, by decide⟩
  · split at parsed
    · rename_i seconds found
      obtain rfl := Except.ok.inj parsed
      obtain ⟨pos, bounded⟩ := seconds?_bounds found
      exact ⟨pos, bounded⟩
    · exact nomatch parsed

theorem step_cases (range : TimeRange) :
    range.step = 300 ∧ range.seconds ≤ 3600 ∨ range.step = 3600 ∧ range.seconds ≤ 86400 ∨
      range.step = 21600 ∧ range.seconds ≤ 604800 ∨ range.step = 86400 := by
  by_cases withinHour : range.seconds ≤ 3600
  · exact .inl ⟨if_pos withinHour, withinHour⟩
  by_cases withinDay : range.seconds ≤ 86400
  · exact .inr (.inl ⟨(if_neg withinHour).trans (if_pos withinDay), withinDay⟩)
  by_cases withinWeek : range.seconds ≤ 604800
  · refine .inr (.inr (.inl ⟨?_, withinWeek⟩))
    exact ((if_neg withinHour).trans (if_neg withinDay)).trans (if_pos withinWeek)
  · refine .inr (.inr (.inr ?_))
    exact ((if_neg withinHour).trans (if_neg withinDay)).trans (if_neg withinWeek)

theorem step_pos (range : TimeRange) : 0 < range.step := by
  have cases := range.step_cases
  omega

theorem step_le (range : TimeRange) : range.step ≤ 86400 := by
  have cases := range.step_cases
  omega

theorem stepCount_pos (range : TimeRange) : 0 < range.stepCount :=
  Nat.le_max_left 1 _

theorem IsAllowed.stepCount (allowed : range.IsAllowed) :
    range.stepCount = range.seconds ⌈/⌉ range.step := by
  have pos := allowed.pos
  have stepPos := range.step_pos
  have notEmpty : 1 ≤ (range.seconds + range.step - 1) / range.step := by
    rw [Nat.le_div_iff_mul_le stepPos]
    omega
  rw [TimeRange.stepCount, Nat.ceilDiv_eq_add_pred_div]
  exact Nat.max_eq_right notEmpty

theorem IsAllowed.lastStep (allowed : range.IsAllowed) :
    (range.stepCount - 1) * range.step < range.seconds ∧
      range.seconds ≤ range.stepCount * range.step := by
  have pos := allowed.pos
  have stepPos := range.step_pos
  have counted := allowed.stepCount
  rw [Nat.ceilDiv_eq_add_pred_div] at counted
  have below : range.stepCount * range.step ≤ range.seconds + range.step - 1 :=
    counted ▸ Nat.div_mul_le_self _ _
  have above : range.seconds + range.step - 1 < range.stepCount * range.step + range.step :=
    counted ▸ Nat.lt_div_mul_add stepPos
  rw [Nat.sub_mul, Nat.one_mul]
  omega

theorem IsAllowed.stepCount_le (allowed : range.IsAllowed) : range.stepCount ≤ 366 := by
  have bounded := allowed.bounded
  have last := allowed.lastStep.1
  rw [longest, day] at bounded
  rcases range.step_cases with ⟨step, _⟩ | ⟨step, _⟩ | ⟨step, _⟩ | step
  all_goals
    rw [step] at last
    omega

end TimeRange

end Rulebook
