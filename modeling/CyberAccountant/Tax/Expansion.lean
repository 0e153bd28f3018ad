import CyberAccountant.Tax.TaxCalendar
import Mathlib.Data.List.Nodup

/-! What one rule expands to: each of its periods that is due within the horizon once, and nothing else. -/

namespace CyberAccountant.Tax

open CyberAccountant.Library CyberAccountant.Ledger

/-- The first working day from a day on. -/
structure FirstWorkingDay (raw due : CalendarDay) : Prop where
  from_raw : raw.number ≤ due.number
  working : ¬IsWeekend due
  first : ∀ d : CalendarDay, raw.number ≤ d.number → ¬IsWeekend d → due.number ≤ d.number

theorem shiftWeekendForward_first (raw : CalendarDay) : FirstWorkingDay raw (shiftWeekendForward raw) := by
  obtain ⟨hWorking, hFrom, -⟩ := shiftWeekendForward_spec raw
  refine ⟨hFrom, hWorking, fun d hLate hWeek => ?_⟩
  have hWeekend : ∀ e : CalendarDay, IsWeekend e ↔ (e.number + 4) % 7 = 6 ∨ (e.number + 4) % 7 = 0 := fun e => Iff.rfl
  simp only [shiftWeekendForward, shiftWithin]
  split_ifs with hFirst hSecond <;> simp only [hWeekend, CalendarDay.number_next] at * <;> omega

namespace Rule

variable {r : Rule} {onDate : CalendarDay} {horizonEnd : Int}

/-- The months that the loop forward looks at, the one at which it stops among them. -/
def forwardMonths (r : Rule) (horizonEnd endMonth : Int) : List Int :=
  if horizonEnd < (r.dueFor endMonth).number then [endMonth]
  else endMonth :: r.forwardMonths horizonEnd (endMonth + r.periodKind.lengthMonths)
termination_by (horizonEnd + 1 - monthStart (endMonth + r.dueMonthOffset)).toNat
decreasing_by
  have hLength := lengthMonths_pos r.periodKind
  have hStart := r.dueFor_start endMonth
  have hNext := monthStart_le (show endMonth + r.dueMonthOffset ≤
    endMonth + r.periodKind.lengthMonths + r.dueMonthOffset by omega)
  omega

/-- The months that the loop backward looks at, the one at which it stops among them. -/
def backwardMonths (r : Rule) (onDate : CalendarDay) (endMonth : Int) : List Int :=
  if (CalendarDay.lastOf endMonth).number < (parseDate r.effectiveFrom).number then [endMonth]
  else if (r.dueFor endMonth).number < onDate.number then [endMonth]
  else endMonth :: r.backwardMonths onDate (endMonth - r.periodKind.lengthMonths)
termination_by (monthStart (endMonth + 1) - (parseDate r.effectiveFrom).number).toNat
decreasing_by
  have hLength := lengthMonths_pos r.periodKind
  have hPrevious := monthStart_le (show endMonth - r.periodKind.lengthMonths + 1 ≤ endMonth + 1 by omega)
  simp only [CalendarDay.number_lastOf] at *
  omega

theorem forwardMonths_stop {endMonth : Int} (h : horizonEnd < (r.dueFor endMonth).number) :
    r.forwardMonths horizonEnd endMonth = [endMonth] := by
  unfold forwardMonths
  exact if_pos h

theorem forwardMonths_step {endMonth : Int} (h : ¬horizonEnd < (r.dueFor endMonth).number) :
    r.forwardMonths horizonEnd endMonth =
      endMonth :: r.forwardMonths horizonEnd (endMonth + r.periodKind.lengthMonths) := by
  conv_lhs => unfold forwardMonths
  exact if_neg h

theorem backwardMonths_step {endMonth : Int}
    (hSince : ¬(CalendarDay.lastOf endMonth).number < (parseDate r.effectiveFrom).number)
    (hDue : ¬(r.dueFor endMonth).number < onDate.number) :
    r.backwardMonths onDate endMonth =
      endMonth :: r.backwardMonths onDate (endMonth - r.periodKind.lengthMonths) := by
  conv_lhs => unfold backwardMonths
  exact (if_neg hSince).trans (if_neg hDue)

theorem backwardMonths_stop {endMonth : Int} (h : (CalendarDay.lastOf endMonth).number <
    (parseDate r.effectiveFrom).number ∨ (r.dueFor endMonth).number < onDate.number) :
    r.backwardMonths onDate endMonth = [endMonth] := by
  unfold backwardMonths
  split_ifs with hBefore hPast
  · rfl
  · rfl
  · exact absurd h (not_or.mpr ⟨hBefore, hPast⟩)

/-- All months that `expandRule` looks at. -/
def scanned (r : Rule) (onDate : CalendarDay) (horizonEnd : Int) : List Int :=
  let current := r.periodKind.currentEndMonth onDate
  r.forwardMonths horizonEnd current ++ r.backwardMonths onDate (current - r.periodKind.lengthMonths)

/-- The loop forward lists those that it looks at and that are to be listed. -/
theorem forward_eq (endMonth : Int) : r.forward onDate horizonEnd endMonth =
    ((r.forwardMonths horizonEnd endMonth).filter fun m => r.Listed onDate horizonEnd m).map
      (r.makeDeadline onDate) := by
  fun_induction r.forward onDate horizonEnd endMonth with
  | case1 endMonth hLate =>
    have hNot : ¬r.Listed onDate horizonEnd endMonth := fun hListed => absurd hListed.2.2 (by omega)
    rw [forwardMonths_stop hLate]
    simp [hNot]
  | case2 endMonth hLate later hBefore ih =>
    have hNot : ¬r.Listed onDate horizonEnd endMonth := fun hListed => absurd hListed.1 (by omega)
    rw [forwardMonths_step hLate]
    simpa [hNot] using ih
  | case3 endMonth hLate later hBefore hDue ih =>
    have hListed : r.Listed onDate horizonEnd endMonth := ⟨by omega, hDue, by omega⟩
    rw [forwardMonths_step hLate]
    simpa [hListed] using ih
  | case4 endMonth hLate later hBefore hDue ih =>
    have hNot : ¬r.Listed onDate horizonEnd endMonth := fun hListed => hDue hListed.2.1
    rw [forwardMonths_step hLate]
    simpa [hNot] using ih

/-- So does the loop backward. -/
theorem backward_eq (endMonth : Int) : r.backward onDate horizonEnd endMonth =
    ((r.backwardMonths onDate endMonth).filter fun m => r.Listed onDate horizonEnd m).map
      (r.makeDeadline onDate) := by
  fun_induction r.backward onDate horizonEnd endMonth with
  | case1 endMonth hBefore =>
    have hNot : ¬r.Listed onDate horizonEnd endMonth := fun hListed => absurd hListed.1 (by omega)
    rw [backwardMonths_stop (.inl hBefore)]
    simp [hNot]
  | case2 endMonth hBefore hPast =>
    have hNot : ¬r.Listed onDate horizonEnd endMonth := fun hListed => absurd hListed.2.1 (by omega)
    rw [backwardMonths_stop (.inr hPast)]
    simp [hNot]
  | case3 endMonth hBefore hPast earlier hIn ih =>
    have hListed : r.Listed onDate horizonEnd endMonth := ⟨by omega, by omega, hIn⟩
    rw [backwardMonths_step hBefore hPast]
    simpa [hListed] using ih
  | case4 endMonth hBefore hPast earlier hLate ih =>
    have hNot : ¬r.Listed onDate horizonEnd endMonth := fun hListed => hLate hListed.2.2
    rw [backwardMonths_step hBefore hPast]
    simpa [hNot] using ih

theorem expandRule_eq : r.expandRule onDate horizonEnd =
    ((r.scanned onDate horizonEnd).filter fun m => r.Listed onDate horizonEnd m).map (r.makeDeadline onDate) := by
  rw [expandRule, forward_eq, backward_eq, scanned, List.filter_append, List.map_append]

/-- Going forward, the months grow from the first. -/
theorem forwardMonths_increasing (endMonth : Int) :
    (∀ m ∈ r.forwardMonths horizonEnd endMonth, endMonth ≤ m) ∧
      (r.forwardMonths horizonEnd endMonth).Pairwise (· < ·) := by
  have hLength := lengthMonths_pos r.periodKind
  fun_induction r.forwardMonths horizonEnd endMonth with
  | case1 endMonth hLate => simp
  | case2 endMonth hLate ih =>
    obtain ⟨hFrom, hPairs⟩ := ih
    constructor
    · exact List.forall_mem_cons.mpr ⟨Int.le_refl _, fun m hm => by have := hFrom m hm; omega⟩
    · exact List.pairwise_cons.mpr ⟨fun m hm => by have := hFrom m hm; omega, hPairs⟩

/-- Going backward, they fall. -/
theorem backwardMonths_decreasing (endMonth : Int) :
    (∀ m ∈ r.backwardMonths onDate endMonth, m ≤ endMonth) ∧
      (r.backwardMonths onDate endMonth).Pairwise (· > ·) := by
  have hLength := lengthMonths_pos r.periodKind
  fun_induction r.backwardMonths onDate endMonth with
  | case1 endMonth hBefore => simp
  | case2 endMonth hBefore hPast => simp
  | case3 endMonth hBefore hPast ih =>
    obtain ⟨hFrom, hPairs⟩ := ih
    constructor
    · exact List.forall_mem_cons.mpr ⟨Int.le_refl _, fun m hm => by have := hFrom m hm; omega⟩
    · exact List.pairwise_cons.mpr ⟨fun m hm => by have := hFrom m hm; omega, hPairs⟩

/-- No month is looked at twice. -/
theorem scanned_nodup : (r.scanned onDate horizonEnd).Nodup := by
  have hLength := lengthMonths_pos r.periodKind
  obtain ⟨hForward, hUp⟩ := @forwardMonths_increasing r horizonEnd
    (r.periodKind.currentEndMonth onDate)
  obtain ⟨hBackward, hDown⟩ := @backwardMonths_decreasing r onDate
    (r.periodKind.currentEndMonth onDate - r.periodKind.lengthMonths)
  refine List.nodup_append.mpr ⟨hUp.imp fun h => h.ne, hDown.imp fun h => h.ne', ?_⟩
  intro m hm m' hm' hEq
  have := hForward m hm
  have := hBackward m' hm'
  omega

/-- The month before which the loop forward has not stopped was due in time. -/
theorem forwardMonths_due (endMonth : Int) : ∀ m ∈ r.forwardMonths horizonEnd endMonth,
    m = endMonth ∨ (r.dueFor (m - r.periodKind.lengthMonths)).number ≤ horizonEnd := by
  fun_induction r.forwardMonths horizonEnd endMonth with
  | case1 endMonth hLate => simp
  | case2 endMonth hLate ih =>
    refine List.forall_mem_cons.mpr ⟨.inl rfl, fun m hm => .inr ?_⟩
    rcases ih m hm with rfl | hDue
    · rw [Int.add_sub_cancel]
      omega
    · exact hDue

/-- The month after which the loop backward has not stopped had ended under the rule. -/
theorem backwardMonths_since (endMonth : Int) : ∀ m ∈ r.backwardMonths onDate endMonth,
    m = endMonth ∨ (parseDate r.effectiveFrom).number ≤
      (CalendarDay.lastOf (m + r.periodKind.lengthMonths)).number := by
  fun_induction r.backwardMonths onDate endMonth with
  | case1 endMonth hBefore => simp
  | case2 endMonth hBefore hPast => simp
  | case3 endMonth hBefore hPast ih =>
    refine List.forall_mem_cons.mpr ⟨.inl rfl, fun m hm => .inr ?_⟩
    rcases ih m hm with rfl | hSince
    · rw [Int.sub_add_cancel]
      omega
    · exact hSince

theorem lengthMonths_le (kind : PeriodKind) : kind.lengthMonths ≤ 12 := by
  cases kind <;> decide

theorem currentEndMonth_bounds (kind : PeriodKind) (onDate : CalendarDay) :
    onDate.month ≤ kind.currentEndMonth onDate ∧ kind.currentEndMonth onDate ≤ onDate.month + 11 := by
  cases kind <;> simp only [PeriodKind.currentEndMonth] <;> omega

/-- A day is in the days of its month. -/
theorem number_bounds (d : CalendarDay) : monthStart d.month ≤ d.number ∧ d.number < monthStart d.month + 31 := by
  have hDay := d.inMonth
  have hLength := monthLength_bounds d.month
  unfold CalendarDay.number
  omega

/-- With the horizons that the API admits, all years that the loops compute are of sixteen bits. -/
theorem scanned_years {day : Date} (hYear : day.year ≤ 9999) {horizonDays : Int} (hHorizon : horizonDays ≤ 3650) :
    ∀ m ∈ r.scanned (parseDate day) ((parseDate day).number + horizonDays),
      0 ≤ m / 12 ∧ (m + r.dueMonthOffset) / 12 ≤ 32767 := by
  have hLength := lengthMonths_pos r.periodKind
  have hLengthMax := lengthMonths_le r.periodKind
  obtain ⟨hCurrentLow, hCurrentHigh⟩ := currentEndMonth_bounds r.periodKind (parseDate day)
  obtain ⟨hDayLow, hDayHigh⟩ := number_bounds (parseDate day)
  obtain ⟨hFirstYear, hFirst, hLast, -⟩ := day.calendar
  have hMonth : (parseDate day).month = 12 * day.year + day.month - 1 := rfl
  have hOffset := r.offsetRange
  intro m hm
  rcases List.mem_append.mp hm with hForward | hBackward
  · have hLow := (r.forwardMonths_increasing (r.periodKind.currentEndMonth (parseDate day))).1 m hForward
    rcases r.forwardMonths_due _ m hForward with rfl | hDue
    · omega
    · have hStart := r.dueFor_start (m - r.periodKind.lengthMonths)
      by_cases hOrder : (parseDate day).month ≤ m - r.periodKind.lengthMonths + r.dueMonthOffset
      · have hMonths := monthStart_le hOrder
        omega
      · omega
  · have hHigh := (r.backwardMonths_decreasing
      (r.periodKind.currentEndMonth (parseDate day) - r.periodKind.lengthMonths)).1 m hBackward
    have hSinceMonth : 12 ≤ (parseDate r.effectiveFrom).month := by
      obtain ⟨hFirstYear, hFirst, -⟩ := r.effectiveFrom.calendar
      simp only [parseDate]
      omega
    rcases r.backwardMonths_since _ m hBackward with rfl | hSince
    · omega
    · have hFrom := (number_bounds (parseDate r.effectiveFrom)).1
      rw [CalendarDay.number_lastOf] at hSince
      have hMonths : (parseDate r.effectiveFrom).month < m + r.periodKind.lengthMonths + 1 :=
        monthStart_lt_iff.mp (by omega)
      omega

theorem makeDeadline_injective (r : Rule) (onDate : CalendarDay) : Function.Injective (r.makeDeadline onDate) := by
  intro a b hEq
  have hDays : (r.dueFor a).number - onDate.number = (r.dueFor b).number - onDate.number :=
    congrArg Deadline.daysLeft hEq
  rcases Int.lt_trichotomy a b with hLess | hSame | hMore
  · have := r.dueFor_lt hLess
    omega
  · exact hSame
  · have := r.dueFor_lt hMore
    omega

/-- A rule expands to exactly one deadline for each of its periods that has ended under it and whose due
date, on the first working day from the day that the rule names, is within the horizon; no other is listed and
none twice.  The loops look at finitely many months, each once, and with the horizons that the API admits
their years fit the type of a year. -/
theorem expandRule_exact (r : Rule) (onDate : CalendarDay) (horizonEnd : Int) :
    (∃ months : List Int, months.Nodup ∧ r.expandRule onDate horizonEnd = months.map (r.makeDeadline onDate) ∧
      (r.expandRule onDate horizonEnd).Nodup ∧
      ∀ endMonth, endMonth ∈ months ↔ r.periodKind.Ends endMonth ∧
        (parseDate r.effectiveFrom).number ≤ (CalendarDay.lastOf endMonth).number ∧
        onDate.number ≤ (r.dueFor endMonth).number ∧ (r.dueFor endMonth).number ≤ horizonEnd) ∧
    (∀ endMonth, FirstWorkingDay (r.rawDue endMonth) (r.dueFor endMonth)) ∧
    (r.scanned onDate horizonEnd).Nodup ∧
    ∀ (day : Date) (horizonDays : Int), day.year ≤ 9999 → horizonDays ≤ 3650 →
      ∀ m ∈ r.scanned (parseDate day) ((parseDate day).number + horizonDays),
        0 ≤ m / 12 ∧ (m + r.dueMonthOffset) / 12 ≤ 32767 := by
  have hNodup : ((r.scanned onDate horizonEnd).filter fun m => r.Listed onDate horizonEnd m).Nodup :=
    scanned_nodup.filter _
  refine ⟨⟨_, hNodup, r.expandRule_eq, ?_, fun endMonth => ?_⟩, fun endMonth => shiftWeekendForward_first _,
    scanned_nodup, fun day horizonDays hYear hHorizon => scanned_years hYear hHorizon⟩
  · rw [expandRule_eq]
    exact List.Nodup.map (r.makeDeadline_injective onDate) hNodup
  · have hMem := @mem_expandRule r onDate horizonEnd (r.makeDeadline onDate endMonth)
    rw [expandRule_eq, List.mem_map_of_injective (r.makeDeadline_injective onDate)] at hMem
    rw [hMem]
    constructor
    · rintro ⟨other, hEnds, hListed, hEq⟩
      rw [r.makeDeadline_injective onDate hEq]
      exact ⟨hEnds, hListed⟩
    · rintro ⟨hEnds, hListed⟩
      exact ⟨endMonth, hEnds, hListed, rfl⟩

end Rule

end CyberAccountant.Tax
