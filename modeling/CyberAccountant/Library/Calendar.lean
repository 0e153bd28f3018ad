import Mathlib.Data.Int.Basic
import Mathlib.Tactic.IntervalCases

/-! The Gregorian calendar in numbers: months counted from January of the year 0, days counted from
1 January 1970. -/

namespace CyberAccountant.Library

/-- The year has a day more in February. -/
def LeapYear (year : Int) : Prop := year % 4 = 0 ∧ (year % 100 ≠ 0 ∨ year % 400 = 0)

instance (year : Int) : Decidable (LeapYear year) := inferInstanceAs (Decidable (_ ∧ _))

/-- The number of days of a month. -/
def monthLength (month : Int) : Int :=
  if month % 12 = 1 then if LeapYear (month / 12) then 29 else 28
  else if month % 12 = 3 ∨ month % 12 = 5 ∨ month % 12 = 8 ∨ month % 12 = 10 then 30
  else 31

/-- The first day of a year. -/
def yearStart (year : Int) : Int := 365 * year + (year - 1) / 4 - (year - 1) / 100 + (year - 1) / 400 - 719527

/-- The first day of a month. -/
def monthStart (month : Int) : Int :=
  yearStart (month / 12) + (367 * (month % 12) + 5) / 12 -
    if month % 12 ≤ 1 then 0 else if LeapYear (month / 12) then 1 else 2

theorem yearStart_succ (year : Int) : yearStart (year + 1) = yearStart year + if LeapYear year then 366 else 365 := by
  unfold yearStart
  split_ifs with hLeap
  · obtain ⟨hFour, hCentury⟩ := hLeap
    omega
  · have hNot : year % 4 ≠ 0 ∨ (year % 100 = 0 ∧ year % 400 ≠ 0) := by
      unfold LeapYear at hLeap
      omega
    omega

/-- A month ends where the next one starts. -/
theorem monthStart_succ (month : Int) : monthStart (month + 1) = monthStart month + monthLength month := by
  obtain ⟨year, place, rfl, hLow, hHigh⟩ : ∃ year place : Int, month = 12 * year + place ∧ 0 ≤ place ∧ place < 12 :=
    ⟨month / 12, month % 12, by omega, by omega, by omega⟩
  have hYear : (12 * year + place) / 12 = year := by omega
  have hPlace : (12 * year + place) % 12 = place := by omega
  by_cases hLast : place = 11
  · subst hLast
    have hNext : (12 * year + 11 + 1) / 12 = year + 1 := by omega
    have hFirst : (12 * year + 11 + 1) % 12 = 0 := by omega
    unfold monthStart monthLength
    rw [hYear, hPlace, hNext, hFirst, yearStart_succ]
    by_cases hLeap : LeapYear year <;> simp [hLeap] <;> omega
  · have hNext : (12 * year + place + 1) / 12 = year := by omega
    have hFollows : (12 * year + place + 1) % 12 = place + 1 := by omega
    unfold monthStart monthLength
    rw [hYear, hPlace, hNext, hFollows]
    by_cases hLeap : LeapYear year <;> interval_cases place <;> simp_all <;> omega

theorem monthLength_bounds (month : Int) : 28 ≤ monthLength month ∧ monthLength month ≤ 31 := by
  unfold monthLength
  split_ifs <;> omega

/-- Each month has at least four weeks. -/
theorem monthStart_add (month : Int) (count : Nat) : monthStart month + 28 * count ≤ monthStart (month + count) := by
  induction count with
  | zero => simp
  | succ count ih =>
    have hNext := monthStart_succ (month + count)
    have hLength := monthLength_bounds (month + count)
    rw [Nat.cast_succ, ← Int.add_assoc]
    omega

theorem monthStart_le {a b : Int} (h : a ≤ b) : monthStart a + 28 * (b - a) ≤ monthStart b := by
  have hAdd := monthStart_add a (b - a).toNat
  rw [Int.toNat_of_nonneg (by omega), show a + (b - a) = b by omega] at hAdd
  exact hAdd

theorem monthStart_lt_iff {a b : Int} : monthStart a < monthStart b ↔ a < b := by
  constructor
  · intro h
    by_contra hNot
    have hLe := monthStart_le (show b ≤ a by omega)
    omega
  · intro h
    have hLe := monthStart_le (show a ≤ b by omega)
    omega

/-- A day of the calendar: its month and its place in it. -/
structure CalendarDay where
  month : Int
  day : Int
  inMonth : 1 ≤ day ∧ day ≤ monthLength month
  deriving DecidableEq

namespace CalendarDay

/-- The number of a day. -/
def number (d : CalendarDay) : Int := monthStart d.month + (d.day - 1)

def year (d : CalendarDay) : Int := d.month / 12

/-- The day after. -/
def next (d : CalendarDay) : CalendarDay :=
  if h : d.day + 1 ≤ monthLength d.month then ⟨d.month, d.day + 1, by have := d.inMonth; omega, h⟩
  else ⟨d.month + 1, 1, le_refl 1, by have := monthLength_bounds (d.month + 1); omega⟩

@[simp] theorem number_next (d : CalendarDay) : d.next.number = d.number + 1 := by
  have hDay := d.inMonth
  unfold next
  split_ifs with hSame
  · simp only [number]
    omega
  · simp only [number, monthStart_succ]
    omega

/-- The order of days is that of months and of days in the month. -/
theorem number_lt_iff {d e : CalendarDay} :
    d.number < e.number ↔ d.month < e.month ∨ d.month = e.month ∧ d.day < e.day := by
  have hD := d.inMonth
  have hE := e.inMonth
  have hNextD := monthStart_succ d.month
  have hNextE := monthStart_succ e.month
  unfold number
  rcases lt_trichotomy d.month e.month with hLess | hSame | hMore
  · have hLe := monthStart_le (show d.month + 1 ≤ e.month by omega)
    omega
  · rw [hSame] at hD ⊢
    omega
  · have hLe := monthStart_le (show e.month + 1 ≤ d.month by omega)
    omega

/-- The last day of a month. -/
def lastOf (month : Int) : CalendarDay :=
  ⟨month, monthLength month, by have := monthLength_bounds month; omega, le_refl _⟩

@[simp] theorem number_lastOf (month : Int) : (lastOf month).number = monthStart (month + 1) - 1 := by
  simp only [number, lastOf, monthStart_succ]
  omega

/-- 0 is Sunday. -/
def weekday (d : CalendarDay) : Int := (d.number + 4) % 7

end CalendarDay

example : (CalendarDay.mk (2026 * 12 + 7) 15 (by decide)).weekday = 6 := by decide

end CyberAccountant.Library
