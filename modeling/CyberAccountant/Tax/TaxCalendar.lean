import CyberAccountant.Ledger.Journal
import CyberAccountant.Library.Calendar
import Mathlib.Data.List.Pairwise
import Mathlib.Tactic.Ring

/-! The tax calendar: the rules of `tax_deadlines`, and the days on which forms and payments are due
within a horizon. -/

namespace CyberAccountant.Tax

open CyberAccountant.Library CyberAccountant.Ledger

/-! ### Days -/

theorem monthLength_eq (year month : Nat) (h : 1 ≤ month ∧ month ≤ 12) :
    monthLength (12 * year + month - 1) = daysInMonth year month := by
  obtain ⟨hLow, hHigh⟩ := h
  have hYear : (12 * (year : Int) + month - 1) / 12 = year := by omega
  have hPlace : (12 * (year : Int) + month - 1) % 12 = month - 1 := by omega
  have hLeap : LeapYear year ↔ IsLeapYear year := by
    unfold LeapYear IsLeapYear
    omega
  unfold monthLength daysInMonth
  rw [hYear, hPlace]
  simp only [hLeap]
  split_ifs <;> omega

/-- `parse_date` on a value of the type `DATE`. -/
def parseDate (d : Date) : CalendarDay where
  month := 12 * d.year + d.month - 1
  day := d.day
  inMonth := by
    obtain ⟨-, hFirst, hLast, hDay, hEnd⟩ := d.calendar
    rw [monthLength_eq d.year d.month ⟨hFirst, hLast⟩]
    omega

/-- The order of dates is that of the numbers of their days. -/
theorem date_le_iff {d e : Date} : d ≤ e ↔ (parseDate d).number ≤ (parseDate e).number := by
  have hLess := @CalendarDay.number_lt_iff (parseDate e) (parseDate d)
  obtain ⟨-, hFirstD, hLastD, -⟩ := d.calendar
  obtain ⟨-, hFirstE, hLastE, -⟩ := e.calendar
  have hNot : ¬ d ≤ e ↔ (parseDate e).number < (parseDate d).number := by
    rw [hLess]
    change ¬ (_ ∨ _) ↔ _
    simp only [parseDate]
    omega
  rw [← not_iff_not, hNot]
  omega

/-- `%04d-%02u-%02u`. -/
def formatDate (d : CalendarDay) : String :=
  let year := Nat.toDigits 10 d.year.toNat
  String.ofList (List.replicate (4 - year.length) '0' ++ year ++
    '-' :: twoDigits (d.month % 12 + 1).toNat ++ '-' :: twoDigits d.day.toNat)

/-! ### Rules and deadlines -/

/-- `form IN ('910.00','300.00','200.00')`. -/
inductive Form where
  | fno910
  | fno300
  | fno200
  deriving DecidableEq

/-- `kind IN ('report','payment')`. -/
inductive DeadlineKind where
  | report
  | payment
  deriving DecidableEq

/-- `period_kind IN ('month','quarter','half_year','year')`. -/
inductive PeriodKind where
  | month
  | quarter
  | halfYear
  | year
  deriving DecidableEq

/-- A row of `tax_deadlines` with the checks of its columns. -/
structure Rule where
  form : Form
  kind : DeadlineKind
  periodKind : PeriodKind
  dueDay : Nat
  dueMonthOffset : Nat
  effectiveFrom : Date
  dueDayRange : 1 ≤ dueDay ∧ dueDay ≤ 28
  offsetRange : dueMonthOffset ≤ 11
  deriving DecidableEq

/-- The columns of the unique key. -/
def Rule.SameKey (a b : Rule) : Prop := a.form = b.form ∧ a.kind = b.kind ∧ a.effectiveFrom = b.effectiveFrom

instance Rule.decidableSameKey (a b : Rule) : Decidable (a.SameKey b) := inferInstanceAs (Decidable (_ ∧ _))

/-- The table, with `UNIQUE (form, kind, effective_from)`. -/
structure RuleTable where
  rules : List Rule
  unique : rules.Pairwise fun a b => ¬ a.SameKey b

structure Deadline where
  form : Form
  kind : DeadlineKind
  periodLabel : String
  dueDate : String
  daysLeft : Int
  deriving DecidableEq

/-- The rules of a form and kind that are in force, the newest first. -/
def newestRule (table : RuleTable) (form : Form) (kind : DeadlineKind) (onDate : Date) : Option Rule :=
  ((table.rules.filter fun r => r.form = form ∧ r.kind = kind ∧ r.effectiveFrom ≤ onDate).mergeSort
    fun a b => b.effectiveFrom ≤ a.effectiveFrom).head?

/-- The forms and kinds in the order of their texts. -/
def formKinds : List (Form × DeadlineKind) :=
  [(.fno200, .payment), (.fno200, .report), (.fno300, .payment), (.fno300, .report), (.fno910, .payment),
    (.fno910, .report)]

/-- `SELECT DISTINCT ON (form, kind) … ORDER BY form, kind, effective_from DESC`. -/
def loadRules (table : RuleTable) (onDate : Date) : List Rule :=
  formKinds.filterMap fun (form, kind) => newestRule table form kind onDate

namespace PeriodKind

def lengthMonths : PeriodKind → Int
  | month => 1
  | quarter => 3
  | halfYear => 6
  | year => 12

/-- The last month of the period in which a day lies. -/
def currentEndMonth (kind : PeriodKind) (onDate : CalendarDay) : Int :=
  let year := onDate.month / 12
  let m := onDate.month % 12 + 1
  match kind with
  | month => onDate.month
  | quarter => 12 * year + ((m - 1) / 3 + 1) * 3 - 1
  | halfYear => 12 * year + (if m ≤ 6 then 6 else 12) - 1
  | .year => 12 * year + 12 - 1

def monthsRu : List String :=
  ["Январь", "Февраль", "Март", "Апрель", "Май", "Июнь", "Июль", "Август", "Сентябрь", "Октябрь", "Ноябрь",
    "Декабрь"]

def roman : List String := ["I", "II", "III", "IV"]

/-- The Russian name of the period that ends with a month. -/
def label (kind : PeriodKind) (endMonth : Int) : String :=
  let y := toString (endMonth / 12)
  let m := (endMonth % 12 + 1).toNat
  match kind with
  | halfYear => (if m = 6 then "I полугодие " else "II полугодие ") ++ y
  | quarter => roman.getD (m / 3 - 1) "" ++ " квартал " ++ y
  | .year => y ++ " год"
  | month => monthsRu.getD (m - 1) "" ++ " " ++ y

end PeriodKind

def IsWeekend (d : CalendarDay) : Prop := d.weekday = 6 ∨ d.weekday = 0

instance (d : CalendarDay) : Decidable (IsWeekend d) := inferInstanceAs (Decidable (_ ∨ _))

/-- At most `days` steps of the loop that moves a weekend day on. -/
def shiftWithin : Nat → CalendarDay → CalendarDay
  | 0, d => d
  | days + 1, d => if IsWeekend d then shiftWithin days d.next else d

/-- Two steps end the loop. -/
def shiftWeekendForward (d : CalendarDay) : CalendarDay := shiftWithin 2 d

theorem shiftWeekendForward_spec (d : CalendarDay) :
    ¬ IsWeekend (shiftWeekendForward d) ∧ d.number ≤ (shiftWeekendForward d).number ∧
      (shiftWeekendForward d).number ≤ d.number + 2 := by
  have hWeek : ∀ e : CalendarDay, IsWeekend e ↔ (e.number + 4) % 7 = 6 ∨ (e.number + 4) % 7 = 0 := fun e => Iff.rfl
  simp only [shiftWeekendForward, shiftWithin]
  split_ifs with hFirst hSecond <;> simp only [hWeek, CalendarDay.number_next] at * <;> omega

namespace Rule

/-- The day that the rule names, in the month that it names. -/
def rawDue (r : Rule) (endMonth : Int) : CalendarDay where
  month := endMonth + r.dueMonthOffset
  day := r.dueDay
  inMonth := by
    have hLength := monthLength_bounds (endMonth + r.dueMonthOffset)
    have hDay := r.dueDayRange
    omega

/-- The day on which the period that ends with a month is due. -/
def dueFor (r : Rule) (endMonth : Int) : CalendarDay := shiftWeekendForward (r.rawDue endMonth)

def makeDeadline (r : Rule) (onDate : CalendarDay) (endMonth : Int) : Deadline where
  form := r.form
  kind := r.kind
  periodLabel := r.periodKind.label endMonth
  dueDate := formatDate (r.dueFor endMonth)
  daysLeft := (r.dueFor endMonth).number - onDate.number

/-- A period is due on the day that the rule names, or up to two days after. -/
theorem dueFor_bounds (r : Rule) (endMonth : Int) :
    monthStart (endMonth + r.dueMonthOffset) + (r.dueDay - 1) ≤ (r.dueFor endMonth).number ∧
      (r.dueFor endMonth).number ≤ monthStart (endMonth + r.dueMonthOffset) + (r.dueDay - 1) + 2 :=
  (shiftWeekendForward_spec (r.rawDue endMonth)).2

theorem dueFor_start (r : Rule) (endMonth : Int) :
    monthStart (endMonth + r.dueMonthOffset) ≤ (r.dueFor endMonth).number := by
  have hDue := r.dueFor_bounds endMonth
  have hDay := r.dueDayRange
  omega

/-- A later period is due later. -/
theorem dueFor_lt (r : Rule) {a b : Int} (h : a < b) : (r.dueFor a).number < (r.dueFor b).number := by
  have hMonths := monthStart_le (show a + r.dueMonthOffset ≤ b + r.dueMonthOffset by omega)
  have hA := r.dueFor_bounds a
  have hB := r.dueFor_bounds b
  omega

/-! ### The two loops of `expand_rule` -/

/-- The period has ended under the rule, and it is due within the horizon. -/
def Listed (r : Rule) (onDate : CalendarDay) (horizonEnd endMonth : Int) : Prop :=
  (parseDate r.effectiveFrom).number ≤ (CalendarDay.lastOf endMonth).number ∧
    onDate.number ≤ (r.dueFor endMonth).number ∧ (r.dueFor endMonth).number ≤ horizonEnd

instance (r : Rule) (onDate : CalendarDay) (horizonEnd endMonth : Int) :
    Decidable (r.Listed onDate horizonEnd endMonth) := inferInstanceAs (Decidable (_ ∧ _))

theorem lengthMonths_pos (kind : PeriodKind) : 0 < kind.lengthMonths := by
  cases kind <;> decide

/-- This period and the later ones, until one is due after the horizon. -/
def forward (r : Rule) (onDate : CalendarDay) (horizonEnd endMonth : Int) : List Deadline :=
  if horizonEnd < (r.dueFor endMonth).number then []
  else
    let later := r.forward onDate horizonEnd (endMonth + r.periodKind.lengthMonths)
    if (CalendarDay.lastOf endMonth).number < (parseDate r.effectiveFrom).number then later
    else if onDate.number ≤ (r.dueFor endMonth).number then r.makeDeadline onDate endMonth :: later
    else later
termination_by (horizonEnd + 1 - monthStart (endMonth + r.dueMonthOffset)).toNat
decreasing_by
  have hLength := lengthMonths_pos r.periodKind
  have hStart := r.dueFor_start endMonth
  have hNext := monthStart_le (show endMonth + r.dueMonthOffset ≤
    endMonth + r.periodKind.lengthMonths + r.dueMonthOffset by omega)
  omega

/-- This period and the earlier ones, until one has ended before the rule or was due before the day. -/
def backward (r : Rule) (onDate : CalendarDay) (horizonEnd endMonth : Int) : List Deadline :=
  if (CalendarDay.lastOf endMonth).number < (parseDate r.effectiveFrom).number then []
  else if (r.dueFor endMonth).number < onDate.number then []
  else
    let earlier := r.backward onDate horizonEnd (endMonth - r.periodKind.lengthMonths)
    if (r.dueFor endMonth).number ≤ horizonEnd then r.makeDeadline onDate endMonth :: earlier else earlier
termination_by (monthStart (endMonth + 1) - (parseDate r.effectiveFrom).number).toNat
decreasing_by
  have hLength := lengthMonths_pos r.periodKind
  have hPrevious := monthStart_le (show endMonth - r.periodKind.lengthMonths + 1 ≤ endMonth + 1 by omega)
  simp only [CalendarDay.number_lastOf] at *
  omega

def expandRule (r : Rule) (onDate : CalendarDay) (horizonEnd : Int) : List Deadline :=
  let current := r.periodKind.currentEndMonth onDate
  r.forward onDate horizonEnd current ++ r.backward onDate horizonEnd (current - r.periodKind.lengthMonths)

end Rule

/-- The deadlines of a day for so many days ahead, the earliest first. -/
def upcoming (table : RuleTable) (onDate : Date) (horizonDays : Int) : List Deadline :=
  let day := parseDate onDate
  ((loadRules table onDate).flatMap fun r => r.expandRule day (day.number + horizonDays)).mergeSort
    fun a b => ¬ b.dueDate < a.dueDate

namespace Rule

variable {r : Rule} {onDate : CalendarDay} {horizonEnd : Int} {dl : Deadline}

/-- A walk of equal steps visits where it starts and what a walk from its second place visits. -/
theorem exists_place_iff {P : Int → Prop} {start step : Int} :
    (∃ count : Nat, P (start + step * count)) ↔ P start ∨ ∃ count : Nat, P (start + step + step * count) := by
  have hPlace : ∀ count : Nat, start + step * ((count + 1 : Nat) : Int) = start + step + step * count := fun count => by
    rw [Nat.cast_succ, Int.mul_add, Int.mul_one]
    omega
  constructor
  · rintro ⟨count, h⟩
    cases count with
    | zero => exact .inl (by simpa using h)
    | succ count => exact .inr ⟨count, by rwa [hPlace] at h⟩
  · rintro (h | ⟨count, h⟩)
    · exact ⟨0, by simpa using h⟩
    · exact ⟨count + 1, by rwa [hPlace]⟩

theorem dueFor_le (r : Rule) {a b : Int} (h : a ≤ b) : (r.dueFor a).number ≤ (r.dueFor b).number := by
  rcases Int.lt_or_eq_of_le h with hLess | rfl
  · exact Int.le_of_lt (r.dueFor_lt hLess)
  · exact Int.le_refl _

/-- Going forward finds the periods from here on. -/
theorem mem_forward {endMonth : Int} : dl ∈ r.forward onDate horizonEnd endMonth ↔
    ∃ count : Nat, r.Listed onDate horizonEnd (endMonth + r.periodKind.lengthMonths * count) ∧
      dl = r.makeDeadline onDate (endMonth + r.periodKind.lengthMonths * count) := by
  have hLength := lengthMonths_pos r.periodKind
  fun_induction r.forward onDate horizonEnd endMonth with
  | case1 endMonth hLate =>
    -- Due dates grow along the walk, so nothing further on is due in time.
    simp only [List.not_mem_nil, false_iff, not_exists, not_and]
    rintro count ⟨-, -, hIn⟩
    have hMul : 0 ≤ r.periodKind.lengthMonths * count := Int.mul_nonneg (by omega) (by omega)
    have hDue := r.dueFor_le (show endMonth ≤ endMonth + r.periodKind.lengthMonths * count by omega)
    omega
  | case2 endMonth hLate later hBefore ih =>
    have hNot : ¬ r.Listed onDate horizonEnd endMonth := fun hListed => absurd hListed.1 (by omega)
    rw [exists_place_iff (P := fun e => r.Listed onDate horizonEnd e ∧ dl = r.makeDeadline onDate e)]
    simp only [hNot, false_and, false_or]
    exact ih
  | case3 endMonth hLate later hBefore hDue ih =>
    have hListed : r.Listed onDate horizonEnd endMonth := ⟨by omega, hDue, by omega⟩
    rw [List.mem_cons,
      exists_place_iff (P := fun e => r.Listed onDate horizonEnd e ∧ dl = r.makeDeadline onDate e)]
    simp only [hListed, true_and]
    exact or_congr_right ih
  | case4 endMonth hLate later hBefore hDue ih =>
    have hNot : ¬ r.Listed onDate horizonEnd endMonth := fun hListed => hDue hListed.2.1
    rw [exists_place_iff (P := fun e => r.Listed onDate horizonEnd e ∧ dl = r.makeDeadline onDate e)]
    simp only [hNot, false_and, false_or]
    exact ih

/-- Going backward finds the periods up to here. -/
theorem mem_backward {endMonth : Int} : dl ∈ r.backward onDate horizonEnd endMonth ↔
    ∃ count : Nat, r.Listed onDate horizonEnd (endMonth + -r.periodKind.lengthMonths * count) ∧
      dl = r.makeDeadline onDate (endMonth + -r.periodKind.lengthMonths * count) := by
  have hLength := lengthMonths_pos r.periodKind
  have hBack : ∀ (endMonth : Int) (count : Nat), endMonth + -r.periodKind.lengthMonths * count ≤ endMonth := by
    intro endMonth count
    have hMul : 0 ≤ r.periodKind.lengthMonths * count := Int.mul_nonneg (by omega) (by omega)
    rw [Int.neg_mul]
    omega
  fun_induction r.backward onDate horizonEnd endMonth with
  | case1 endMonth hBefore =>
    -- An earlier period has ended before the rule too.
    simp only [List.not_mem_nil, false_iff, not_exists, not_and]
    rintro count ⟨hSince, -, -⟩
    have hMonths := monthStart_le (show endMonth + -r.periodKind.lengthMonths * count + 1 ≤ endMonth + 1 by
      have := hBack endMonth count
      omega)
    simp only [CalendarDay.number_lastOf] at hSince hBefore
    have := hBack endMonth count
    omega
  | case2 endMonth hBefore hPast =>
    -- An earlier period was due earlier.
    simp only [List.not_mem_nil, false_iff, not_exists, not_and]
    rintro count ⟨-, hDue, -⟩
    have hEarlier := r.dueFor_le (hBack endMonth count)
    omega
  | case3 endMonth hBefore hPast earlier hIn ih =>
    have hListed : r.Listed onDate horizonEnd endMonth := ⟨by omega, by omega, hIn⟩
    rw [List.mem_cons,
      exists_place_iff (P := fun e => r.Listed onDate horizonEnd e ∧ dl = r.makeDeadline onDate e)]
    simp only [hListed, true_and, ← Int.sub_eq_add_neg]
    exact or_congr_right ih
  | case4 endMonth hBefore hPast earlier hLate ih =>
    have hNot : ¬ r.Listed onDate horizonEnd endMonth := fun hListed => hLate hListed.2.2
    rw [exists_place_iff (P := fun e => r.Listed onDate horizonEnd e ∧ dl = r.makeDeadline onDate e)]
    simp only [hNot, false_and, false_or, ← Int.sub_eq_add_neg]
    exact ih

end Rule

/-- The month ends a period. -/
def PeriodKind.Ends (kind : PeriodKind) (endMonth : Int) : Prop := (endMonth + 1) % kind.lengthMonths = 0

instance PeriodKind.decidableEnds (kind : PeriodKind) (endMonth : Int) : Decidable (kind.Ends endMonth) :=
  inferInstanceAs (Decidable (_ = _))

theorem PeriodKind.currentEndMonth_ends (kind : PeriodKind) (onDate : CalendarDay) :
    kind.Ends (kind.currentEndMonth onDate) := by
  cases kind <;> simp only [PeriodKind.Ends, PeriodKind.currentEndMonth, PeriodKind.lengthMonths] <;> omega

/-- The loops list exactly the periods of the rule that have ended under it and are due within the
horizon. -/
theorem Rule.mem_expandRule {r : Rule} {onDate : CalendarDay} {horizonEnd : Int} {dl : Deadline} :
    dl ∈ r.expandRule onDate horizonEnd ↔
      ∃ endMonth, r.periodKind.Ends endMonth ∧ r.Listed onDate horizonEnd endMonth ∧
        dl = r.makeDeadline onDate endMonth := by
  have hLength := Rule.lengthMonths_pos r.periodKind
  have hCurrent : (r.periodKind.currentEndMonth onDate + 1) % r.periodKind.lengthMonths = 0 :=
    r.periodKind.currentEndMonth_ends onDate
  simp only [Rule.expandRule, List.mem_append, Rule.mem_forward, Rule.mem_backward]
  constructor
  · rintro (⟨count, hListed⟩ | ⟨count, hListed⟩)
    · refine ⟨_, ?_, hListed⟩
      rw [PeriodKind.Ends, Int.add_right_comm, Int.add_mul_emod_self_left, hCurrent]
    · refine ⟨_, ?_, hListed⟩
      have hPlace : r.periodKind.currentEndMonth onDate - r.periodKind.lengthMonths +
          -r.periodKind.lengthMonths * count + 1 =
            r.periodKind.currentEndMonth onDate + 1 + r.periodKind.lengthMonths * (-(count : Int) - 1) := by
        ring
      rw [PeriodKind.Ends, hPlace, Int.add_mul_emod_self_left, hCurrent]
  · rintro ⟨endMonth, hEnds, hListed⟩
    have hDvd : r.periodKind.lengthMonths ∣ endMonth - r.periodKind.currentEndMonth onDate := by
      rw [PeriodKind.Ends] at hEnds
      have hSub := Int.dvd_sub (Int.dvd_of_emod_eq_zero hEnds) (Int.dvd_of_emod_eq_zero hCurrent)
      rwa [show endMonth + 1 - (r.periodKind.currentEndMonth onDate + 1) =
        endMonth - r.periodKind.currentEndMonth onDate by omega] at hSub
    obtain ⟨steps, hSteps⟩ := hDvd
    by_cases hSign : 0 ≤ steps
    · refine .inl ⟨steps.toNat, ?_⟩
      rwa [Int.toNat_of_nonneg hSign, ← hSteps, add_sub_cancel]
    · refine .inr ⟨(-steps - 1).toNat, ?_⟩
      rw [Int.toNat_of_nonneg (by omega)]
      have hPlace : r.periodKind.currentEndMonth onDate - r.periodKind.lengthMonths +
          -r.periodKind.lengthMonths * (-steps - 1) = endMonth := by
        rw [show endMonth = r.periodKind.currentEndMonth onDate + r.periodKind.lengthMonths * steps by omega]
        ring
      rwa [hPlace]

/-! ### The rule in force -/

variable {table : RuleTable} {form : Form} {kind : DeadlineKind} {onDate : Date} {r : Rule} {dl : Deadline}

/-- A rule of the form and kind that is in force. -/
def RuleTable.InForce (table : RuleTable) (form : Form) (kind : DeadlineKind) (onDate : Date) (r : Rule) : Prop :=
  r ∈ table.rules ∧ r.form = form ∧ r.kind = kind ∧ r.effectiveFrom ≤ onDate

/-- Rules that agree in the columns of the key are one. -/
theorem RuleTable.eq_of_sameKey {a b : Rule} (ha : a ∈ table.rules) (hb : b ∈ table.rules) (h : a.SameKey b) :
    a = b := by
  have hSymm : Std.Symm fun a b : Rule => ¬ a.SameKey b :=
    ⟨fun a b hNot hSame => hNot ⟨hSame.1.symm, hSame.2.1.symm, hSame.2.2.symm⟩⟩
  by_contra hNe
  exact table.unique.forall ha hb hNe h

theorem mem_rulesInForce : r ∈ (table.rules.filter fun r => r.form = form ∧ r.kind = kind ∧
    r.effectiveFrom ≤ onDate).mergeSort (fun a b => b.effectiveFrom ≤ a.effectiveFrom) ↔
      table.InForce form kind onDate r := by
  rw [List.mem_mergeSort, List.mem_filter]
  simp [RuleTable.InForce]

theorem date_le_total (d e : Date) : d ≤ e ∨ e ≤ d := by
  rw [date_le_iff, date_le_iff]
  omega

/-- The newest rule is in force, and no other that is has become effective later. -/
theorem newestRule_some (h : newestRule table form kind onDate = some r) :
    table.InForce form kind onDate r ∧
      ∀ other, table.InForce form kind onDate other → other.effectiveFrom ≤ r.effectiveFrom := by
  obtain ⟨rest, hSorted⟩ := List.head?_eq_some_iff.mp h
  have hMem : ∀ other, table.InForce form kind onDate other ↔ other ∈ r :: rest := fun other => by
    rw [← hSorted, mem_rulesInForce]
  have hOrder : (r :: rest).Pairwise fun a b : Rule => decide (b.effectiveFrom ≤ a.effectiveFrom) = true := by
    rw [← hSorted]
    refine List.pairwise_mergeSort (fun a b c hAB hBC => ?_) (fun a b => ?_) _
    · exact decide_eq_true (Date.le_trans (of_decide_eq_true hBC) (of_decide_eq_true hAB))
    · simpa using date_le_total b.effectiveFrom a.effectiveFrom
  refine ⟨(hMem r).mpr List.mem_cons_self, fun other hOther => ?_⟩
  rcases List.mem_cons.mp ((hMem other).mp hOther) with rfl | hRest
  · exact Date.le_refl _
  · exact of_decide_eq_true (List.rel_of_pairwise_cons hOrder hRest)

/-- Where a rule is in force there is a newest one. -/
theorem newestRule_isSome (h : table.InForce form kind onDate r) : ∃ newest, newestRule table form kind onDate = some newest := by
  cases hNewest : newestRule table form kind onDate with
  | some newest => exact ⟨newest, rfl⟩
  | none =>
    have hEmpty := List.head?_eq_none_iff.mp hNewest
    have hMem := mem_rulesInForce.mpr h
    rw [hEmpty] at hMem
    cases hMem

theorem mem_formKinds (form : Form) (kind : DeadlineKind) : (form, kind) ∈ formKinds := by
  cases form <;> cases kind <;> decide

theorem mem_loadRules : r ∈ loadRules table onDate ↔ newestRule table r.form r.kind onDate = some r := by
  simp only [loadRules, List.mem_filterMap, Prod.exists]
  constructor
  · rintro ⟨form, kind, -, hNewest⟩
    obtain ⟨⟨-, rfl, rfl, -⟩, -⟩ := newestRule_some hNewest
    exact hNewest
  · exact fun h => ⟨r.form, r.kind, mem_formKinds _ _, h⟩

/-- What is upcoming: the deadlines of the newest rules, each for a period that has ended under its rule. -/
theorem mem_upcoming {horizonDays : Int} : dl ∈ upcoming table onDate horizonDays ↔
    ∃ r endMonth, newestRule table r.form r.kind onDate = some r ∧ r.periodKind.Ends endMonth ∧
      r.Listed (parseDate onDate) ((parseDate onDate).number + horizonDays) endMonth ∧
      dl = r.makeDeadline (parseDate onDate) endMonth := by
  simp only [upcoming, List.mem_mergeSort, List.mem_flatMap, mem_loadRules, Rule.mem_expandRule]
  constructor
  · rintro ⟨r, hNewest, endMonth, hEnds, hListed⟩
    exact ⟨r, endMonth, hNewest, hEnds, hListed⟩
  · rintro ⟨r, endMonth, hNewest, hEnds, hListed⟩
    exact ⟨r, hNewest, endMonth, hEnds, hListed⟩

end CyberAccountant.Tax
