import CyberAccountant.Money.MoneyFormat
import CyberAccountant.Tax.TaxCalendar
import Mathlib.Data.List.TakeWhile

/-! Whether a deadline that has been listed stays listed until it is due, though the rules change. -/

namespace CyberAccountant.Tax

open CyberAccountant.Library CyberAccountant.Ledger
open CyberAccountant.Money (readDigits readDigits_toDigits)

/-! ### Periods and their names -/

/-- A period of the calendar, from the year 0 on. -/
structure Period where
  kind : PeriodKind
  endMonth : Int
  ends : kind.Ends endMonth
  era : 0 ≤ endMonth

def Period.label (period : Period) : String := period.kind.label period.endMonth

def Period.lastDay (period : Period) : Int := (CalendarDay.lastOf period.endMonth).number

/-- What the name of a period has before the year. -/
def PeriodKind.labelHead (kind : PeriodKind) (place : Int) : String :=
  match kind with
  | halfYear => if (place + 1).toNat = 6 then "I полугодие " else "II полугодие "
  | quarter => PeriodKind.roman.getD ((place + 1).toNat / 3 - 1) "" ++ " квартал "
  | .year => ""
  | month => PeriodKind.monthsRu.getD ((place + 1).toNat - 1) "" ++ " "

/-- What it has after the year. -/
def PeriodKind.labelTail : PeriodKind → String
  | .year => " год"
  | _ => ""

theorem PeriodKind.label_eq (kind : PeriodKind) (endMonth : Int) :
    kind.label endMonth = kind.labelHead (endMonth % 12) ++ toString (endMonth / 12) ++ kind.labelTail := by
  cases kind <;> simp [label, labelHead, labelTail]

/-- The periods of a year: their kinds with the places of their last months. -/
def endings : List (PeriodKind × Int) :=
  [(.month, 0), (.month, 1), (.month, 2), (.month, 3), (.month, 4), (.month, 5), (.month, 6), (.month, 7),
    (.month, 8), (.month, 9), (.month, 10), (.month, 11), (.quarter, 2), (.quarter, 5), (.quarter, 8),
    (.quarter, 11), (.halfYear, 5), (.halfYear, 11), (.year, 11)]

theorem mem_endings (period : Period) : (period.kind, period.endMonth % 12) ∈ endings := by
  have hEnds := period.ends
  have hLow : 0 ≤ period.endMonth % 12 := by omega
  have hHigh : period.endMonth % 12 < 12 := by omega
  cases hKind : period.kind <;> rw [hKind] at hEnds <;>
    simp only [PeriodKind.Ends, PeriodKind.lengthMonths] at hEnds <;> simp [endings] <;> omega

theorem labelHead_noDigit : ∀ e ∈ endings, ∀ c ∈ (e.1.labelHead e.2).toList, ¬ c.isDigit := by
  have hAll : ∀ e ∈ endings, (e.1.labelHead e.2).toList.all (fun c => !c.isDigit) = true := by
    decide +kernel
  intro e he c hc
  simpa using List.all_eq_true.mp (hAll e he) c hc

theorem labelHead_injective : ∀ e ∈ endings, ∀ f ∈ endings, e.1.labelHead e.2 = f.1.labelHead f.2 → e = f := by
  decide +kernel

theorem labelTail_noDigit (kind : PeriodKind) : ∀ c ∈ kind.labelTail.toList.head?, ¬ c.isDigit := by
  cases kind <;> simp [PeriodKind.labelTail]

/-- Digits between texts: what stands before them, and what they say. -/
theorem read_between {head tail : List Char} {n : Nat} (hHead : ∀ c ∈ head, ¬ c.isDigit)
    (hTail : ∀ c ∈ tail.head?, ¬ c.isDigit) :
    (head ++ (Nat.toDigits 10 n ++ tail)).takeWhile (fun c => ¬ c.isDigit) = head ∧
      readDigits (((head ++ (Nat.toDigits 10 n ++ tail)).dropWhile fun c => ¬ c.isDigit).takeWhile Char.isDigit) =
        some n := by
  have hDigits : ∀ c ∈ Nat.toDigits 10 n, c.isDigit := fun c hc =>
    Nat.isDigit_of_mem_toDigits (by decide) (by decide) hc
  obtain ⟨d, ds, hCons⟩ := List.exists_cons_of_ne_nil (Nat.toDigits_ne_nil (b := 10) (n := n))
  have hFirst : d.isDigit := hDigits d (by rw [hCons]; exact List.mem_cons_self)
  have hHead' : ∀ c ∈ head, decide (¬ c.isDigit) = true := fun c hc => decide_eq_true (hHead c hc)
  have hTail' : tail.takeWhile Char.isDigit = [] := by
    cases tail with
    | nil => rfl
    | cons c rest => simp [hTail c rfl]
  constructor
  · rw [List.takeWhile_append_of_pos hHead', hCons]
    simp [hFirst]
  · have hDrop : (Nat.toDigits 10 n ++ tail).dropWhile (fun c => decide (¬ c.isDigit)) = Nat.toDigits 10 n ++ tail := by
      rw [hCons]
      simp [hFirst]
    rw [List.dropWhile_append_of_pos hHead', hDrop, List.takeWhile_append_of_pos hDigits, hTail', List.append_nil,
      readDigits_toDigits]

/-- The name of a period says which it is. -/
theorem Period.label_injective {p q : Period} (h : p.label = q.label) :
    p.kind = q.kind ∧ p.endMonth = q.endMonth := by
  have hText : ∀ period : Period, period.label.toList = (period.kind.labelHead (period.endMonth % 12)).toList ++
      (Nat.toDigits 10 (period.endMonth / 12).toNat ++ period.kind.labelTail.toList) := by
    intro period
    obtain ⟨year, hYear⟩ := Int.eq_ofNat_of_zero_le (show 0 ≤ period.endMonth / 12 by have := period.era; omega)
    have hDigits : (toString (period.endMonth / 12)).toList = Nat.toDigits 10 (period.endMonth / 12).toNat := by
      rw [hYear, Int.toNat_natCast]
      exact String.toList_ofList
    rw [Period.label, PeriodKind.label_eq, String.toList_append, String.toList_append, hDigits, List.append_assoc]
  have hRead := fun period : Period =>
    read_between (n := (period.endMonth / 12).toNat) (labelHead_noDigit _ (mem_endings period))
      (labelTail_noDigit period.kind)
  obtain ⟨hHeadP, hYearP⟩ := hRead p
  obtain ⟨hHeadQ, hYearQ⟩ := hRead q
  rw [← hText p] at hHeadP hYearP
  rw [← hText q] at hHeadQ hYearQ
  rw [h, hHeadQ] at hHeadP
  rw [h, hYearQ] at hYearP
  have hSame := labelHead_injective _ (mem_endings p) _ (mem_endings q) (String.toList_inj.mp hHeadP).symm
  obtain ⟨hKind, hPlace⟩ := Prod.mk.inj hSame
  have hYears := Option.some.inj hYearP
  have hEraP := p.era
  have hEraQ := q.era
  exact ⟨hKind, by omega⟩

/-! ### The rules in force on two days -/

/-- The day on which a deadline of a list of that day is due. -/
def Deadline.due (dl : Deadline) (onDate : Date) : Int := (parseDate onDate).number + dl.daysLeft

/-- No rule of the form and kind becomes effective after the first day and by the second. -/
def RuleTable.Unchanged (table : RuleTable) (form : Form) (kind : DeadlineKind) (first second : Date) : Prop :=
  ∀ r ∈ table.rules, r.form = form → r.kind = kind → r.effectiveFrom ≤ second → r.effectiveFrom ≤ first

instance (table : RuleTable) (form : Form) (kind : DeadlineKind) (first second : Date) :
    Decidable (table.Unchanged form kind first second) :=
  inferInstanceAs (Decidable (∀ r ∈ table.rules, _))

variable {table : RuleTable} {first second : Date} {r : Rule}

theorem date_eq_of_le {d e : Date} (hDE : d ≤ e) (hED : e ≤ d) : d = e := by
  have hDays : d.year = e.year ∧ d.month = e.month ∧ d.day = e.day := by
    change _ ∨ _ at hDE hED
    omega
  cases d
  cases e
  simp_all

/-- Without a new rule the same one is the newest on both days. -/
theorem newestRule_unchanged (hOrder : first ≤ second) (hNewest : newestRule table r.form r.kind first = some r)
    (hSame : table.Unchanged r.form r.kind first second) : newestRule table r.form r.kind second = some r := by
  obtain ⟨⟨hMem, -, -, hSince⟩, hMax⟩ := newestRule_some hNewest
  have hSecond : table.InForce r.form r.kind second r := ⟨hMem, rfl, rfl, Date.le_trans hSince hOrder⟩
  obtain ⟨newest, hFound⟩ := newestRule_isSome hSecond
  obtain ⟨⟨hIn, hForm, hKind, hBy⟩, hLatest⟩ := newestRule_some hFound
  have hNotNew := hMax newest ⟨hIn, hForm, hKind, hSame newest hIn hForm hKind hBy⟩
  have hDate := date_eq_of_le hNotNew (hLatest r hSecond)
  obtain rfl := table.eq_of_sameKey hIn hMem ⟨hForm, hKind, hDate⟩
  exact hFound

/-- With a new rule, what is listed on the second day has ended after the first. -/
theorem listed_after_change {newest : Rule} {endMonth horizonEnd : Int}
    (hNewest : newestRule table r.form r.kind second = some newest)
    (hChanged : ¬ table.Unchanged r.form r.kind first second)
    (hListed : newest.Listed (parseDate second) horizonEnd endMonth) :
    (parseDate first).number < (CalendarDay.lastOf endMonth).number := by
  simp only [RuleTable.Unchanged, not_forall, exists_prop] at hChanged
  obtain ⟨late, hIn, hForm, hKind, hBy, hAfter⟩ := hChanged
  obtain ⟨-, hLatest⟩ := newestRule_some hNewest
  have hSince := hLatest late ⟨hIn, hForm, hKind, hBy⟩
  rw [date_le_iff] at hAfter hSince
  have hEnded := hListed.1
  omega

/-! ### Deadlines of ended periods -/

/-- A list has a deadline of the same form and kind for the same period, due on the same day. -/
def Deadline.ListedAgain (dl : Deadline) (table : RuleTable) (first second : Date) (horizonDays : Int) : Prop :=
  ∃ later ∈ upcoming table second horizonDays, later.form = dl.form ∧ later.kind = dl.kind ∧
    later.periodLabel = dl.periodLabel ∧ later.dueDate = dl.dueDate ∧ later.due second = dl.due first

/-- A listed period has ended after the year 0. -/
theorem Rule.Listed.era {onDate : CalendarDay} {horizonEnd endMonth : Int}
    (h : r.Listed onDate horizonEnd endMonth) : 0 ≤ endMonth := by
  have hEnded := h.1
  obtain ⟨hYear, hMonth, -⟩ := r.effectiveFrom.calendar
  have hDay := (parseDate r.effectiveFrom).inMonth
  rw [CalendarDay.number_lastOf] at hEnded
  have hStart : monthStart (parseDate r.effectiveFrom).month < monthStart (endMonth + 1) := by
    have hNumber : (parseDate r.effectiveFrom).number =
        monthStart (parseDate r.effectiveFrom).month + ((parseDate r.effectiveFrom).day - 1) := rfl
    omega
  have hMonths := monthStart_lt_iff.mp hStart
  simp only [parseDate] at hMonths
  omega

variable {dl : Deadline} {period : Period} {horizonDays : Int}

/-- The rule and the period of a deadline whose name is that of a period. -/
theorem mem_upcoming_period (h : dl ∈ upcoming table first horizonDays) (hPeriod : dl.periodLabel = period.label) :
    ∃ r, newestRule table r.form r.kind first = some r ∧ r.periodKind = period.kind ∧
      r.Listed (parseDate first) ((parseDate first).number + horizonDays) period.endMonth ∧
      dl = r.makeDeadline (parseDate first) period.endMonth := by
  obtain ⟨r, endMonth, hNewest, hEnds, hListed, rfl⟩ := mem_upcoming.mp h
  have hSame := Period.label_injective (p := ⟨r.periodKind, endMonth, hEnds, hListed.era⟩) (q := period) hPeriod
  obtain ⟨hKind, hMonth⟩ := hSame
  dsimp only at hKind hMonth
  subst hMonth
  exact ⟨r, hNewest, hKind, hListed, rfl⟩

/-- Under the same rule the deadline is listed until it is due. -/
theorem listedAgain_of_unchanged (hOrder : first ≤ second) (hListed : dl ∈ upcoming table first horizonDays)
    (hDue : (parseDate second).number ≤ dl.due first) (hSame : table.Unchanged dl.form dl.kind first second)
    {horizonDays' : Int} (hHorizon : dl.due first ≤ (parseDate second).number + horizonDays') :
    dl.ListedAgain table first second horizonDays' := by
  obtain ⟨r, endMonth, hNewest, hEnds, ⟨hEnded, -, -⟩, rfl⟩ := mem_upcoming.mp hListed
  have hDay : (r.makeDeadline (parseDate first) endMonth).due first = (r.dueFor endMonth).number := by
    simp only [Deadline.due, Rule.makeDeadline]
    omega
  rw [hDay] at hDue hHorizon
  refine ⟨r.makeDeadline (parseDate second) endMonth, ?_, rfl, rfl, rfl, rfl, ?_⟩
  · exact mem_upcoming.mpr ⟨r, endMonth, newestRule_unchanged hOrder hNewest hSame, hEnds,
      ⟨hEnded, hDue, hHorizon⟩, rfl⟩
  · rw [hDay]
    simp only [Deadline.due, Rule.makeDeadline]
    omega

/-- Under a new rule no deadline of an ended period is listed. -/
theorem not_listedAgain_of_changed {form : Form} {kind : DeadlineKind}
    (hEnded : period.lastDay ≤ (parseDate first).number) (hChanged : ¬ table.Unchanged form kind first second)
    {later : Deadline} (hLater : later ∈ upcoming table second horizonDays) (hForm : later.form = form)
    (hKind : later.kind = kind) : later.periodLabel ≠ period.label := by
  intro hPeriod
  obtain ⟨newest, hNewest, -, hListed, rfl⟩ := mem_upcoming_period hLater hPeriod
  simp only [Rule.makeDeadline] at hForm hKind
  subst hForm hKind
  have hAfter := listed_after_change hNewest hChanged hListed
  have hLast : period.lastDay = (CalendarDay.lastOf period.endMonth).number := rfl
  omega

/-- A deadline of a period that has ended stays listed until it is due if and only if no new rule of its
form and kind becomes effective in between. -/
theorem deadline_stable_iff (hOrder : first ≤ second) (hListed : dl ∈ upcoming table first horizonDays)
    (hPeriod : dl.periodLabel = period.label) (hEnded : period.lastDay ≤ (parseDate first).number)
    (hDue : (parseDate second).number ≤ dl.due first) :
    (∀ horizonDays', dl.due first ≤ (parseDate second).number + horizonDays' →
      dl.ListedAgain table first second horizonDays') ↔ table.Unchanged dl.form dl.kind first second := by
  constructor
  · intro hAgain
    by_contra hChanged
    obtain ⟨later, hLater, hForm, hKind, hLabel, -⟩ :=
      hAgain (dl.due first - (parseDate second).number) (by omega)
    exact not_listedAgain_of_changed hEnded hChanged hLater hForm hKind (hLabel.trans hPeriod)
  · exact fun hSame _ hHorizon => listedAgain_of_unchanged hOrder hListed hDue hSame hHorizon

/-! ### A new rule before the old one's last deadline -/

def januaryFirst : Date := ⟨2026, 1, 1, by decide⟩

def julyTwentieth : Date := ⟨2026, 7, 20, by decide⟩

def augustFirst : Date := ⟨2026, 8, 1, by decide⟩

def augustFifth : Date := ⟨2026, 8, 5, by decide⟩

/-- The rule of the report of form 910.00: the 15th of the second month after a half of a year. -/
def reportRule (dueDay : Nat) (effectiveFrom : Date) (dueDayRange : 1 ≤ dueDay ∧ dueDay ≤ 28) : Rule where
  form := .fno910
  kind := .report
  periodKind := .halfYear
  dueDay := dueDay
  dueMonthOffset := 2
  effectiveFrom := effectiveFrom
  dueDayRange := dueDayRange
  offsetRange := by decide

def rule2026 : Rule := reportRule 15 januaryFirst (by decide)

/-- The first half of 2026. -/
def firstHalf : Period := ⟨.halfYear, 12 * 2026 + 5, by decide, by decide⟩

def firstHalfReport : Deadline := rule2026.makeDeadline (parseDate julyTwentieth) firstHalf.endMonth

/-- A rule that moves the report to the 20th from August on. -/
def augustRule : Rule := reportRule 20 augustFirst (by decide)

def seeded : RuleTable := ⟨[rule2026], List.pairwise_singleton _ _⟩

/-- The table after `INSERT` of the later rule. -/
def reseeded : RuleTable := ⟨[rule2026, augustRule], by decide⟩

/-- In both tables the first half's report is listed on 20 July. -/
theorem firstHalfReport_mem (h : newestRule table .fno910 .report julyTwentieth = some rule2026) :
    firstHalfReport ∈ upcoming table julyTwentieth 90 := by
  have hListed : rule2026.Listed (parseDate julyTwentieth) ((parseDate julyTwentieth).number + 90)
      firstHalf.endMonth := by
    decide
  exact mem_upcoming.mpr ⟨rule2026, firstHalf.endMonth, h, firstHalf.ends, hListed, rfl⟩

theorem firstHalf_ended : firstHalf.lastDay ≤ (parseDate julyTwentieth).number := by
  decide

theorem firstHalfReport_due : (parseDate augustFifth).number ≤ firstHalfReport.due julyTwentieth := by
  decide

theorem deadline_stable_iff_report :
    (∀ horizonDays', firstHalfReport.due julyTwentieth ≤ (parseDate augustFifth).number + horizonDays' →
      firstHalfReport.ListedAgain seeded julyTwentieth augustFifth horizonDays') ↔
        seeded.Unchanged .fno910 .report julyTwentieth augustFifth := by
  have hListed : firstHalfReport ∈ upcoming seeded julyTwentieth 90 := firstHalfReport_mem (by decide +kernel)
  have hPeriod : firstHalfReport.periodLabel = firstHalf.label := rfl
  exact deadline_stable_iff (by decide) hListed hPeriod firstHalf_ended firstHalfReport_due

/-- The report for the first half is due on 17 August. It is listed on 20 July and no more on 5 August. -/
theorem deadline_dropped :
    firstHalfReport ∈ upcoming reseeded julyTwentieth 90 ∧ firstHalfReport.periodLabel = firstHalf.label ∧
      firstHalf.lastDay ≤ (parseDate julyTwentieth).number ∧
      (parseDate augustFifth).number ≤ firstHalfReport.due julyTwentieth ∧
      firstHalfReport.due julyTwentieth ≤ (parseDate augustFifth).number + 90 ∧
      ¬ firstHalfReport.ListedAgain reseeded julyTwentieth augustFifth 90 := by
  refine ⟨firstHalfReport_mem (by decide +kernel), rfl, firstHalf_ended, firstHalfReport_due, by decide, ?_⟩
  rintro ⟨later, hLater, hForm, hKind, hLabel, -⟩
  have hChanged : ¬ reseeded.Unchanged .fno910 .report julyTwentieth augustFifth := by
    decide
  exact not_listedAgain_of_changed firstHalf_ended hChanged hLater hForm hKind hLabel

end CyberAccountant.Tax
