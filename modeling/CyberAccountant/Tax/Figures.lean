import CyberAccountant.Ledger.Journal

/-! The tax figures that are read off the journal: turnovers of fixed sets of accounts over posted
entries of a period, the two calculations made of them, and the threshold alerts. -/

namespace CyberAccountant.Tax

open CyberAccountant.Library CyberAccountant.Ledger

/-- A row of `tax_rates`. -/
structure Rate where
  kind : String
  rateBp : Int
  region : Option String
  effectiveFrom : Date
  effectiveTo : Option Date

/-- A row of `tax_constants`. -/
structure Constant where
  key : String
  valueTiyn : Int
  valueUnits : Option Int
  effectiveFrom : Date
  effectiveTo : Option Date

structure TaxReference where
  rates : List Rate
  constants : List Constant

inductive TaxError where
  /-- The cast of a sum to `bigint` fails. -/
  | notBigint
  /-- A text is no value of the type `DATE`. -/
  | badDate
  | missingReference (what : String)
  deriving DecidableEq

/-- `YYYY-MM-DD`. -/
def dateText (d : Date) : String :=
  let year := Nat.toDigits 10 d.year
  String.ofList (List.replicate (4 - year.length) '0' ++ year ++
    '-' :: twoDigits d.month ++ '-' :: twoDigits d.day)

def InForce (effectiveFrom : Date) (effectiveTo : Option Date) (date : Date) : Prop :=
  effectiveFrom ≤ date ∧ ∀ last ∈ effectiveTo, date ≤ last

instance (effectiveFrom : Date) (effectiveTo : Option Date) (date : Date) :
    Decidable (InForce effectiveFrom effectiveTo date) := inferInstanceAs (Decidable (_ ∧ _))

/-- `ORDER BY region NULLS LAST, effective_from DESC`. -/
def Rate.before (a b : Rate) : Bool :=
  match a.region, b.region with
  | some _, none => true
  | none, some _ => false
  | none, none => b.effectiveFrom ≤ a.effectiveFrom
  | some r, some s => r < s || r = s && b.effectiveFrom ≤ a.effectiveFrom

def rateOn (ref : TaxReference) (kind : String) (date : Date) (region : String) : Option Rate :=
  ((ref.rates.filter fun r => r.kind = kind ∧ InForce r.effectiveFrom r.effectiveTo date ∧
    ∀ own ∈ r.region, own = region).mergeSort Rate.before).head?

def constantOn (ref : TaxReference) (key : String) (date : Date) : Option Constant :=
  ((ref.constants.filter fun c => c.key = key ∧ InForce c.effectiveFrom c.effectiveTo date).mergeSort
    fun a b => b.effectiveFrom ≤ a.effectiveFrom).head?

/-! ### Turnovers -/

def incomeAccounts : List String := ["6010", "6110", "6250", "6290"]

def vatDeductibleAccounts : List String := ["1330", "7010", "7210"]

/-- A line of `org` with the date of its entry, if that is posted. -/
def joinPosted (db : Db) (org : Uuid) (l : LineRow) : Option (Date × LineRow) :=
  match db.entries l.entryId with
  | none => none
  | some je =>
    if je.orgId = l.orgId ∧ l.orgId = org ∧ je.status = .posted then some (je.entryDate, l) else none

/-- The lines of `org` that join a posted entry, with the date of that entry. -/
def postedLines (db : Db) (org : Uuid) : List (Date × LineRow) := db.lines.filterMap (joinPosted db org)

/-- The column that is summed; a line without it is left out. -/
def summedColumn (vatOnly : Bool) (l : LineRow) : Option Numeric :=
  if vatOnly then l.vatAmount.map VatAmount.value else some l.amount.value

/-- The cast `::bigint`. -/
def toBigint : Numeric → Except TaxError Int
  | .nan => .error .notBigint
  | .tiyn t => if InInt64 t then .ok t else .error .notBigint

/-- The turnover, in tiyn, of posted lines on `accounts` with the given side in the period. -/
def sumLineAmountTiyn (db : Db) (org : Uuid) (accounts : List String) (side : Side)
    (periodFrom periodTo : Date) (vatOnly : Bool) : Except TaxError Int :=
  let rows := (postedLines db org).filter fun (date, l) =>
    l.side = side ∧ periodFrom ≤ date ∧ date ≤ periodTo ∧ l.accountCode ∈ accounts
  toBigint (rows.filterMap fun (_, l) => summedColumn vatOnly l).sum

/-- The three turnovers of the tax service over one period. -/
structure TaxFigures where
  income : Except TaxError Int
  accrued : Except TaxError Int
  deductible : Except TaxError Int
  deriving DecidableEq

def taxFigures (db : Db) (org : Uuid) (periodFrom periodTo : Date) : TaxFigures where
  income := sumLineAmountTiyn db org incomeAccounts .credit periodFrom periodTo false
  accrued := sumLineAmountTiyn db org incomeAccounts .credit periodFrom periodTo true
  deductible := sumLineAmountTiyn db org vatDeductibleAccounts .debit periodFrom periodTo true

/-! ### Calculations and alerts -/

def applyBp (baseTiyn rateBp : Int) : Int :=
  (wrap64 (wrap64 (baseTiyn * rateBp) + 5000)).tdiv 10000

structure SnrCalculation where
  periodFrom : Date
  periodTo : Date
  rateBp : Int
  rateEffectiveFrom : Date
  incomeTiyn : Int
  taxTiyn : Int

def calculateSnr (ref : TaxReference) (db : Db) (org : Uuid) (halfYearStart halfYearEnd : Date) :
    Except TaxError SnrCalculation := do
  let incomeTiyn ←
    sumLineAmountTiyn db org incomeAccounts .credit halfYearStart halfYearEnd false
  let rate ← orFail (.missingReference ("no snr_simplified rate in force on " ++
    dateText halfYearEnd)) (rateOn ref "snr_simplified" halfYearEnd "")
  pure ⟨halfYearStart, halfYearEnd, rate.rateBp, rate.effectiveFrom, incomeTiyn,
    applyBp incomeTiyn rate.rateBp⟩

structure VatCalculation where
  periodFrom : Date
  periodTo : Date
  vatRateBp : Option Int
  accruedTiyn : Int
  deductibleTiyn : Int
  balanceTiyn : Int
  incomeTiyn : Int

def calculateVat (ref : TaxReference) (db : Db) (org : Uuid) (quarterStart quarterEnd : Date) :
    Except TaxError VatCalculation := do
  let accruedTiyn ← sumLineAmountTiyn db org incomeAccounts .credit quarterStart quarterEnd true
  let deductibleTiyn ←
    sumLineAmountTiyn db org vatDeductibleAccounts .debit quarterStart quarterEnd true
  let balanceTiyn := wrap64 (accruedTiyn - deductibleTiyn)
  let incomeTiyn ← sumLineAmountTiyn db org incomeAccounts .credit quarterStart quarterEnd false
  pure ⟨quarterStart, quarterEnd, (rateOn ref "vat" quarterEnd "").map Rate.rateBp, accruedTiyn,
    deductibleTiyn, balanceTiyn, incomeTiyn⟩

structure Alert where
  kind : String
  message : String
  currentTiyn : Int
  thresholdTiyn : Int
  deriving DecidableEq

def isNearOrOver (currentTiyn thresholdTiyn : Int) : Prop :=
  wrap64 (thresholdTiyn * 9) ≤ wrap64 (currentTiyn * 10)

instance (currentTiyn thresholdTiyn : Int) : Decidable (isNearOrOver currentTiyn thresholdTiyn) :=
  inferInstanceAs (Decidable (_ ≤ _))

/-- The same day a year before, where the calendar has one. -/
def subtractOneYear (d : Date) : Option Date :=
  if h : IsCalendarDay (d.year - 1) d.month d.day then some ⟨d.year - 1, d.month, d.day, h⟩ else none

def thresholdAlerts (ref : TaxReference) (db : Db) (org : Uuid) (onDate : Date) :
    Except TaxError (List Alert) := do
  let periodFrom ← orFail .badDate (subtractOneYear onDate)
  let incomeTiyn ← sumLineAmountTiyn db org incomeAccounts .credit periodFrom onDate false
  let vatThreshold ← orFail (.missingReference ("no vat_threshold_tenge constant in force on " ++
    dateText onDate)) (constantOn ref "vat_threshold_tenge" onDate)
  let vatAlerts :=
    if isNearOrOver incomeTiyn vatThreshold.valueTiyn then
      [Alert.mk "vat_registration"
        ("12-month income (" ++ toString incomeTiyn ++
          " tiyn) is approaching or over the VAT registration threshold (" ++
          toString vatThreshold.valueTiyn ++ " tiyn) — НК РК ст.99 п.4 пп.2 / ст.101 п.3")
        incomeTiyn vatThreshold.valueTiyn]
    else []
  let missing : TaxError := .missingReference ("no mrp / snr_income_limit_mrp constant in force on "
    ++ dateText onDate)
  let mrp ← orFail missing (constantOn ref "mrp" onDate)
  let limit ← orFail missing (constantOn ref "snr_income_limit_mrp" onDate)
  let units ← orFail missing limit.valueUnits
  let snrThresholdTiyn := wrap64 (mrp.valueTiyn * units)
  let snrAlerts :=
    if isNearOrOver incomeTiyn snrThresholdTiyn then
      [Alert.mk "snr_limit"
        ("12-month income (" ++ toString incomeTiyn ++
          " tiyn) is approaching or over the SNR simplified-declaration income limit (" ++
          toString snrThresholdTiyn ++ " tiyn) — НК РК ст.722")
        incomeTiyn snrThresholdTiyn]
    else []
  pure (vatAlerts ++ snrAlerts)

/-! ### Sums over the days of a period -/

/-- The sum is a number that a `bigint` holds. -/
def IsBigint (x : Numeric) : Prop := ∃ t, x = .tiyn t ∧ InInt64 t

/-- The sum of the items that fall in the period. -/
def rangeTotal (items : List (Date × Numeric)) (periodFrom periodTo : Date) : Numeric :=
  ((items.filter fun i => periodFrom ≤ i.1 ∧ i.1 ≤ periodTo).map Prod.snd).sum

/-- What a line adds to a turnover, and on which day. -/
def lineItem (accounts : List String) (side : Side) (vatOnly : Bool) (row : Date × LineRow) :
    Option (Date × Numeric) :=
  if row.2.side = side ∧ row.2.accountCode ∈ accounts then
    (summedColumn vatOnly row.2).map (row.1, ·)
  else none

/-- What a turnover sums, for any period. -/
def figureItems (db : Db) (org : Uuid) (accounts : List String) (side : Side) (vatOnly : Bool) :
    List (Date × Numeric) :=
  (postedLines db org).filterMap (lineItem accounts side vatOnly)

theorem sumLineAmountTiyn_eq (db : Db) (org : Uuid) (accounts : List String) (side : Side)
    (periodFrom periodTo : Date) (vatOnly : Bool) :
    sumLineAmountTiyn db org accounts side periodFrom periodTo vatOnly =
      toBigint (rangeTotal (figureItems db org accounts side vatOnly) periodFrom periodTo) := by
  unfold sumLineAmountTiyn rangeTotal figureItems
  refine congrArg (fun xs : List Numeric => toBigint xs.sum) ?_
  induction postedLines db org with
  | nil => rfl
  | cons row rows ih =>
    obtain ⟨date, l⟩ := row
    by_cases hLine : l.side = side ∧ l.accountCode ∈ accounts
    · by_cases hDate : periodFrom ≤ date ∧ date ≤ periodTo
      · have hAll : l.side = side ∧ periodFrom ≤ date ∧ date ≤ periodTo ∧ l.accountCode ∈ accounts :=
          ⟨hLine.1, hDate.1, hDate.2, hLine.2⟩
        cases hColumn : summedColumn vatOnly l with
        | none => simpa [lineItem, List.filter_cons, hAll, hColumn, hLine] using ih
        | some v => simpa [lineItem, List.filter_cons, hAll, hColumn, hLine, hDate] using ih
      · have hNot : ¬(l.side = side ∧ periodFrom ≤ date ∧ date ≤ periodTo ∧ l.accountCode ∈ accounts) :=
          fun h => hDate ⟨h.2.1, h.2.2.1⟩
        cases hColumn : summedColumn vatOnly l with
        | none => simpa [lineItem, List.filter_cons, hNot, hColumn, hLine, hDate] using ih
        | some v => simpa [lineItem, List.filter_cons, hNot, hColumn, hLine, hDate] using ih
    · have hNot : ¬(l.side = side ∧ periodFrom ≤ date ∧ date ≤ periodTo ∧ l.accountCode ∈ accounts) :=
        fun h => hLine ⟨h.1, h.2.2.2⟩
      simpa [lineItem, List.filter_cons, hNot, hLine] using ih

theorem toBigint_of_not {x : Numeric} (h : ¬IsBigint x) : toBigint x = .error .notBigint := by
  cases x with
  | nan => rfl
  | tiyn t => exact if_neg fun hT => h ⟨t, rfl, hT⟩

theorem nonNeg_add {x y : Numeric} (hx : x.NonNeg) (hy : y.NonNeg) : (x + y).NonNeg := by
  cases x with
  | nan => trivial
  | tiyn a =>
    cases y with
    | nan => trivial
    | tiyn b => exact Int.add_nonneg (show 0 ≤ a from hx) (show 0 ≤ b from hy)

/-- Adding what is not negative does not bring a sum back into range. -/
theorem not_isBigint_add {x y : Numeric} (hx : x.NonNeg) (hy : y.NonNeg) (h : ¬IsBigint x) :
    ¬IsBigint (x + y) := by
  rintro ⟨t, hSum, hRange⟩
  obtain ⟨a, b, rfl, rfl, rfl⟩ := Numeric.add_eq_tiyn hSum
  have hA : 0 ≤ a := hx
  have hB : 0 ≤ b := hy
  exact h ⟨a, rfl, by simp only [InInt64] at hRange ⊢; omega⟩

/-- Adding something positive changes a sum that is in range. -/
theorem toBigint_add_ne {x y : Numeric} (h : IsBigint x) (hy : y ≠ 0) :
    toBigint (x + y) ≠ toBigint x := by
  obtain ⟨a, rfl, hRange⟩ := h
  rw [show toBigint (.tiyn a) = .ok a from if_pos hRange]
  cases y with
  | nan => simp [toBigint]
  | tiyn b =>
    intro hEq
    rw [Numeric.tiyn_add_tiyn] at hEq
    simp only [toBigint] at hEq
    split_ifs at hEq
    rw [Except.ok.injEq] at hEq
    exact hy (by rw [show b = 0 by omega]; rfl)

def AllNonNeg (items : List (Date × Numeric)) : Prop := ∀ i ∈ items, i.2.NonNeg

theorem sum_nonNeg {xs : List Numeric} (h : ∀ x ∈ xs, x.NonNeg) : xs.sum.NonNeg := by
  induction xs with
  | nil => exact Int.le_refl 0
  | cons x xs ih =>
    rw [List.forall_mem_cons] at h
    exact nonNeg_add h.1 (ih h.2)

theorem rangeTotal_nonNeg {items : List (Date × Numeric)} (h : AllNonNeg items)
    (periodFrom periodTo : Date) : (rangeTotal items periodFrom periodTo).NonNeg := by
  refine sum_nonNeg fun x hx => ?_
  obtain ⟨i, hi, rfl⟩ := List.mem_map.mp hx
  exact h i (List.mem_filter.mp hi).1

theorem rangeTotal_append (xs ys : List (Date × Numeric)) (periodFrom periodTo : Date) :
    rangeTotal (xs ++ ys) periodFrom periodTo =
      rangeTotal xs periodFrom periodTo + rangeTotal ys periodFrom periodTo := by
  simp [rangeTotal, List.filter_append]

/-- A sum of values that are not negative is zero only if each of them is. -/
theorem eq_zero_of_sum {xs : List Numeric} (h : ∀ x ∈ xs, x.NonNeg) (hSum : xs.sum = 0) :
    ∀ x ∈ xs, x = 0 := by
  induction xs with
  | nil => simp
  | cons x xs ih =>
    rw [List.forall_mem_cons] at h
    rw [List.sum_cons] at hSum
    obtain ⟨a, b, rfl, hTail, hAB⟩ := Numeric.add_eq_tiyn hSum
    have hA : 0 ≤ a := h.1
    have hB : 0 ≤ b := by
      have := sum_nonNeg h.2
      rw [hTail] at this
      exact this
    obtain rfl : a = 0 := by omega
    obtain rfl : b = 0 := by omega
    exact List.forall_mem_cons.mpr ⟨rfl, ih h.2 hTail⟩

/-- What is left of a sum is not negative. -/
theorem exists_rest_of_sublist {xs ys : List Numeric} (hSub : xs.Sublist ys)
    (h : ∀ y ∈ ys, y.NonNeg) : ∃ rest : Numeric, rest.NonNeg ∧ ys.sum = xs.sum + rest := by
  induction hSub with
  | slnil => exact ⟨0, Int.le_refl 0, by simp⟩
  | @cons xs ys y _ ih =>
    rw [List.forall_mem_cons] at h
    obtain ⟨rest, hRest, hSum⟩ := ih h.2
    exact ⟨y + rest, nonNeg_add h.1 hRest, by rw [List.sum_cons, hSum, add_left_comm]⟩
  | @cons_cons xs ys y _ ih =>
    rw [List.forall_mem_cons] at h
    obtain ⟨rest, hRest, hSum⟩ := ih h.2
    exact ⟨rest, hRest, by rw [List.sum_cons, List.sum_cons, hSum, add_assoc]⟩

/-- A day whose sum is out of range takes every period around it out of range. -/
theorem not_isBigint_of_day {items : List (Date × Numeric)} (hItems : AllNonNeg items)
    {periodFrom periodTo day : Date} (hFrom : periodFrom ≤ day) (hTo : day ≤ periodTo)
    (h : ¬IsBigint (rangeTotal items day day)) :
    ¬IsBigint (rangeTotal items periodFrom periodTo) := by
  have hSub : ((items.filter fun i => day ≤ i.1 ∧ i.1 ≤ day).map Prod.snd).Sublist
      ((items.filter fun i => periodFrom ≤ i.1 ∧ i.1 ≤ periodTo).map Prod.snd) := by
    refine (List.monotone_filter_right items fun i hi => ?_).map Prod.snd
    simp only [Bool.decide_and, Bool.and_eq_true, decide_eq_true_eq] at hi ⊢
    exact ⟨Date.le_trans hFrom hi.1, Date.le_trans hi.2 hTo⟩
  have hAll : ∀ x ∈ (items.filter fun i => periodFrom ≤ i.1 ∧ i.1 ≤ periodTo).map Prod.snd,
      x.NonNeg := by
    intro x hx
    obtain ⟨i, hi, rfl⟩ := List.mem_map.mp hx
    exact hItems i (List.mem_filter.mp hi).1
  obtain ⟨rest, hRest, hSum⟩ := exists_rest_of_sublist hSub hAll
  rw [rangeTotal, hSum]
  exact not_isBigint_add (rangeTotal_nonNeg hItems day day) hRest h

/-- Further items change the figure of no period exactly when each of them is zero or falls on a
day that is out of range without it. -/
theorem figure_append_iff {items extra : List (Date × Numeric)} (hItems : AllNonNeg items)
    (hExtra : AllNonNeg extra) :
    (∀ periodFrom periodTo, toBigint (rangeTotal (items ++ extra) periodFrom periodTo) =
      toBigint (rangeTotal items periodFrom periodTo)) ↔
    ∀ i ∈ extra, i.2 ≠ 0 → ¬IsBigint (rangeTotal items i.1 i.1) := by
  constructor
  · intro hSame i hi hNonZero hRange
    have hDay := hSame i.1 i.1
    rw [rangeTotal_append] at hDay
    refine toBigint_add_ne hRange (fun hZero => ?_) hDay
    have hMem : i.2 ∈ (extra.filter fun j => i.1 ≤ j.1 ∧ j.1 ≤ i.1).map Prod.snd := by
      refine List.mem_map_of_mem (List.mem_filter.mpr ⟨hi, ?_⟩)
      simp [Date.le_refl]
    refine hNonZero (eq_zero_of_sum (fun x hx => ?_) hZero i.2 hMem)
    obtain ⟨j, hj, rfl⟩ := List.mem_map.mp hx
    exact hExtra j (List.mem_filter.mp hj).1
  · intro hDays periodFrom periodTo
    rw [rangeTotal_append]
    by_cases hZero : rangeTotal extra periodFrom periodTo = 0
    · rw [hZero, add_zero]
    · have hSome : ∃ i ∈ extra, (periodFrom ≤ i.1 ∧ i.1 ≤ periodTo) ∧ i.2 ≠ 0 := by
        by_contra hNone
        push Not at hNone
        refine hZero (List.sum_eq_zero fun x hx => ?_)
        obtain ⟨i, hi, rfl⟩ := List.mem_map.mp hx
        obtain ⟨hMem, hPeriod⟩ := List.mem_filter.mp hi
        exact hNone i hMem (by simpa using hPeriod)
      obtain ⟨i, hi, ⟨hFrom, hTo⟩, hNonZero⟩ := hSome
      have hOut := not_isBigint_of_day hItems hFrom hTo (hDays i hi hNonZero)
      rw [toBigint_of_not hOut, toBigint_of_not
        (not_isBigint_add (rangeTotal_nonNeg hItems _ _) (rangeTotal_nonNeg hExtra _ _) hOut)]

theorem lineItem_eq_some {accounts : List String} {side : Side} {vatOnly : Bool}
    {row : Date × LineRow} {i : Date × Numeric} :
    lineItem accounts side vatOnly row = some i ↔ row.2.side = side ∧ row.2.accountCode ∈ accounts ∧
      summedColumn vatOnly row.2 = some i.2 ∧ i.1 = row.1 := by
  unfold lineItem
  split_ifs with hLine
  · rw [Option.map_eq_some_iff]
    constructor
    · rintro ⟨v, hV, rfl⟩
      exact ⟨hLine.1, hLine.2, hV, rfl⟩
    · rintro ⟨-, -, hV, hDate⟩
      exact ⟨i.2, hV, by rw [← hDate]⟩
  · simp only [false_iff]
    exact fun h => hLine ⟨h.1, h.2.1⟩

theorem summedColumn_nonNeg {vatOnly : Bool} {l : LineRow} {v : Numeric}
    (h : summedColumn vatOnly l = some v) : v.NonNeg := by
  cases vatOnly with
  | false =>
    obtain rfl : l.amount.value = v := by simpa [summedColumn] using h
    exact l.amount.positive.nonNeg
  | true =>
    obtain ⟨vat, -, rfl⟩ := Option.map_eq_some_iff.mp h
    exact vat.nonNeg

theorem filterMap_lineItem_nonNeg {accounts : List String} {side : Side} {vatOnly : Bool}
    (rows : List (Date × LineRow)) : AllNonNeg (rows.filterMap (lineItem accounts side vatOnly)) := by
  intro i hi
  obtain ⟨row, -, hRow⟩ := List.mem_filterMap.mp hi
  exact summedColumn_nonNeg (lineItem_eq_some.mp hRow).2.2.1

theorem rangeTotal_perm {xs ys : List (Date × Numeric)} (h : xs.Perm ys) (periodFrom periodTo : Date) :
    rangeTotal xs periodFrom periodTo = rangeTotal ys periodFrom periodTo :=
  ((h.filter _).map Prod.snd).sum_eq

/-- A turnover is not negative. -/
theorem sumLineAmountTiyn_bounds {db : Db} {org : Uuid} {accounts : List String} {side : Side}
    {periodFrom periodTo : Date} {vatOnly : Bool} {tiyn : Int}
    (h : sumLineAmountTiyn db org accounts side periodFrom periodTo vatOnly = .ok tiyn) :
    0 ≤ tiyn ∧ InInt64 tiyn := by
  rw [sumLineAmountTiyn_eq] at h
  have hSign : (rangeTotal (figureItems db org accounts side vatOnly) periodFrom periodTo).NonNeg :=
    rangeTotal_nonNeg (filterMap_lineItem_nonNeg (postedLines db org)) periodFrom periodTo
  cases hTotal : rangeTotal (figureItems db org accounts side vatOnly) periodFrom periodTo with
  | nan =>
    rw [hTotal] at h
    cases h
  | tiyn t =>
    rw [hTotal] at h hSign
    simp only [toBigint] at h
    split_ifs at h with hRange
    cases h
    exact ⟨hSign, hRange⟩

/-- The turnover of one day is a number that a `bigint` holds. -/
def DaySummable (db : Db) (org : Uuid) (accounts : List String) (side : Side) (vatOnly : Bool)
    (day : Date) : Prop :=
  IsBigint (rangeTotal (figureItems db org accounts side vatOnly) day day)

theorem taxFigures_eq_iff {db db' : Db} {org : Uuid} :
    (∀ periodFrom periodTo, taxFigures db org periodFrom periodTo =
      taxFigures db' org periodFrom periodTo) ↔
    ∀ accounts side vatOnly, (accounts, side, vatOnly) ∈ [(incomeAccounts, Side.credit, false),
        (incomeAccounts, .credit, true), (vatDeductibleAccounts, .debit, true)] →
      ∀ periodFrom periodTo, sumLineAmountTiyn db org accounts side periodFrom periodTo vatOnly =
        sumLineAmountTiyn db' org accounts side periodFrom periodTo vatOnly := by
  simp only [taxFigures, TaxFigures.mk.injEq, List.mem_cons, Prod.mk.injEq, List.not_mem_nil,
    or_false]
  constructor
  · rintro h accounts side vatOnly (⟨rfl, rfl, rfl⟩ | ⟨rfl, rfl, rfl⟩ | ⟨rfl, rfl, rfl⟩) f t
    · exact (h f t).1
    · exact (h f t).2.1
    · exact (h f t).2.2
  · intro h f t
    exact ⟨h _ _ _ (.inl ⟨rfl, rfl, rfl⟩) f t, h _ _ _ (.inr (.inl ⟨rfl, rfl, rfl⟩)) f t,
      h _ _ _ (.inr (.inr ⟨rfl, rfl, rfl⟩)) f t⟩

/-- Entry 10 of organisation 1, posted on 1 March 2026. -/
def soleEntry : EntryRow where
  id := 10
  orgId := 1
  entryDate := .firstOfMarch
  description := "Sole entry"
  status := .posted
  reversesEntryId := none
  createdByUserId := some 7
  createdByRunId := none
  createdAt := 100
  updatedAt := 200

/-- A line of 112.00 under entry 10. -/
def soleLine (id : Uuid) (accountCode : String) (side : Side) (vatAmount : Option VatAmount) : LineRow :=
  ⟨id, 1, 10, accountCode, side, .ofSale, none, vatAmount, 100⟩

/-- The ledger of organisation 1 with entry 10 alone. -/
def soleLedger (lines : List LineRow) : Db :=
  ⟨[1], [7], systemChart, [], Table.empty.put 10 soleEntry, lines⟩

end CyberAccountant.Tax
