import CyberAccountant.Tax.Figures

/-! Whether the tax figures see through subaccounts.  The turnovers select lines by the codes of
system accounts, so a line on a subaccount is in a figure only once its code is replaced by that of
the system account above it. -/

namespace CyberAccountant.Tax

open CyberAccountant.Library CyberAccountant.Ledger

/-- The line on the system account that its account's chain of parents ends in. -/
def rolledUpLine (chart : Chart) (l : LineRow) : LineRow :=
  { l with accountCode := rootCode chart l.orgId l.accountCode }

/-- The ledger with every line on a system account. -/
def rolledUp (db : Db) : Db := { db with lines := db.lines.map (rolledUpLine db.accounts) }

/-- The line stands on a subaccount below one of `accounts`. -/
def BelowAccounts (chart : Chart) (accounts : List String) (l : LineRow) : Prop :=
  l.accountCode ≠ rootCode chart l.orgId l.accountCode ∧
    rootCode chart l.orgId l.accountCode ∈ accounts

instance (chart : Chart) (accounts : List String) (l : LineRow) :
    Decidable (BelowAccounts chart accounts l) := inferInstanceAs (Decidable (_ ∧ _))

/-- No posted line below the accounts of a turnover would change it, unless the turnover of that
day is no `bigint` anyway. -/
def FigureSeesAll (db : Db) (org : Uuid) (accounts : List String) (side : Side) (vatOnly : Bool) :
    Prop :=
  ∀ row ∈ postedLines db org, row.2.side = side → BelowAccounts db.accounts accounts row.2 →
    (∃ v, summedColumn vatOnly row.2 = some v ∧ v ≠ 0) →
    ¬DaySummable db org accounts side vatOnly row.1

/-- No posted credit stands on a subaccount of an income account, and no posted debit with VAT other
than zero on a subaccount of a deductible account. -/
structure FiguresSeeAll (db : Db) (org : Uuid) : Prop where
  income : FigureSeesAll db org incomeAccounts .credit false
  accrued : FigureSeesAll db org incomeAccounts .credit true
  deductible : FigureSeesAll db org vatDeductibleAccounts .debit true

/-- What a line below the accounts would add to a turnover. -/
def belowItem (chart : Chart) (accounts : List String) (side : Side) (vatOnly : Bool)
    (row : Date × LineRow) : Option (Date × Numeric) :=
  if row.2.side = side ∧ BelowAccounts chart accounts row.2 then
    (summedColumn vatOnly row.2).map (row.1, ·)
  else none

theorem belowItem_eq_some {chart : Chart} {accounts : List String} {side : Side} {vatOnly : Bool}
    {row : Date × LineRow} {i : Date × Numeric} :
    belowItem chart accounts side vatOnly row = some i ↔
      row.2.side = side ∧ BelowAccounts chart accounts row.2 ∧
        summedColumn vatOnly row.2 = some i.2 ∧ i.1 = row.1 := by
  unfold belowItem
  split_ifs with hLine
  · rw [Option.map_eq_some_iff]
    constructor
    · rintro ⟨v, hV, rfl⟩
      exact ⟨hLine.1, hLine.2, hV, rfl⟩
    · rintro ⟨-, -, hV, hDate⟩
      exact ⟨i.2, hV, by rw [← hDate]⟩
  · simp only [false_iff]
    exact fun h => hLine ⟨h.1, h.2.1⟩

/-- A list mapped by the first of two partial functions that applies is the lists of both. -/
theorem filterMap_or_perm {α β : Type} {f g : α → Option β} (h : ∀ x, f x = none ∨ g x = none)
    (xs : List α) : (xs.filterMap fun x => f x <|> g x).Perm (xs.filterMap f ++ xs.filterMap g) := by
  induction xs with
  | nil => exact .refl _
  | cons x xs ih =>
    rcases h x with hF | hG
    · cases hG : g x with
      | none => simpa [List.filterMap_cons, hF, hG] using ih
      | some b =>
        simp only [List.filterMap_cons, hF, hG]
        exact (ih.cons b).trans List.perm_middle.symm
    · cases hF : f x with
      | none => simpa [List.filterMap_cons, hF, hG] using ih
      | some b => simpa [List.filterMap_cons, hF, hG] using ih.cons b

theorem postedLines_rolledUp (db : Db) (org : Uuid) :
    postedLines (rolledUp db) org =
      (postedLines db org).map fun row => (row.1, rolledUpLine db.accounts row.2) := by
  rw [postedLines, postedLines, rolledUp, List.filterMap_map, List.map_filterMap]
  refine List.filterMap_congr fun l _ => ?_
  simp only [Function.comp_apply, joinPosted, rolledUpLine]
  cases db.entries l.entryId with
  | none => rfl
  | some je =>
    dsimp only
    by_cases hJoin : je.orgId = l.orgId ∧ l.orgId = org ∧ je.status = .posted
    · rw [if_pos hJoin]
      exact if_pos hJoin
    · rw [if_neg hJoin]
      exact if_neg hJoin

section chart

variable {chart : Chart} (hOk : ChartOk chart) {accounts : List String}
  (hSystem : ∀ code ∈ accounts, ∃ a ∈ systemChart, a.code = code)
include hOk hSystem

/-- The accounts of the turnovers are their own roots. -/
theorem rootCode_of_mem {org : Uuid} {code : String} (h : code ∈ accounts) :
    rootCode chart org code = code := by
  obtain ⟨a, hA, rfl⟩ := hSystem code h
  exact hOk.rootCode_system hA

/-- A line is in the turnover of the rolled up ledger if it is in that of the ledger or stands below
the accounts. -/
theorem lineItem_rolledUp (side : Side) (vatOnly : Bool) (row : Date × LineRow) :
    lineItem accounts side vatOnly (row.1, rolledUpLine chart row.2) =
      (lineItem accounts side vatOnly row <|> belowItem chart accounts side vatOnly row) ∧
    (lineItem accounts side vatOnly row = none ∨
      belowItem chart accounts side vatOnly row = none) := by
  obtain ⟨day, l⟩ := row
  have hColumn : summedColumn vatOnly (rolledUpLine chart l) = summedColumn vatOnly l := rfl
  by_cases hOn : l.accountCode ∈ accounts
  · have hRoot : rootCode chart l.orgId l.accountCode = l.accountCode :=
      rootCode_of_mem hOk hSystem hOn
    have hNotBelow : ¬BelowAccounts chart accounts l := fun h => h.1 hRoot.symm
    have hNone : belowItem chart accounts side vatOnly (day, l) = none := by
      simp [belowItem, hNotBelow]
    refine ⟨?_, .inr hNone⟩
    simp [hNone, lineItem, rolledUpLine, hRoot, summedColumn]
  · have hNone : lineItem accounts side vatOnly (day, l) = none := by simp [lineItem, hOn]
    refine ⟨?_, .inl hNone⟩
    by_cases hRoot : rootCode chart l.orgId l.accountCode ∈ accounts
    · have hNe : l.accountCode ≠ rootCode chart l.orgId l.accountCode := fun h => hOn (h ▸ hRoot)
      simp [lineItem, belowItem, BelowAccounts, rolledUpLine, hRoot, hNe, hOn, summedColumn]
    · simp [lineItem, belowItem, BelowAccounts, rolledUpLine, hRoot, hOn]

end chart

theorem figureItems_rolledUp {db : Db} (hOk : ChartOk db.accounts) (org : Uuid)
    {accounts : List String} (hSystem : ∀ code ∈ accounts, ∃ a ∈ systemChart, a.code = code)
    (side : Side) (vatOnly : Bool) :
    (figureItems (rolledUp db) org accounts side vatOnly).Perm
      (figureItems db org accounts side vatOnly ++
        (postedLines db org).filterMap (belowItem db.accounts accounts side vatOnly)) := by
  have hSplit : figureItems (rolledUp db) org accounts side vatOnly =
      (postedLines db org).filterMap fun row =>
        lineItem accounts side vatOnly row <|> belowItem db.accounts accounts side vatOnly row := by
    rw [figureItems, postedLines_rolledUp, List.filterMap_map]
    refine List.filterMap_congr fun row _ => ?_
    exact (lineItem_rolledUp hOk hSystem side vatOnly row).1
  rw [hSplit]
  exact filterMap_or_perm (fun row => (lineItem_rolledUp hOk hSystem side vatOnly row).2) _

/-- A turnover is that of the rolled up ledger in every period exactly when it sees all lines that
it should. -/
theorem figure_sees_iff {db : Db} (hOk : ChartOk db.accounts) {org : Uuid} {accounts : List String}
    (hSystem : ∀ code ∈ accounts, ∃ a ∈ systemChart, a.code = code) {side : Side} {vatOnly : Bool} :
    (∀ periodFrom periodTo, sumLineAmountTiyn db org accounts side periodFrom periodTo vatOnly =
      sumLineAmountTiyn (rolledUp db) org accounts side periodFrom periodTo vatOnly) ↔
    FigureSeesAll db org accounts side vatOnly := by
  have hItems : AllNonNeg (figureItems db org accounts side vatOnly) := filterMap_lineItem_nonNeg _
  have hBelow : AllNonNeg
      ((postedLines db org).filterMap (belowItem db.accounts accounts side vatOnly)) := by
    intro i hi
    obtain ⟨row, -, hRow⟩ := List.mem_filterMap.mp hi
    exact summedColumn_nonNeg (belowItem_eq_some.mp hRow).2.2.1
  have hPerm := figureItems_rolledUp hOk org hSystem side vatOnly
  simp only [sumLineAmountTiyn_eq, rangeTotal_perm hPerm]
  rw [forall₂_congr fun _ _ => eq_comm, figure_append_iff hItems hBelow]
  constructor
  · rintro hDays row hRow hSide hUnder ⟨v, hColumn, hNonZero⟩
    refine hDays (row.1, v) (List.mem_filterMap.mpr ⟨row, hRow, ?_⟩) hNonZero
    exact belowItem_eq_some.mpr ⟨hSide, hUnder, hColumn, rfl⟩
  · intro hSees i hi hNonZero
    obtain ⟨row, hRow, hItem⟩ := List.mem_filterMap.mp hi
    obtain ⟨hSide, hUnder, hColumn, hDay⟩ := belowItem_eq_some.mp hItem
    rw [hDay]
    exact hSees row hRow hSide hUnder ⟨i.2, hColumn, hNonZero⟩

theorem mem_systemChart_of_income : ∀ code ∈ incomeAccounts, ∃ a ∈ systemChart, a.code = code := by
  decide

theorem mem_systemChart_of_deductible :
    ∀ code ∈ vatDeductibleAccounts, ∃ a ∈ systemChart, a.code = code := by
  decide

/-- The calculations and the alerts see the ledger through the three turnovers only. -/
theorem calculations_congr {db db' : Db} {org : Uuid}
    (h : ∀ periodFrom periodTo, taxFigures db org periodFrom periodTo =
      taxFigures db' org periodFrom periodTo) (ref : TaxReference) :
    (∀ periodFrom periodTo, calculateSnr ref db org periodFrom periodTo =
      calculateSnr ref db' org periodFrom periodTo) ∧
    (∀ periodFrom periodTo, calculateVat ref db org periodFrom periodTo =
      calculateVat ref db' org periodFrom periodTo) ∧
    ∀ onDate, thresholdAlerts ref db org onDate = thresholdAlerts ref db' org onDate := by
  have hIncome : ∀ f t, sumLineAmountTiyn db org incomeAccounts .credit f t false =
      sumLineAmountTiyn db' org incomeAccounts .credit f t false :=
    fun f t => congrArg TaxFigures.income (h f t)
  have hAccrued : ∀ f t, sumLineAmountTiyn db org incomeAccounts .credit f t true =
      sumLineAmountTiyn db' org incomeAccounts .credit f t true :=
    fun f t => congrArg TaxFigures.accrued (h f t)
  have hDeductible : ∀ f t, sumLineAmountTiyn db org vatDeductibleAccounts .debit f t true =
      sumLineAmountTiyn db' org vatDeductibleAccounts .debit f t true :=
    fun f t => congrArg TaxFigures.deductible (h f t)
  refine ⟨fun f t => ?_, fun f t => ?_, fun d => ?_⟩
  · simp only [calculateSnr, hIncome]
  · simp only [calculateVat, hIncome, hAccrued, hDeductible]
  · simp only [thresholdAlerts, hIncome]

/-- On a chart that `createSubaccount` makes, the tax figures, the calculations and the alerts are
those of the ledger on system accounts exactly when no posted line below an account of a turnover
would change it. -/
theorem subaccounts_neutral_iff {db : Db} {org : Uuid} (hChart : ChartReachable db.accounts) :
    ((∀ periodFrom periodTo, taxFigures db org periodFrom periodTo =
        taxFigures (rolledUp db) org periodFrom periodTo) ∧
      ∀ ref,
        (∀ periodFrom periodTo, calculateSnr ref db org periodFrom periodTo =
          calculateSnr ref (rolledUp db) org periodFrom periodTo) ∧
        (∀ periodFrom periodTo, calculateVat ref db org periodFrom periodTo =
          calculateVat ref (rolledUp db) org periodFrom periodTo) ∧
        ∀ onDate, thresholdAlerts ref db org onDate = thresholdAlerts ref (rolledUp db) org onDate) ↔
    FiguresSeeAll db org := by
  have hOk := hChart.ok
  have hFigures : (∀ periodFrom periodTo, taxFigures db org periodFrom periodTo =
      taxFigures (rolledUp db) org periodFrom periodTo) ↔ FiguresSeeAll db org := by
    rw [taxFigures_eq_iff]
    constructor
    · intro h
      exact ⟨(figure_sees_iff hOk mem_systemChart_of_income).mp (h _ _ _ (by simp)),
        (figure_sees_iff hOk mem_systemChart_of_income).mp (h _ _ _ (by simp)),
        (figure_sees_iff hOk mem_systemChart_of_deductible).mp (h _ _ _ (by simp))⟩
    · rintro ⟨hIncome, hAccrued, hDeductible⟩ accounts side vatOnly hMem
      simp only [List.mem_cons, Prod.mk.injEq, List.not_mem_nil, or_false] at hMem
      rcases hMem with ⟨rfl, rfl, rfl⟩ | ⟨rfl, rfl, rfl⟩ | ⟨rfl, rfl, rfl⟩
      · exact (figure_sees_iff hOk mem_systemChart_of_income).mpr hIncome
      · exact (figure_sees_iff hOk mem_systemChart_of_income).mpr hAccrued
      · exact (figure_sees_iff hOk mem_systemChart_of_deductible).mpr hDeductible
  rw [← hFigures]
  exact ⟨And.left, fun h => ⟨h, calculations_congr h⟩⟩

/-- The system chart with the subaccount `code` of organisation 1. -/
def chartWith (code parentCode : String) : Chart :=
  systemChart ++ [⟨some 1, code, .income, some parentCode, false⟩]

theorem chartWith_reachable : ChartReachable (chartWith "6010.1" "6010") := by
  refine .single ⟨1, "6010.1", "6010", ⟨some 1, "6010.1", .income, some "6010", false⟩, ?_⟩
  decide +kernel

/-- The ledger of organisation 1 on a chart that has the subaccount 6010.1. -/
def subaccountLedger (lines : List LineRow) : Db :=
  { soleLedger lines with accounts := chartWith "6010.1" "6010" }

theorem subaccounts_neutral_system_sale :
    ChartReachable (subaccountLedger [soleLine 21 "6010" .credit none]).accounts ∧
      ∀ periodFrom periodTo,
        taxFigures (subaccountLedger [soleLine 21 "6010" .credit none]) 1 periodFrom periodTo =
          taxFigures (rolledUp (subaccountLedger [soleLine 21 "6010" .credit none])) 1 periodFrom
            periodTo := by
  refine ⟨chartWith_reachable, ((subaccounts_neutral_iff chartWith_reachable).mpr ?_).1⟩
  have hNone : ∀ row ∈ postedLines (subaccountLedger [soleLine 21 "6010" .credit none]) 1,
      row.2.accountCode = rootCode (chartWith "6010.1" "6010") row.2.orgId row.2.accountCode := by
    decide +kernel
  exact ⟨fun row hRow _ hBelow => absurd (hNone row hRow) hBelow.1,
    fun row hRow _ hBelow => absurd (hNone row hRow) hBelow.1,
    fun row hRow _ hBelow => absurd (hNone row hRow) hBelow.1⟩

/-- Revenue on a subaccount of 6010 is no income. -/
theorem subaccount_revenue_is_no_income :
    ChartReachable (subaccountLedger [soleLine 21 "6010.1" .credit none]).accounts ∧
      (taxFigures (subaccountLedger [soleLine 21 "6010.1" .credit none]) 1 soleEntry.entryDate
        soleEntry.entryDate).income = .ok 0 ∧
      (taxFigures (rolledUp (subaccountLedger [soleLine 21 "6010.1" .credit none])) 1
        soleEntry.entryDate soleEntry.entryDate).income = .ok 11200 := by
  refine ⟨chartWith_reachable, ?_⟩
  decide +kernel

end CyberAccountant.Tax
