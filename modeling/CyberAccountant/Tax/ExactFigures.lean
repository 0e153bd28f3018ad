import CyberAccountant.Ledger.LineNumbers
import CyberAccountant.Tax.Calculations

/-! The arithmetic of the tax service in 64-bit integers against the same arithmetic on unbounded ones:
how large the income of a ledger may be for the figures that are stored and compared to be exact. -/

namespace CyberAccountant.Tax

open CyberAccountant.Library CyberAccountant.Ledger

/-! ### The source's expressions, each where it is defined -/

/-- `apply_bp` where neither the product nor the sum overflows. -/
def applyBp? (baseTiyn rateBp : Int) : Option Int := do
  let product ← fit64? (baseTiyn * rateBp)
  let sum ← fit64? (product + 5000)
  pure (sum.tdiv 10000)

/-- `is_near_or_over` where no product overflows. -/
def isNearOrOver? (currentTiyn thresholdTiyn : Int) : Option Bool := do
  let current ← fit64? (currentTiyn * 10)
  let threshold ← fit64? (thresholdTiyn * 9)
  pure (decide (threshold ≤ current))

/-- What `threshold_alerts` makes of the income and of the three constants: whether it raises the first
alert, the second threshold, and whether it raises the second alert. -/
def alertArithmetic? (incomeTiyn vatThreshold mrp units : Int) : Option (Bool × Int × Bool) := do
  let nearVat ← isNearOrOver? incomeTiyn vatThreshold
  let snrThresholdTiyn ← fit64? (mrp * units)
  let nearSnr ← isNearOrOver? incomeTiyn snrThresholdTiyn
  pure (nearVat, snrThresholdTiyn, nearSnr)

theorem applyBp_of_fits {baseTiyn rateBp : Int} (hProduct : InInt64 (baseTiyn * rateBp))
    (hSum : InInt64 (baseTiyn * rateBp + 5000)) :
    applyBp? baseTiyn rateBp = some ((baseTiyn * rateBp + 5000).tdiv 10000) ∧
      applyBp baseTiyn rateBp = (baseTiyn * rateBp + 5000).tdiv 10000 := by
  constructor
  · simp [applyBp?, fit64?_of hProduct, fit64?_of hSum]
  · rw [applyBp, wrap64_of_inInt64 hProduct, wrap64_of_inInt64 hSum]

/-- A rate of an income that is not negative is taken without overflow exactly below `2^63 - 5000`. -/
theorem applyBp?_isSome {baseTiyn rateBp : Int} (hBase : 0 ≤ baseTiyn) (hRate : 0 ≤ rateBp) :
    (applyBp? baseTiyn rateBp).isSome ↔ baseTiyn * rateBp + 5000 < 9223372036854775808 := by
  have hSign : 0 ≤ baseTiyn * rateBp := Int.mul_nonneg hBase hRate
  constructor
  · intro h
    obtain ⟨v, hV⟩ := Option.isSome_iff_exists.mp h
    simp only [applyBp?, Option.bind_eq_bind, Option.bind_eq_some_iff, fit64?_eq_some] at hV
    obtain ⟨_, ⟨-, rfl⟩, _, ⟨hSum, -⟩, -⟩ := hV
    exact hSum.2
  · intro h
    have hProduct : InInt64 (baseTiyn * rateBp) := ⟨by omega, by omega⟩
    have hSum : InInt64 (baseTiyn * rateBp + 5000) := ⟨by omega, h⟩
    rw [(applyBp_of_fits hProduct hSum).1]
    rfl

theorem isNearOrOver?_of_fits {currentTiyn thresholdTiyn : Int} (hCurrent : InInt64 (currentTiyn * 10))
    (hThreshold : InInt64 (thresholdTiyn * 9)) :
    isNearOrOver? currentTiyn thresholdTiyn = some (decide (thresholdTiyn * 9 ≤ currentTiyn * 10)) ∧
      (isNearOrOver currentTiyn thresholdTiyn ↔ thresholdTiyn * 9 ≤ currentTiyn * 10) := by
  constructor
  · simp [isNearOrOver?, fit64?_of hCurrent, fit64?_of hThreshold]
  · rw [isNearOrOver, wrap64_of_inInt64 hCurrent, wrap64_of_inInt64 hThreshold]

theorem isNearOrOver?_isSome {currentTiyn thresholdTiyn : Int} :
    (isNearOrOver? currentTiyn thresholdTiyn).isSome ↔
      InInt64 (currentTiyn * 10) ∧ InInt64 (thresholdTiyn * 9) := by
  constructor
  · intro h
    obtain ⟨v, hV⟩ := Option.isSome_iff_exists.mp h
    simp only [isNearOrOver?, Option.bind_eq_bind, Option.bind_eq_some_iff, fit64?_eq_some] at hV
    obtain ⟨_, ⟨hCurrent, -⟩, _, ⟨hThreshold, -⟩, -⟩ := hV
    exact ⟨hCurrent, hThreshold⟩
  · rintro ⟨hCurrent, hThreshold⟩
    rw [(isNearOrOver?_of_fits hCurrent hThreshold).1]
    rfl

/-- The four products of `threshold_alerts` fit in 64 bits. -/
def AlertsFit (incomeTiyn vatThreshold mrp units : Int) : Prop :=
  InInt64 (incomeTiyn * 10) ∧ InInt64 (vatThreshold * 9) ∧ InInt64 (mrp * units) ∧ InInt64 (mrp * units * 9)

instance (incomeTiyn vatThreshold mrp units : Int) : Decidable (AlertsFit incomeTiyn vatThreshold mrp units) :=
  inferInstanceAs (Decidable (_ ∧ _))

theorem alertArithmetic?_isSome {incomeTiyn vatThreshold mrp units : Int} :
    (alertArithmetic? incomeTiyn vatThreshold mrp units).isSome ↔
      AlertsFit incomeTiyn vatThreshold mrp units := by
  constructor
  · intro h
    obtain ⟨v, hV⟩ := Option.isSome_iff_exists.mp h
    simp only [alertArithmetic?, Option.bind_eq_bind, Option.bind_eq_some_iff, fit64?_eq_some] at hV
    obtain ⟨_, hNearVat, _, ⟨hProduct, rfl⟩, _, hNearSnr, -⟩ := hV
    have hFirst := isNearOrOver?_isSome.mp (Option.isSome_of_eq_some hNearVat)
    have hSecond := isNearOrOver?_isSome.mp (Option.isSome_of_eq_some hNearSnr)
    exact ⟨hFirst.1, hFirst.2, hProduct, hSecond.2⟩
  · rintro ⟨hTen, hVatNine, hProduct, hSnrNine⟩
    simp [alertArithmetic?, fit64?_of hProduct, (isNearOrOver?_of_fits hTen hVatNine).1,
      (isNearOrOver?_of_fits hTen hSnrNine).1]

/-- Of the products of an income and of thresholds of at most `10^17`, that of a large income does not fit,
nor those of thresholds far below zero. -/
theorem alertsFit_iff {incomeTiyn vatThreshold mrp units : Int} (hIncome : 0 ≤ incomeTiyn)
    (hVat : vatThreshold ≤ 100000000000000000) (hSnr : mrp * units ≤ 100000000000000000) :
    AlertsFit incomeTiyn vatThreshold mrp units ↔
      incomeTiyn * 10 < 9223372036854775808 ∧ -9223372036854775808 ≤ vatThreshold * 9 ∧
        -9223372036854775808 ≤ mrp * units * 9 := by
  constructor
  · rintro ⟨hTen, hVatNine, -, hSnrNine⟩
    exact ⟨hTen.2, hVatNine.1, hSnrNine.1⟩
  · rintro ⟨hTen, hVatLow, hSnrLow⟩
    exact ⟨⟨by omega, hTen⟩, ⟨hVatLow, by omega⟩, ⟨by omega, by omega⟩, ⟨hSnrLow, by omega⟩⟩

/-! ### The sums of a ledger -/

/-- The income of a period, of whatever size. -/
def incomeSum (db : Db) (org : Uuid) (periodFrom periodTo : Date) : Numeric :=
  rangeTotal (figureItems db org incomeAccounts .credit false) periodFrom periodTo

/-- The VAT accrued in a period. -/
def accruedSum (db : Db) (org : Uuid) (periodFrom periodTo : Date) : Numeric :=
  rangeTotal (figureItems db org incomeAccounts .credit true) periodFrom periodTo

/-- The VAT that a period makes deductible. -/
def deductibleSum (db : Db) (org : Uuid) (periodFrom periodTo : Date) : Numeric :=
  rangeTotal (figureItems db org vatDeductibleAccounts .debit true) periodFrom periodTo

/-- The sum is a number and no 64-bit integer. -/
def TooLarge (x : Numeric) : Prop := ∃ t, x = .tiyn t ∧ ¬InInt64 t

theorem toBigint_eq_ok {x : Numeric} {t : Int} : toBigint x = .ok t ↔ x = .tiyn t ∧ InInt64 t := by
  cases x with
  | nan => simp [toBigint]
  | tiyn s =>
    by_cases hFits : InInt64 s
    · simp only [toBigint, if_pos hFits, Except.ok.injEq, Numeric.tiyn.injEq]
      exact ⟨fun h => ⟨h, h ▸ hFits⟩, And.left⟩
    · simp only [toBigint, if_neg hFits, reduceCtorEq, Numeric.tiyn.injEq, false_iff]
      rintro ⟨rfl, h⟩
      exact hFits h

/-- A cast fails for `NaN` and for what is too large. -/
theorem toBigint_eq_error {x : Numeric} {e : TaxError} (h : toBigint x = .error e) :
    x = .nan ∨ TooLarge x := by
  cases x with
  | nan => exact .inl rfl
  | tiyn t =>
    by_cases hFits : InInt64 t
    · rw [toBigint, if_pos hFits] at h
      cases h
    · exact .inr ⟨t, rfl, hFits⟩

theorem sum_number {xs : List Numeric} (h : ∀ x ∈ xs, ∃ t, x = .tiyn t) : ∃ t, xs.sum = .tiyn t := by
  induction xs with
  | nil => exact ⟨0, rfl⟩
  | cons x xs ih =>
    rw [List.forall_mem_cons] at h
    obtain ⟨⟨t, rfl⟩, hRest⟩ := h
    obtain ⟨s, hSum⟩ := ih hRest
    exact ⟨t + s, by rw [List.sum_cons, hSum, Numeric.tiyn_add_tiyn]⟩

/-- What a turnover sums are columns of rows of the journal. -/
theorem figureItems_column {db : Db} {org : Uuid} {accounts : List String} {side : Side} {vatOnly : Bool}
    {i : Date × Numeric} (h : i ∈ figureItems db org accounts side vatOnly) :
    ∃ l ∈ db.lines, summedColumn vatOnly l = some i.2 := by
  obtain ⟨⟨date, l⟩, hPosted, hItem⟩ := List.mem_filterMap.mp h
  obtain ⟨-, -, hColumn, -⟩ := lineItem_eq_some.mp hItem
  obtain ⟨stored, hStored, hJoin⟩ := List.mem_filterMap.mp hPosted
  have hSame : stored = l := by
    unfold joinPosted at hJoin
    split at hJoin
    · cases hJoin
    · split_ifs at hJoin
      cases hJoin
      rfl
  exact ⟨l, hSame ▸ hStored, hColumn⟩

/-- A turnover over columns that are numbers is a number. -/
theorem rangeTotal_number {db : Db} {org : Uuid} {accounts : List String} {side : Side} {vatOnly : Bool}
    (h : ∀ l ∈ db.lines, ∀ v, summedColumn vatOnly l = some v → ∃ t, v = .tiyn t)
    (periodFrom periodTo : Date) :
    ∃ t, 0 ≤ t ∧ rangeTotal (figureItems db org accounts side vatOnly) periodFrom periodTo = .tiyn t := by
  have hSign : (rangeTotal (figureItems db org accounts side vatOnly) periodFrom periodTo).NonNeg :=
    rangeTotal_nonNeg (filterMap_lineItem_nonNeg (postedLines db org)) periodFrom periodTo
  have hNumber : ∃ t, rangeTotal (figureItems db org accounts side vatOnly) periodFrom periodTo = .tiyn t := by
    refine sum_number fun x hx => ?_
    obtain ⟨i, hi, rfl⟩ := List.mem_map.mp hx
    obtain ⟨l, hl, hColumn⟩ := figureItems_column (List.mem_filter.mp hi).1
    exact h l hl i.2 hColumn
  obtain ⟨t, hTotal⟩ := hNumber
  rw [hTotal] at hSign
  exact ⟨t, hSign, hTotal⟩

/-- The income of a ledger that clients reach is a number. -/
theorem incomeSum_number {num : NumericText} {w : World} (h : Reachable num w) (org : Uuid)
    (periodFrom periodTo : Date) : ∃ t, 0 ≤ t ∧ incomeSum w.db org periodFrom periodTo = .tiyn t := by
  refine rangeTotal_number (fun l hl v hV => ?_) periodFrom periodTo
  obtain ⟨tiyn, hValue⟩ := h.amounts l hl
  obtain rfl : l.amount.value = v := by simpa [summedColumn] using hV
  exact ⟨tiyn, hValue⟩

/-! ### A call of `calculate_snr` -/

/-- The table after a calculation; a calculation that fails stores nothing. -/
def storedAfter (table : List Calculation) : Except TaxError Calculation → List Calculation
  | .ok row => if row.periodFrom ≤ row.periodTo then (upsert table row).2 else table
  | .error _ => table

/-- The table has the row, under whatever id. -/
def Stores (table : List Calculation) (row : Calculation) : Prop := ∃ id, { row with id } ∈ table

theorem upsert_stores (table : List Calculation) (row : Calculation) : Stores (upsert table row).2 row := by
  unfold upsert
  split
  · exact ⟨row.id, List.mem_append_right _ (List.mem_singleton.mpr rfl)⟩
  · rename_i old hFind
    have hSame : old.SameKey row := by simpa using List.find?_some hFind
    refine ⟨old.id, List.mem_map.mpr ⟨old, List.mem_of_find?_eq_some hFind, ?_⟩⟩
    rw [if_pos hSame]

theorem storedAfter_stores {table : List Calculation} {row : Calculation} (h : row.periodFrom ≤ row.periodTo) :
    Stores (storedAfter table (.ok row)) row := by
  rw [storedAfter, if_pos h]
  exact upsert_stores table row

section calls

variable (ref : TaxReference) (db : Db) (table : List Calculation) (fresh org : Uuid) (first last : Date)

/-- `calculate_snr` at a rate does on 64-bit integers what it does on unbounded ones. -/
structure SnrExact (rate : Rate) : Prop where
  /-- No operation on the income that is read overflows. -/
  inRange : ∀ income, sumLineAmountTiyn db org incomeAccounts .credit first last false = .ok income →
    (applyBp? income rate.rateBp).isSome
  /-- What is stored is the rate of the income, rounded half up. -/
  stores : ∀ row, calculate ref db .snrSimplified fresh org first last = .ok row →
    ∃ income, incomeSum db org first last = .tiyn income ∧
      row.resultSnapshot = [("income_tiyn", income), ("rate_bp", rate.rateBp),
        ("tax_tiyn", (income * rate.rateBp + 5000) / 10000)] ∧
      row.totalTiyn = (income * rate.rateBp + 5000) / 10000 ∧ Stores (storedAfter table (.ok row)) row
  /-- Only a sum that is too large fails, and stores nothing. -/
  fails : ∀ e, calculate ref db .snrSimplified fresh org first last = .error e →
    TooLarge (incomeSum db org first last) ∧ storedAfter table (.error e) = table

/-- `calculate_vat` does on 64-bit integers what it does on unbounded ones. -/
structure VatExact : Prop where
  inRange : ∀ accrued deductible,
    sumLineAmountTiyn db org incomeAccounts .credit first last true = .ok accrued →
    sumLineAmountTiyn db org vatDeductibleAccounts .debit first last true = .ok deductible →
    (fit64? (accrued - deductible)).isSome
  stores : ∀ row, calculate ref db .vat fresh org first last = .ok row →
    ∃ accrued deductible income, accruedSum db org first last = .tiyn accrued ∧
      deductibleSum db org first last = .tiyn deductible ∧ incomeSum db org first last = .tiyn income ∧
      row.resultSnapshot = [("accrued_tiyn", accrued), ("balance_tiyn", accrued - deductible),
        ("deductible_tiyn", deductible), ("income_tiyn", income)] ∧
      row.totalTiyn = accrued - deductible ∧ Stores (storedAfter table (.ok row)) row
  fails : ∀ e, calculate ref db .vat fresh org first last = .error e →
    (TooLarge (accruedSum db org first last) ∨ TooLarge (deductibleSum db org first last) ∨
      TooLarge (incomeSum db org first last)) ∧ storedAfter table (.error e) = table

/-- What an alert says besides its message. -/
def Alert.figures (a : Alert) : String × Int × Int := (a.kind, a.currentTiyn, a.thresholdTiyn)

/-- `threshold_alerts` compares as on unbounded integers. -/
structure AlertsExact (onDate : Date) (vatThreshold mrp units : Int) : Prop where
  inRange : ∀ start income, subtractOneYear onDate = some start →
    sumLineAmountTiyn db org incomeAccounts .credit start onDate false = .ok income →
    (alertArithmetic? income vatThreshold mrp units).isSome
  raises : ∀ alerts, thresholdAlerts ref db org onDate = .ok alerts →
    ∃ start income, subtractOneYear onDate = some start ∧ incomeSum db org start onDate = .tiyn income ∧
      alerts.map Alert.figures =
        (if vatThreshold * 9 ≤ income * 10 then [("vat_registration", income, vatThreshold)] else []) ++
          if mrp * units * 9 ≤ income * 10 then [("snr_limit", income, mrp * units)] else []
  fails : ∀ e, thresholdAlerts ref db org onDate = .error e →
    ∃ start, subtractOneYear onDate = some start ∧ TooLarge (incomeSum db org start onDate)

end calls

section proofs

variable {num : NumericText} {w : World} (hReach : Reachable num w) {ref : TaxReference}
  {table : List Calculation} {fresh org : Uuid} {first last : Date}

/-- The cast of the income is read exactly if it is a number that fits. -/
theorem income_cast {db : Db} {income : Int} :
    sumLineAmountTiyn db org incomeAccounts .credit first last false = .ok income ↔
      incomeSum db org first last = .tiyn income ∧ InInt64 income := by
  rw [sumLineAmountTiyn_eq]
  exact toBigint_eq_ok

include hReach in
/-- The income of a ledger that clients reach is not negative. -/
theorem income_nonneg {income : Int} (h : incomeSum w.db org first last = .tiyn income) : 0 ≤ income := by
  obtain ⟨total, hSign, hTotal⟩ := incomeSum_number hReach org first last
  obtain rfl := Numeric.tiyn.inj (hTotal.symm.trans h)
  exact hSign

include hReach in
/-- Its cast fails only if it is too large. -/
theorem income_tooLarge {e : TaxError} (h : toBigint (incomeSum w.db org first last) = .error e) :
    TooLarge (incomeSum w.db org first last) := by
  obtain ⟨total, -, hTotal⟩ := incomeSum_number hReach org first last
  rcases toBigint_eq_error h with hNan | hLarge
  · rw [hTotal] at hNan
    cases hNan
  · exact hLarge

theorem calculate_snr_eq (db : Db) (fresh org : Uuid) (first : Date) {rate : Rate}
    (hRate : rateOn ref "snr_simplified" last "" = some rate) :
    calculate ref db .snrSimplified fresh org first last =
      (toBigint (incomeSum db org first last) >>= fun income =>
        let c : SnrCalculation :=
          ⟨first, last, rate.rateBp, rate.effectiveFrom, income, applyBp income rate.rateBp⟩
        pure ⟨fresh, org, .snrSimplified, first, last, snrInput c, snrResult c, c.taxTiyn⟩) := by
  simp only [calculate, calculateSnr, sumLineAmountTiyn_eq, hRate, orFail, incomeSum]
  cases toBigint (rangeTotal (figureItems db org incomeAccounts .credit false) first last) with
  | error e => rfl
  | ok income => rfl

include hReach in
/-- The rate of the income of a period is stored exactly where its product fits. -/
theorem snrExact_iff (hPeriod : first ≤ last) {rate : Rate}
    (hRate : rateOn ref "snr_simplified" last "" = some rate) (hBp : 0 ≤ rate.rateBp) :
    SnrExact ref w.db table fresh org first last rate ↔
      ∀ income, incomeSum w.db org first last = .tiyn income → InInt64 income →
        income * rate.rateBp + 5000 < 9223372036854775808 := by
  have hCall := calculate_snr_eq w.db fresh org first hRate
  constructor
  · intro h income hIncome hFits
    have hSome := h.inRange income (income_cast.mpr ⟨hIncome, hFits⟩)
    exact (applyBp?_isSome (income_nonneg hReach hIncome) hBp).mp hSome
  · intro hCond
    refine ⟨fun income hRead => ?_, fun row hRow => ?_, fun e hError => ?_⟩
    · obtain ⟨hIncome, hFits⟩ := income_cast.mp hRead
      exact (applyBp?_isSome (income_nonneg hReach hIncome) hBp).mpr (hCond income hIncome hFits)
    · rw [hCall] at hRow
      simp only [bind_eq_ok, pure_eq_ok] at hRow
      obtain ⟨income, hRead, rfl⟩ := hRow
      obtain ⟨hIncome, hFits⟩ := toBigint_eq_ok.mp hRead
      have hProduct := Int.mul_nonneg (income_nonneg hReach hIncome) hBp
      have hHigh := hCond income hIncome hFits
      have hTax : applyBp income rate.rateBp = (income * rate.rateBp + 5000) / 10000 := by
        rw [(applyBp_of_fits ⟨by omega, by omega⟩ ⟨by omega, by omega⟩).2]
        exact Int.tdiv_eq_ediv_of_nonneg (by omega)
      refine ⟨income, hIncome, ?_, hTax, storedAfter_stores hPeriod⟩
      rw [snrResult, hTax]
    · rw [hCall] at hError
      rcases bind_eq_error.mp hError with hRead | ⟨income, -, hRow⟩
      · exact ⟨income_tooLarge hReach hRead, rfl⟩
      · cases hRow

/-- The row of a VAT calculation of three sums. -/
def vatRow (ref : TaxReference) (fresh org : Uuid) (first last : Date) (accrued deductible income : Int) :
    Calculation :=
  let c : VatCalculation := ⟨first, last, (rateOn ref "vat" last "").map Rate.rateBp, accrued, deductible,
    wrap64 (accrued - deductible), income⟩
  ⟨fresh, org, .vat, first, last, vatInput c, vatResult c, c.balanceTiyn⟩

/-- The three sums of `calculate_vat` are cast one after the other. -/
theorem calculate_vat_eq (ref : TaxReference) (db : Db) (fresh org : Uuid) (first last : Date) :
    calculate ref db .vat fresh org first last =
      (toBigint (accruedSum db org first last) >>= fun accrued =>
        toBigint (deductibleSum db org first last) >>= fun deductible =>
          toBigint (incomeSum db org first last) >>= fun income =>
            pure (vatRow ref fresh org first last accrued deductible income)) := by
  simp only [calculate, calculateVat, sumLineAmountTiyn_eq, accruedSum, deductibleSum, incomeSum, bind_assoc,
    pure_bind, vatRow]

/-- A sum that is cast is not negative. -/
theorem sum_cast {db : Db} {accounts : List String} {side : Side} {vatOnly : Bool} {tiyn : Int}
    (h : toBigint (rangeTotal (figureItems db org accounts side vatOnly) first last) = .ok tiyn) :
    0 ≤ tiyn ∧ InInt64 tiyn := by
  rw [← sumLineAmountTiyn_eq] at h
  exact sumLineAmountTiyn_bounds h

/-- Two sums that are cast have a difference that fits. -/
theorem difference_fits {accrued deductible : Int} (hAccrued : 0 ≤ accrued ∧ InInt64 accrued)
    (hDeductible : 0 ≤ deductible ∧ InInt64 deductible) : InInt64 (accrued - deductible) := by
  obtain ⟨hA, -, hAHigh⟩ := hAccrued
  obtain ⟨hD, -, hDHigh⟩ := hDeductible
  exact ⟨by omega, by omega⟩

include hReach in
/-- The balance is always exact; a sum that is `NaN` fails where no sum is too large. -/
theorem vatExact_iff (hPeriod : first ≤ last) :
    VatExact ref w.db table fresh org first last ↔
      (accruedSum w.db org first last = .nan ∨ deductibleSum w.db org first last = .nan →
        TooLarge (accruedSum w.db org first last) ∨ TooLarge (deductibleSum w.db org first last) ∨
          TooLarge (incomeSum w.db org first last)) := by
  have hCall := calculate_vat_eq ref w.db fresh org first last
  constructor
  · intro h hNan
    have hNoRow : ∀ row, calculate ref w.db .vat fresh org first last ≠ .ok row := by
      intro row hRow
      rw [hCall] at hRow
      simp only [bind_eq_ok, toBigint_eq_ok] at hRow
      obtain ⟨accrued, ⟨hAccrued, -⟩, deductible, ⟨hDeductible, -⟩, -⟩ := hRow
      rcases hNan with hNan | hNan
      · cases hAccrued.symm.trans hNan
      · cases hDeductible.symm.trans hNan
    cases hResult : calculate ref w.db .vat fresh org first last with
    | ok row => exact absurd hResult (hNoRow row)
    | error e => exact (h.fails e hResult).1
  · intro hCond
    refine ⟨fun accrued deductible hAccrued hDeductible => ?_, fun row hRow => ?_, fun e hError => ⟨?_, rfl⟩⟩
    · rw [fit64?_of (difference_fits (sumLineAmountTiyn_bounds hAccrued) (sumLineAmountTiyn_bounds hDeductible))]
      rfl
    · rw [hCall] at hRow
      simp only [bind_eq_ok, pure_eq_ok] at hRow
      obtain ⟨accrued, hAccrued, deductible, hDeductible, income, hIncome, rfl⟩ := hRow
      have hBalance : wrap64 (accrued - deductible) = accrued - deductible :=
        wrap64_of_inInt64 (difference_fits (sum_cast hAccrued) (sum_cast hDeductible))
      refine ⟨accrued, deductible, income, (toBigint_eq_ok.mp hAccrued).1, (toBigint_eq_ok.mp hDeductible).1,
        (toBigint_eq_ok.mp hIncome).1, ?_, hBalance, storedAfter_stores hPeriod⟩
      rw [vatRow, vatResult, hBalance]
    · rw [hCall] at hError
      simp only [bind_eq_error] at hError
      rcases hError with hAccrued | ⟨accrued, -, hDeductible | ⟨deductible, -, hIncome | ⟨income, -, hRow⟩⟩⟩
      · rcases toBigint_eq_error hAccrued with hNan | hLarge
        · exact hCond (.inl hNan)
        · exact .inl hLarge
      · rcases toBigint_eq_error hDeductible with hNan | hLarge
        · exact hCond (.inr hNan)
        · exact .inr (.inl hLarge)
      · exact .inr (.inr (income_tooLarge hReach hIncome))
      · cases hRow

end proofs

/-! ### A call of `threshold_alerts` -/

section alerts

variable {ref : TaxReference} {org : Uuid} {onDate : Date} {vatThreshold mrp limit : Constant} {units : Int}
  (hVat : constantOn ref "vat_threshold_tenge" onDate = some vatThreshold)
  (hMrp : constantOn ref "mrp" onDate = some mrp)
  (hLimit : constantOn ref "snr_income_limit_mrp" onDate = some limit)
  (hUnits : limit.valueUnits = some units)
include hVat hMrp hLimit hUnits

/-- With its constants in force a call casts one sum and makes two comparisons. -/
theorem thresholdAlerts_eq (db : Db) (org : Uuid) {start : Date} (hStart : subtractOneYear onDate = some start) :
    (thresholdAlerts ref db org onDate).map (List.map Alert.figures) =
      (toBigint (incomeSum db org start onDate)).map fun income =>
        (if isNearOrOver income vatThreshold.valueTiyn then
          [("vat_registration", income, vatThreshold.valueTiyn)] else []) ++
        if isNearOrOver income (wrap64 (mrp.valueTiyn * units)) then
          [("snr_limit", income, wrap64 (mrp.valueTiyn * units))] else [] := by
  simp only [thresholdAlerts, hStart, hVat, hMrp, hLimit, hUnits, orFail, sumLineAmountTiyn_eq, incomeSum, bind,
    Except.bind, pure, Except.pure]
  cases toBigint (rangeTotal (figureItems db org incomeAccounts .credit false) start onDate) with
  | error e => rfl
  | ok income =>
    by_cases hNearVat : isNearOrOver income vatThreshold.valueTiyn <;>
      by_cases hNearSnr : isNearOrOver income (wrap64 (mrp.valueTiyn * units)) <;>
      simp [Except.map, hNearVat, hNearSnr, Alert.figures]

/-- A call that returns has read an income that fits. -/
theorem income_of_alerts {db : Db} {start : Date} {alerts : List Alert} (hStart : subtractOneYear onDate = some start)
    (h : thresholdAlerts ref db org onDate = .ok alerts) :
    ∃ income, incomeSum db org start onDate = .tiyn income ∧ InInt64 income := by
  have hCall := thresholdAlerts_eq hVat hMrp hLimit hUnits db org hStart
  cases hRead : toBigint (incomeSum db org start onDate) with
  | error e =>
    rw [h, hRead] at hCall
    cases hCall
  | ok income => exact ⟨income, toBigint_eq_ok.mp hRead⟩

/-- The alerts of an income and of thresholds whose products fit. -/
theorem alerts_of_fit {db : Db} {start : Date} {income : Int}
    (h : AlertsFit income vatThreshold.valueTiyn mrp.valueTiyn units)
    (hStart : subtractOneYear onDate = some start) (hSum : incomeSum db org start onDate = .tiyn income) :
    (thresholdAlerts ref db org onDate).map (List.map Alert.figures) =
      .ok ((if vatThreshold.valueTiyn * 9 ≤ income * 10 then
          [("vat_registration", income, vatThreshold.valueTiyn)] else []) ++
        if mrp.valueTiyn * units * 9 ≤ income * 10 then
          [("snr_limit", income, mrp.valueTiyn * units)] else []) := by
  obtain ⟨hTen, hVatNine, hProduct, hSnrNine⟩ := h
  have hNearVat := (isNearOrOver?_of_fits hTen hVatNine).2
  have hNearSnr := (isNearOrOver?_of_fits hTen hSnrNine).2
  have hFits : InInt64 income := by
    obtain ⟨hLow, hHigh⟩ := hTen
    exact ⟨by omega, by omega⟩
  rw [thresholdAlerts_eq hVat hMrp hLimit hUnits db org hStart, hSum, toBigint_eq_ok.mpr ⟨rfl, hFits⟩,
    wrap64_of_inInt64 hProduct]
  simp only [Except.map, hNearVat, hNearSnr]

/-- The alerts are exact on days that have a day a year before, where the income is below a tenth of the
64-bit range and the thresholds are not far below zero. -/
theorem alertsExact_iff {num : NumericText} {w : World} (hReach : Reachable num w)
    (hVatMax : vatThreshold.valueTiyn ≤ 100000000000000000)
    (hSnrMax : mrp.valueTiyn * units ≤ 100000000000000000) :
    AlertsExact ref w.db org onDate vatThreshold.valueTiyn mrp.valueTiyn units ↔
      ∃ start, subtractOneYear onDate = some start ∧ ∀ income, incomeSum w.db org start onDate = .tiyn income →
        InInt64 income → income * 10 < 9223372036854775808 ∧
          -9223372036854775808 ≤ vatThreshold.valueTiyn * 9 ∧
          -9223372036854775808 ≤ mrp.valueTiyn * units * 9 := by
  cases hStart : subtractOneYear onDate with
  | none =>
    simp only [reduceCtorEq, false_and, exists_false, iff_false]
    intro h
    obtain ⟨start, hSome, -⟩ := h.fails .badDate (by simp [thresholdAlerts, hStart, orFail, bind, Except.bind])
    rw [hStart] at hSome
    cases hSome
  | some start =>
    have hCall := thresholdAlerts_eq hVat hMrp hLimit hUnits w.db org hStart
    simp only [Option.some.injEq, exists_eq_left']
    constructor
    · intro h income hIncome hFits
      have hSome := h.inRange start income hStart (income_cast.mpr ⟨hIncome, hFits⟩)
      exact (alertsFit_iff (income_nonneg hReach hIncome) hVatMax hSnrMax).mp (alertArithmetic?_isSome.mp hSome)
    · intro hCond
      have hFit {income : Int} (hIncome : incomeSum w.db org start onDate = .tiyn income) (hFits : InInt64 income) :
          AlertsFit income vatThreshold.valueTiyn mrp.valueTiyn units :=
        (alertsFit_iff (income_nonneg hReach hIncome) hVatMax hSnrMax).mpr (hCond income hIncome hFits)
      refine ⟨fun start' income hStart' hRead => ?_, fun alerts hAlerts => ?_, fun e hError => ⟨start, hStart, ?_⟩⟩
      · obtain rfl := Option.some.inj (hStart.symm.trans hStart')
        obtain ⟨hIncome, hFits⟩ := income_cast.mp hRead
        exact alertArithmetic?_isSome.mpr (hFit hIncome hFits)
      · obtain ⟨income, hIncome, hFits⟩ := income_of_alerts hVat hMrp hLimit hUnits hStart hAlerts
        have hExact := alerts_of_fit hVat hMrp hLimit hUnits (hFit hIncome hFits) hStart hIncome
        rw [hAlerts] at hExact
        exact ⟨start, income, hStart, hIncome, Except.ok.inj hExact⟩
      · cases hRead : toBigint (incomeSum w.db org start onDate) with
        | error e => exact income_tooLarge hReach hRead
        | ok income =>
          rw [hError, hRead] at hCall
          cases hCall

end alerts

/-- The tax figures and the alerts of every ledger that clients reach are those of unbounded integers
exactly as far as the products of its income fit in 64 bits. -/
theorem taxArithmetic_exact_iff {num : NumericText} {w : World} (hReach : Reachable num w) (ref : TaxReference)
    (table : List Calculation) (fresh org : Uuid) {first last onDate : Date} (hPeriod : first ≤ last)
    {rate : Rate} (hRate : rateOn ref "snr_simplified" last "" = some rate)
    (hBp : 0 ≤ rate.rateBp ∧ rate.rateBp ≤ 10000) {vatThreshold mrp limit : Constant} {units : Int}
    (hVat : constantOn ref "vat_threshold_tenge" onDate = some vatThreshold)
    (hMrp : constantOn ref "mrp" onDate = some mrp)
    (hLimit : constantOn ref "snr_income_limit_mrp" onDate = some limit) (hUnits : limit.valueUnits = some units)
    (hVatMax : vatThreshold.valueTiyn ≤ 100000000000000000)
    (hSnrMax : mrp.valueTiyn * units ≤ 100000000000000000) :
    (SnrExact ref w.db table fresh org first last rate ↔
      ∀ income, incomeSum w.db org first last = .tiyn income → InInt64 income →
        income * rate.rateBp + 5000 < 9223372036854775808) ∧
    (VatExact ref w.db table fresh org first last ↔
      (accruedSum w.db org first last = .nan ∨ deductibleSum w.db org first last = .nan →
        TooLarge (accruedSum w.db org first last) ∨ TooLarge (deductibleSum w.db org first last) ∨
          TooLarge (incomeSum w.db org first last))) ∧
    (AlertsExact ref w.db org onDate vatThreshold.valueTiyn mrp.valueTiyn units ↔
      ∃ start, subtractOneYear onDate = some start ∧ ∀ income, incomeSum w.db org start onDate = .tiyn income →
        InInt64 income → income * 10 < 9223372036854775808 ∧
          -9223372036854775808 ≤ vatThreshold.valueTiyn * 9 ∧
          -9223372036854775808 ≤ mrp.valueTiyn * units * 9) :=
  ⟨snrExact_iff hReach hPeriod hRate hBp.1, vatExact_iff hReach hPeriod,
    alertsExact_iff hVat hMrp hLimit hUnits hReach hVatMax hSnrMax⟩

/-! ### The reference data of 2026 -/

theorem rateOn_of_filter {ref : TaxReference} {kind region : String} {date : Date} {r : Rate}
    (h : ref.rates.filter (fun r => r.kind = kind ∧ InForce r.effectiveFrom r.effectiveTo date ∧
      ∀ own ∈ r.region, own = region) = [r]) : rateOn ref kind date region = some r := by
  rw [rateOn, h, List.mergeSort_singleton]
  rfl

theorem constantOn_of_filter {ref : TaxReference} {key : String} {date : Date} {c : Constant}
    (h : ref.constants.filter (fun c => c.key = key ∧ InForce c.effectiveFrom c.effectiveTo date) = [c]) :
    constantOn ref key date = some c := by
  rw [constantOn, h, List.mergeSort_singleton]
  rfl

def halfYearStart : Date := .newYear

def halfYearEnd : Date := .endOfJune

def snrRate2026 : Rate := ⟨"snr_simplified", 400, none, halfYearStart, none⟩

def mrp2026 : Constant := ⟨"mrp", 432500, none, halfYearStart, none⟩

def vatThreshold2026 : Constant := ⟨"vat_threshold_tenge", 4325000000, some 10000, halfYearStart, none⟩

def snrLimit2026 : Constant := ⟨"snr_income_limit_mrp", 0, some 600000, halfYearStart, none⟩

def reference2026 : TaxReference where
  rates := [⟨"vat", 1600, none, halfYearStart, none⟩, snrRate2026]
  constants := [mrp2026, vatThreshold2026, snrLimit2026]

theorem reference2026_rate : rateOn reference2026 "snr_simplified" halfYearEnd "" = some snrRate2026 :=
  rateOn_of_filter rfl

theorem reference2026_vatThreshold :
    constantOn reference2026 "vat_threshold_tenge" .firstOfMarch = some vatThreshold2026 :=
  constantOn_of_filter rfl

theorem reference2026_mrp : constantOn reference2026 "mrp" .firstOfMarch = some mrp2026 :=
  constantOn_of_filter rfl

theorem reference2026_snrLimit :
    constantOn reference2026 "snr_income_limit_mrp" .firstOfMarch = some snrLimit2026 :=
  constantOn_of_filter rfl

theorem firstOfMarch_before : subtractOneYear .firstOfMarch = some ⟨2025, 3, 1, by decide⟩ := by
  decide

/-- The sale of 112.00 with 12.00 of VAT in it. -/
theorem taxArithmetic_exact_sale : ∃ w, Reachable .plain w ∧
    SnrExact reference2026 w.db [] 50 1 halfYearStart halfYearEnd snrRate2026 ∧
    VatExact reference2026 w.db [] 50 1 halfYearStart halfYearEnd ∧
    AlertsExact reference2026 w.db 1 .firstOfMarch 4325000000 432500 600000 := by
  have hChecks : checkDraft saleStart saleRequest = .ok () := by decide +kernel
  obtain ⟨w, hReachable, hSums⟩ := @draftedAndPosted_reachable .plain saleRequest
    (fun db => incomeSum db 1 halfYearStart halfYearEnd = .tiyn 11200 ∧
      accruedSum db 1 halfYearStart halfYearEnd = .tiyn 1200 ∧
      deductibleSum db 1 halfYearStart halfYearEnd = .tiyn 0 ∧
      incomeSum db 1 ⟨2025, 3, 1, by decide⟩ .firstOfMarch = .tiyn 11200) hChecks (by decide +kernel)
  simp only [decide_eq_true_eq] at hSums
  obtain ⟨hIncome, hAccrued, hDeductible, hYear⟩ := hSums
  obtain ⟨hSnr, hVat, hAlerts⟩ := taxArithmetic_exact_iff hReachable reference2026 [] 50 1
    (show halfYearStart ≤ halfYearEnd by decide) reference2026_rate (by decide) reference2026_vatThreshold
    reference2026_mrp reference2026_snrLimit rfl (by decide) (by decide)
  refine ⟨w, hReachable, hSnr.mpr ?_, hVat.mpr ?_, hAlerts.mpr ⟨_, firstOfMarch_before, ?_⟩⟩
  · intro income h hFits
    obtain rfl : 11200 = income := by simpa [hIncome] using h
    decide
  · rw [hAccrued, hDeductible]
    simp
  · intro income h hFits
    obtain rfl : 11200 = income := by simpa [hYear] using h
    decide

/-- A sale of the largest amount that is drafted. -/
def largestSale : DraftRequest :=
  { saleRequest with
    lines := [⟨"1210", "debit", "9999999999999999.99", none, none⟩,
      ⟨"6010", "credit", "9999999999999999.99", none, none⟩] }

/-- One line of income is enough: its product with 4%, and ten times it, overflow. -/
theorem taxArithmetic_overflows : ∃ w, Reachable .plain w ∧
    incomeSum w.db 1 halfYearStart halfYearEnd = .tiyn 999999999999999999 ∧
    ¬SnrExact reference2026 w.db [] 50 1 halfYearStart halfYearEnd snrRate2026 ∧
    ¬AlertsExact reference2026 w.db 1 .firstOfMarch 4325000000 432500 600000 := by
  have hChecks : checkDraft saleStart largestSale = .ok () := by decide +kernel
  obtain ⟨w, hReachable, hSums⟩ := @draftedAndPosted_reachable .plain largestSale
    (fun db => incomeSum db 1 halfYearStart halfYearEnd = .tiyn 999999999999999999 ∧
      incomeSum db 1 ⟨2025, 3, 1, by decide⟩ .firstOfMarch = .tiyn 999999999999999999) hChecks (by decide +kernel)
  simp only [decide_eq_true_eq] at hSums
  obtain ⟨hIncome, hYear⟩ := hSums
  have hFits : InInt64 999999999999999999 := by decide
  refine ⟨w, hReachable, hIncome, fun hSnr => ?_, fun hAlerts => ?_⟩
  · have hSmall := (snrExact_iff hReachable (by decide) reference2026_rate (by decide)).mp hSnr _ hIncome hFits
    exact absurd hSmall (by decide)
  · obtain ⟨start, hStart, hSmall⟩ := (alertsExact_iff reference2026_vatThreshold reference2026_mrp
      reference2026_snrLimit rfl hReachable (by decide) (by decide)).mp hAlerts
    obtain rfl := Option.some.inj (firstOfMarch_before.symm.trans hStart)
    exact absurd (hSmall _ hYear hFits).1 (by decide)

end CyberAccountant.Tax
