import CyberAccountant.Tax.ExactFigures

/-! The trailing year of the threshold alerts.  The service takes the year of the date's text down by one
and sums from that day on, with it; what it should sum begins the day after. -/

namespace CyberAccountant.Tax

open CyberAccountant.Library CyberAccountant.Ledger CyberAccountant.Api.Validation

/-- `std::setfill('0') << std::setw(4) << year`. -/
def fourWide (year : Int) : List Char :=
  let text := (toString year).toList
  List.replicate (4 - text.length) '0' ++ text

/-- `subtract_one_year`, on a text that begins with four digits, as those that pass `isValidDate` do. -/
def subtractOneYearText (date : String) : String :=
  let year : Int := Nat.ofDigitChars 10 (date.toList.take 4) 0
  String.ofList (fourWide (year - 1) ++ date.toList.drop 4)

/-- `threshold_alerts` on a text: the query of the sum casts the texts of both days. -/
def thresholdAlertsOn (ref : TaxReference) (db : Db) (org : Uuid) (onDate : String) : Except TaxError (List Alert) := do
  let _ ← orFail .badDate (castDate (subtractOneYearText onDate))
  let last ← orFail .badDate (castDate onDate)
  thresholdAlerts ref db org last

/-! ### The day a year before -/

theorem fourWide_length {year : Nat} (h : year < 10000) : (fourWide year).length = 4 := by
  have hText : (toString (year : Int)).toList = Nat.toDigits 10 year := String.toList_ofList
  have hLength : (Nat.toDigits 10 year).length ≤ 4 :=
    (Nat.length_toDigits_le_iff (by decide) (by decide)).mpr (by omega)
  rw [fourWide, hText, List.length_append, List.length_replicate]
  omega

theorem fourWide_digits (year : Nat) : (fourWide year).all Char.isDigit := by
  have hText : (toString (year : Int)).toList = Nat.toDigits 10 year := String.toList_ofList
  rw [fourWide, hText, List.all_append, toDigits_all_isDigit, Bool.and_true]
  exact List.all_eq_true.mpr fun c hc => by rw [List.eq_of_mem_replicate hc]; rfl

theorem fourWide_value (year : Nat) : Nat.ofDigitChars 10 (fourWide year) 0 = year := by
  have hText : (toString (year : Int)).toList = Nat.toDigits 10 year := String.toList_ofList
  rw [fourWide, hText, Nat.ofDigitChars_append, Nat.ofDigitChars_replicate_zero, Nat.mul_zero]
  exact Nat.ofDigitChars_ten_toDigits

/-- What the text of a day has in its places. -/
theorem dateGroups_eq_some {s : String} {year month day : Nat} (h : dateGroups s = some (year, month, day)) :
    ∃ y rest, s.toList = y ++ rest ∧ y.length = 4 ∧ Nat.ofDigitChars 10 y 0 = year ∧
      ∀ y', y'.length = 4 → y'.all Char.isDigit →
        dateGroups (String.ofList (y' ++ rest)) = some (Nat.ofDigitChars 10 y' 0, month, day) := by
  unfold dateGroups at h
  split at h
  · rename_i y₁ y₂ y₃ y₄ m₁ m₂ d₁ d₂ hText
    split_ifs at h with hDigits
    simp only [Option.some.injEq, Prod.mk.injEq] at h
    obtain ⟨hYear, rfl, rfl⟩ := h
    refine ⟨[y₁, y₂, y₃, y₄], ['-', m₁, m₂, '-', d₁, d₂], hText, rfl, hYear, fun y' hLength hAll => ?_⟩
    obtain ⟨a, b, c, d, rfl⟩ : ∃ a b c d, y' = [a, b, c, d] := by
      match y', hLength with
      | [a, b, c, d], _ => exact ⟨a, b, c, d, rfl⟩
    have hNew : [a, b, c, d, m₁, m₂, d₁, d₂].all Char.isDigit := by
      simp only [List.all_cons, List.all_nil, Bool.and_true, Bool.and_eq_true] at hDigits hAll ⊢
      exact ⟨hAll.1, hAll.2.1, hAll.2.2.1, hAll.2.2.2, hDigits.2.2.2.2⟩
    simp only [dateGroups, String.toList_ofList, List.cons_append, List.nil_append, hNew, if_true]
  · cases h

/-- The text with the year before is cast exactly where the calendar has the day a year before. -/
theorem castDate_subtractOneYearText {onDate : String} {last : Date} (h : castDate onDate = some last) :
    castDate (subtractOneYearText onDate) = subtractOneYear last := by
  have hYearBound := castDate_year h
  unfold castDate at h
  split at h
  · cases h
  · rename_i year month day hGroups
    split_ifs at h with hCalendar
    obtain rfl := Option.some.inj h
    obtain ⟨y, rest, hText, hLength, hYear, hReplace⟩ := dateGroups_eq_some hGroups
    have hTake : onDate.toList.take 4 = y := by rw [hText, ← hLength, List.take_left]
    have hDrop : onDate.toList.drop 4 = rest := by rw [hText, ← hLength, List.drop_left]
    have hPositive : 1 ≤ year := hCalendar.1
    have hBefore : ((year : Int) - 1) = ((year - 1 : Nat) : Int) := by omega
    have hNew := hReplace (fourWide (year - 1 : Nat)) (fourWide_length (by simp only at hYearBound; omega))
      (fourWide_digits _)
    rw [fourWide_value] at hNew
    rw [subtractOneYearText, hTake, hDrop, hYear, hBefore, castDate, hNew]
    rfl

/-- The calendar has a day a year before, but for leap days and the first year. -/
theorem calendarDay_before {year month day : Nat} (h : IsCalendarDay year month day) :
    IsCalendarDay (year - 1) month day ↔ 2 ≤ year ∧ ¬(month = 2 ∧ day = 29) := by
  obtain ⟨hYear, hMonth, hMonthHigh, hDay, hDayHigh⟩ := h
  obtain ⟨before, rfl⟩ : ∃ before, year = before + 1 := ⟨year - 1, by omega⟩
  rw [Nat.add_sub_cancel]
  by_cases hFebruary : month = 2
  · subst hFebruary
    simp only [IsCalendarDay, daysInMonth, if_true, true_and] at hDayHigh ⊢
    by_cases hLeap : IsLeapYear before
    · have hNot : ¬IsLeapYear (before + 1) := by
        simp only [IsLeapYear] at hLeap ⊢
        omega
      rw [if_neg hNot] at hDayHigh
      rw [if_pos hLeap]
      omega
    · have hMax : (if IsLeapYear (before + 1) then 29 else 28) ≤ 29 := by split_ifs <;> omega
      rw [if_neg hLeap]
      omega
  · simp only [IsCalendarDay, daysInMonth, if_neg hFebruary] at hDayHigh ⊢
    omega

theorem subtractOneYear_isSome (d : Date) :
    (subtractOneYear d).isSome ↔ 2 ≤ d.year ∧ ¬(d.month = 2 ∧ d.day = 29) := by
  rw [← calendarDay_before d.calendar]
  unfold subtractOneYear
  split_ifs with hBefore
  · simp [hBefore]
  · simp [hBefore]

theorem subtractOneYear_le {d start : Date} (h : subtractOneYear d = some start) : start ≤ d := by
  unfold subtractOneYear at h
  split_ifs at h with hBefore
  obtain rfl := Option.some.inj h
  have hYear := hBefore.1
  exact .inl (show d.year - 1 < d.year by omega)

/-! ### The two windows -/

/-- The sum of the items that fall after the first day and by the last. -/
def afterTotal (items : List (Date × Numeric)) (start last : Date) : Numeric :=
  ((items.filter fun i => ¬i.1 ≤ start ∧ i.1 ≤ last).map Prod.snd).sum

theorem Date.le_total (a b : Date) : a ≤ b ∨ b ≤ a := by
  change (_ ∨ _) ∨ _ ∨ _
  omega

/-- The closed window has one more day than the half-open one. -/
theorem rangeTotal_split {start last : Date} (h : start ≤ last) (items : List (Date × Numeric)) :
    rangeTotal items start last = rangeTotal items start start + afterTotal items start last := by
  have hDay : (items.filter fun i => start ≤ i.1 ∧ i.1 ≤ last).filter (fun i => i.1 ≤ start) =
      items.filter fun i => start ≤ i.1 ∧ i.1 ≤ start := by
    rw [List.filter_filter]
    refine List.filter_congr fun i _ => ?_
    rw [← Bool.decide_and, decide_eq_decide]
    exact ⟨fun hi => ⟨hi.2.1, hi.1⟩, fun hi => ⟨hi.2, hi.1, Date.le_trans hi.2 h⟩⟩
  have hAfter : (items.filter fun i => start ≤ i.1 ∧ i.1 ≤ last).filter (fun i => !decide (i.1 ≤ start)) =
      items.filter fun i => ¬i.1 ≤ start ∧ i.1 ≤ last := by
    rw [List.filter_filter]
    refine List.filter_congr fun i _ => ?_
    rw [← decide_not, ← Bool.decide_and, decide_eq_decide]
    exact ⟨fun hi => ⟨hi.1, hi.2.2⟩, fun hi => ⟨hi.1, (Date.le_total start i.1).resolve_right hi.1, hi.2⟩⟩
  have hPerm := List.filter_append_perm (fun i : Date × Numeric => decide (i.1 ≤ start))
    (items.filter fun i => start ≤ i.1 ∧ i.1 ≤ last)
  rw [hDay, hAfter] at hPerm
  have hSum := (hPerm.map Prod.snd).sum_eq
  rw [List.map_append, List.sum_append] at hSum
  exact hSum.symm

/-! ### What the alerts cover -/

/-- The income after the first day and by the last. -/
def incomeAfter (db : Db) (org : Uuid) (start last : Date) : Numeric :=
  afterTotal (figureItems db org incomeAccounts .credit false) start last

/-- The call returns, and the alerts that it reports are those of the income of the half-open year up to
the day of the text. -/
def CoversYear (ref : TaxReference) (db : Db) (org : Uuid) (onDate : String) (vatThreshold mrp units : Int) : Prop :=
  ∃ alerts start last income, thresholdAlertsOn ref db org onDate = .ok alerts ∧
    castDate onDate = some last ∧ subtractOneYear last = some start ∧
    incomeAfter db org start last = .tiyn income ∧
    (∀ read, sumLineAmountTiyn db org incomeAccounts .credit start last false = .ok read →
      (alertArithmetic? read vatThreshold mrp units).isSome) ∧
    alerts.map (fun a => (a.kind, a.currentTiyn)) =
      (if vatThreshold * 9 ≤ income * 10 then [("vat_registration", income)] else []) ++
        if mrp * units * 9 ≤ income * 10 then [("snr_limit", income)] else []

/-- The alerts of two incomes are the same only if the incomes are, or both are below the margin. -/
theorem alerts_eq_iff {day rest vatThreshold snrThreshold : Int} (hDay : 0 ≤ day) :
    ((if vatThreshold * 9 ≤ (day + rest) * 10 then [("vat_registration", day + rest)] else []) ++
        (if snrThreshold * 9 ≤ (day + rest) * 10 then [("snr_limit", day + rest)] else []) =
      (if vatThreshold * 9 ≤ rest * 10 then [("vat_registration", rest)] else []) ++
        if snrThreshold * 9 ≤ rest * 10 then [("snr_limit", rest)] else []) ↔
    day = 0 ∨ (day + rest) * 10 < vatThreshold * 9 ∧ (day + rest) * 10 < snrThreshold * 9 := by
  constructor
  · intro h
    by_cases hZero : day = 0
    · exact .inl hZero
    · have hNe : day + rest ≠ rest := by omega
      refine .inr ⟨Int.not_le.mp fun hVat => ?_, Int.not_le.mp fun hSnr => ?_⟩
      · rw [if_pos hVat] at h
        split_ifs at h <;> simp_all
      · split_ifs at h <;> simp_all
  · rintro (rfl | ⟨hVat, hSnr⟩)
    · rw [Int.zero_add]
    · rw [if_neg (by omega), if_neg (by omega), if_neg (by omega), if_neg (by omega)]

section covers

variable {ref : TaxReference} {org : Uuid} {onDate : String} {last : Date} {vatThreshold mrp limit : Constant}
  {units : Int} (hDate : castDate onDate = some last)
  (hVat : constantOn ref "vat_threshold_tenge" last = some vatThreshold)
  (hMrp : constantOn ref "mrp" last = some mrp)
  (hLimit : constantOn ref "snr_income_limit_mrp" last = some limit)
  (hUnits : limit.valueUnits = some units)

include hDate in
theorem thresholdAlertsOn_eq {db : Db} {start : Date} (hStart : subtractOneYear last = some start) :
    thresholdAlertsOn ref db org onDate = thresholdAlerts ref db org last := by
  simp only [thresholdAlertsOn, castDate_subtractOneYearText hDate, hStart, hDate, orFail]
  rfl

include hVat hMrp hLimit hUnits in
/-- The alerts of the closed year, where its products fit. -/
theorem closedAlerts {db : Db} {start : Date} {income : Int}
    (hFit : AlertsFit income vatThreshold.valueTiyn mrp.valueTiyn units)
    (hStart : subtractOneYear last = some start) (hSum : incomeSum db org start last = .tiyn income) :
    ∃ alerts, thresholdAlerts ref db org last = .ok alerts ∧
      alerts.map (fun a => (a.kind, a.currentTiyn)) =
        (if vatThreshold.valueTiyn * 9 ≤ income * 10 then [("vat_registration", income)] else []) ++
          if mrp.valueTiyn * units * 9 ≤ income * 10 then [("snr_limit", income)] else [] := by
  have hCall := alerts_of_fit hVat hMrp hLimit hUnits hFit hStart hSum
  cases hAlerts : thresholdAlerts ref db org last with
  | error e =>
    rw [hAlerts] at hCall
    cases hCall
  | ok alerts =>
    rw [hAlerts] at hCall
    have hFigures := congrArg (List.map fun f : String × Int × Int => (f.1, f.2.1)) (Except.ok.inj hCall)
    rw [List.map_map] at hFigures
    refine ⟨alerts, rfl, hFigures.trans ?_⟩
    split_ifs <;> rfl

/-- The sum of the closed year, in a ledger that clients reach. -/
theorem closedYear {num : NumericText} {w : World} (hReach : Reachable num w) {start : Date}
    (hStart : subtractOneYear last = some start) {day rest : Int}
    (hDay : incomeSum w.db org start start = .tiyn day) (hRest : incomeAfter w.db org start last = .tiyn rest) :
    0 ≤ day ∧ incomeSum w.db org start last = .tiyn (day + rest) := by
  refine ⟨income_nonneg hReach hDay, ?_⟩
  rw [incomeSum, rangeTotal_split (subtractOneYear_le hStart)]
  exact congrArg₂ (· + ·) hDay hRest

include hDate hVat hMrp hLimit hUnits in
/-- Where the alerts cover the half-open year, its first day adds nothing that is reported. -/
theorem CoversYear.first_day {num : NumericText} {w : World} (hReach : Reachable num w)
    (h : CoversYear ref w.db org onDate vatThreshold.valueTiyn mrp.valueTiyn units) {start : Date} {day rest : Int}
    (hStart : subtractOneYear last = some start) (hDay : incomeSum w.db org start start = .tiyn day)
    (hRest : incomeAfter w.db org start last = .tiyn rest) :
    AlertsFit (day + rest) vatThreshold.valueTiyn mrp.valueTiyn units ∧
      (day = 0 ∨ (day + rest) * 10 < vatThreshold.valueTiyn * 9 ∧
        (day + rest) * 10 < mrp.valueTiyn * units * 9) := by
  obtain ⟨alerts, start', last', income, hCall, hLast, hStart', hAfter, hDefined, hAlerts⟩ := h
  obtain rfl := Option.some.inj (hDate.symm.trans hLast)
  obtain rfl := Option.some.inj (hStart.symm.trans hStart')
  obtain rfl : income = rest := Numeric.tiyn.inj (hAfter.symm.trans hRest)
  obtain ⟨hSign, hSum⟩ := closedYear hReach hStart hDay hRest
  rw [thresholdAlertsOn_eq hDate hStart] at hCall
  obtain ⟨read, hRead, hFits⟩ := income_of_alerts hVat hMrp hLimit hUnits hStart hCall
  obtain rfl := Numeric.tiyn.inj (hSum.symm.trans hRead)
  have hFit : AlertsFit (day + income) vatThreshold.valueTiyn mrp.valueTiyn units :=
    alertArithmetic?_isSome.mp (hDefined _ (income_cast.mpr ⟨hSum, hFits⟩))
  obtain ⟨alerts', hCall', hAlerts'⟩ := closedAlerts hVat hMrp hLimit hUnits hFit hStart hSum
  obtain rfl := Except.ok.inj (hCall.symm.trans hCall')
  exact ⟨hFit, (alerts_eq_iff hSign).mp (hAlerts'.symm.trans hAlerts)⟩

include hDate hVat hMrp hLimit hUnits in
/-- In every ledger that clients reach the alerts of a day cover the half-open year before it exactly
where the calendar has the day a year before, the products of the closed year fit, and that day has no
income or the closed year is below the margin of both thresholds. -/
theorem coversYear_iff {num : NumericText} {w : World} (hReach : Reachable num w) :
    CoversYear ref w.db org onDate vatThreshold.valueTiyn mrp.valueTiyn units ↔
      (2 ≤ last.year ∧ ¬(last.month = 2 ∧ last.day = 29)) ∧
      ∀ start day rest, subtractOneYear last = some start → incomeSum w.db org start start = .tiyn day →
        incomeAfter w.db org start last = .tiyn rest →
        AlertsFit (day + rest) vatThreshold.valueTiyn mrp.valueTiyn units ∧
          (day = 0 ∨ (day + rest) * 10 < vatThreshold.valueTiyn * 9 ∧
            (day + rest) * 10 < mrp.valueTiyn * units * 9) := by
  rw [← subtractOneYear_isSome]
  constructor
  · intro h
    refine ⟨?_, fun start day rest => h.first_day hDate hVat hMrp hLimit hUnits hReach⟩
    obtain ⟨alerts, start, last', income, -, hLast, hStart, -⟩ := h
    obtain rfl := Option.some.inj (hDate.symm.trans hLast)
    exact Option.isSome_of_eq_some hStart
  · rintro ⟨hSome, hCond⟩
    obtain ⟨start, hStart⟩ := Option.isSome_iff_exists.mp hSome
    obtain ⟨day, -, hDay⟩ := incomeSum_number hReach org start start
    obtain ⟨total, -, hTotal⟩ := incomeSum_number hReach org start last
    obtain ⟨rest, hRest⟩ : ∃ rest, incomeAfter w.db org start last = .tiyn rest := by
      rw [incomeSum, rangeTotal_split (subtractOneYear_le hStart)] at hTotal
      obtain ⟨_, rest, -, hRest, -⟩ := Numeric.add_eq_tiyn hTotal
      exact ⟨rest, hRest⟩
    obtain ⟨hSign, hSum⟩ := closedYear hReach hStart hDay hRest
    obtain ⟨hFit, hSame⟩ := hCond start day rest hStart hDay hRest
    obtain ⟨alerts, hCall, hAlerts⟩ := closedAlerts hVat hMrp hLimit hUnits hFit hStart hSum
    refine ⟨alerts, start, last, rest, ?_, hDate, hStart, hRest, fun read hRead => ?_, ?_⟩
    · rw [thresholdAlertsOn_eq hDate hStart, hCall]
    · obtain rfl := Numeric.tiyn.inj (hSum.symm.trans (income_cast.mp hRead).1)
      exact alertArithmetic?_isSome.mpr hFit
    · exact hAlerts.trans ((alerts_eq_iff hSign).mpr hSame)

end covers

/-- The day of the text "2026-03-01" and the one a year before. -/
theorem castDate_firstOfMarch : castDate "2026-03-01" = some .firstOfMarch := by decide

/-- The sale of 112.00 of that day raises no alert. -/
theorem coversYear_sale : ∃ w, Reachable .plain w ∧
    CoversYear reference2026 w.db 1 "2026-03-01" 4325000000 432500 600000 := by
  have hChecks : checkDraft saleStart saleRequest = .ok () := by decide +kernel
  obtain ⟨w, hReachable, hSums⟩ := @draftedAndPosted_reachable .plain saleRequest
    (fun db => incomeSum db 1 ⟨2025, 3, 1, by decide⟩ ⟨2025, 3, 1, by decide⟩ = .tiyn 0 ∧
      incomeAfter db 1 ⟨2025, 3, 1, by decide⟩ .firstOfMarch = .tiyn 11200) hChecks (by decide +kernel)
  simp only [decide_eq_true_eq] at hSums
  refine ⟨w, hReachable, (coversYear_iff castDate_firstOfMarch reference2026_vatThreshold reference2026_mrp
    reference2026_snrLimit rfl hReachable).mpr ⟨by decide, fun start day rest hStart hDay hRest => ?_⟩⟩
  obtain rfl := Option.some.inj (firstOfMarch_before.symm.trans hStart)
  obtain rfl : 0 = day := by simpa [hSums.1] using hDay
  obtain rfl : 11200 = rest := by simpa [hSums.2] using hRest
  decide

/-- A sale of 90% of the VAT threshold, a year to the day before 1 March 2026. -/
def anniversarySale : DraftRequest :=
  { saleRequest with
    entryDate := (subtractOneYear .firstOfMarch).getD .firstOfMarch
    lines := [⟨"1210", "debit", "38925000.00", none, none⟩, ⟨"6010", "credit", "38925000.00", none, none⟩] }

/-- It raises an alert on that day, though the year after it has no income; and on a leap day there is an
error whatever the ledger. -/
theorem anniversary_raises_alert : ∃ w, Reachable .plain w ∧
    incomeAfter w.db 1 ⟨2025, 3, 1, by decide⟩ .firstOfMarch = .tiyn 0 ∧
    ¬CoversYear reference2026 w.db 1 "2026-03-01" 4325000000 432500 600000 ∧
    thresholdAlertsOn reference2026 w.db 1 "2028-02-29" = .error .badDate := by
  have hChecks : checkDraft saleStart anniversarySale = .ok () := by decide +kernel
  obtain ⟨w, hReachable, hSums⟩ := @draftedAndPosted_reachable .plain anniversarySale
    (fun db => incomeSum db 1 ⟨2025, 3, 1, by decide⟩ ⟨2025, 3, 1, by decide⟩ = .tiyn 3892500000 ∧
      incomeAfter db 1 ⟨2025, 3, 1, by decide⟩ .firstOfMarch = .tiyn 0) hChecks (by decide +kernel)
  simp only [decide_eq_true_eq] at hSums
  have hLeapDay : castDate (subtractOneYearText "2028-02-29") = none := by
    rw [@castDate_subtractOneYearText _ ⟨2028, 2, 29, by decide⟩ (by decide)]
    decide
  refine ⟨w, hReachable, hSums.2, fun hCovers => ?_, by rw [thresholdAlertsOn, hLeapDay]; rfl⟩
  have hFirst := hCovers.first_day castDate_firstOfMarch reference2026_vatThreshold reference2026_mrp
    reference2026_snrLimit rfl hReachable firstOfMarch_before hSums.1 hSums.2
  exact absurd hFirst.2 (by decide)

end CyberAccountant.Tax
