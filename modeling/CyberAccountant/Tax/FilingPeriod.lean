import CyberAccountant.Tax.Filings
import Mathlib.Data.List.TakeWhile

/-! The period that a form declares and the period of the calculation that it is filed from. -/

namespace CyberAccountant.Tax

open CyberAccountant.Library CyberAccountant.Ledger CyberAccountant.Docgen CyberAccountant.Api.Validation
open CyberAccountant.Money (readDigits readDigits_toDigits)

/-! ### Texts of dates -/

theorem replicate_zeros_value (count : Nat) (digits : List Char) :
    Nat.ofDigitChars 10 (List.replicate count '0' ++ digits) 0 = Nat.ofDigitChars 10 digits 0 := by
  induction count with
  | zero => rfl
  | succ count ih => simpa [List.replicate_succ, Nat.ofDigitChars_cons] using ih

/-- The digits of a year in a date. -/
def yearDigits (year : Nat) : List Char :=
  List.replicate (4 - (Nat.toDigits 10 year).length) '0' ++ Nat.toDigits 10 year

theorem yearDigits_length {year : Nat} (h : year < 10000) : (yearDigits year).length = 4 := by
  have hLe : (Nat.toDigits 10 year).length ≤ 4 :=
    (Nat.length_toDigits_le_iff (by decide) (by decide)).mpr h
  simp only [yearDigits, List.length_append, List.length_replicate]
  omega

theorem readDigits_yearDigits (year : Nat) : readDigits (yearDigits year) = some year := by
  have hDigits : (yearDigits year).all Char.isDigit := by
    have hYear := toDigits_all_isDigit year
    rw [yearDigits, List.all_append, hYear, Bool.and_true]
    simp
  have hSome : yearDigits year ≠ [] := List.append_ne_nil_of_right_ne_nil _ Nat.toDigits_ne_nil
  rw [readDigits, if_pos ⟨hSome, hDigits⟩, yearDigits, replicate_zeros_value, Nat.ofDigitChars_ten_toDigits]

theorem dateText_toList (d : Date) :
    (dateText d).toList = yearDigits d.year ++ '-' :: (twoDigits d.month ++ '-' :: twoDigits d.day) := by
  simp [dateText, yearDigits]

theorem yearOf_dateText {d : Date} (h : d.year < 10000) : yearOf (dateText d) = String.ofList (yearDigits d.year) := by
  rw [yearOf, dateText_toList, List.take_append_of_le_length (by rw [yearDigits_length h]),
    List.take_of_length_le (by rw [yearDigits_length h])]

theorem twoDigits_length_date (d : Date) : (twoDigits d.month).length = 2 := by
  obtain ⟨-, -, hMonth, -⟩ := d.calendar
  exact twoDigits_length (by omega)

/-- The month is read where it stands. -/
theorem stoiMonth_dateText {d : Date} (h : d.year < 10000) : stoiMonth (dateText d) = some d.month := by
  have hMonth : ((dateText d).toList.drop 5).take 2 = twoDigits d.month := by
    rw [dateText_toList, List.append_cons, List.drop_append_of_le_length (by simp [yearDigits_length h]),
      List.drop_of_length_le (by simp [yearDigits_length h]), List.nil_append,
      List.take_append_of_le_length (by rw [twoDigits_length_date d]),
      List.take_of_length_le (by rw [twoDigits_length_date d])]
  have hDigits : (twoDigits d.month).takeWhile Char.isDigit = twoDigits d.month :=
    List.takeWhile_eq_self_iff.mpr (List.all_eq_true.mp (twoDigits_digits d.month))
  have hSome : twoDigits d.month ≠ [] := fun hNone => by
    have hLength := twoDigits_length_date d
    rw [hNone] at hLength
    cases hLength
  simp only [stoiMonth, hMonth, hDigits, if_neg hSome, twoDigits_value]

theorem dateText_length {d : Date} (h : d.year < 10000) : 7 ≤ (dateText d).length := by
  rw [← String.length_toList, dateText_toList]
  simp only [List.length_append, List.length_cons, yearDigits_length h, twoDigits_length_date]
  omega

theorem monthOf_dateText {d : Date} (h : d.year < 10000) : monthOf (dateText d) = d.month := by
  have hLength := dateText_length h
  rw [monthOf, if_neg (by omega), stoiMonth_dateText h]
  rfl

theorem quarterFromPeriodFrom_dateText {d : Date} (h : d.year < 10000) :
    Fno300.quarterFromPeriodFrom (dateText d) = .ok ((d.month - 1) / 3 + 1) := by
  simp [Fno300.quarterFromPeriodFrom, dateText_length h, stoiMonth_dateText h]

/-! ### Declared periods -/

/-- The months of the period of a form: a half-year or a quarter. -/
def FilingKind.months : FilingKind → Nat
  | .fno910 => 6
  | .fno300 => 3

/-- The field of the sheet with the number of the period. -/
def FilingKind.ordinalField : FilingKind → String
  | .fno910 => "period_half_year"
  | .fno300 => "period_quarter"

/-- The key of the printed form's input with the number of the period. -/
def FilingKind.ordinalKey : FilingKind → String
  | .fno910 => "half"
  | .fno300 => "quarter"

/-- The first and the last day of the `ordinal`-th period of a year. -/
def periodRange (months year ordinal : Nat) : Option (Date × Date) :=
  let lastMonth := ordinal * months
  if h : IsCalendarDay year (lastMonth - months + 1) 1 ∧
      IsCalendarDay year lastMonth (daysInMonth year lastMonth) then
    some (⟨year, lastMonth - months + 1, 1, h.1⟩, ⟨year, lastMonth, daysInMonth year lastMonth, h.2⟩)
  else none

/-- The days that a year and a number say, as the form prints them. -/
def FilingKind.rangeOf (kind : FilingKind) (declared : String × String) : Option (Date × Date) := do
  let year ← readDigits declared.1.toList
  let ordinal ← readDigits declared.2.toList
  periodRange kind.months year ordinal

/-- The year and the number of the period in the XML. -/
def Filing.xmlPeriod (filing : Filing) : Option (String × String) := do
  let year ← filing.xml.field? "period_year"
  let ordinal ← filing.xml.field? filing.kind.ordinalField
  pure (year, ordinal)

def textAt (j : Json) (path : List String) : Option String :=
  match j.at? path with
  | some (.str text) => some text
  | _ => none

/-- The year and the number of the period in the input of the printed form. -/
def Filing.printedPeriod (filing : Filing) : Option (String × String) := do
  let year ← textAt filing.input ["period", "year"]
  let ordinal ← textAt filing.input ["period", filing.kind.ordinalKey]
  pure (year, ordinal)

/-- Both declare exactly the days of the calculation. -/
def Filing.PeriodFiled (filing : Filing) : Prop :=
  filing.xmlPeriod.bind filing.kind.rangeOf = some (filing.periodFrom, filing.periodTo) ∧
    filing.printedPeriod.bind filing.kind.rangeOf = some (filing.periodFrom, filing.periodTo)

/-- The days are the first and the last of one half-year, or of one quarter. -/
def FilingKind.WholePeriod (kind : FilingKind) (periodFrom periodTo : Date) : Prop :=
  periodFrom.day = 1 ∧ (periodFrom.month - 1) % kind.months = 0 ∧ periodTo.year = periodFrom.year ∧
    periodTo.month + 1 = periodFrom.month + kind.months ∧ periodTo.day = daysInMonth periodTo.year periodTo.month

/-- The number of the period in which a month lies. -/
def FilingKind.ordinal (kind : FilingKind) (month : Nat) : Nat := (month - 1) / kind.months + 1

theorem date_ext {d e : Date} (hYear : d.year = e.year) (hMonth : d.month = e.month) (hDay : d.day = e.day) :
    d = e := by
  cases d
  cases e
  simp_all

/-- The period in which the first day lies has exactly these days where they are a whole one. -/
theorem periodRange_ordinal {kind : FilingKind} {periodFrom periodTo : Date} :
    periodRange kind.months periodFrom.year (kind.ordinal periodFrom.month) = some (periodFrom, periodTo) ↔
      kind.WholePeriod periodFrom periodTo := by
  obtain ⟨hYear, hFirst, hLast, -, -⟩ := periodFrom.calendar
  have hMonths : kind.ordinal periodFrom.month * kind.months ≤ 12 ∧ 1 ≤ kind.months ∧
      kind.ordinal periodFrom.month * kind.months - kind.months + 1 + (periodFrom.month - 1) % kind.months =
        periodFrom.month ∧ kind.months ≤ kind.ordinal periodFrom.month * kind.months := by
    cases kind <;> simp only [FilingKind.ordinal, FilingKind.months] <;> omega
  obtain ⟨hTwelve, hOne, hStart, hAbove⟩ := hMonths
  have hDays : ∀ month, 1 ≤ daysInMonth periodFrom.year month := by
    intro month
    unfold daysInMonth
    split_ifs <;> decide
  have hRange : IsCalendarDay periodFrom.year
        (kind.ordinal periodFrom.month * kind.months - kind.months + 1) 1 ∧
      IsCalendarDay periodFrom.year (kind.ordinal periodFrom.month * kind.months)
        (daysInMonth periodFrom.year (kind.ordinal periodFrom.month * kind.months)) :=
    ⟨⟨hYear, by omega, by omega, Nat.le_refl 1, hDays _⟩, ⟨hYear, by omega, hTwelve, hDays _, Nat.le_refl _⟩⟩
  unfold periodRange
  rw [dif_pos hRange, Option.some.injEq, Prod.mk.injEq]
  constructor
  · rintro ⟨hFromEq, hToEq⟩
    have hDay := congrArg Date.day hFromEq
    have hMonth := congrArg Date.month hFromEq
    dsimp only at hDay hMonth
    subst hToEq
    exact ⟨hDay.symm, by omega, rfl, by dsimp only; omega, rfl⟩
  · rintro ⟨hDay, hWhole, hSameYear, hEnd, hEndDay⟩
    have hEndMonth : periodTo.month = kind.ordinal periodFrom.month * kind.months := by omega
    refine ⟨date_ext rfl (by dsimp only; omega) hDay.symm, date_ext hSameYear.symm hEndMonth.symm ?_⟩
    dsimp only
    rw [hEndDay, hSameYear, hEndMonth]

/-! ### What a filing declares -/

theorem readDigits_toString (n : Nat) : readDigits (toString n).toList = some n := by
  rw [Nat.toString_eq_ofList_toDigits, String.toList_ofList, readDigits_toDigits]

/-- The year and the number of the period of a day, as they are written. -/
def FilingKind.declared (kind : FilingKind) (day : Date) : String × String :=
  (String.ofList (yearDigits day.year), toString (kind.ordinal day.month))

theorem rangeOf_declared (kind : FilingKind) (day : Date) :
    kind.rangeOf (kind.declared day) = periodRange kind.months day.year (kind.ordinal day.month) := by
  simp only [FilingKind.rangeOf, FilingKind.declared, readDigits_toString, String.toList_ofList,
    readDigits_yearDigits, Option.bind_eq_bind, Option.bind_some]

theorem halfOf_dateText {d : Date} (h : d.year < 10000) : halfOf (dateText d) = FilingKind.fno910.ordinal d.month := by
  obtain ⟨-, hFirst, hLast, -⟩ := d.calendar
  rw [halfOf, monthOf_dateText h]
  simp only [FilingKind.ordinal, FilingKind.months]
  split_ifs <;> omega

theorem quarterOf_dateText {d : Date} (h : d.year < 10000) :
    quarterOf (dateText d) = FilingKind.fno300.ordinal d.month := by
  rw [quarterOf, monthOf_dateText h]
  rfl

variable {filing : Filing} {row : Calculation} {organization : Organization} {today : Date}

/-- The XML declares the period of the first day. -/
theorem xmlPeriod_eq (hYear : row.periodFrom.year < 10000) (h : filing.Of row organization today) :
    filing.xmlPeriod = some (filing.kind.declared row.periodFrom) := by
  have hXml := h.xml
  unfold Filing.xmlPeriod FilingKind.declared
  cases hKind : filing.kind with
  | fno910 =>
    rw [hKind] at hXml
    simp only [buildFormXml, Fno910.buildXml, bind_eq_ok, ensure_eq_ok, pure_eq_ok, exists_const] at hXml
    obtain ⟨-, -, hXml⟩ := hXml
    rw [← hXml]
    simp [Fno.field?, FnoXml.identityFields, FilingKind.ordinalField, orgInfoFor, yearOf_dateText hYear,
      halfOf_dateText hYear]
  | fno300 =>
    rw [hKind] at hXml
    simp only [buildFormXml, Fno300.buildXml, bind_eq_ok, ensure_eq_ok, pure_eq_ok, exists_const,
      quarterFromPeriodFrom_dateText hYear, Except.ok.injEq, exists_eq_left'] at hXml
    obtain ⟨-, -, hXml⟩ := hXml
    rw [← hXml]
    simp [Fno.field?, FnoXml.identityFields, FilingKind.ordinalField, orgInfoFor, yearOf_dateText hYear,
      FilingKind.ordinal, FilingKind.months]

theorem allowedExtraFields_plain (kind : FilingKind) : ∀ a ∈ kind.allowedExtraFields, '.' ∉ a.toList := by
  cases kind <;> decide +kernel

/-- The input of a form before the client's fields, with its period. -/
theorem buildFormInput_period {kind : FilingKind} {base : Json} (hYear : row.periodFrom.year < 10000)
    (h : buildFormInput kind row organization today = .ok base) :
    ∃ ms, base = .obj ms ∧ textAt base ["period", "year"] = some (kind.declared row.periodFrom).1 ∧
      textAt base ["period", kind.ordinalKey] = some (kind.declared row.periodFrom).2 := by
  cases kind with
  | fno910 =>
    simp only [buildFormInput, bind_eq_ok, pure_eq_ok] at h
    obtain ⟨_, -, _, -, _, -, _, -, _, -, rfl⟩ := h
    refine ⟨_, rfl, ?_⟩
    simp [textAt, Json.at?_cons, Json.member, Json.members, FilingKind.ordinalKey, FilingKind.declared,
      yearOf_dateText hYear, halfOf_dateText hYear]
  | fno300 =>
    simp only [buildFormInput, bind_eq_ok, pure_eq_ok] at h
    obtain ⟨_, -, _, -, _, -, _, -, _, -, _, -, _, -, _, -, _, -, rfl⟩ := h
    refine ⟨_, rfl, ?_⟩
    simp [textAt, Json.at?_cons, Json.member, Json.members, FilingKind.ordinalKey, FilingKind.declared,
      yearOf_dateText hYear, quarterOf_dateText hYear]

/-- The printed form declares the same period. -/
theorem printedPeriod_eq (hYear : row.periodFrom.year < 10000) (h : filing.Of row organization today) :
    filing.printedPeriod = some (filing.kind.declared row.periodFrom) := by
  obtain ⟨base, extra, hBase, hMerge⟩ := h.input
  obtain ⟨ms, rfl, hYearText, hOrdinalText⟩ := buildFormInput_period hYear hBase
  have hPlain := allowedExtraFields_plain filing.kind
  have hOther : "period" ∉ filing.kind.allowedExtraFields := by
    cases filing.kind <;> decide
  have hKept : ∀ key, textAt filing.input ["period", key] = textAt (.obj ms) ["period", key] := fun key => by
    unfold textAt
    rw [mergeAllowedExtra_at? hPlain hMerge (by decide) hOther]
  unfold Filing.printedPeriod
  rw [hKept, hKept, hYearText, hOrdinalText]
  rfl

/-! ### The theorem -/

/-- A filing that some request has been answered with, over a table that requests for calculations have
made. -/
def Filing.Accepted (filing : Filing) : Prop :=
  ∃ env calculations organizations org body, TableReached calculations ∧
    createFiling env calculations organizations org body = .ok filing

/-- The figures of the calculation that is filed were summed over the days of the filing. -/
def Filing.Summed (filing : Filing) : Prop :=
  ∃ row organization today, filing.Of row organization today ∧
    row.SummedOver filing.periodFrom filing.periodTo

theorem Filing.Accepted.of (h : filing.Accepted) :
    ∃ row organization today, filing.Of row organization today ∧ row.Recorded := by
  obtain ⟨env, calculations, organizations, org, body, hTable, hFiling⟩ := h
  obtain ⟨row, hRow, organization, hOf⟩ := createFiling_ok hFiling
  exact ⟨row, organization, env.today, hOf, hTable.recorded row hRow⟩

/-- What a filing declares, in both forms. -/
theorem Filing.Accepted.declared (h : filing.Accepted) :
    filing.xmlPeriod = some (filing.kind.declared filing.periodFrom) ∧
      filing.printedPeriod = some (filing.kind.declared filing.periodFrom) := by
  obtain ⟨row, organization, today, hOf, hRow⟩ := h.of
  rw [hOf.periodFrom]
  exact ⟨xmlPeriod_eq hRow.yearFrom hOf, printedPeriod_eq hRow.yearFrom hOf⟩

theorem Filing.Accepted.summed (h : filing.Accepted) : filing.Summed := by
  obtain ⟨row, organization, today, hOf, hRow⟩ := h.of
  refine ⟨row, organization, today, hOf, ?_⟩
  rw [hOf.periodFrom, hOf.periodTo]
  exact hRow.summed

theorem Filing.Accepted.periodFiled_iff (h : filing.Accepted) :
    filing.PeriodFiled ↔ filing.kind.WholePeriod filing.periodFrom filing.periodTo := by
  obtain ⟨hXml, hPrinted⟩ := h.declared
  rw [Filing.PeriodFiled, hXml, hPrinted, Option.bind_some, rangeOf_declared, periodRange_ordinal, and_self]

/-- A filing declares exactly the days over which its figures were summed if and only if these are a whole
period of its form, and then no other filing declares the same for other days. -/
theorem filed_period_iff (h : filing.Accepted) :
    filing.Summed ∧
    (filing.PeriodFiled ↔ filing.kind.WholePeriod filing.periodFrom filing.periodTo) ∧
    ∀ other : Filing, other.Accepted → other.kind = filing.kind →
      filing.kind.WholePeriod filing.periodFrom filing.periodTo →
      other.kind.WholePeriod other.periodFrom other.periodTo →
      (other.xmlPeriod = filing.xmlPeriod ∨ other.printedPeriod = filing.printedPeriod) →
      other.periodFrom = filing.periodFrom ∧ other.periodTo = filing.periodTo := by
  refine ⟨h.summed, h.periodFiled_iff, fun other hOther hKind hWhole hOtherWhole hSame => ?_⟩
  obtain ⟨hXml, hPrinted⟩ := h.periodFiled_iff.mpr hWhole
  obtain ⟨hOtherXml, hOtherPrinted⟩ := hOther.periodFiled_iff.mpr hOtherWhole
  have hDays : some (other.periodFrom, other.periodTo) = some (filing.periodFrom, filing.periodTo) := by
    rcases hSame with hSame | hSame
    · rw [← hXml, ← hOtherXml, hSame, hKind]
    · rw [← hPrinted, ← hOtherPrinted, hSame, hKind]
  exact Prod.mk.inj (Option.some.inj hDays)

/-! ### Two calculations that begin on one day -/

/-- The request for a calculation of VAT. -/
def vatRequest (periodFrom periodTo : String) : Json :=
  .obj [("kind", .str "vat"), ("period_from", .str periodFrom), ("period_to", .str periodTo)]

/-- The request to file form 300.00 from a calculation. -/
def filingRequest (calculationId : String) : Json :=
  .obj
    [("calculation_id", .str calculationId),
      ("document_input", .obj [("accountant", .str "A. Accountant"), ("director", .str "D. Director")]),
      ("kind", .str "300.00")]

/-- April 2026, with the template of form 300.00; the ids are their numbers. -/
def aprilEnv : FilingEnv where
  today := ⟨2026, 4, 20, by decide⟩
  registry := [⟨"fno_300", "v1", some "template", some (.ok (.obj []))⟩]
  validateAgainst _ _ := none
  storageReady := true
  jobsReady := true
  readUuid text := readDigits text.toList
  uuidText id := toString id

/-- A sale of the first of March is filed from a calculation up to the middle of February, and from one of
the whole quarter. -/
def filedTwice : Except Refusal (Filing × Filing) := do
  let ledger := soleLedger [soleLine 11 "6010" .credit none]
  let organizations := [Organization.mk 1 "123456789012" "Organisation"]
  let short ← createCalculation ⟨[], []⟩ ledger [] 1 20 (vatRequest "2026-01-01" "2026-02-15")
  let whole ← createCalculation ⟨[], []⟩ ledger short.2 1 21 (vatRequest "2026-01-01" "2026-03-31")
  let shortFiling ← createFiling aprilEnv whole.2 organizations 1 (filingRequest "20")
  let wholeFiling ← createFiling aprilEnv whole.2 organizations 1 (filingRequest "21")
  pure (shortFiling, wholeFiling)

theorem filedTwice_run : ∃ short whole : Filing, short.Accepted ∧ whole.Accepted ∧
    short.kind = .fno300 ∧ whole.kind = .fno300 ∧
    short.xmlPeriod = some ("2026", "1") ∧ whole.xmlPeriod = some ("2026", "1") ∧
    short.printedPeriod = whole.printedPeriod ∧
    short.periodTo = ⟨2026, 2, 15, by decide⟩ ∧ whole.periodTo = ⟨2026, 3, 31, by decide⟩ ∧
    textAt short.input ["sales_tenge"] = some "0,00" ∧ textAt whole.input ["sales_tenge"] = some "112,00" := by
  have hRun : yields filedTwice (fun (short, whole) =>
      short.kind = .fno300 ∧ whole.kind = .fno300 ∧ short.xmlPeriod = some ("2026", "1") ∧
      whole.xmlPeriod = some ("2026", "1") ∧ short.printedPeriod = whole.printedPeriod ∧
      short.periodTo = ⟨2026, 2, 15, by decide⟩ ∧ whole.periodTo = ⟨2026, 3, 31, by decide⟩ ∧
      textAt short.input ["sales_tenge"] = some "0,00" ∧
      textAt whole.input ["sales_tenge"] = some "112,00") = true := by decide +kernel
  obtain ⟨⟨short, whole⟩, hOk, hChecked⟩ := of_yields hRun
  simp only [filedTwice, bind_eq_ok, pure_eq_ok, Prod.mk.injEq, Prod.exists] at hOk
  obtain ⟨_, _, hFirst, _, _, hSecond, _, hShort, _, hWhole, rfl, rfl⟩ := hOk
  have hTable := (TableReached.empty.create hFirst).create hSecond
  exact ⟨_, _, ⟨_, _, _, _, _, hTable, hShort⟩, ⟨_, _, _, _, _, hTable, hWhole⟩, by simpa using hChecked⟩

/-- The filing of the whole quarter. -/
theorem filed_period_iff_quarter : ∃ filing : Filing, filing.Accepted ∧
    filing.periodTo = ⟨2026, 3, 31, by decide⟩ ∧ filing.Summed ∧
    (filing.PeriodFiled ↔ filing.kind.WholePeriod filing.periodFrom filing.periodTo) := by
  obtain ⟨_, whole, -, hWhole, -, -, -, -, -, -, hTo, -⟩ := filedTwice_run
  have hFiled := filed_period_iff hWhole
  exact ⟨whole, hWhole, hTo, hFiled.1, hFiled.2.1⟩

/-- Two filings of form 300.00 declare the first quarter, and the figures of one of them end on the
fifteenth of February. -/
theorem filed_period_misdeclared : ∃ short whole : Filing, short.Accepted ∧ whole.Accepted ∧
    short.kind = whole.kind ∧ short.xmlPeriod = whole.xmlPeriod ∧ short.printedPeriod = whole.printedPeriod ∧
    short.periodTo ≠ whole.periodTo ∧ ¬ short.PeriodFiled := by
  obtain ⟨short, whole, hShort, hWhole, hShortKind, hWholeKind, hShortXml, hWholeXml, hPrinted, hShortTo, hWholeTo,
    -, -⟩ := filedTwice_run
  refine ⟨short, whole, hShort, hWhole, hShortKind.trans hWholeKind.symm, hShortXml.trans hWholeXml.symm,
    hPrinted, ?_, ?_⟩
  · rw [hShortTo, hWholeTo]
    decide
  · rintro ⟨hXml, -⟩
    have hQuarter : (FilingKind.fno300.rangeOf ("2026", "1")).map Prod.snd =
        some ⟨2026, 3, 31, by decide⟩ := by decide +kernel
    rw [hShortXml, hShortKind, hShortTo, Option.bind_some] at hXml
    simp [hXml] at hQuarter

end CyberAccountant.Tax
