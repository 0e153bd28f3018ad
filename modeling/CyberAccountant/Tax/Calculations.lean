import CyberAccountant.Api.Fields
import CyberAccountant.Tax.FnoXml

/-! The table `tax_calculations`: a request for a calculation, and what every row of the table is after
any number of them. -/

namespace CyberAccountant.Tax

open CyberAccountant.Library CyberAccountant.Ledger CyberAccountant.Api.Validation

def snrInput (c : SnrCalculation) : Json :=
  .obj
    [("income_accounts", .arr (incomeAccounts.map .str)), ("period_from", .str (dateText c.periodFrom)),
      ("period_to", .str (dateText c.periodTo)), ("rate_bp", .int c.rateBp),
      ("rate_effective_from", .str (dateText c.rateEffectiveFrom))]

def snrResult (c : SnrCalculation) : List (String × Int) :=
  [("income_tiyn", c.incomeTiyn), ("rate_bp", c.rateBp), ("tax_tiyn", c.taxTiyn)]

def vatInput (c : VatCalculation) : Json :=
  .obj
    ([("deductible_accounts", .arr (vatDeductibleAccounts.map .str)),
      ("income_accounts", .arr (incomeAccounts.map .str)), ("period_from", .str (dateText c.periodFrom)),
      ("period_to", .str (dateText c.periodTo))] ++
      (c.vatRateBp.map fun bp => ("vat_rate_bp", Json.int bp)).toList)

def vatResult (c : VatCalculation) : List (String × Int) :=
  [("accrued_tiyn", c.accruedTiyn), ("balance_tiyn", c.balanceTiyn), ("deductible_tiyn", c.deductibleTiyn),
    ("income_tiyn", c.incomeTiyn)]

/-- `UNIQUE (org_id, kind, period_from, period_to)`. -/
def Calculation.SameKey (a b : Calculation) : Prop :=
  a.orgId = b.orgId ∧ a.kind = b.kind ∧ a.periodFrom = b.periodFrom ∧ a.periodTo = b.periodTo

instance (a b : Calculation) : Decidable (a.SameKey b) := inferInstanceAs (Decidable (_ ∧ _))

/-- `ON CONFLICT DO UPDATE`: a row of the same key takes the snapshots and the total and keeps its id. -/
def upsert (table : List Calculation) (row : Calculation) : Calculation × List Calculation :=
  match table.find? (·.SameKey row) with
  | none => (row, table ++ [row])
  | some old => ({ row with id := old.id }, table.map fun r => if r.SameKey row then { row with id := r.id } else r)

def TaxError.refusal : TaxError → Refusal
  | .missingReference what => .unprocessable [⟨"period_to", "missing_tax_reference", what⟩]
  | .notBigint | .badDate => .internalError

/-- The row that `calculate_snr` or `calculate_vat` writes. -/
def calculate (ref : TaxReference) (db : Db) (kind : CalculationKind) (fresh org : Uuid)
    (periodFrom periodTo : Date) : Except TaxError Calculation :=
  match kind with
  | .snrSimplified => do
    let c ← calculateSnr ref db org periodFrom periodTo
    pure ⟨fresh, org, .snrSimplified, periodFrom, periodTo, snrInput c, snrResult c, c.taxTiyn⟩
  | .vat => do
    let c ← calculateVat ref db org periodFrom periodTo
    pure ⟨fresh, org, .vat, periodFrom, periodTo, vatInput c, vatResult c, c.balanceTiyn⟩

def allowedCalculationKinds : List String := ["snr_simplified", "vat"]

/-- The checks of values that are texts. -/
def calculationFaults (kind periodFrom periodTo : String) : List FieldError :=
  oneOf "kind" kind allowedCalculationKinds ++
    (if isValidDate periodFrom then []
      else [⟨"period_from", "invalid_date", "must be a calendar-valid YYYY-MM-DD date"⟩]) ++
    (if isValidDate periodTo then []
      else [⟨"period_to", "invalid_date", "must be a calendar-valid YYYY-MM-DD date"⟩]) ++
    if isValidDate periodFrom ∧ isValidDate periodTo ∧ periodTo < periodFrom then
      [⟨"period_to", "before_period_from", "period_to must be on or after period_from"⟩]
    else []

/-- `POST /tax/calculations`: the row, and the table with it.  `fresh` is the id that the database would
give a new row. -/
def createCalculation (ref : TaxReference) (db : Db) (table : List Calculation) (org fresh : Uuid) (body : Json) :
    Except Refusal (Calculation × List Calculation) := do
  let errors := require body "kind" ++ require body "period_from" ++ require body "period_to" ++
    requireString body "kind" ++ requireString body "period_from" ++ requireString body "period_to"
  ensure (errors = []) (.badRequest errors)
  let kind := (stringField body "kind").getD ""
  let periodFrom := (stringField body "period_from").getD ""
  let periodTo := (stringField body "period_to").getD ""
  let faults := calculationFaults kind periodFrom periodTo
  ensure (faults = []) (.unprocessable faults)
  -- The database casts the texts; a year 0 is a text that passes and no date.
  let first ← orFail .internalError (castDate periodFrom)
  let last ← orFail .internalError (castDate periodTo)
  let kind := if kind = "snr_simplified" then CalculationKind.snrSimplified else .vat
  let row ← (calculate ref db kind fresh org first last).mapError TaxError.refusal
  ensure (row.periodFrom ≤ row.periodTo) .internalError
  pure (upsert table row)

/-- The tables that requests for calculations lead to, each over the ledger and the reference data of its
moment; the rows of an organisation go with it. -/
inductive TableReached : List Calculation → Prop
  | empty : TableReached []
  | create {table table' : List Calculation} {ref : TaxReference} {db : Db} {org fresh : Uuid} {body : Json}
      {row : Calculation} : TableReached table →
      createCalculation ref db table org fresh body = .ok (row, table') → TableReached table'
  | dropOrganization {table : List Calculation} (org : Uuid) : TableReached table →
      TableReached (table.filter (·.orgId ≠ org))

/-- The figures of a row are those of some ledger over the period of the row. -/
def Calculation.SummedOver (row : Calculation) (periodFrom periodTo : Date) : Prop :=
  match row.kind with
  | .snrSimplified => ∃ ref db c, calculateSnr ref db row.orgId periodFrom periodTo = .ok c ∧
      row.resultSnapshot = snrResult c ∧ row.totalTiyn = c.taxTiyn
  | .vat => ∃ ref db c, calculateVat ref db row.orgId periodFrom periodTo = .ok c ∧
      row.resultSnapshot = vatResult c ∧ row.totalTiyn = c.balanceTiyn

/-- What every row of the table is. -/
structure Calculation.Recorded (row : Calculation) : Prop where
  summed : row.SummedOver row.periodFrom row.periodTo
  ordered : row.periodFrom ≤ row.periodTo
  yearFrom : row.periodFrom.year < 10000
  yearTo : row.periodTo.year < 10000

theorem calculate_ok {ref : TaxReference} {db : Db} {kind : CalculationKind} {fresh org : Uuid}
    {periodFrom periodTo : Date} {row : Calculation}
    (h : calculate ref db kind fresh org periodFrom periodTo = .ok row) :
    row.SummedOver periodFrom periodTo ∧ row.periodFrom = periodFrom ∧ row.periodTo = periodTo := by
  cases kind with
  | snrSimplified =>
    simp only [calculate, bind_eq_ok, pure_eq_ok] at h
    obtain ⟨c, hFigures, rfl⟩ := h
    exact ⟨⟨ref, db, c, hFigures, rfl, rfl⟩, rfl, rfl⟩
  | vat =>
    simp only [calculate, bind_eq_ok, pure_eq_ok] at h
    obtain ⟨c, hFigures, rfl⟩ := h
    exact ⟨⟨ref, db, c, hFigures, rfl, rfl⟩, rfl, rfl⟩

theorem Calculation.Recorded.withId {row : Calculation} (h : row.Recorded) (id : Uuid) :
    { row with id := id }.Recorded where
  summed := h.summed
  ordered := h.ordered
  yearFrom := h.yearFrom
  yearTo := h.yearTo

/-- A row of the table after an upsert is the new one, up to its id, or was there. -/
theorem upsert_mem {table : List Calculation} {row r : Calculation} (h : r ∈ (upsert table row).2) :
    (∃ id, r = { row with id := id }) ∨ r ∈ table := by
  unfold upsert at h
  split at h
  · rcases List.mem_append.mp h with hOld | hNew
    · exact .inr hOld
    · exact .inl ⟨row.id, List.mem_singleton.mp hNew⟩
  · obtain ⟨old, hOld, hRow⟩ := List.mem_map.mp h
    split_ifs at hRow with hSame
    · exact .inl ⟨old.id, hRow.symm⟩
    · exact .inr (hRow ▸ hOld)

/-- A request that succeeds upserts a recorded row. -/
theorem createCalculation_ok {ref : TaxReference} {db : Db} {table table' : List Calculation} {org fresh : Uuid}
    {body : Json} {row : Calculation} (h : createCalculation ref db table org fresh body = .ok (row, table')) :
    ∃ written : Calculation, written.Recorded ∧ table' = (upsert table written).2 := by
  simp only [createCalculation, bind_eq_ok, ensure_eq_ok, orFail_eq_ok, mapError_eq_ok, pure_eq_ok,
    exists_const] at h
  obtain ⟨-, -, first, hFirst, last, hLast, written, hWritten, hOrdered, hUpsert⟩ := h
  obtain ⟨hSummed, hFrom, hTo⟩ := calculate_ok hWritten
  refine ⟨written, ⟨?_, hOrdered, ?_, ?_⟩, by rw [hUpsert]⟩
  · rwa [hFrom, hTo]
  · rw [hFrom]
    exact castDate_year hFirst
  · rw [hTo]
    exact castDate_year hLast

/-- Every row is recorded, whatever was calculated again. -/
theorem TableReached.recorded {table : List Calculation} (h : TableReached table) : ∀ row ∈ table, row.Recorded := by
  induction h with
  | empty => exact fun row hRow => absurd hRow List.not_mem_nil
  | create _ hCreate ih =>
    intro r hMem
    obtain ⟨written, hWritten, rfl⟩ := createCalculation_ok hCreate
    rcases upsert_mem hMem with ⟨id, rfl⟩ | hOld
    · exact hWritten.withId id
    · exact ih r hOld
  | dropOrganization org _ ih => exact fun row hRow => ih row (List.mem_filter.mp hRow).1

end CyberAccountant.Tax
