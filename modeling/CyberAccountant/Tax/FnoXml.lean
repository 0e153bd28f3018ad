import CyberAccountant.Library.Json
import CyberAccountant.Tax.Figures

/-! The XML of the two tax forms.  A form is kept as its elements; `Fno.text` writes them down as the
generators do. -/

namespace CyberAccountant.Tax

open CyberAccountant.Library CyberAccountant.Ledger

inductive CalculationKind where
  | snrSimplified
  | vat
  deriving DecidableEq

def CalculationKind.text : CalculationKind → String
  | .snrSimplified => "snr_simplified"
  | .vat => "vat"

/-- A row of `tax_calculations`; the snapshots are objects, and all that a result holds is integers. -/
structure Calculation where
  id : Uuid
  orgId : Uuid
  kind : CalculationKind
  periodFrom : Date
  periodTo : Date
  inputSnapshot : Json
  resultSnapshot : List (String × Int)
  totalTiyn : Int

def snapshotInt (row : Calculation) (key : String) : Option Int := row.resultSnapshot.lookup key

/-- `result_snapshot.value(key, 0LL)`. -/
def snapshotValue (row : Calculation) (key : String) : Int := (snapshotInt row key).getD 0

/-- Who files, and for which period: for form 300.00 the half is the quarter. -/
structure OrgInfo where
  orgId : Uuid
  bin : String
  name : String
  taxPeriodYear : String
  taxPeriodHalf : String

namespace FnoXml

def escapeChar : Char → String
  | '&' => "&amp;"
  | '<' => "&lt;"
  | '>' => "&gt;"
  | '"' => "&quot;"
  | '\'' => "&apos;"
  | c => String.ofList [c]

def escape (text : String) : String := text.toList.foldl (fun out c => out ++ escapeChar c) ""

def roundHalfUpToTenge (tiyn : Int) : Int :=
  let q := tiyn.tdiv 100
  let r := tiyn.tmod 100
  if 50 ≤ r then q + 1 else if r ≤ -50 then q - 1 else q

def tengeAmount (tiyn : Int) : String := toString (roundHalfUpToTenge tiyn)

/-- An element: a name and a value. -/
structure Field where
  name : String
  value : String
  deriving DecidableEq

/-- `<field name="...">value</field>`. -/
def Field.text (f : Field) : String := "<field name=\"" ++ f.name ++ "\">" ++ escape f.value ++ "</field>"

/-- An element of the summary, whose value is written as it is. -/
def Field.element (f : Field) : String := "<" ++ f.name ++ ">" ++ f.value ++ "</" ++ f.name ++ ">"

def identityFields (org : OrgInfo) : List Field := [⟨"iin", org.bin⟩, ⟨"rnn", org.bin⟩, ⟨"payer_name1", org.name⟩]

end FnoXml

open FnoXml

/-- A form: the fields of its sheet and of the summary. -/
structure Fno where
  formCode : String
  formVersion : String
  formName : String
  sheetName : String
  bin : String
  sheet : List Field
  summary : List Field
  deriving DecidableEq

namespace Fno

def text (fno : Fno) : String :=
  "<?xml version=\"1.0\" encoding=\"UTF-8\"?>" ++
    "<fno code=\"" ++ fno.formCode ++ "\" version=\"" ++ fno.formVersion ++
    "\" formatVersion=\"1\" schemaValidated=\"false\" bin=\"" ++ escape fno.bin ++ "\">" ++
    "<form name=\"" ++ fno.formName ++ "\"><sheetGroup><sheet name=\"" ++ fno.sheetName ++ "\">" ++
    String.join (fno.sheet.map Field.text) ++ "</sheet></sheetGroup></form>" ++
    "<calcSummary xmlns=\"urn:cyber-accountant:fno-summary\">" ++
    String.join (fno.summary.map Field.element) ++ "</calcSummary>" ++ "</fno>"

/-- The value of a field of the sheet. -/
def field? (fno : Fno) (name : String) : Option String := (fno.sheet.find? (·.name = name)).map Field.value

/-- The value of an element of the summary. -/
def summary? (fno : Fno) (name : String) : Option String := (fno.summary.find? (·.name = name)).map Field.value

end Fno

/-- Why a form is not built. -/
inductive FormFault where
  | foreignKind (form : String) (expected got : CalculationKind)
  | foreignOrganization (form : String) (calculation info : Uuid)
  | malformedPeriod (periodFrom : String)
  /-- `std::stoi` finds no number. -/
  | noMonth
  deriving DecidableEq

/-- The text of the `std::invalid_argument`. -/
def FormFault.what (uuidText : Uuid → String) : FormFault → String
  | .foreignKind form expected got =>
    form ++ "::build_xml: expected Calculation.kind='" ++ expected.text ++ "', got '" ++ got.text ++ "'"
  | .foreignOrganization form calculation info =>
    form ++ "::build_xml: calculation belongs to organization '" ++ uuidText calculation ++
      "' but the supplied OrgInfo identifies '" ++ uuidText info ++
      "' — refusing to emit a filing that mixes two organizations' data"
  | .malformedPeriod periodFrom => "Fno300::build_xml: malformed period_from '" ++ periodFrom ++ "'"
  | .noMonth => "stoi"

/-- The form 910.00 of a calculation. -/
def Fno910.buildXml (row : Calculation) (org : OrgInfo) : Except FormFault Fno := do
  ensure (row.kind = .snrSimplified) (.foreignKind "Fno910" .snrSimplified row.kind)
  ensure (row.orgId = org.orgId) (.foreignOrganization "Fno910" row.orgId org.orgId)
  let incomeTiyn := snapshotValue row "income_tiyn"
  let rateBp := snapshotValue row "rate_bp"
  pure
    { formCode := "910.00"
      formVersion := "27"
      formName := "form_910_00"
      sheetName := "page_910_00_01"
      bin := org.bin
      sheet := identityFields org ++
        [⟨"period_year", org.taxPeriodYear⟩, ⟨"period_half_year", org.taxPeriodHalf⟩, ⟨"currency_code", "KZT"⟩,
          ⟨"dt_regular", "true"⟩, ⟨"field_910_00_001", tengeAmount incomeTiyn⟩]
      summary :=
        [⟨"incomeTenge", tengeAmount incomeTiyn⟩, ⟨"rateBp", toString rateBp⟩,
          ⟨"taxTenge", tengeAmount row.totalTiyn⟩, ⟨"periodFrom", escape (dateText row.periodFrom)⟩,
          ⟨"periodTo", escape (dateText row.periodTo)⟩] }

/-- `std::stoi` on the digits of the month. -/
def stoiMonth (isoDate : String) : Option Nat :=
  let digits := ((isoDate.toList.drop 5).take 2).takeWhile Char.isDigit
  if digits = [] then none else some (Nat.ofDigitChars 10 digits 0)

def Fno300.quarterFromPeriodFrom (periodFrom : String) : Except FormFault Nat := do
  ensure (7 ≤ periodFrom.length) (.malformedPeriod periodFrom)
  let month ← orFail .noMonth (stoiMonth periodFrom)
  pure ((month - 1) / 3 + 1)

/-- The form 300.00 of a calculation. -/
def Fno300.buildXml (row : Calculation) (org : OrgInfo) : Except FormFault Fno := do
  ensure (row.kind = .vat) (.foreignKind "Fno300" .vat row.kind)
  ensure (row.orgId = org.orgId) (.foreignOrganization "Fno300" row.orgId org.orgId)
  let accruedTiyn := snapshotValue row "accrued_tiyn"
  let deductibleTiyn := snapshotValue row "deductible_tiyn"
  let balanceTiyn := row.totalTiyn
  let toPayTiyn := if 0 < balanceTiyn then balanceTiyn else 0
  let toRefundTiyn := if balanceTiyn < 0 then -balanceTiyn else 0
  let quarter ← Fno300.quarterFromPeriodFrom (dateText row.periodFrom)
  pure
    { formCode := "300.00"
      formVersion := "29"
      formName := "form_300_00"
      sheetName := "page_300_00_01"
      bin := org.bin
      sheet := identityFields org ++
        [⟨"period_year", org.taxPeriodYear⟩, ⟨"period_quarter", toString quarter⟩, ⟨"currency_code", "KZT"⟩,
          ⟨"dt_regular", "true"⟩, ⟨"field_300_00_012", tengeAmount accruedTiyn⟩,
          ⟨"field_300_00_023", tengeAmount deductibleTiyn⟩, ⟨"field_300_00_030_01", tengeAmount toPayTiyn⟩,
          ⟨"field_300_00_030_02", tengeAmount toRefundTiyn⟩]
      summary :=
        [⟨"accruedTenge", tengeAmount accruedTiyn⟩, ⟨"deductibleTenge", tengeAmount deductibleTiyn⟩,
          ⟨"balanceTenge", tengeAmount balanceTiyn⟩, ⟨"toPayTenge", tengeAmount toPayTiyn⟩,
          ⟨"toRefundTenge", tengeAmount toRefundTiyn⟩, ⟨"periodFrom", escape (dateText row.periodFrom)⟩,
          ⟨"periodTo", escape (dateText row.periodTo)⟩] }

end CyberAccountant.Tax
