import CyberAccountant.Docgen.TemplateRegistry
import CyberAccountant.Money.AmountInWords
import CyberAccountant.Tax.Calculations

/-! Filing a tax form from a stored calculation: the XML and the input of the printed form, and which
requests are refused. -/

namespace CyberAccountant.Tax

open CyberAccountant.Library CyberAccountant.Ledger CyberAccountant.Docgen CyberAccountant.Api.Validation
open CyberAccountant.Money (formatTiynRu toWordsRu maxTiyn)

inductive FilingKind where
  | fno910
  | fno300
  deriving DecidableEq

namespace FilingKind

def text : FilingKind → String
  | .fno910 => "910.00"
  | .fno300 => "300.00"

def slug : FilingKind → String
  | .fno910 => "fno_910"
  | .fno300 => "fno_300"

def expectedCalculationKind : FilingKind → CalculationKind
  | .fno910 => .snrSimplified
  | .fno300 => .vat

def allowedExtraFields : FilingKind → List String
  | .fno910 => ["director", "accountant"]
  | .fno300 => ["director", "accountant"]

end FilingKind

def allowedFilingKinds : List String := ["910.00", "300.00"]

/-- A row of `organizations`. -/
structure Organization where
  id : Uuid
  bin : String
  name : String

def monthOf (isoDate : String) : Nat :=
  if isoDate.length < 7 then 1 else (stoiMonth isoDate).getD 1

def halfOf (isoDate : String) : Nat := if monthOf isoDate ≤ 6 then 1 else 2

def quarterOf (isoDate : String) : Nat := (monthOf isoDate - 1) / 3 + 1

/-- `substr(0, 4)`. -/
def yearOf (isoDate : String) : String := String.ofList (isoDate.toList.take 4)

/-- `YYYY-MM-DD` as `DD.MM.YYYY`. -/
def isoToDdmmyyyy (iso : String) : String :=
  if iso.length ≠ 10 then iso
  else String.ofList (((iso.toList.drop 8).take 2) ++ '.' :: ((iso.toList.drop 5).take 2) ++ '.' :: iso.toList.take 4)

/-- Drops zeros at the end, but not the first digit; the digits are in reverse. -/
def popZeros : List Char → List Char
  | '0' :: next :: rest => popZeros (next :: rest)
  | digits => digits

def formatBpPercent (rateBp : Int) : String :=
  let whole := toString (rateBp.tdiv 100)
  let frac := (rateBp.tmod 100).natAbs
  if frac = 0 then whole
  else whole ++ "." ++ (if frac < 10 then "0" else "") ++
    String.ofList (popZeros (Nat.toDigits 10 frac).reverse).reverse

def orgInfoFor (kind : FilingKind) (row : Calculation) (org : Organization) : OrgInfo where
  orgId := org.id
  bin := org.bin
  name := org.name
  taxPeriodYear := yearOf (dateText row.periodFrom)
  taxPeriodHalf :=
    match kind with
    | .fno910 => toString (halfOf (dateText row.periodFrom))
    | .fno300 => toString (quarterOf (dateText row.periodFrom))

def buildFormXml (kind : FilingKind) (row : Calculation) (org : Organization) : Except FormFault Fno :=
  match kind with
  | .fno910 => Fno910.buildXml row (orgInfoFor kind row org)
  | .fno300 => Fno300.buildXml row (orgInfoFor kind row org)

/-- Why a form has no input. -/
inductive InputFault where
  | missingKey (key : String)
  | amountOutOfRange
  /-- A `std::invalid_argument` that nothing catches. -/
  | negativeAmount
  deriving DecidableEq

def formatted (tiyn : Int) : Except InputFault String := orFail .negativeAmount (formatTiynRu tiyn)

def spellOutTiyn (magnitude : Int) : Except InputFault String :=
  match toWordsRu magnitude with
  | .ok words => .ok words
  | .error .outOfRange => .error .amountOutOfRange
  | .error .invalidArgument => .error .negativeAmount

def requiredInt (row : Calculation) (key : String) : Except InputFault Int :=
  orFail (.missingKey key) (snapshotInt row key)

def orgObject (org : Organization) : Json := .obj [("bin", .str org.bin), ("name", .str org.name)]

/-- The input of the printed form. -/
def buildFormInput (kind : FilingKind) (row : Calculation) (org : Organization) (today : Date) :
    Except InputFault Json :=
  let year := yearOf (dateText row.periodFrom)
  let signedOn := isoToDdmmyyyy (dateText today)
  match kind with
  | .fno910 => do
    let incomeTiyn ← requiredInt row "income_tiyn"
    let rateBp ← requiredInt row "rate_bp"
    let incomeTenge ← formatted incomeTiyn
    let taxTenge ← formatted row.totalTiyn
    let taxWords ← spellOutTiyn row.totalTiyn
    pure (.obj
      [("income_tenge", .str incomeTenge), ("org", orgObject org),
        ("period", .obj [("half", .str (toString (halfOf (dateText row.periodFrom)))), ("year", .str year)]),
        ("rate_percent", .str (formatBpPercent rateBp)), ("signed_on", .str signedOn),
        ("tax_tenge", .str taxTenge), ("tax_words", .str taxWords)])
  | .fno300 => do
    let accruedTiyn ← requiredInt row "accrued_tiyn"
    let deductibleTiyn ← requiredInt row "deductible_tiyn"
    let balanceTiyn ← requiredInt row "balance_tiyn"
    let incomeTiyn ← requiredInt row "income_tiyn"
    let salesTenge ← formatted incomeTiyn
    let vatChargedTenge ← formatted accruedTiyn
    let vatCreditedTenge ← formatted deductibleTiyn
    let magnitude := if balanceTiyn < 0 then -balanceTiyn else balanceTiyn
    let balanceTenge ← formatted magnitude
    let balanceWords ← spellOutTiyn magnitude
    pure (.obj
      [("balance_kind", .str (if balanceTiyn < 0 then "to_refund" else "to_pay")),
        ("balance_tenge", .str balanceTenge), ("balance_words", .str balanceWords), ("org", orgObject org),
        ("period",
          .obj [("quarter", .str (toString (quarterOf (dateText row.periodFrom)))), ("year", .str year)]),
        ("sales_tenge", .str salesTenge), ("signed_on", .str signedOn),
        ("vat_charged_tenge", .str vatChargedTenge), ("vat_credited_tenge", .str vatCreditedTenge)])

def InputFault.refusal (kind : FilingKind) : InputFault → Refusal
  | .amountOutOfRange => .unprocessable [⟨"calculation_id", "amount_out_of_range",
      "the stored calculation's amount cannot be spelled out in words: it exceeds the maximum supported " ++
        toString maxTiyn ++ " tiyn"⟩]
  | .missingKey key => .unprocessable [⟨"calculation_id", "incomplete_calculation",
      "the stored calculation's result_snapshot has no '" ++ key ++ "' key, which form " ++ kind.text ++
        " requires"⟩]
  | .negativeAmount => .internalError

/-- What a request meets outside the tables of the tax module: the clock, the templates on disk with the
validator of inputs, and the services that have to be up.  `readUuid` and `uuidText` are the texts of ids. -/
structure FilingEnv where
  today : Date
  registry : TemplateRegistry Json
  validateAgainst : Json → Json → Option String
  storageReady : Bool
  jobsReady : Bool
  readUuid : String → Option Uuid
  uuidText : Uuid → String

/-- What a filing is made of: the row of `tax_filings`, the XML and the input that is rendered. -/
structure Filing where
  kind : FilingKind
  calculationId : Uuid
  periodFrom : Date
  periodTo : Date
  xml : Fno
  input : Json
  templateVersion : String

/-- The checks of the structure of the body. -/
def filingErrors (env : FilingEnv) (body : Json) : List FieldError :=
  require body "kind" ++ require body "calculation_id" ++ requireString body "kind" ++
    (match Json.member body.members "calculation_id" with
      | none => []
      | some (.str text) =>
        if (env.readUuid text).isSome then [] else [⟨"calculation_id", "bad_format", "must be a uuid"⟩]
      | some _ => [⟨"calculation_id", "bad_format", "must be a uuid"⟩]) ++
    match Json.member body.members "document_input" with
    | none | some .null | some (.obj _) => []
    | some _ => [⟨"document_input", "not_object", "must be a JSON object"⟩]

/-- The kind of form that a text names. -/
def filingKind? (text : String) : Option FilingKind :=
  if text = "910.00" then some .fno910 else if text = "300.00" then some .fno300 else none

def notAllowedKind : Refusal := .unprocessable [⟨"kind", "not_allowed", "must be one of: 910.00, 300.00"⟩]

def foreignCalculation : Refusal :=
  .unprocessable [⟨"calculation_id", "foreign_calculation", "calculation does not belong to this organization"⟩]

def kindMismatch (kind : FilingKind) (row : Calculation) : Refusal :=
  .unprocessable [⟨"kind", "kind_mismatch",
    "form " ++ kind.text ++ " is filed from a '" ++ kind.expectedCalculationKind.text ++
      "' calculation, but this one is '" ++ row.kind.text ++ "'"⟩]

/-- The latest template of a form, against whose schema the input is checked. -/
def checkTemplate (env : FilingEnv) (slug : String) (input : Json) : Except Refusal (TemplateInfo Json) :=
  match env.registry.latest slug with
  | .ok (some info) =>
    match env.validateAgainst info.schema input with
    | none => .ok info
    | some err => .error (.unprocessable [⟨"document_input", "schema_validation_failed", err⟩])
  | _ => .error .internalError

/-- `POST /tax/filings`. -/
def createFiling (env : FilingEnv) (calculations : List Calculation) (organizations : List Organization)
    (org : Uuid) (body : Json) : Except Refusal Filing := do
  ensure (filingErrors env body = []) (.badRequest (filingErrors env body))
  let kind ← orFail notAllowedKind (filingKind? ((stringField body "kind").getD ""))
  let id ← orFail foreignCalculation (env.readUuid ((stringField body "calculation_id").getD ""))
  let extra := ((Json.member body.members "document_input").getD (.obj [])).members
  let row ← orFail foreignCalculation (calculations.find? fun r => r.id = id ∧ r.orgId = org)
  ensure (row.kind = kind.expectedCalculationKind) (kindMismatch kind row)
  let organization ← orFail .internalError (organizations.find? (·.id = org))
  let base ← (buildFormInput kind row organization env.today).mapError (InputFault.refusal kind)
  let merged := mergeAllowedExtra base extra kind.allowedExtraFields
  merged.1.mapError fun refused => Refusal.unprocessable [refused]
  let info ← checkTemplate env kind.slug merged.2
  ensure (env.storageReady ∧ env.jobsReady) .serviceUnavailable
  let xml ← (buildFormXml kind row organization).mapError fun fault =>
    Refusal.unprocessable [⟨"calculation_id", "unrenderable_calculation", fault.what env.uuidText⟩]
  pure ⟨kind, id, row.periodFrom, row.periodTo, xml, merged.2, info.versionStr⟩

/-- What a request that is accepted has made of the calculation. -/
structure Filing.Of (filing : Filing) (row : Calculation) (organization : Organization) (today : Date) : Prop where
  id : filing.calculationId = row.id
  kind : row.kind = filing.kind.expectedCalculationKind
  periodFrom : filing.periodFrom = row.periodFrom
  periodTo : filing.periodTo = row.periodTo
  xml : buildFormXml filing.kind row organization = .ok filing.xml
  input : ∃ base extra, buildFormInput filing.kind row organization today = .ok base ∧
    mergeAllowedExtra base extra filing.kind.allowedExtraFields = (.ok (), filing.input)

theorem createFiling_ok {env : FilingEnv} {calculations : List Calculation} {organizations : List Organization}
    {org : Uuid} {body : Json} {filing : Filing}
    (h : createFiling env calculations organizations org body = .ok filing) :
    ∃ row ∈ calculations, ∃ organization, filing.Of row organization env.today := by
  simp only [createFiling, bind_eq_ok, ensure_eq_ok, orFail_eq_ok, mapError_eq_ok, pure_eq_ok,
    exists_const] at h
  obtain ⟨-, kind, -, id, -, row, hRow, hKind, organization, -, base, hBase, _, hMerge, info, -, -, xml, hXml, rfl⟩ := h
  have hFound := List.find?_some hRow
  simp only [decide_eq_true_eq] at hFound
  exact ⟨row, List.mem_of_find?_eq_some hRow, organization, hFound.1.symm, hKind, rfl, rfl, hXml, base, _, hBase,
    Prod.ext hMerge rfl⟩

end CyberAccountant.Tax
