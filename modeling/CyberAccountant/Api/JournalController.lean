import CyberAccountant.Api.Fields
import CyberAccountant.Ledger.JournalService

/-! `POST /journal-entries`: the checks of the body and of its lines, and what the service makes of them. -/

namespace CyberAccountant.Api.JournalController

open CyberAccountant.Library CyberAccountant.Ledger CyberAccountant.Api.Validation

def requireArray (body : Json) (field : String) : List FieldError :=
  match Json.member body.members field with
  | none | some (.arr _) => []
  | some _ => [⟨field, "not_array", "must be an array"⟩]

/-- The items of the field `lines`. -/
def bodyLines (body : Json) : List Json :=
  match Json.member body.members "lines" with
  | some (.arr items) => items
  | _ => []

/-- What `parse_lines` reports of an item.  `readUuid` reads the texts of ids. -/
def lineFaults (readUuid : String → Option Uuid) (item : Json) : List FieldError :=
  if ¬item.isObject then [⟨"lines", "not_object", "each line must be an object"⟩]
  else
    (if (stringField item "account_code").getD "" = "" then
      [⟨"lines", "missing_account_code", "each line needs a non-empty account_code"⟩] else []) ++
    (if (stringField item "side").isNone then
      [⟨"lines", "missing_side", "each line needs a side ('debit' or 'credit')"⟩] else []) ++
    (if (stringField item "amount").isNone then
      [⟨"lines", "missing_amount", "each line needs an amount as a decimal string"⟩] else []) ++
    (match Json.member item.members "counterparty_id" with
      | none | some .null => []
      | some (.str text) =>
        if (readUuid text).isSome then []
        else [⟨"lines", "invalid_counterparty_id", "counterparty_id must be a uuid"⟩]
      | some _ => [⟨"lines", "invalid_counterparty_id", "counterparty_id must be a uuid"⟩]) ++
    match Json.member item.members "vat_amount" with
      | none | some .null | some (.str _) => []
      | some _ => [⟨"lines", "invalid_vat_amount", "vat_amount must be a decimal string"⟩]

/-- The line of an item that has no faults. -/
def lineOf (readUuid : String → Option Uuid) (item : Json) : JournalLine where
  accountCode := (stringField item "account_code").getD ""
  side := (stringField item "side").getD ""
  amount := (stringField item "amount").getD ""
  counterpartyId := (stringField item "counterparty_id").bind readUuid
  vatAmount := stringField item "vat_amount"

def parseLines (readUuid : String → Option Uuid) (items : List Json) : Except (List FieldError) (List JournalLine) :=
  let faults := items.flatMap (lineFaults readUuid)
  if faults = [] then .ok (items.map (lineOf readUuid)) else .error faults

/-- The reply to what the service throws. -/
def refusal (e : JournalError) : Refusal :=
  match e with
  | .tooFewLines _ | .unbalancedEntry _ _ => .unprocessable [⟨"lines", "unbalanced_entry", e.what⟩]
  | .unknownAccount _ => .unprocessable [⟨"lines", "unknown_account", e.what⟩]
  | .foreignCounterparty _ => .unprocessable [⟨"lines", "foreign_counterparty", e.what⟩]
  | .malformedAmount _ _ | .badSide _ => .unprocessable [⟨"lines", "invalid_line", e.what⟩]
  | .cannotPost _ | .statusChanged | .cannotReverse _ | .stornoNotPosted | .originalNotReversed | .database _ =>
    .internalError

/-- The tables after a request that is answered 201.  The checks read them as they are in `dbRead`, and the
transaction finds them as they are in `dbWrite`. -/
def create (num : NumericText) (readUuid : String → Option Uuid) (now : Timestamp) (dbRead dbWrite : Db)
    (org user : Uuid) (body : Json) (id : Uuid) (lineIds : Nat → Uuid) : Except Refusal Db := do
  let errors := require body "entry_date" ++ require body "description" ++ require body "lines" ++
    requireString body "entry_date" ++ requireString body "description" ++ requireArray body "lines"
  ensure (errors = []) (.badRequest errors)
  let entryDate := (stringField body "entry_date").getD ""
  ensure (isValidDate entryDate = true)
    (.unprocessable [⟨"entry_date", "invalid_date", "must be in YYYY-MM-DD format"⟩])
  let lines ← (parseLines readUuid (bodyLines body)).mapError .badRequest
  let req : DraftRequest := ⟨org, user, (castDate entryDate).getD .firstOfMarch,
    (stringField body "description").getD "", lines⟩
  (checkDraft dbRead req).mapError refusal
  -- The checks do not look at the date.  A year 0 passes them, and is no date for the insertion.
  ensure (castDate entryDate).isSome .internalError
  (createDraft num now dbWrite req id lineIds).mapError fun _ => .internalError

/-- A request that is answered 201 is parsed, checked and drafted. -/
theorem create_ok {num : NumericText} {readUuid : String → Option Uuid} {now : Timestamp} {dbRead dbWrite db : Db}
    {org user : Uuid} {body : Json} {id : Uuid} {lineIds : Nat → Uuid}
    (h : create num readUuid now dbRead dbWrite org user body id lineIds = .ok db) :
    ∃ req, req.lines = (bodyLines body).map (lineOf readUuid) ∧ checkDraft dbRead req = .ok () ∧
      createDraft num now dbWrite req id lineIds = .ok db := by
  simp only [create, bind_eq_ok, ensure_eq_ok, mapError_eq_ok, exists_const, parseLines] at h
  obtain ⟨-, -, lines, hLines, u, hChecks, -, hDraft⟩ := h
  split_ifs at hLines
  obtain rfl := Except.ok.inj hLines
  exact ⟨_, rfl, hChecks, hDraft⟩

end CyberAccountant.Api.JournalController
