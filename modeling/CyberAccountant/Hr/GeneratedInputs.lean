import CyberAccountant.Hr.Answers
import CyberAccountant.Money.Agreement
import CyberAccountant.Tax.Filings

/-! The inputs of the documents that are generated from stored rows: orders and labour contracts.  What the rows say is
printed as they say it, whatever the client sends along. -/

namespace CyberAccountant.Hr

open CyberAccountant.Library CyberAccountant.Ledger CyberAccountant.Api CyberAccountant.Api.Validation
  CyberAccountant.Money CyberAccountant.Tax HrTables

/-! ### The inputs -/

def fullName (e : Employee) : String :=
  let name := e.lastName ++ " " ++ e.firstName
  match e.middleName with
  | some middle => if middle = "" then name else name ++ " " ++ middle
  | none => name

def printedDate (d : Date) : String := isoToDdmmyyyy (dateText d)

def employeeObject (e : Employee) : Json :=
  .obj [("full_name", .str (fullName e)), ("iin", .str e.iin), ("position", .str e.position)]

/-- A member that is there where the row has a day. -/
def setDay (ms : List (String × Json)) (key : String) : Option Date → List (String × Json)
  | some day => Json.setMember ms key (.str (printedDate day))
  | none => ms

inductive GenerateFault where
  | notFound
  | internalError
  | amountOutOfRange
  | refused (error : FieldError)
  deriving DecidableEq

def orderInput (o : HrOrder) (e : Employee) (organization : Organization) : List (String × Json) :=
  setDay
    [("effective_from", .str (printedDate o.effectiveFrom)), ("employee", employeeObject e),
      ("employer", orgObject organization), ("issued_on", .str (printedDate o.issuedOn)), ("kind", .str o.kind.text),
      ("number", .str o.number)]
    "effective_to" o.effectiveTo

/-- An exception that is not caught is a failure of the service. -/
def printed (tiyn : Int) : Except GenerateFault String := orFail .internalError (formatTiynRu tiyn)

def spelled (toWords : Int → Except WordsFault String) (tiyn : Int) : Except GenerateFault String :=
  match toWords tiyn with
  | .ok text => .ok text
  | .error .outOfRange => .error .amountOutOfRange
  | .error .invalidArgument => .error .internalError

def contractInput (c : LaborContract) (e : Employee) (organization : Organization) :
    Except GenerateFault (List (String × Json)) := do
  let salary ← printed e.salaryTiyn
  let base := setDay
    [("employee", employeeObject e), ("employer", orgObject organization), ("number", .str c.number),
      ("salary_tenge", .str salary), ("signed_on", .str (printedDate c.signedOn)),
      ("starts_on", .str (printedDate c.startsOn))]
    "ends_on" c.endsOn
  let words ← spelled toWordsRu e.salaryTiyn
  let wordsKk ← spelled toWordsKk e.salaryTiyn
  return Json.setMember (Json.setMember base "salary_words" (.str words)) "salary_words_kk" (.str wordsKk)

def hrOrderAllowedExtraFields : List String := ["director", "reason", "details"]

def laborContractAllowedExtraFields : List String :=
  ["work_schedule", "probation_months", "employer.director", "employer.address", "employee.address"]

/-! ### The documents -/

/-- What a document is generated from. -/
inductive Source where
  | order (o : HrOrder)
  | contract (c : LaborContract)

namespace Source

def row : Source → HrRow
  | order o => o.toHrRow
  | contract c => c.toHrRow

/-- What the server takes from the rows. -/
def derived (source : Source) (e : Employee) (organization : Organization) :
    Except GenerateFault (List (String × Json)) :=
  match source with
  | order o => .ok (orderInput o e organization)
  | contract c => contractInput c e organization

def allowedExtraFields : Source → List String
  | order _ => hrOrderAllowedExtraFields
  | contract _ => laborContractAllowedExtraFields

/-- The row is in the tables. -/
def Stored (s : HrTables) : Source → Prop
  | order o => o ∈ s.orders.rows
  | contract c => c ∈ s.contracts.rows

end Source

/-- The input of the document, from what the reads of the rows have found, one after another. -/
def generate (source : Option Source) (employee : Uuid → Option Employee) (organization : Option Organization)
    (extra : List (String × Json)) : Except GenerateFault Json := do
  let source ← orFail .notFound source
  let e ← orFail .internalError (employee source.row.employeeId)
  let organization ← orFail .internalError organization
  let derived ← source.derived e organization
  let merged := mergeAllowedExtra (.obj derived) extra source.allowedExtraFields
  merged.1.mapError .refused
  return merged.2

section

variable {source : Source} {e : Employee} {organization : Organization} {derived : List (String × Json)}
  {extra : List (String × Json)} {input : Json}

def orderPaths : List (List String) :=
  [["effective_to"], ["effective_from"], ["employee", "full_name"], ["employee", "iin"], ["employee", "position"],
    ["employer", "bin"], ["employer", "name"], ["issued_on"], ["kind"], ["number"]]

def contractPaths : List (List String) :=
  [["salary_words_kk"], ["salary_words"], ["ends_on"], ["employee", "full_name"], ["employee", "iin"],
    ["employee", "position"], ["employer", "bin"], ["employer", "name"], ["number"], ["salary_tenge"], ["signed_on"],
    ["starts_on"]]

theorem leavesAmong_str (text : String) : Json.LeavesAmong [[]] (.str text) := Json.leavesAmong_plain rfl

theorem leavesAmong_employee (e : Employee) :
    Json.LeavesAmong [["full_name"], ["iin"], ["position"]] (employeeObject e) :=
  .cons (leavesAmong_str _) (.cons (leavesAmong_str _) (.cons (leavesAmong_str _) Json.leavesAmong_empty))

theorem leavesAmong_org (organization : Organization) : Json.LeavesAmong [["bin"], ["name"]] (orgObject organization) :=
  .cons (leavesAmong_str _) (.cons (leavesAmong_str _) Json.leavesAmong_empty)

theorem leavesAmong_setDay {ms : List (String × Json)} {paths : List (List String)} {key : String} {day : Option Date}
    (h : Json.LeavesAmong paths (.obj ms)) : Json.LeavesAmong ([key] :: paths) (.obj (setDay ms key day)) := by
  cases day with
  | none => exact h.mono (List.subset_cons_self _ _)
  | some day => exact (leavesAmong_str _).setMember h

theorem leaves_order (o : HrOrder) (e : Employee) (organization : Organization) :
    Json.LeavesAmong orderPaths (.obj (orderInput o e organization)) :=
  leavesAmong_setDay <| .cons (leavesAmong_str _) <| .cons (leavesAmong_employee e) <|
    .cons (leavesAmong_org organization) <| .cons (leavesAmong_str _) <| .cons (leavesAmong_str _) <|
    .cons (leavesAmong_str _) Json.leavesAmong_empty

theorem leaves_contract {c : LaborContract} (h : contractInput c e organization = .ok derived) :
    Json.LeavesAmong contractPaths (.obj derived) := by
  simp only [contractInput, bind_eq_ok, pure_eq_ok] at h
  obtain ⟨salary, -, words, -, wordsKk, -, rfl⟩ := h
  exact .setMember (leavesAmong_str _) <| .setMember (leavesAmong_str _) <| leavesAmong_setDay <|
    .cons (leavesAmong_employee e) <| .cons (leavesAmong_org organization) <| .cons (leavesAmong_str _) <|
    .cons (leavesAmong_str _) <| .cons (leavesAmong_str _) <| .cons (leavesAmong_str _) Json.leavesAmong_empty

/-- All that is taken from the rows is at paths that the list guards. -/
theorem derived_guarded (h : source.derived e organization = .ok derived) :
    ∀ path, ((Json.obj derived).leafAt? path).isSome → Guarded source.allowedExtraFields path := by
  cases source with
  | order o =>
    obtain rfl : orderInput o e organization = derived := Except.ok.inj h
    have hGuarded : ∀ path ∈ orderPaths, Guarded hrOrderAllowedExtraFields path := by decide
    exact fun path hSome => hGuarded path (leaves_order o e organization path hSome)
  | contract c =>
    have hGuarded : ∀ path ∈ contractPaths, Guarded laborContractAllowedExtraFields path := by decide
    exact fun path hSome => hGuarded path (leaves_contract h path hSome)

/-- A document that is generated says what the rows say. -/
theorem generate_ok {employee : Uuid → Option Employee} {extra : List (String × Json)} {input : Json}
    (h : generate (some source) employee (some organization) extra = .ok input) :
    ∃ e derived, employee source.row.employeeId = some e ∧ source.derived e organization = .ok derived ∧
      ∀ path v, (Json.obj derived).leafAt? path = some v → input.leafAt? path = some v := by
  simp only [generate, bind_eq_ok, orFail_eq_ok, mapError_eq_ok, pure_eq_ok, Option.some.injEq] at h
  obtain ⟨_, rfl, e, hEmployee, _, rfl, derived, hDerived, _, hMerged, rfl⟩ := h
  refine ⟨e, derived, hEmployee, hDerived, fun path v hLeaf => ?_⟩
  have hGuarded := derived_guarded hDerived path (by rw [hLeaf]; rfl)
  have hSame := mergeAllowedExtra_guarded hGuarded (Prod.ext hMerged rfl)
  rw [Json.leafAt?, hSame]
  exact hLeaf

/-- The service does not fail over a salary that the API admits. -/
theorem contractInput_errs {c : LaborContract} (h : 0 ≤ e.salaryTiyn) :
    Errs (· ≠ GenerateFault.internalError) (contractInput c e organization) := by
  obtain ⟨text, hText⟩ := formatTiynRu_prints h
  have hPrinted : printed e.salaryTiyn = .ok text := by
    rw [printed, hText]
    rfl
  have hSpelled : ∀ toWords : Int → Except WordsFault String, toWords e.salaryTiyn ≠ .error .invalidArgument →
      Errs (· ≠ GenerateFault.internalError) (spelled toWords e.salaryTiyn) := by
    intro toWords hWords fault hFault
    unfold spelled at hFault
    split at hFault
    · cases hFault
    · cases hFault
      simp
    · rename_i hThrown
      exact absurd hThrown hWords
  rw [contractInput, hPrinted]
  refine (hSpelled toWordsRu ?_).bind fun words => (hSpelled toWordsKk ?_).bind fun wordsKk => errs_ok
  · unfold toWordsRu
    rw [if_neg (by omega)]
    split <;> simp
  · unfold toWordsKk
    rw [if_neg (by omega)]
    split <;> simp

theorem employs_of_stored {newId : Uuid → Nat → Uuid} {s : HrTables} (hs : Ok newId s) (h : source.Stored s) :
    s.Employs source.row := by
  cases source with
  | order o => exact hs.orders o h
  | contract c => exact hs.contracts c h

end

def clerk : Employee where
  iin := "880715300019"
  lastName := "А"
  firstName := "Б"
  middleName := none
  position := "В"
  salaryTiyn := 30000000
  ipnDeductionClaimed := false
  opvrExempt := false
  payoutIik := ""
  id := 56
  orgId := 7
  hiredOn := .firstOfMarch
  dismissedOn := none
  status := .active
  createdAt := 1
  updatedAt := 1

def clerkContract : LaborContract where
  id := 57
  orgId := 7
  employeeId := 56
  createdAt := 2
  updatedAt := 2
  number := "1"
  signedOn := .firstOfMarch
  startsOn := .firstOfMarch
  endsOn := none
  termsJson := none

/-- An organisation with an employee and his contract. -/
def staffed : HrTables :=
  { twoOwners with
    employees := ⟨[clerk], List.pairwise_singleton _ _⟩
    contracts := ⟨[clerkContract], List.pairwise_singleton _ _⟩
    drawn := fun org => if org = 7 then 2 else 0 }

theorem ok_staffed : Ok Nat.pair staffed where
  ids := by
    refine ⟨fun e he => ?_, fun _ h => (by cases h), fun r hr => ?_, fun _ h => (by cases h)⟩
    · rw [List.mem_singleton.mp he]
      exact ⟨0, by decide, by decide⟩
    · rw [List.mem_singleton.mp hr]
      exact ⟨1, by decide, by decide⟩
  admitted := fun e he => by
    rw [List.mem_singleton.mp he]
    exact ⟨by decide, by decide, by decide⟩
  dismissed := fun e he => by
    rw [List.mem_singleton.mp he]
    decide
  orders := fun _ h => by cases h
  contracts := fun r hr => by
    rw [List.mem_singleton.mp hr]
    exact ⟨clerk, List.mem_cons_self, rfl, rfl⟩
  vacations := fun _ h => by cases h

end CyberAccountant.Hr
