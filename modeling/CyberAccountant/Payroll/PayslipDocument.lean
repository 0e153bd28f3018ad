import CyberAccountant.Hr.GeneratedInputs
import CyberAccountant.Payroll.Approval

/-! The printed payslip.  What is stored for a run is always something that can be printed, in figures and in words,
and the client has no say in it. -/

namespace CyberAccountant.Payroll

open CyberAccountant.Library CyberAccountant.Ledger CyberAccountant.Api.Validation CyberAccountant.Money
open CyberAccountant.Tax (Organization orgObject)
open CyberAccountant.Hr (GenerateFault employeeObject printed)

/-! ### The input of the document -/

def monthsRu : List String :=
  ["", "Январь", "Февраль", "Март", "Апрель", "Май", "Июнь", "Июль", "Август", "Сентябрь", "Октябрь", "Ноябрь",
    "Декабрь"]

def periodLabelRu (year month : Nat) : String :=
  if month < 1 ∨ 12 < month then toString month ++ "." ++ toString year
  else monthsRu.getD month "" ++ " " ++ toString year

def payslipAllowedExtraFields : List String := []

/-- No exception of the words is caught. -/
def inWords (tiyn : Int) : Except GenerateFault String := (toWordsRu tiyn).mapError fun _ => .internalError

def payslipInput (row : RunRow) (p : Payslip) (e : Hr.Employee) (organization : Organization) :
    Except GenerateFault (List (String × Json)) := do
  let gross ← printed p.grossTiyn
  let opv ← printed p.opv
  let vosms ← printed p.vosms
  let ipn ← printed p.ipn
  let net ← printed p.net
  let opvr ← printed p.opvr
  let so ← printed p.so
  let osms ← printed p.osms
  let socialTax ← printed p.socialTax
  let netWords ← inWords p.net
  return [("employee", employeeObject e), ("employer", orgObject organization), ("gross_tenge", .str gross),
    ("ipn", .str ipn), ("net", .str net), ("net_words", .str netWords), ("opv", .str opv), ("opvr", .str opvr),
    ("osms", .str osms), ("period_label", .str (periodLabelRu row.periodYear row.periodMonth)), ("so", .str so),
    ("social_tax", .str socialTax), ("vosms", .str vosms)]

/-- `list_payslips` of a run that was read before. -/
def ApprovalWorld.listPayslips (w : ApprovalWorld) (run : Uuid) (row : RunRow) : List PayslipRow :=
  w.payslips.filter fun p => p.runId = run ∧ p.orgId = row.orgId

/-- The input of the document, from what the reads have found, one after another. -/
def generatePayslip (row : Option RunRow) (payslips : List PayslipRow) (employeeId : Uuid)
    (employee : Option Hr.Employee) (organization : Option Organization) (extra : List (String × Json)) :
    Except GenerateFault Json := do
  let row ← orFail .notFound row
  let p ← orFail .notFound (payslips.find? (·.employeeId = employeeId))
  let e ← orFail .internalError employee
  let organization ← orFail .internalError organization
  let input ← payslipInput row p.amounts e organization
  let merged := mergeAllowedExtra (.obj input) extra payslipAllowedExtraFields
  merged.1.mapError .refused
  return merged.2

/-! ### What is stored -/

/-- The row passes the checks of its table, and is one that the calculator produces. -/
structure Payslip.Stored (p : Payslip) : Prop where
  checks : p.Checks
  calculated : p.Calculated

theorem Payslip.Stored.bounds {p : Payslip} (h : p.Stored) :
    p.grossTiyn ≤ maxGrossTiyn ∧ p.grossTiyn = p.opv + p.vosms + p.ipn + p.net := by
  obtain ⟨input, rates, result, hResult, rfl⟩ := h.calculated
  obtain ⟨-, hGross, hNet⟩ := calculate_net hResult
  refine ⟨hGross, ?_⟩
  simp only [Payslip.ofResult]
  omega

theorem Calculation.Makes.calculated {c : Calculation} {run : Uuid} {p : PayslipRow} {e : Employee}
    (h : c.Makes run p e) : p.amounts.Calculated := by
  obtain ⟨result, hResult, hAmounts⟩ := map_eq_ok.mp h.2.2.2
  exact ⟨_, _, result, hResult, hAmounts.symm⟩

/-- So are the payslips in the table and those that are about to be. -/
structure AllStored (w : ApprovalWorld) : Prop where
  payslips : ∀ p ∈ w.payslips, p.amounts.Stored
  inserted : ∀ n x, w.calls n = some (.writing x) → ∀ p ∈ x.inserted, p.amounts.Stored

namespace AllStored

variable {w w' : ApprovalWorld} {n : Nat}

theorem setCall (h : AllStored w) {call : RunCall} (hCall : ∀ x, call = .writing x → ∀ p ∈ x.inserted, p.amounts.Stored) :
    AllStored (w.setCall n call) where
  payslips := h.payslips
  inserted n' x hHere := by
    rcases Table.put_eq_some.mp hHere with ⟨-, hEq⟩ | ⟨-, hHere⟩
    · exact hCall x hEq
    · exact h.inserted n' x hHere

theorem endCall (h : AllStored w) : AllStored (w.endCall n) where
  payslips := h.payslips
  inserted n' x hHere := h.inserted n' x (Table.drop_eq_some.mp hHere).2

theorem commit (h : AllStored w) {x : Writing} {now : Timestamp} (hCall : w.calls n = some (.writing x)) :
    AllStored (w.commit n x now) where
  payslips p hp := by
    rcases List.mem_append.mp hp with hOld | hNew
    · exact h.payslips p (List.mem_filter.mp hOld).1
    · exact h.inserted n x hCall p hNew
  inserted n' x' hHere := h.endCall.inserted n' x' hHere

theorem step (h : AllStored w) (hStep : ApprovalStep w w') : AllStored w' := by
  cases hStep with
  | readRates | readRoster | findExisting | findNone | updateHeader | readRun | updateStatus | retryUpdate
  | retryWriting | retryApproval => exact h.setCall fun x hEq => by cases hEq
  | deletePayslips | insertHeader =>
    refine h.setCall fun x hEq p hp => ?_
    cases hEq
    cases hp
  | insertPayslip n x p e hCall hNext hMakes hChecks hUnique =>
    refine h.setCall fun x' hEq q hq => ?_
    cases hEq
    rcases List.mem_append.mp hq with hOld | hNew
    · exact h.inserted n x hCall q hOld
    · rw [List.mem_singleton.mp hNew]
      exact ⟨hChecks, hMakes.calculated⟩
  | commit n x now hCall hAll => exact h.commit hCall
  | commitApproval => exact ⟨h.payslips, h.endCall.inserted⟩
  | abandon => exact h.endCall
  | post => exact ⟨h.payslips, h.inserted⟩
  | staff => exact ⟨h.payslips, h.inserted⟩

theorem of_uncalculated (h : Uncalculated w) : AllStored w where
  payslips p hp := by
    rw [h.payslips] at hp
    cases hp
  inserted n x hCall := by
    rw [h.calls] at hCall
    cases hCall

end AllStored

/-! ### What is printed -/

/-- The text under the key says the amount. -/
def SaysAmount (input : Json) (key : String) (tiyn : Int) : Prop :=
  ∃ text, input.leafAt? [key] = some (.str text) ∧ readTiynRu text = some tiyn.toNat

/-- The document says what the row says. -/
structure Says (input : Json) (p : Payslip) : Prop where
  gross : SaysAmount input "gross_tenge" p.grossTiyn
  opv : SaysAmount input "opv" p.opv
  vosms : SaysAmount input "vosms" p.vosms
  ipn : SaysAmount input "ipn" p.ipn
  net : SaysAmount input "net" p.net
  opvr : SaysAmount input "opvr" p.opvr
  so : SaysAmount input "so" p.so
  osms : SaysAmount input "osms" p.osms
  socialTax : SaysAmount input "social_tax" p.socialTax
  netWords : ∃ words, input.leafAt? ["net_words"] = some (.str words) ∧ readWordsRu words = some p.net.toNat

theorem printed_reads {tiyn : Int} (h : 0 ≤ tiyn) :
    ∃ text, printed tiyn = .ok text ∧ readTiynRu text = some tiyn.toNat := by
  obtain ⟨text, hText⟩ := formatTiynRu_prints h
  refine ⟨text, ?_, (readTiynRu_formatTiynRu hText).2⟩
  rw [printed, hText]
  rfl

theorem inWords_reads {tiyn : Int} (h : 0 ≤ tiyn ∧ tiyn ≤ maxTiyn) :
    ∃ words, inWords tiyn = .ok words ∧ readWordsRu words = some tiyn.toNat := by
  obtain ⟨words, hWords⟩ := toWordsRu_accepts h
  refine ⟨words, ?_, (readWordsRu_toWordsRu hWords).2⟩
  rw [inWords, hWords]
  rfl

/-- Nothing that is printed for a stored row can fail. -/
theorem payslipInput_says {p : Payslip} (h : p.Stored) (row : RunRow) (e : Hr.Employee) (organization : Organization) :
    ∃ input, payslipInput row p e organization = .ok input ∧ Says (.obj input) p := by
  obtain ⟨hMax, hSum⟩ := h.bounds
  obtain ⟨gross, hGross, hGrossReads⟩ := printed_reads h.checks.grossTiyn
  obtain ⟨opv, hOpv, hOpvReads⟩ := printed_reads h.checks.opv
  obtain ⟨vosms, hVosms, hVosmsReads⟩ := printed_reads h.checks.vosms
  obtain ⟨ipn, hIpn, hIpnReads⟩ := printed_reads h.checks.ipn
  obtain ⟨net, hNet, hNetReads⟩ := printed_reads h.checks.net
  obtain ⟨opvr, hOpvr, hOpvrReads⟩ := printed_reads h.checks.opvr
  obtain ⟨so, hSo, hSoReads⟩ := printed_reads h.checks.so
  obtain ⟨osms, hOsms, hOsmsReads⟩ := printed_reads h.checks.osms
  obtain ⟨socialTax, hSocialTax, hSocialTaxReads⟩ := printed_reads h.checks.socialTax
  -- The withholdings are not negative, so the net is at most the gross, which is in the range of the words.
  have hRange : 0 ≤ p.net ∧ p.net ≤ maxTiyn := by
    have hOpvSign := h.checks.opv
    have hVosmsSign := h.checks.vosms
    have hIpnSign := h.checks.ipn
    refine ⟨h.checks.net, ?_⟩
    unfold maxGrossTiyn at hMax
    unfold maxTiyn
    omega
  obtain ⟨words, hWords, hWordsRead⟩ := inWords_reads hRange
  have hInput : payslipInput row p e organization =
      .ok [("employee", employeeObject e), ("employer", orgObject organization), ("gross_tenge", .str gross),
        ("ipn", .str ipn), ("net", .str net), ("net_words", .str words), ("opv", .str opv), ("opvr", .str opvr),
        ("osms", .str osms), ("period_label", .str (periodLabelRu row.periodYear row.periodMonth)), ("so", .str so),
        ("social_tax", .str socialTax), ("vosms", .str vosms)] := by
    simp only [payslipInput, bind_eq_ok, pure_eq_ok]
    exact ⟨gross, hGross, opv, hOpv, vosms, hVosms, ipn, hIpn, net, hNet, opvr, hOpvr, so, hSo, osms, hOsms, socialTax,
      hSocialTax, words, hWords, rfl⟩
  exact ⟨_, hInput, {
      gross := ⟨gross, rfl, hGrossReads⟩
      opv := ⟨opv, rfl, hOpvReads⟩
      vosms := ⟨vosms, rfl, hVosmsReads⟩
      ipn := ⟨ipn, rfl, hIpnReads⟩
      net := ⟨net, rfl, hNetReads⟩
      opvr := ⟨opvr, rfl, hOpvrReads⟩
      so := ⟨so, rfl, hSoReads⟩
      osms := ⟨osms, rfl, hOsmsReads⟩
      socialTax := ⟨socialTax, rfl, hSocialTaxReads⟩
      netWords := ⟨words, rfl, hWordsRead⟩ }⟩

/-! ### The document -/

variable {w w' : ApprovalWorld} {run : Uuid} {row : RunRow} {p : PayslipRow}

theorem listPayslips_eq (w : ApprovalWorld) (run : Uuid) (row : RunRow) :
    w.listPayslips run row = (w.payslipsOf run).filter (·.orgId = row.orgId) := by
  rw [ApprovalWorld.listPayslips, ApprovalWorld.payslipsOf, List.filter_filter]
  simp only [Bool.decide_and, Bool.and_comm]

/-- The run lemma of `ApprovalOk.step`. -/
theorem ApprovalOk.along (hOk : ApprovalOk w) (hRun : Run ApprovalStep w w') : ApprovalOk w' ∧ ApprovalKeeps w w' :=
  ⟨hRun.invariant (fun _ _ hBefore hStep => (hBefore.step hStep).1) hOk,
    Run.relates (fun _ => .of_tables rfl rfl) (fun _ _ _ hAB hBC => hAB.trans hBC)
      (fun _ _ hBefore hStep => (hBefore.step hStep).1) (fun _ _ hBefore hStep => (hBefore.step hStep).2) hRun hOk⟩

/-- A run has one payslip for an employee. -/
theorem ApprovalOk.unique (hOk : ApprovalOk w) {q : PayslipRow} (hp : p ∈ w.payslips) (hq : q ∈ w.payslips)
    (hRun : q.runId = p.runId) (hEmployee : q.employeeId = p.employeeId) : q = p := by
  obtain ⟨row, hRow, -⟩ := hOk.payslips p hp
  obtain ⟨c, -, hOutput⟩ := hOk.output p.runId row hRow
  have hThere : p ∈ w.payslipsOf p.runId := List.mem_filter.mpr ⟨hp, decide_eq_true rfl⟩
  have hThere' : q ∈ w.payslipsOf p.runId := List.mem_filter.mpr ⟨hq, decide_eq_true hRun⟩
  exact List.inj_on_of_nodup_map hOutput.distinct hThere' hThere hEmployee

theorem ApprovalOk.find_payslip (hOk : ApprovalOk w) (hp : p ∈ w.listPayslips run row) :
    (w.listPayslips run row).find? (·.employeeId = p.employeeId) = some p := by
  have hSome : ((w.listPayslips run row).find? (·.employeeId = p.employeeId)).isSome :=
    List.find?_isSome.mpr ⟨p, hp, decide_eq_true rfl⟩
  obtain ⟨q, hq⟩ := Option.isSome_iff_exists.mp hSome
  have hEmployee : q.employeeId = p.employeeId := by simpa using List.find?_some hq
  obtain ⟨hThere, hHere⟩ := List.mem_filter.mp hp
  obtain ⟨hThere', hHere'⟩ := List.mem_filter.mp (List.mem_of_find?_eq_some hq)
  have hRun : q.runId = p.runId := (of_decide_eq_true hHere').1.trans (of_decide_eq_true hHere).1.symm
  rw [hq, hOk.unique hThere hThere' hRun hEmployee]

/-- A list without entries lets only an empty body pass. -/
theorem mergeAllowedExtra_none (input : List (String × Json)) {extra : List (String × Json)} (h : extra ≠ []) :
    ∃ refusal, (mergeAllowedExtra (.obj input) extra payslipAllowedExtraFields).1 = .error refusal := by
  unfold mergeAllowedExtra
  cases hCheck : validateExtraAllowlist payslipAllowedExtraFields extra "" with
  | error refusal => exact ⟨refusal, rfl⟩
  | ok _ =>
    have hTexts := (validateExtraAllowlist_ok payslipAllowedExtraFields extra "").mp hCheck
    obtain ⟨leaf, hLeaf⟩ := List.exists_mem_of_ne_nil _ (Json.leavesOf_ne_nil h)
    cases hTexts leaf hLeaf

theorem generatePayslip_found {payslips : List PayslipRow} {employeeId : Uuid} {e : Hr.Employee}
    {organization : Organization} {input : List (String × Json)}
    (hFound : payslips.find? (·.employeeId = employeeId) = some p)
    (hInput : payslipInput row p.amounts e organization = .ok input) (extra : List (String × Json)) :
    generatePayslip (some row) payslips employeeId (some e) (some organization) extra =
      (mergeAllowedExtra (.obj input) extra payslipAllowedExtraFields).1.mapError GenerateFault.refused >>= fun _ =>
        .ok (mergeAllowedExtra (.obj input) extra payslipAllowedExtraFields).2 := by
  show (orFail GenerateFault.notFound (payslips.find? (·.employeeId = employeeId)) >>= fun p =>
    payslipInput row p.amounts e organization >>= fun input =>
      (mergeAllowedExtra (.obj input) extra payslipAllowedExtraFields).1.mapError GenerateFault.refused >>= fun _ =>
        .ok (mergeAllowedExtra (.obj input) extra payslipAllowedExtraFields).2) = _
  rw [hFound]
  show (payslipInput row p.amounts e organization >>= fun input =>
      (mergeAllowedExtra (.obj input) extra payslipAllowedExtraFields).1.mapError GenerateFault.refused >>= fun _ =>
        .ok (mergeAllowedExtra (.obj input) extra payslipAllowedExtraFields).2) = _
  rw [hInput]
  rfl

end CyberAccountant.Payroll
