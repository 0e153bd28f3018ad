import CyberAccountant.Ledger.JournalService

/-! The two running totals of `create_draft`.  Each amount is at most eighteen digits, the number of
lines is not bounded: the totals are the exact sums as long as these fit a signed 64-bit integer, and
beyond that an addition overflows. -/

namespace CyberAccountant.Ledger

open CyberAccountant.Library

namespace JournalLine

/-- The amount in tiyn, zero where the text is none. -/
def tiyn (line : JournalLine) : Int :=
  match parseTiyn line.amount with
  | .ok tiyn => tiyn
  | .error _ => 0

def debit (line : JournalLine) : Int := if line.side = "debit" then line.tiyn else 0

def credit (line : JournalLine) : Int := if line.side = "credit" then line.tiyn else 0

/-- The loop adds the amount of the line: its text is one, and its side is one of the two. -/
def Counts (line : JournalLine) : Bool :=
  (parseTiyn line.amount).isOk && (line.side = "debit" || line.side = "credit")

end JournalLine

def debitSum (lines : List JournalLine) : Int := (lines.map JournalLine.debit).sum

def creditSum (lines : List JournalLine) : Int := (lines.map JournalLine.credit).sum

/-- What the loop looks up for a line once its amount is added. -/
def checkReferences (db : Db) (org : Uuid) (line : JournalLine) : Except JournalError Unit := do
  ensure (findVisible db.accounts org line.accountCode).isSome (.unknownAccount line.accountCode)
  match line.counterpartyId with
  | none => .ok ()
  | some id => ensure (⟨id, org⟩ ∈ db.counterparties) (.foreignCounterparty id)

/-- The lines whose amounts the loop adds: it ends at the first line that it refuses, which may be after
that line's amount is added. -/
def countedLines (db : Db) (org : Uuid) : List JournalLine → List JournalLine
  | [] => []
  | line :: lines =>
    if line.Counts then
      line :: (if (checkReferences db org line).isOk then countedLines db org lines else [])
    else []

/-! ### The loop with overflow as a fault of its own -/

inductive DraftFault where
  | refused (cause : JournalError)
  | overflow

/-- One round of the loop, in which an addition that overflows is a fault. -/
def addLine (db : Db) (org : Uuid) (totals : Int × Int) (line : JournalLine) :
    Except DraftFault (Int × Int) := do
  let tiyn ← (parseTiyn line.amount).mapError (.refused ∘ .malformedAmount line.amount)
  let totals ←
    if line.side = "debit" then
      (orFail .overflow (fit64? (totals.1 + tiyn))).map fun debit => (debit, totals.2)
    else if line.side = "credit" then
      (orFail .overflow (fit64? (totals.2 + tiyn))).map fun credit => (totals.1, credit)
    else .error (.refused (.badSide line.side))
  (checkReferences db org line).mapError .refused
  pure totals

/-- The checks of `create_draft`, in which an addition that overflows is a fault. -/
def addDraft (db : Db) (req : DraftRequest) : Except DraftFault Unit := do
  ensure (2 ≤ req.lines.length) (.refused (.tooFewLines req.lines.length))
  let totals ← req.lines.foldlM (addLine db req.orgId) (0, 0)
  ensure (totals.1 = totals.2) (.refused (.unbalancedEntry totals.1 totals.2))

/-! ### One round -/

section Round

variable {db : Db} {org : Uuid} {line : JournalLine} {d c : Int}

theorem tiyn_nonneg (line : JournalLine) : 0 ≤ line.tiyn ∧ line.tiyn ≤ 999999999999999999 := by
  unfold JournalLine.tiyn
  split
  · rename_i h
    have hBounds := parseTiyn_bounds h
    omega
  · omega

theorem debit_nonneg (line : JournalLine) : 0 ≤ line.debit ∧ line.debit ≤ 999999999999999999 := by
  have hTiyn := tiyn_nonneg line
  unfold JournalLine.debit
  split <;> omega

theorem credit_nonneg (line : JournalLine) : 0 ≤ line.credit ∧ line.credit ≤ 999999999999999999 := by
  have hTiyn := tiyn_nonneg line
  unfold JournalLine.credit
  split <;> omega

/-- A line whose amount the loop does not add is refused at once. -/
theorem refused_of_not_counts (h : line.Counts = false) :
    ∃ e, checkLine db org (d, c) line = .error e ∧ addLine db org (d, c) line = .error (.refused e) := by
  unfold JournalLine.Counts at h
  cases hParse : parseTiyn line.amount with
  | error fault =>
    refine ⟨.malformedAmount line.amount fault, ?_, ?_⟩
    · simp [checkLine, hParse, Except.mapError, bind, Except.bind]
    · simp [addLine, hParse, Except.mapError, bind, Except.bind]
  | ok tiyn =>
    simp only [hParse, Except.isOk, Except.toBool, Bool.true_and, Bool.or_eq_false_iff,
      decide_eq_false_iff_not] at h
    refine ⟨.badSide line.side, ?_, ?_⟩
    · simp [checkLine, hParse, h, Except.mapError, bind, Except.bind]
    · simp [addLine, hParse, h, Except.mapError, bind, Except.bind]

theorem of_counts (h : line.Counts = true) :
    parseTiyn line.amount = .ok line.tiyn ∧
      (line.side = "debit" ∧ line.debit = line.tiyn ∧ line.credit = 0 ∨
        line.side = "credit" ∧ line.debit = 0 ∧ line.credit = line.tiyn) := by
  unfold JournalLine.Counts at h
  unfold JournalLine.debit JournalLine.credit JournalLine.tiyn
  cases hParse : parseTiyn line.amount with
  | error fault => simp [hParse, Except.isOk, Except.toBool] at h
  | ok tiyn =>
    simp only [hParse, Except.isOk, Except.toBool, Bool.true_and, Bool.or_eq_true,
      decide_eq_true_eq] at h
    refine ⟨rfl, ?_⟩
    rcases h with hSide | hSide
    · left
      simp [hSide]
    · right
      simp [hSide]

/-- The source's round on a line whose amount it adds. -/
theorem checkLine_of_counts (h : line.Counts = true) (hD : InInt64 d) (hC : InInt64 c) :
    checkLine db org (d, c) line = (checkReferences db org line).map fun _ =>
      (wrap64 (d + line.debit), wrap64 (c + line.credit)) := by
  obtain ⟨hParse, hSide⟩ := of_counts h
  unfold checkLine checkReferences
  simp only [hParse, Except.mapError, bind, Except.bind, ensure]
  rcases hSide with ⟨hSide, hDebit, hCredit⟩ | ⟨hSide, hDebit, hCredit⟩
  · rw [hDebit, hCredit, Int.add_zero, wrap64_of_inInt64 hC, if_pos hSide]
    by_cases hVisible : (findVisible db.accounts org line.accountCode).isSome
    · rw [if_pos hVisible]
      cases line.counterpartyId with
      | none => rfl
      | some id => by_cases hParty : ⟨id, org⟩ ∈ db.counterparties <;> simp [hParty, Except.map]
    · simp [hVisible, Except.map]
  · have hNotDebit : line.side ≠ "debit" := by simp [hSide]
    rw [hDebit, hCredit, Int.add_zero, wrap64_of_inInt64 hD, if_neg hNotDebit, if_pos hSide]
    by_cases hVisible : (findVisible db.accounts org line.accountCode).isSome
    · rw [if_pos hVisible]
      cases line.counterpartyId with
      | none => rfl
      | some id => by_cases hParty : ⟨id, org⟩ ∈ db.counterparties <;> simp [hParty, Except.map]
    · simp [hVisible, Except.map]

theorem addLine_of_counts (h : line.Counts = true) (hD : InInt64 d) (hC : InInt64 c) :
    addLine db org (d, c) line =
      if InInt64 (d + line.debit) ∧ InInt64 (c + line.credit) then
        ((checkReferences db org line).mapError .refused).map fun _ => (d + line.debit, c + line.credit)
      else .error .overflow := by
  obtain ⟨hParse, hSide⟩ := of_counts h
  unfold addLine
  simp only [hParse, Except.mapError, bind, Except.bind]
  rcases hSide with ⟨hSide, hDebit, hCredit⟩ | ⟨hSide, hDebit, hCredit⟩
  · rw [if_pos hSide, hDebit, hCredit, Int.add_zero]
    by_cases hFits : InInt64 (d + line.tiyn)
    · rw [if_pos ⟨hFits, hC⟩, fit64?_of hFits]
      cases checkReferences db org line <;> rfl
    · simp [fit64?, hFits, orFail, Except.map]
  · have hNotDebit : line.side ≠ "debit" := by simp [hSide]
    rw [if_neg hNotDebit, if_pos hSide, hDebit, hCredit, Int.add_zero]
    by_cases hFits : InInt64 (c + line.tiyn)
    · rw [if_pos ⟨hD, hFits⟩, fit64?_of hFits]
      cases checkReferences db org line <;> rfl
    · simp [fit64?, hFits, orFail, Except.map]

/-- No round refuses its line as unbalanced. -/
theorem checkLine_ne_unbalanced {totals : Int × Int} {x y : Int} :
    checkLine db org totals line ≠ .error (.unbalancedEntry x y) := by
  unfold checkLine
  cases parseTiyn line.amount with
  | error fault => simp [Except.mapError, bind, Except.bind]
  | ok tiyn =>
    simp only [Except.mapError, bind, Except.bind, ensure]
    grind

end Round

/-! ### The whole loop -/

section Loop

variable {db : Db} {org : Uuid} {line : JournalLine} {lines : List JournalLine} {d c : Int}

@[simp] theorem debitSum_cons (line : JournalLine) (lines : List JournalLine) :
    debitSum (line :: lines) = line.debit + debitSum lines := by
  simp [debitSum]

@[simp] theorem creditSum_cons (line : JournalLine) (lines : List JournalLine) :
    creditSum (line :: lines) = line.credit + creditSum lines := by
  simp [creditSum]

theorem sums_nonneg (lines : List JournalLine) : 0 ≤ debitSum lines ∧ 0 ≤ creditSum lines := by
  induction lines with
  | nil => simp [debitSum, creditSum]
  | cons line lines ih =>
    have hDebit := debit_nonneg line
    have hCredit := credit_nonneg line
    rw [debitSum_cons, creditSum_cons]
    omega

theorem countedLines_refused (h : line.Counts = false) : countedLines db org (line :: lines) = [] := by
  simp [countedLines, h]

theorem countedLines_last (h : line.Counts = true) {e : JournalError}
    (hRefs : checkReferences db org line = .error e) : countedLines db org (line :: lines) = [line] := by
  simp [countedLines, h, hRefs, Except.isOk, Except.toBool]

theorem countedLines_next (h : line.Counts = true) (hRefs : checkReferences db org line = .ok ()) :
    countedLines db org (line :: lines) = line :: countedLines db org lines := by
  simp [countedLines, h, hRefs, Except.isOk, Except.toBool]

/-- Two totals, with the amounts of `lines` still to be added, stay those of a signed 64-bit integer. -/
def TotalsFit (d c : Int) (lines : List JournalLine) : Prop :=
  d + debitSum lines < 9223372036854775808 ∧ c + creditSum lines < 9223372036854775808

@[simp] theorem totalsFit_nil : TotalsFit d c [] ↔ d < 9223372036854775808 ∧ c < 9223372036854775808 := by
  simp [TotalsFit, debitSum, creditSum]

@[simp] theorem totalsFit_cons :
    TotalsFit d c (line :: lines) ↔ TotalsFit (d + line.debit) (c + line.credit) lines := by
  simp [TotalsFit, Int.add_assoc]

theorem TotalsFit.start (h : TotalsFit d c lines) (hD : 0 ≤ d) (hC : 0 ≤ c) : InInt64 d ∧ InInt64 c := by
  obtain ⟨hDebit, hCredit⟩ := h
  obtain ⟨hDebitSum, hCreditSum⟩ := sums_nonneg lines
  exact ⟨⟨by omega, by omega⟩, ⟨by omega, by omega⟩⟩

/-- The loop refuses no line as unbalanced: that is left to the comparison after it. -/
theorem loop_ne_unbalanced {totals : Int × Int} {x y : Int} :
    lines.foldlM (checkLine db org) totals ≠ .error (.unbalancedEntry x y) := by
  induction lines generalizing totals with
  | nil => simp [pure, Except.pure]
  | cons line lines ih =>
    rw [List.foldlM_cons]
    cases hLine : checkLine db org totals line with
    | error e =>
      intro h
      apply checkLine_ne_unbalanced
      exact hLine.trans h
    | ok next => exact ih

/-- While the sums of the amounts it adds fit, the loop is the one without overflow, and where it ends
it has the exact sums. -/
theorem loop_fits (hD : 0 ≤ d) (hC : 0 ≤ c) (hFit : TotalsFit d c (countedLines db org lines)) :
    lines.foldlM (addLine db org) (d, c) =
        (lines.foldlM (checkLine db org) (d, c)).mapError .refused ∧
      ∀ totals, lines.foldlM (checkLine db org) (d, c) = .ok totals →
        totals = (d + debitSum lines, c + creditSum lines) := by
  induction lines generalizing d c with
  | nil => simp [pure, Except.pure, Except.mapError, debitSum, creditSum]
  | cons line lines ih =>
    obtain ⟨hDFits, hCFits⟩ := hFit.start hD hC
    rw [List.foldlM_cons, List.foldlM_cons]
    cases hCounts : line.Counts with
    | false =>
      obtain ⟨e, hCheck, hAdd⟩ := refused_of_not_counts hCounts
      rw [hCheck, hAdd]
      exact ⟨rfl, fun totals h => nomatch h⟩
    | true =>
      have hNextD : 0 ≤ d + line.debit := by have := debit_nonneg line; omega
      have hNextC : 0 ≤ c + line.credit := by have := credit_nonneg line; omega
      rw [checkLine_of_counts hCounts hDFits hCFits, addLine_of_counts hCounts hDFits hCFits]
      cases hRefs : checkReferences db org line with
      | error e =>
        rw [countedLines_last hCounts hRefs, totalsFit_cons] at hFit
        rw [if_pos (hFit.start hNextD hNextC)]
        exact ⟨rfl, fun totals h => nomatch h⟩
      | ok =>
        rw [countedLines_next hCounts hRefs, totalsFit_cons] at hFit
        have hFits := hFit.start hNextD hNextC
        rw [if_pos hFits, wrap64_of_inInt64 hFits.1, wrap64_of_inInt64 hFits.2, debitSum_cons,
          creditSum_cons, ← Int.add_assoc, ← Int.add_assoc]
        exact ih hNextD hNextC hFit

/-- Once a sum of the amounts it adds does not fit, an addition overflows. -/
theorem loop_overflows (hD : 0 ≤ d) (hC : 0 ≤ c) (hDFits : InInt64 d) (hCFits : InInt64 c)
    (hFit : ¬TotalsFit d c (countedLines db org lines)) :
    lines.foldlM (addLine db org) (d, c) = .error .overflow := by
  induction lines generalizing d c with
  | nil => exact absurd (totalsFit_nil.mpr ⟨hDFits.2, hCFits.2⟩) hFit
  | cons line lines ih =>
    rw [List.foldlM_cons]
    cases hCounts : line.Counts with
    | false =>
      rw [countedLines_refused hCounts] at hFit
      exact absurd (totalsFit_nil.mpr ⟨hDFits.2, hCFits.2⟩) hFit
    | true =>
      have hNextD : 0 ≤ d + line.debit := by have := debit_nonneg line; omega
      have hNextC : 0 ≤ c + line.credit := by have := credit_nonneg line; omega
      rw [addLine_of_counts hCounts hDFits hCFits]
      split
      · rename_i hFits
        cases hRefs : checkReferences db org line with
        | error e =>
          rw [countedLines_last hCounts hRefs, totalsFit_cons] at hFit
          exact absurd (totalsFit_nil.mpr ⟨hFits.1.2, hFits.2.2⟩) hFit
        | ok =>
          rw [countedLines_next hCounts hRefs, totalsFit_cons] at hFit
          exact ih hNextD hNextC hFits.1 hFits.2 hFit
      · rfl

end Loop

/-! ### The checks -/

/-- What the two totals are kept for: an accepted entry balances, a balanced one is not refused as
unbalanced, and no addition on the way overflows. -/
structure BalancesExactly (db : Db) (req : DraftRequest) : Prop where
  accepted : checkDraft db req = .ok () → debitSum req.lines = creditSum req.lines
  notRefused : debitSum req.lines = creditSum req.lines →
    ∀ debit credit, checkDraft db req ≠ .error (.unbalancedEntry debit credit)
  noOverflow : addDraft db req ≠ .error .overflow

section Draft

variable {db : Db} {req : DraftRequest}

/-- Past the count of the lines, the checks are the loop and the comparison. -/
theorem checkDraft_eq (h : 2 ≤ req.lines.length) :
    checkDraft db req = (req.lines.foldlM (checkLine db req.orgId) (0, 0) >>= fun totals =>
      ensure (totals.1 = totals.2) (.unbalancedEntry totals.1 totals.2)) := by
  simp [checkDraft, ensure, h, bind, Except.bind]

theorem addDraft_eq (h : 2 ≤ req.lines.length) :
    addDraft db req = (req.lines.foldlM (addLine db req.orgId) (0, 0) >>= fun totals =>
      ensure (totals.1 = totals.2) (.refused (.unbalancedEntry totals.1 totals.2))) := by
  simp [addDraft, ensure, h, bind, Except.bind]

theorem checks_of_short (h : ¬2 ≤ req.lines.length) : checkDraft db req =
    .error (.tooFewLines req.lines.length) ∧
      addDraft db req = .error (.refused (.tooFewLines req.lines.length)) := by
  simp [checkDraft, addDraft, ensure, h, bind, Except.bind]

theorem totalsFit_of_short (h : ¬2 ≤ req.lines.length) :
    TotalsFit 0 0 (countedLines db req.orgId req.lines) := by
  match hLines : req.lines with
  | [] => exact totalsFit_nil.mpr ⟨by decide, by decide⟩
  | [line] =>
    have hDebit := debit_nonneg line
    have hCredit := credit_nonneg line
    have hNone : countedLines db req.orgId [] = [] := rfl
    unfold countedLines
    rw [hNone, ite_self]
    split
    · rw [totalsFit_cons, totalsFit_nil]
      omega
    · exact totalsFit_nil.mpr ⟨by decide, by decide⟩
  | _ :: _ :: rest =>
    rw [hLines] at h
    simp at h

theorem balancesExactly_of_fit (h : TotalsFit 0 0 (countedLines db req.orgId req.lines)) :
    BalancesExactly db req := by
  by_cases hLength : 2 ≤ req.lines.length
  · obtain ⟨hLoop, hTotals⟩ := loop_fits (Int.le_refl 0) (Int.le_refl 0) h
    have hCheck := @checkDraft_eq db req hLength
    have hAdd := @addDraft_eq db req hLength
    rw [hLoop] at hAdd
    simp only [Int.zero_add] at hTotals
    cases hRun : req.lines.foldlM (checkLine db req.orgId) (0, 0) with
    | error e =>
      rw [hRun] at hCheck hAdd
      constructor
      case accepted => exact fun hOk => nomatch hCheck.symm.trans hOk
      case notRefused =>
        intro _ debit credit hRefused
        obtain rfl := Except.error.inj (hCheck.symm.trans hRefused)
        exact loop_ne_unbalanced hRun
      case noOverflow => exact fun hOverflow => nomatch hAdd.symm.trans hOverflow
    | ok totals =>
      obtain rfl := hTotals totals hRun
      rw [hRun] at hCheck hAdd
      have hCompare : checkDraft db req = ensure (debitSum req.lines = creditSum req.lines)
        (.unbalancedEntry (debitSum req.lines) (creditSum req.lines)) := hCheck
      have hCompareAdd : addDraft db req = ensure (debitSum req.lines = creditSum req.lines)
        (.refused (.unbalancedEntry (debitSum req.lines) (creditSum req.lines))) := hAdd
      constructor
      case accepted => simp [hCompare]
      case notRefused => exact fun hEqual _ _ => by simp [hCompare, ensure, hEqual]
      case noOverflow =>
        rw [hCompareAdd]
        unfold ensure
        split <;> simp
  · obtain ⟨hCheck, hAdd⟩ := @checks_of_short db req hLength
    constructor <;> simp [hCheck, hAdd]

/-- `create_draft` accepts exactly the balanced entries, without overflow, as long as the debit amounts
and the credit amounts that its loop adds each total less than `2^63` tiyn. -/
theorem balancesExactly_iff (db : Db) (req : DraftRequest) : BalancesExactly db req ↔
    debitSum (countedLines db req.orgId req.lines) < 9223372036854775808 ∧
      creditSum (countedLines db req.orgId req.lines) < 9223372036854775808 := by
  have hFit : TotalsFit 0 0 (countedLines db req.orgId req.lines) ↔
      debitSum (countedLines db req.orgId req.lines) < 9223372036854775808 ∧
      creditSum (countedLines db req.orgId req.lines) < 9223372036854775808 := by
    simp [TotalsFit]
  rw [← hFit]
  constructor
  · intro hExact
    by_contra hOver
    have hLength : 2 ≤ req.lines.length := by
      by_contra hShort
      exact hOver (totalsFit_of_short hShort)
    apply hExact.noOverflow
    rw [addDraft_eq hLength, loop_overflows (Int.le_refl 0) (Int.le_refl 0) (by decide) (by decide) hOver]
    rfl
  · exact balancesExactly_of_fit

end Draft

/-- A line on the settlements with employees, which every organisation sees. -/
def settlementLine (side amount : String) : JournalLine := ⟨"3350", side, amount, none, none⟩

/-- Nineteen debits of `2^64 + 1` tiyn together against one credit of one tiyn. -/
def overflowRequest : DraftRequest where
  orgId := 1
  userId := 7
  entryDate := ⟨2026, 3, 31, by decide⟩
  description := "Overflow"
  lines := List.replicate 18 (settlementLine "debit" "9999999999999999.99") ++
    [settlementLine "debit" "4467440737095516.35", settlementLine "credit" "0.01"]

def chartOnly : Db := ⟨[], [], systemChart, [], Table.empty, []⟩

/-- `create_draft` takes an entry whose debits exceed its credits by `2^64` tiyn. -/
theorem overflow_accepted : checkDraft chartOnly overflowRequest = .ok () ∧
    debitSum overflowRequest.lines = 18446744073709551617 ∧ creditSum overflowRequest.lines = 1 ∧
    ¬BalancesExactly chartOnly overflowRequest := by
  have hOk : checkDraft chartOnly overflowRequest = .ok () := by decide +kernel
  have hDebit : debitSum overflowRequest.lines = 18446744073709551617 := by decide +kernel
  have hCredit : creditSum overflowRequest.lines = 1 := by decide +kernel
  refine ⟨hOk, hDebit, hCredit, fun hExact => ?_⟩
  have hEqual := hExact.accepted hOk
  rw [hDebit, hCredit] at hEqual
  exact absurd hEqual (by decide)

end CyberAccountant.Ledger
