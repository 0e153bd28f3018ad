import CyberAccountant.Ledger.JournalService
import CyberAccountant.Payroll.Calculator
import Mathlib.Algebra.Order.BigOperators.Group.List
import Mathlib.Algebra.Order.Ring.Int

/-! The journal lines of a payroll run: the columns of its payslips summed, one line for each account,
no line for a sum of zero. -/

namespace CyberAccountant.Payroll

open CyberAccountant.Library CyberAccountant.Ledger

/-- The amounts of a row of `payslips`. -/
structure Payslip where
  grossTiyn : Int
  opv : Int
  vosms : Int
  ipn : Int
  net : Int
  opvr : Int
  so : Int
  osms : Int
  socialTax : Int
  deriving DecidableEq

namespace Payslip

/-- The column checks of `payslips`. -/
structure Checks (p : Payslip) : Prop where
  grossTiyn : 0 ≤ p.grossTiyn
  opv : 0 ≤ p.opv
  vosms : 0 ≤ p.vosms
  ipn : 0 ≤ p.ipn
  net : 0 ≤ p.net
  opvr : 0 ≤ p.opvr
  so : 0 ≤ p.so
  osms : 0 ≤ p.osms
  socialTax : 0 ≤ p.socialTax

/-- The row that `calculate_run` inserts for a result. -/
def ofResult (grossTiyn : Int) (result : Result) : Payslip :=
  ⟨grossTiyn, result.opv, result.vosms, result.ipn, result.net, result.opvr, result.so, result.osms,
    result.socialTax⟩

/-- The row is one that the calculator produces. -/
def Calculated (p : Payslip) : Prop :=
  ∃ input rates result, calculate input rates = .ok result ∧ p = ofResult input.grossTiyn result

/-- What the employee costs the employer. -/
def employerCost (p : Payslip) : Int := p.grossTiyn + p.opvr + p.so + p.osms + p.socialTax

end Payslip

/-- The sum of one column. -/
def columnTotal (column : Payslip → Int) (payslips : List Payslip) : Int :=
  payslips.foldl (fun total p => wrap64 (total + column p)) 0

structure Totals where
  gross : Int
  opv : Int
  vosms : Int
  ipn : Int
  net : Int
  opvr : Int
  so : Int
  osms : Int
  socialTax : Int

/-- The nine running sums of the loop over the payslips. -/
def totals (payslips : List Payslip) : Totals where
  gross := columnTotal Payslip.grossTiyn payslips
  opv := columnTotal Payslip.opv payslips
  vosms := columnTotal Payslip.vosms payslips
  ipn := columnTotal Payslip.ipn payslips
  net := columnTotal Payslip.net payslips
  opvr := columnTotal Payslip.opvr payslips
  so := columnTotal Payslip.so payslips
  osms := columnTotal Payslip.osms payslips
  socialTax := columnTotal Payslip.socialTax payslips

/-- What one account gets. -/
structure Bucket where
  accountCode : String
  side : Side
  amountTiyn : Int

def Totals.debit (t : Totals) : Int :=
  wrap64 (wrap64 (wrap64 (wrap64 (t.gross + t.opvr) + t.so) + t.osms) + t.socialTax)

def Totals.credits (t : Totals) : List Bucket :=
  [⟨"3350", .credit, t.net⟩, ⟨"3120", .credit, t.ipn⟩, ⟨"3220", .credit, wrap64 (t.opv + t.opvr)⟩,
    ⟨"3210", .credit, t.so⟩, ⟨"3230", .credit, wrap64 (t.osms + t.vosms)⟩,
    ⟨"3150", .credit, t.socialTax⟩]

def Totals.buckets (t : Totals) : List Bucket := ⟨"7210", .debit, t.debit⟩ :: t.credits

/-- `add_line`. -/
def addLine (lines : List JournalLine) (b : Bucket) : Except String (List JournalLine) :=
  if b.amountTiyn = 0 then .ok lines
  else do
    let amount ← formatTiyn b.amountTiyn
    pure (lines ++ [⟨b.accountCode, b.side.text, amount, none, none⟩])

/-- The lines that `post_to_journal` builds. -/
def postingLines (payslips : List Payslip) : Except String (List JournalLine) :=
  (totals payslips).buckets.foldlM addLine []

/-! ### The sums -/

theorem columnTotal_eq {column : Payslip → Int} {payslips : List Payslip}
    (h : InInt64 (payslips.map column).sum) :
    columnTotal column payslips = (payslips.map column).sum := by
  unfold columnTotal
  rw [foldl_wrap64_add column payslips (by decide), Int.zero_add, wrap64_of_inInt64 h]

/-- The exact sums, which are not negative, and of which the debit is made as the credits are. -/
structure ExactTotals (payslips : List Payslip) (t : Totals) : Prop where
  nonNeg : 0 ≤ t.gross ∧ 0 ≤ t.opv ∧ 0 ≤ t.vosms ∧ 0 ≤ t.ipn ∧ 0 ≤ t.net ∧ 0 ≤ t.opvr ∧ 0 ≤ t.so ∧
    0 ≤ t.osms ∧ 0 ≤ t.socialTax
  withheld : t.net = t.gross - t.opv - t.vosms - t.ipn
  cost : t.gross + t.opvr + t.so + t.osms + t.socialTax = (payslips.map Payslip.employerCost).sum

theorem sum_nonNeg {f : Payslip → Int} {payslips : List Payslip} (h : ∀ p ∈ payslips, 0 ≤ f p) :
    0 ≤ (payslips.map f).sum := by
  refine List.sum_nonneg fun x hx => ?_
  obtain ⟨p, hp, rfl⟩ := List.mem_map.mp hx
  exact h p hp

theorem Payslip.Calculated.net {p : Payslip} (h : p.Calculated) :
    p.net = p.grossTiyn - p.opv - p.vosms - p.ipn := by
  obtain ⟨input, rates, result, hResult, rfl⟩ := h
  exact (calculate_net hResult).2.2

/-- Without wrapping, the column sums of calculated payslips satisfy the calculator's identity. -/
theorem exactSums {payslips : List Payslip} (hChecks : ∀ p ∈ payslips, p.Checks)
    (hCalculated : ∀ p ∈ payslips, p.Calculated) :
    ExactTotals payslips ⟨(payslips.map Payslip.grossTiyn).sum, (payslips.map Payslip.opv).sum,
      (payslips.map Payslip.vosms).sum, (payslips.map Payslip.ipn).sum, (payslips.map Payslip.net).sum,
      (payslips.map Payslip.opvr).sum, (payslips.map Payslip.so).sum, (payslips.map Payslip.osms).sum,
      (payslips.map Payslip.socialTax).sum⟩ where
  nonNeg := ⟨sum_nonNeg fun p hp => (hChecks p hp).grossTiyn, sum_nonNeg fun p hp => (hChecks p hp).opv,
    sum_nonNeg fun p hp => (hChecks p hp).vosms, sum_nonNeg fun p hp => (hChecks p hp).ipn,
    sum_nonNeg fun p hp => (hChecks p hp).net, sum_nonNeg fun p hp => (hChecks p hp).opvr,
    sum_nonNeg fun p hp => (hChecks p hp).so, sum_nonNeg fun p hp => (hChecks p hp).osms,
    sum_nonNeg fun p hp => (hChecks p hp).socialTax⟩
  withheld := by
    induction payslips with
    | nil => rfl
    | cons p ps ih =>
      have hHead := (hCalculated p List.mem_cons_self).net
      have hTail := ih (fun q hq => hChecks q (List.mem_cons_of_mem _ hq))
        fun q hq => hCalculated q (List.mem_cons_of_mem _ hq)
      simp only [List.map_cons, List.sum_cons] at hTail ⊢
      omega
  cost := by
    clear hChecks hCalculated
    induction payslips with
    | nil => rfl
    | cons p ps ih =>
      simp only [List.map_cons, List.sum_cons, Payslip.employerCost] at ih ⊢
      omega

/-- Where the cost fits the journal's columns, no running sum wraps. -/
theorem totals_exact {payslips : List Payslip} (hChecks : ∀ p ∈ payslips, p.Checks)
    (hCalculated : ∀ p ∈ payslips, p.Calculated)
    (hTotal : (payslips.map Payslip.employerCost).sum ≤ 999999999999999999) :
    ExactTotals payslips (totals payslips) := by
  have hSums := exactSums hChecks hCalculated
  obtain ⟨hGross, hOpv, hVosms, hIpn, hNet, hOpvr, hSo, hOsms, hSocial⟩ := hSums.nonNeg
  have hWithheld := hSums.withheld
  have hCost := hSums.cost
  simp only at hGross hOpv hVosms hIpn hNet hOpvr hSo hOsms hSocial hWithheld hCost
  have hExact : totals payslips = ⟨(payslips.map Payslip.grossTiyn).sum, (payslips.map Payslip.opv).sum,
      (payslips.map Payslip.vosms).sum, (payslips.map Payslip.ipn).sum, (payslips.map Payslip.net).sum,
      (payslips.map Payslip.opvr).sum, (payslips.map Payslip.so).sum, (payslips.map Payslip.osms).sum,
      (payslips.map Payslip.socialTax).sum⟩ := by
    unfold totals
    rw [columnTotal_eq ⟨by omega, by omega⟩, columnTotal_eq ⟨by omega, by omega⟩,
      columnTotal_eq ⟨by omega, by omega⟩, columnTotal_eq ⟨by omega, by omega⟩,
      columnTotal_eq ⟨by omega, by omega⟩, columnTotal_eq ⟨by omega, by omega⟩,
      columnTotal_eq ⟨by omega, by omega⟩, columnTotal_eq ⟨by omega, by omega⟩,
      columnTotal_eq ⟨by omega, by omega⟩]
  rw [hExact]
  exact hSums

/-! ### The lines -/

/-- The sum of the buckets on one side. -/
def bucketTotal (side : Side) (bs : List Bucket) : Int :=
  ((bs.filter (·.side = side)).map Bucket.amountTiyn).sum

/-- The line of a bucket whose amount is not negative. -/
def Bucket.line (b : Bucket) : JournalLine :=
  ⟨b.accountCode, b.side.text, tiynText b.amountTiyn.toNat, none, none⟩

/-- The amounts are ones that a journal line can say, zero apart. -/
def Payable (bs : List Bucket) : Prop :=
  ∀ b ∈ bs, 0 ≤ b.amountTiyn ∧ b.amountTiyn ≤ 999999999999999999

/-- The buckets that get a line. -/
def withLines (bs : List Bucket) : List Bucket := bs.filter (·.amountTiyn ≠ 0)

theorem foldlM_addLine {bs : List Bucket} (h : Payable bs) (lines : List JournalLine) :
    bs.foldlM addLine lines = .ok (lines ++ (withLines bs).map Bucket.line) := by
  induction bs generalizing lines with
  | nil => simp [withLines, pure, Except.pure]
  | cons b bs ih =>
    have hTail : Payable bs := fun c hc => h c (List.mem_cons_of_mem _ hc)
    have hNonNeg := (h b List.mem_cons_self).1
    rw [List.foldlM_cons]
    by_cases hZero : b.amountTiyn = 0
    · have hStep : addLine lines b = .ok lines := if_pos hZero
      rw [bind_eq_ok]
      exact ⟨lines, hStep, by rw [ih hTail]; simp [withLines, hZero]⟩
    · have hStep : addLine lines b = .ok (lines ++ [b.line]) := by
        unfold addLine
        rw [if_neg hZero, formatTiyn_ok hNonNeg]
        rfl
      rw [bind_eq_ok]
      exact ⟨lines ++ [b.line], hStep, by rw [ih hTail]; simp [withLines, hZero]⟩

theorem parse_line {b : Bucket} (hPos : 0 < b.amountTiyn) (hMax : b.amountTiyn ≤ 999999999999999999) :
    parseTiyn b.line.amount = .ok b.amountTiyn := by
  have hParse : parseTiyn (tiynText b.amountTiyn.toNat) = .ok (b.amountTiyn.toNat : Int) :=
    parseTiyn_tiynText (by omega) (by omega)
  rw [Int.toNat_of_nonneg (by omega)] at hParse
  exact hParse

/-- Buckets of zero do not count. -/
theorem bucketTotal_withLines (side : Side) (bs : List Bucket) :
    bucketTotal side (withLines bs) = bucketTotal side bs := by
  induction bs with
  | nil => rfl
  | cons b bs ih =>
    by_cases hZero : b.amountTiyn = 0 <;> by_cases hSide : b.side = side <;>
      simp_all [withLines, bucketTotal]

/-- The loop of `create_draft` over lines that say their amounts keeps the two totals. -/
theorem checkLines {db : Db} {org : Uuid} {bs : List Bucket}
    (hPositive : ∀ b ∈ bs, 0 < b.amountTiyn ∧ b.amountTiyn ≤ 999999999999999999)
    (hVisible : ∀ b ∈ bs, (findVisible db.accounts org b.accountCode).isSome) {debit credit : Int}
    (hDebit : InInt64 debit) (hCredit : InInt64 credit) :
    (bs.map Bucket.line).foldlM (checkLine db org) (debit, credit) =
      .ok (wrap64 (debit + bucketTotal .debit bs), wrap64 (credit + bucketTotal .credit bs)) := by
  induction bs generalizing debit credit with
  | nil => simp [bucketTotal, pure, Except.pure, wrap64_of_inInt64 hDebit, wrap64_of_inInt64 hCredit]
  | cons b bs ih =>
    have hParse := parse_line (hPositive b List.mem_cons_self).1 (hPositive b List.mem_cons_self).2
    have hSees := hVisible b List.mem_cons_self
    have hRest := fun c hc => hPositive c (List.mem_cons_of_mem b hc)
    have hRestSees := fun c hc => hVisible c (List.mem_cons_of_mem b hc)
    rw [List.map_cons, List.foldlM_cons, bind_eq_ok]
    cases hSide : b.side with
    | debit =>
      refine ⟨(wrap64 (debit + b.amountTiyn), credit), ?_, ?_⟩
      · simp only [checkLine, hParse, Except.mapError, bind_eq_ok]
        simp [Bucket.line, hSide, Side.text, hSees]
      · rw [ih hRest hRestSees (inInt64_wrap64 _) hCredit, wrap64_wrap64_add]
        simp [bucketTotal, hSide, Int.add_assoc]
    | credit =>
      refine ⟨(debit, wrap64 (credit + b.amountTiyn)), ?_, ?_⟩
      · simp only [checkLine, hParse, Except.mapError, bind_eq_ok]
        simp [Bucket.line, hSide, Side.text, hSees]
      · rw [ih hRest hRestSees hDebit (inInt64_wrap64 _), wrap64_wrap64_add]
        simp [bucketTotal, hSide, Int.add_assoc]

/-! ### The entry -/

section exact

variable {payslips : List Payslip} {t : Totals} (hExact : ExactTotals payslips t)
  (hTotal : (payslips.map Payslip.employerCost).sum ≤ 999999999999999999)
include hExact hTotal

/-- No sum within the buckets wraps either. -/
theorem ExactTotals.buckets_eq : t.debit = (payslips.map Payslip.employerCost).sum ∧
    t.credits = [⟨"3350", .credit, t.net⟩, ⟨"3120", .credit, t.ipn⟩, ⟨"3220", .credit, t.opv + t.opvr⟩,
      ⟨"3210", .credit, t.so⟩, ⟨"3230", .credit, t.osms + t.vosms⟩,
      ⟨"3150", .credit, t.socialTax⟩] := by
  obtain ⟨hGross, hOpv, hVosms, hIpn, hNet, hOpvr, hSo, hOsms, hSocial⟩ := hExact.nonNeg
  have hWithheld := hExact.withheld
  have hCost := hExact.cost
  have hPension : wrap64 (t.opv + t.opvr) = t.opv + t.opvr := wrap64_of_inInt64 ⟨by omega, by omega⟩
  have hMedical : wrap64 (t.osms + t.vosms) = t.osms + t.vosms :=
    wrap64_of_inInt64 ⟨by omega, by omega⟩
  have hDebit : t.debit = t.gross + t.opvr + t.so + t.osms + t.socialTax := by
    unfold Totals.debit
    rw [wrap64_of_inInt64 (x := t.gross + t.opvr) ⟨by omega, by omega⟩,
      wrap64_of_inInt64 (x := t.gross + t.opvr + t.so) ⟨by omega, by omega⟩,
      wrap64_of_inInt64 (x := t.gross + t.opvr + t.so + t.osms) ⟨by omega, by omega⟩]
    exact wrap64_of_inInt64 ⟨by omega, by omega⟩
  exact ⟨hDebit.trans hCost, by rw [Totals.credits, hPension, hMedical]⟩

theorem ExactTotals.payable : Payable t.buckets := by
  obtain ⟨hGross, hOpv, hVosms, hIpn, hNet, hOpvr, hSo, hOsms, hSocial⟩ := hExact.nonNeg
  have hWithheld := hExact.withheld
  have hCost := hExact.cost
  obtain ⟨hDebit, hCredits⟩ := hExact.buckets_eq hTotal
  intro b hb
  rw [Totals.buckets, hCredits] at hb
  simp only [List.mem_cons, List.not_mem_nil, or_false] at hb
  rcases hb with rfl | rfl | rfl | rfl | rfl | rfl | rfl <;> constructor <;> dsimp only <;> omega

/-- Every tiyn of the debit is credited to one account. -/
theorem ExactTotals.balance : bucketTotal .debit t.buckets = bucketTotal .credit t.buckets := by
  have hWithheld := hExact.withheld
  have hCost := hExact.cost
  obtain ⟨hDebit, hCredits⟩ := hExact.buckets_eq hTotal
  rw [Totals.buckets, hCredits, hDebit]
  simp only [bucketTotal, List.filter_cons, reduceCtorEq, decide_true, decide_false, if_true, List.filter_nil,
    List.map_cons, List.map_nil, List.sum_cons, List.sum_nil, Bool.false_eq_true, if_false]
  omega

/-- A debit that is not zero comes with a credit that is not. -/
theorem ExactTotals.two_lines (hSome : ∃ b ∈ t.buckets, 0 < b.amountTiyn) :
    2 ≤ (withLines t.buckets).length := by
  have hPayable := hExact.payable hTotal
  have hBalance := hExact.balance hTotal
  have hSides : ∀ b ∈ t.credits, b.side = .credit := by simp [Totals.credits]
  have hDebitTotal : bucketTotal .debit t.buckets = t.debit := by
    have hNone : t.credits.filter (·.side = .debit) = [] :=
      List.filter_eq_nil_iff.mpr fun b hb => by simp [hSides b hb]
    simp [bucketTotal, Totals.buckets, hNone]
  have hCreditTotal : bucketTotal .credit t.buckets = (t.credits.map Bucket.amountTiyn).sum := by
    have hAll : t.credits.filter (·.side = .credit) = t.credits :=
      List.filter_eq_self.mpr fun b hb => by simp [hSides b hb]
    simp [bucketTotal, Totals.buckets, hAll]
  -- A credit that is not zero: otherwise the debit, which is their sum, would be zero too.
  have hCredit : withLines t.credits ≠ [] := by
    intro hNone
    have hZero : ∀ b ∈ t.credits, b.amountTiyn = 0 := fun b hb => by
      simpa using List.filter_eq_nil_iff.mp hNone b hb
    have hSum : (t.credits.map Bucket.amountTiyn).sum = 0 := List.sum_eq_zero fun x hx => by
      obtain ⟨b, hb, rfl⟩ := List.mem_map.mp hx
      exact hZero b hb
    obtain ⟨b, hb, hPos⟩ := hSome
    rcases List.mem_cons.mp hb with rfl | hb
    · dsimp only at hPos
      omega
    · have := hZero b hb
      omega
  have hDebit : t.debit ≠ 0 := by
    intro hZero
    obtain ⟨b, hb⟩ := List.exists_mem_of_ne_nil _ hCredit
    obtain ⟨hMem, hNonZero⟩ := List.mem_filter.mp hb
    have hNonNeg := (hPayable b (List.mem_cons_of_mem _ hMem)).1
    have hLe : b.amountTiyn ≤ (t.credits.map Bucket.amountTiyn).sum := by
      refine List.single_le_sum (fun x hx => ?_) _ (List.mem_map_of_mem hMem)
      obtain ⟨c, hc, rfl⟩ := List.mem_map.mp hx
      exact (hPayable c (List.mem_cons_of_mem _ hc)).1
    have : b.amountTiyn ≠ 0 := by simpa using hNonZero
    omega
  have hLines : withLines t.buckets = ⟨"7210", .debit, t.debit⟩ :: withLines t.credits := by
    simp [withLines, Totals.buckets, hDebit]
  have hLength : 0 < (withLines t.credits).length := List.length_pos_of_ne_nil hCredit
  rw [hLines, List.length_cons]
  omega

end exact

/-- The accounts of payroll are in the system chart, so every organisation sees them. -/
theorem buckets_visible {chart : Chart} (hChart : ChartReachable chart) (org : Uuid) (t : Totals) :
    ∀ b ∈ t.buckets, (findVisible chart org b.accountCode).isSome := by
  have hCodes : ∀ code ∈ ["7210", "3350", "3120", "3220", "3210", "3230", "3150"],
      ∃ a ∈ systemChart, a.code = code := by decide
  intro b hb
  have hCode : b.accountCode ∈ ["7210", "3350", "3120", "3220", "3210", "3230", "3150"] := by
    simp only [Totals.buckets, Totals.credits, List.mem_cons, List.not_mem_nil, or_false] at hb
    rcases hb with rfl | rfl | rfl | rfl | rfl | rfl | rfl <;> simp
  obtain ⟨a, hA, hEq⟩ := hCodes _ hCode
  have hMem := ((hChart.ok.system a).mp hA).1
  rw [← hEq, hChart.ok.findVisible_of_mem hMem (.inl (systemChart_orgId hA))]
  rfl

/-- The lines of calculated payslips, as far as the journal's columns can hold their sum: each says the
positive amount it was written from, debits make what credits make, and there are two or more of them
unless every amount is zero, so that `create_draft` takes them.  Where every amount is zero there is no
line. -/
theorem posting_balances {payslips : List Payslip} (hChecks : ∀ p ∈ payslips, p.Checks)
    (hCalculated : ∀ p ∈ payslips, p.Calculated)
    (hTotal : (payslips.map Payslip.employerCost).sum ≤ 999999999999999999) {db : Db}
    (hChart : ChartReachable db.accounts) :
    ∃ lines, postingLines payslips = .ok lines ∧
      List.Forall₂ (fun (b : Bucket) (line : JournalLine) => line.accountCode = b.accountCode ∧
          line.side = b.side.text ∧ 0 < b.amountTiyn ∧ parseTiyn line.amount = .ok b.amountTiyn)
        (withLines (totals payslips).buckets) lines ∧
      bucketTotal .debit (withLines (totals payslips).buckets) =
        bucketTotal .credit (withLines (totals payslips).buckets) ∧
      ((∃ b ∈ (totals payslips).buckets, 0 < b.amountTiyn) → 2 ≤ lines.length ∧
        ∀ org user entryDate description,
          checkDraft db ⟨org, user, entryDate, description, lines⟩ = .ok ()) ∧
      ((∀ b ∈ (totals payslips).buckets, b.amountTiyn = 0) → lines = []) := by
  have hExact := totals_exact hChecks hCalculated hTotal
  have hPayable := hExact.payable hTotal
  have hBalance := hExact.balance hTotal
  have hPositive : ∀ b ∈ withLines (totals payslips).buckets,
      0 < b.amountTiyn ∧ b.amountTiyn ≤ 999999999999999999 := by
    intro b hb
    obtain ⟨hMem, hNonZero⟩ := List.mem_filter.mp hb
    obtain ⟨hNonNeg, hMax⟩ := hPayable b hMem
    have : b.amountTiyn ≠ 0 := by simpa using hNonZero
    exact ⟨by omega, hMax⟩
  have hSameTotal : bucketTotal .debit (withLines (totals payslips).buckets) =
      bucketTotal .credit (withLines (totals payslips).buckets) := by
    rw [bucketTotal_withLines, bucketTotal_withLines, hBalance]
  refine ⟨(withLines (totals payslips).buckets).map Bucket.line, ?_, ?_, hSameTotal, ?_, ?_⟩
  · rw [postingLines, foldlM_addLine hPayable, List.nil_append]
  · rw [List.forall₂_map_right_iff, List.forall₂_same]
    exact fun b hb => ⟨rfl, rfl, (hPositive b hb).1, parse_line (hPositive b hb).1 (hPositive b hb).2⟩
  · intro hSome
    have hTwo := hExact.two_lines hTotal hSome
    refine ⟨by rwa [List.length_map], fun org user entryDate description => ?_⟩
    have hVisible : ∀ b ∈ withLines (totals payslips).buckets,
        (findVisible db.accounts org b.accountCode).isSome := fun b hb =>
      buckets_visible hChart org _ b (List.mem_filter.mp hb).1
    have hLoop := checkLines hPositive hVisible (show InInt64 0 by decide) (show InInt64 0 by decide)
    simp only [checkDraft, bind_eq_ok, ensure_eq_ok]
    exact ⟨(), by rwa [List.length_map], _, hLoop, by rw [hSameTotal]⟩
  · intro hZero
    have hNone : withLines (totals payslips).buckets = [] :=
      List.filter_eq_nil_iff.mpr fun b hb => by simp [hZero b hb]
    rw [hNone]
    rfl

/-- The rates and constants of 2026. -/
def rates2026 : Rates where
  ipnBp := 1000
  opvBp := 1000
  opvrBp := 350
  soBp := 500
  osmsBp := 300
  vosmsBp := 200
  socialTaxBp := 600
  mrpTiyn := 432500
  mzpTiyn := 8500000
  ipnDeductionMrp := 30
  opvBaseMaxMzp := 50
  soBaseMinMzp := 1
  soBaseMaxMzp := 7
  vosmsBaseMaxMzp := 20
  osmsBaseMaxMzp := 40
  socialTaxApplies := true

/-- Rates that withhold twice the gross. -/
def ratesAbove : Rates := { rates2026 with opvBp := 10000, vosmsBp := 10000 }

/-- Rates of nothing. -/
def ratesZero : Rates := ⟨0, 0, 0, 0, 0, 0, 0, 0, 0, 0, 0, 0, 0, 0, 0, true⟩

/-- The payslip of a gross of 300 000.00 in 2026. -/
def payslip2026 : Payslip :=
  ⟨30000000, 3000000, 600000, 1342500, 25057500, 1050000, 1350000, 900000, 1584000⟩

theorem payslip2026_calculated : payslip2026.Calculated := by
  refine ⟨⟨30000000, true, false⟩, rates2026, _, rfl, ?_⟩
  decide +kernel

/-- Tables with the system chart alone. -/
def bareTables : Db := ⟨[], [], systemChart, [], Table.empty, []⟩

theorem posting_balances_2026 : ∃ lines, postingLines [payslip2026] = .ok lines ∧ 2 ≤ lines.length ∧
    checkDraft bareTables ⟨1, 7, ⟨2026, 1, 31, by decide⟩, "Payroll", lines⟩ = .ok () := by
  have hChecks : ∀ p ∈ [payslip2026], p.Checks := by
    intro p hp
    obtain rfl := List.mem_singleton.mp hp
    constructor <;> decide
  have hCalculated : ∀ p ∈ [payslip2026], p.Calculated := by
    intro p hp
    obtain rfl := List.mem_singleton.mp hp
    exact payslip2026_calculated
  obtain ⟨lines, hLines, -, -, hSome, -⟩ :=
    @posting_balances [payslip2026] hChecks hCalculated (by decide) bareTables .refl
  obtain ⟨hTwo, hCheck⟩ := hSome ⟨_, List.mem_cons_self, by decide⟩
  exact ⟨lines, hLines, hTwo, hCheck _ _ _ _⟩

/-- Two payslips that the calculator produces: of one, all zero, no line is made and `create_draft`
refuses the entry as unbalanced for want of two lines; the other, which the column checks of `payslips`
do not admit, has no line for its net. -/
theorem posting_refused :
    (∃ result, calculate ⟨0, false, false⟩ ratesZero = .ok result ∧
      postingLines [.ofResult 0 result] = .ok [] ∧
      checkDraft bareTables
        ⟨1, 7, ⟨2026, 1, 31, by decide⟩, "Payroll", []⟩ = .error (.tooFewLines 0)) ∧
    ∃ result, calculate ⟨100000, false, false⟩ ratesAbove = .ok result ∧ result.net = -100000 ∧
      postingLines [.ofResult 100000 result] =
        .error "format_tiyn: amount must be non-negative, got -100000" := by
  refine ⟨⟨_, rfl, ?_, ?_⟩, ⟨_, rfl, ?_, ?_⟩⟩ <;> decide +kernel

end CyberAccountant.Payroll
