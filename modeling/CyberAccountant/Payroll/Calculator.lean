import CyberAccountant.Library.Checked
import CyberAccountant.Library.Word64

/-! The withholding calculator: one employee, one period.  Every operation is one of a signed 64-bit
integer; where the language leaves an overflow undefined, two's complement is taken. -/

namespace CyberAccountant.Payroll

open CyberAccountant.Library

/-- The largest gross of a payslip, in tiyn. -/
def maxGrossTiyn : Int := 100000000000000

structure Rates where
  ipnBp : Int
  opvBp : Int
  opvrBp : Int
  soBp : Int
  osmsBp : Int
  vosmsBp : Int
  socialTaxBp : Int
  mrpTiyn : Int
  mzpTiyn : Int
  ipnDeductionMrp : Int
  opvBaseMaxMzp : Int
  soBaseMinMzp : Int
  soBaseMaxMzp : Int
  vosmsBaseMaxMzp : Int
  osmsBaseMaxMzp : Int
  socialTaxApplies : Bool
  deriving DecidableEq

structure Input where
  grossTiyn : Int
  ipnDeductionClaimed : Bool
  opvrExempt : Bool
  deriving DecidableEq

/-- The amounts of the period, in tiyn. -/
structure Result where
  opv : Int
  vosms : Int
  ipn : Int
  net : Int
  opvr : Int
  so : Int
  osms : Int
  socialTax : Int
  employerCostTotal : Int
  deriving DecidableEq

/-- `base` times `rate` basis points, rounded half up. -/
def applyBp (baseTiyn rateBp : Int) : Int :=
  (wrap64 (wrap64 (baseTiyn * rateBp) + 5000)).tdiv 10000

/-- `std::clamp`. -/
def clamp (v lo hi : Int) : Int := if v < lo then lo else if hi < v then hi else v

/-- The message of the `std::out_of_range` that `calculate` throws. -/
def grossOutOfRange (grossTiyn : Int) : String :=
  "payroll: gross of " ++ toString grossTiyn ++ " tiyn is outside the supported range [0, " ++
    toString maxGrossTiyn ++ "]"

def calculate (input : Input) (r : Rates) : Except String Result := do
  ensure (¬(input.grossTiyn < 0 ∨ maxGrossTiyn < input.grossTiyn)) (grossOutOfRange input.grossTiyn)
  let gross := input.grossTiyn
  let opvBase := min gross (wrap64 (r.mzpTiyn * r.opvBaseMaxMzp))
  let opv := applyBp opvBase r.opvBp
  let vosmsBase := min gross (wrap64 (r.mzpTiyn * r.vosmsBaseMaxMzp))
  let vosms := applyBp vosmsBase r.vosmsBp
  let ipnDeduction := if input.ipnDeductionClaimed then wrap64 (r.mrpTiyn * r.ipnDeductionMrp) else 0
  let ipnBase := max 0 (wrap64 (wrap64 (wrap64 (gross - opv) - vosms) - ipnDeduction))
  let ipn := applyBp ipnBase r.ipnBp
  let net := wrap64 (wrap64 (wrap64 (gross - opv) - vosms) - ipn)
  let soFloor := wrap64 (r.mzpTiyn * r.soBaseMinMzp)
  let soCeiling := wrap64 (r.mzpTiyn * r.soBaseMaxMzp)
  let soBase := clamp (wrap64 (gross - opv)) soFloor soCeiling
  let so := applyBp soBase r.soBp
  let osmsBase := min gross (wrap64 (r.mzpTiyn * r.osmsBaseMaxMzp))
  let osms := applyBp osmsBase r.osmsBp
  let opvr :=
    if input.opvrExempt then 0
    else applyBp (min gross (wrap64 (r.mzpTiyn * r.opvBaseMaxMzp))) r.opvrBp
  let socialTax :=
    if r.socialTaxApplies then applyBp (wrap64 (wrap64 (gross - opv) - vosms)) r.socialTaxBp else 0
  let employerCostTotal :=
    wrap64 (wrap64 (wrap64 (wrap64 (gross + opvr) + so) + osms) + socialTax)
  pure { opv, vosms, ipn, net, opvr, so, osms, socialTax, employerCostTotal }

/-- Whatever the base and the rate, a contribution is far from the limits of 64 bits. -/
theorem applyBp_bounds (baseTiyn rateBp : Int) :
    -922337203685478 ≤ applyBp baseTiyn rateBp ∧ applyBp baseTiyn rateBp ≤ 922337203685478 := by
  obtain ⟨hLow, hHigh⟩ := inInt64_wrap64 (wrap64 (baseTiyn * rateBp) + 5000)
  unfold applyBp
  rw [Int.tdiv_eq_ediv]
  split_ifs
  · omega
  · simp only [show Int.sign 10000 = 1 from rfl]
    omega

/-- What is paid out is what is left of the gross after the withholdings. -/
theorem calculate_net {input : Input} {r : Rates} {result : Result}
    (h : calculate input r = .ok result) :
    0 ≤ input.grossTiyn ∧ input.grossTiyn ≤ maxGrossTiyn ∧
      result.net = input.grossTiyn - result.opv - result.vosms - result.ipn := by
  unfold calculate at h
  extract_lets gross opvBase opv vosmsBase vosms ipnDeduction ipnBase ipn net soFloor soCeiling soBase so
    osmsBase osms opvr socialTax employerCostTotal at h
  simp only [bind_eq_ok, ensure_eq_ok, pure_eq_ok] at h
  obtain ⟨-, hGross, rfl⟩ := h
  have hLow : 0 ≤ input.grossTiyn := by omega
  have hHigh : input.grossTiyn ≤ maxGrossTiyn := by omega
  refine ⟨hLow, hHigh, ?_⟩
  have hOpv := applyBp_bounds opvBase r.opvBp
  have hVosms := applyBp_bounds vosmsBase r.vosmsBp
  have hIpn := applyBp_bounds ipnBase r.ipnBp
  show wrap64 (wrap64 (wrap64 (input.grossTiyn - opv) - vosms) - ipn) =
    input.grossTiyn - opv - vosms - ipn
  simp only [maxGrossTiyn] at hHigh
  have hFirst : wrap64 (input.grossTiyn - opv) = input.grossTiyn - opv :=
    wrap64_of_inInt64 ⟨by omega, by omega⟩
  have hSecond : wrap64 (input.grossTiyn - opv - vosms) = input.grossTiyn - opv - vosms :=
    wrap64_of_inInt64 ⟨by omega, by omega⟩
  rw [hFirst, hSecond]
  exact wrap64_of_inInt64 ⟨by omega, by omega⟩

end CyberAccountant.Payroll
