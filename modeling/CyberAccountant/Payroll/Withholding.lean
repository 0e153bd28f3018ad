import CyberAccountant.Payroll.Posting

/-! What the calculator may be relied on for: under the checks of the reference tables no operation of
it overflows, its amounts are those of the nine steps on unbounded integers, and they satisfy the
column checks of `payslips`. -/

namespace CyberAccountant.Payroll

open CyberAccountant.Library

section Rounding

/-- `x` times `bp` basis points on unbounded integers, rounded half up. -/
def roundBp (x bp : Int) : Int := (x * bp + 5000).tdiv 10000

theorem roundBp_spec (x bp : Int) :
    (0 ≤ x * bp + 5000 → 10000 * roundBp x bp ≤ x * bp + 5000 ∧
      x * bp + 5000 < 10000 * roundBp x bp + 10000) ∧
    (x * bp + 5000 < 0 → 10000 * roundBp x bp - 10000 < x * bp + 5000 ∧
      x * bp + 5000 ≤ 10000 * roundBp x bp) := by
  unfold roundBp
  rw [Int.tdiv_eq_ediv]
  simp only [show Int.sign 10000 = 1 from rfl]
  split_ifs <;> omega

variable {x y bp : Int}

theorem roundBp_mono (h : x ≤ y) (hBp : 0 ≤ bp) : roundBp x bp ≤ roundBp y bp := by
  have hProduct : x * bp ≤ y * bp := Int.mul_le_mul_of_nonneg_right h hBp
  have hX := roundBp_spec x bp
  have hY := roundBp_spec y bp
  omega

/-- Of what a base grows by, a rate of at most one takes at most all. -/
theorem roundBp_gain (h : x ≤ y) (hBp : bp ≤ 10000) :
    roundBp y bp ≤ roundBp x bp + (y - x) := by
  have hProduct : (y - x) * bp ≤ (y - x) * 10000 := Int.mul_le_mul_of_nonneg_left hBp (by omega)
  have hSplit : (y - x) * bp = y * bp - x * bp := Int.sub_mul y x bp
  have hX := roundBp_spec x bp
  have hY := roundBp_spec y bp
  omega

theorem roundBp_nonneg (h : -1 ≤ x) (hLow : 0 ≤ bp) (hHigh : bp ≤ 10000) : 0 ≤ roundBp x bp := by
  have hProduct : -1 * bp ≤ x * bp := Int.mul_le_mul_of_nonneg_right h hLow
  have hX := roundBp_spec x bp
  omega

theorem roundBp_le_self (h : 0 ≤ x) (hBp : bp ≤ 10000) : roundBp x bp ≤ x := by
  have hProduct : x * bp ≤ x * 10000 := Int.mul_le_mul_of_nonneg_left hBp h
  have hX := roundBp_spec x bp
  omega

/-- Two roundings of rates that together take at most all: of a common growth they take one more than
it at most. -/
theorem roundBp_gain_pair {x' y' a b d : Int} (hX : x ≤ x' ∧ x' ≤ x + d) (hY : y ≤ y' ∧ y' ≤ y + d)
    (hA : 0 ≤ a) (hB : 0 ≤ b) (hSum : a + b ≤ 10000) :
    roundBp x' a + roundBp y' b ≤ roundBp x a + roundBp y b + d + 1 := by
  have hGainX : (x' - x) * a ≤ d * a := Int.mul_le_mul_of_nonneg_right (by omega) hA
  have hGainY : (y' - y) * b ≤ d * b := Int.mul_le_mul_of_nonneg_right (by omega) hB
  have hGain : d * (a + b) ≤ d * 10000 := Int.mul_le_mul_of_nonneg_left hSum (by omega)
  have hMonoX : x * a ≤ x' * a := Int.mul_le_mul_of_nonneg_right hX.1 hA
  have hMonoY : y * b ≤ y' * b := Int.mul_le_mul_of_nonneg_right hY.1 hB
  rw [Int.sub_mul] at hGainX hGainY
  rw [Int.mul_add] at hGain
  have hX' := roundBp_spec x' a
  have hX := roundBp_spec x a
  have hY' := roundBp_spec y' b
  have hY := roundBp_spec y b
  omega

/-- Two rates of parts of one base take their sum of it, and one more at most. -/
theorem roundBp_pair_le {a b g total : Int} (hX : 0 ≤ x ∧ x ≤ g) (hY : 0 ≤ y ∧ y ≤ g)
    (hA : 0 ≤ a) (hB : 0 ≤ b) (hSum : a + b ≤ total) :
    10000 * (roundBp x a + roundBp y b) ≤ g * total + 10000 := by
  have hGainX : x * a ≤ g * a := Int.mul_le_mul_of_nonneg_right hX.2 hA
  have hGainY : y * b ≤ g * b := Int.mul_le_mul_of_nonneg_right hY.2 hB
  have hGain : g * (a + b) ≤ g * total := Int.mul_le_mul_of_nonneg_left hSum (by omega)
  have hLowX : 0 ≤ x * a := Int.mul_nonneg hX.1 hA
  have hLowY : 0 ≤ y * b := Int.mul_nonneg hY.1 hB
  rw [Int.mul_add] at hGain
  have hX' := roundBp_spec x a
  have hY' := roundBp_spec y b
  omega

end Rounding

/-! ### The nine steps on unbounded integers -/

namespace Rates

variable (r : Rates) (gross : Int)

def opv : Int := roundBp (min gross (r.mzpTiyn * r.opvBaseMaxMzp)) r.opvBp

def vosms : Int := roundBp (min gross (r.mzpTiyn * r.vosmsBaseMaxMzp)) r.vosmsBp

/-- What is left of the gross after both contributions of the employee. -/
def rest : Int := gross - r.opv gross - r.vosms gross

def ipnDeduction (claimed : Bool) : Int := if claimed then r.mrpTiyn * r.ipnDeductionMrp else 0

def ipn (claimed : Bool) : Int :=
  roundBp (max 0 (r.rest gross - r.ipnDeduction claimed)) r.ipnBp

def so : Int :=
  roundBp (clamp (gross - r.opv gross) (r.mzpTiyn * r.soBaseMinMzp) (r.mzpTiyn * r.soBaseMaxMzp)) r.soBp

def osms : Int := roundBp (min gross (r.mzpTiyn * r.osmsBaseMaxMzp)) r.osmsBp

def opvr (exempt : Bool) : Int :=
  if exempt then 0 else roundBp (min gross (r.mzpTiyn * r.opvBaseMaxMzp)) r.opvrBp

def socialTax : Int := if r.socialTaxApplies then roundBp (r.rest gross) r.socialTaxBp else 0

end Rates

def exactResult (input : Input) (r : Rates) : Result :=
  let gross := input.grossTiyn
  let ipn := r.ipn gross input.ipnDeductionClaimed
  let opvr := r.opvr gross input.opvrExempt
  { opv := r.opv gross
    vosms := r.vosms gross
    ipn
    net := r.rest gross - ipn
    opvr
    so := r.so gross
    osms := r.osms gross
    socialTax := r.socialTax gross
    employerCostTotal := gross + opvr + r.so gross + r.osms gross + r.socialTax gross }

/-! ### The source's expressions, each where it is defined -/

/-- `apply_bp` where neither the product nor the sum overflows. -/
def applyBp? (baseTiyn rateBp : Int) : Option Int := do
  let product ← fit64? (baseTiyn * rateBp)
  let sum ← fit64? (product + 5000)
  pure (sum.tdiv 10000)

/-- `std::clamp`, which has no meaning for an interval without values. -/
def clamp? (v lo hi : Int) : Option Int := if hi < lo then none else some (clamp v lo hi)

/-- `c ? x : 0`. -/
def orZero? (c : Bool) (x : Option Int) : Option Int := if c then x else some 0

/-- Steps 1 to 4: the contributions of the employee, the income tax and what is paid out. -/
def withheld? (gross : Int) (claimed : Bool) (r : Rates) : Option (Int × Int × Int × Int) := do
  let opv ← applyBp? (min gross (← fit64? (r.mzpTiyn * r.opvBaseMaxMzp))) r.opvBp
  let vosms ← applyBp? (min gross (← fit64? (r.mzpTiyn * r.vosmsBaseMaxMzp))) r.vosmsBp
  let ipnDeduction ← orZero? claimed (fit64? (r.mrpTiyn * r.ipnDeductionMrp))
  let ipnBase := max 0 (← fit64? ((← fit64? ((← fit64? (gross - opv)) - vosms)) - ipnDeduction))
  let ipn ← applyBp? ipnBase r.ipnBp
  let net ← fit64? ((← fit64? ((← fit64? (gross - opv)) - vosms)) - ipn)
  pure (opv, vosms, ipn, net)

/-- Steps 5 to 8: the contributions and the tax of the employer. -/
def employer? (gross opv vosms : Int) (exempt : Bool) (r : Rates) :
    Option (Int × Int × Int × Int) := do
  let soFloor ← fit64? (r.mzpTiyn * r.soBaseMinMzp)
  let soCeiling ← fit64? (r.mzpTiyn * r.soBaseMaxMzp)
  let so ← applyBp? (← clamp? (← fit64? (gross - opv)) soFloor soCeiling) r.soBp
  let osms ← applyBp? (min gross (← fit64? (r.mzpTiyn * r.osmsBaseMaxMzp))) r.osmsBp
  let opvr ← orZero? (!exempt) do
    applyBp? (min gross (← fit64? (r.mzpTiyn * r.opvBaseMaxMzp))) r.opvrBp
  let socialTax ← orZero? r.socialTaxApplies do
    applyBp? (← fit64? ((← fit64? (gross - opv)) - vosms)) r.socialTaxBp
  pure (so, osms, opvr, socialTax)

/-- `calculate` where it returns and every operation on the way is defined. -/
def calculate? (input : Input) (r : Rates) : Option Result := do
  guard ¬(input.grossTiyn < 0 ∨ maxGrossTiyn < input.grossTiyn)
  let gross := input.grossTiyn
  let (opv, vosms, ipn, net) ← withheld? gross input.ipnDeductionClaimed r
  let (so, osms, opvr, socialTax) ← employer? gross opv vosms input.opvrExempt r
  let employerCostTotal ←
    fit64? ((← fit64? ((← fit64? ((← fit64? (gross + opvr)) + so)) + osms)) + socialTax)
  pure { opv, vosms, ipn, net, opvr, so, osms, socialTax, employerCostTotal }

/-- The two operations of `apply_bp` that could overflow do not. -/
def BpFits (base bp : Int) : Prop := InInt64 (base * bp) ∧ InInt64 (base * bp + 5000)

@[simp] theorem applyBp?_eq_some {base bp v : Int} :
    applyBp? base bp = some v ↔ BpFits base bp ∧ roundBp base bp = v := by
  simp only [applyBp?, Option.bind_eq_bind, Option.bind_eq_some_iff, fit64?_eq_some, Option.pure_def,
    Option.some.injEq, roundBp, BpFits]
  constructor
  · rintro ⟨_, ⟨hProduct, rfl⟩, _, ⟨hSum, rfl⟩, rfl⟩
    exact ⟨⟨hProduct, hSum⟩, rfl⟩
  · rintro ⟨⟨hProduct, hSum⟩, rfl⟩
    exact ⟨_, ⟨hProduct, rfl⟩, _, ⟨hSum, rfl⟩, rfl⟩

theorem applyBp_of_fits {base bp : Int} (h : BpFits base bp) : applyBp base bp = roundBp base bp := by
  rw [applyBp, wrap64_of_inInt64 h.1, wrap64_of_inInt64 h.2, roundBp]

@[simp] theorem clamp?_eq_some {v lo hi x : Int} :
    clamp? v lo hi = some x ↔ lo ≤ hi ∧ clamp v lo hi = x := by
  simp [clamp?]

/-- A conditional expression is defined where the branch it takes is. -/
theorem orZero?_eq_some {c : Bool} {x : Option Int} {P : Prop} {v d : Int}
    (h : ∀ d, x = some d ↔ P ∧ v = d) :
    orZero? c x = some d ↔ (c = true → P) ∧ (if c then v else 0) = d := by
  cases c <;> simp [orZero?, h]

section Fits

variable (gross : Int) (claimed exempt : Bool) (r : Rates)

structure WithheldFits : Prop where
  opvCap : InInt64 (r.mzpTiyn * r.opvBaseMaxMzp)
  opv : BpFits (min gross (r.mzpTiyn * r.opvBaseMaxMzp)) r.opvBp
  vosmsCap : InInt64 (r.mzpTiyn * r.vosmsBaseMaxMzp)
  vosms : BpFits (min gross (r.mzpTiyn * r.vosmsBaseMaxMzp)) r.vosmsBp
  ipnDeduction : claimed = true → InInt64 (r.mrpTiyn * r.ipnDeductionMrp)
  afterOpv : InInt64 (gross - r.opv gross)
  rest : InInt64 (r.rest gross)
  taxable : InInt64 (r.rest gross - r.ipnDeduction claimed)
  ipn : BpFits (max 0 (r.rest gross - r.ipnDeduction claimed)) r.ipnBp
  net : InInt64 (r.rest gross - r.ipn gross claimed)

/-- No operation of steps 5 to 8 overflows, and the interval of the contribution base is one. -/
structure EmployerFits : Prop where
  soFloor : InInt64 (r.mzpTiyn * r.soBaseMinMzp)
  soCeiling : InInt64 (r.mzpTiyn * r.soBaseMaxMzp)
  afterOpv : InInt64 (gross - r.opv gross)
  soInterval : r.mzpTiyn * r.soBaseMinMzp ≤ r.mzpTiyn * r.soBaseMaxMzp
  so : BpFits
    (clamp (gross - r.opv gross) (r.mzpTiyn * r.soBaseMinMzp) (r.mzpTiyn * r.soBaseMaxMzp)) r.soBp
  osmsCap : InInt64 (r.mzpTiyn * r.osmsBaseMaxMzp)
  osms : BpFits (min gross (r.mzpTiyn * r.osmsBaseMaxMzp)) r.osmsBp
  opvr : (!exempt) = true → InInt64 (r.mzpTiyn * r.opvBaseMaxMzp) ∧
    BpFits (min gross (r.mzpTiyn * r.opvBaseMaxMzp)) r.opvrBp
  socialTax : r.socialTaxApplies = true → InInt64 (gross - r.opv gross) ∧ InInt64 (r.rest gross) ∧
    BpFits (r.rest gross) r.socialTaxBp

structure CostFits : Prop where
  opvr : InInt64 (gross + r.opvr gross exempt)
  so : InInt64 (gross + r.opvr gross exempt + r.so gross)
  osms : InInt64 (gross + r.opvr gross exempt + r.so gross + r.osms gross)
  socialTax :
    InInt64 (gross + r.opvr gross exempt + r.so gross + r.osms gross + r.socialTax gross)

variable {gross claimed exempt r}

theorem withheld?_eq_some {x : Int × Int × Int × Int} :
    withheld? gross claimed r = some x ↔ WithheldFits gross claimed r ∧
      (r.opv gross, r.vosms gross, r.ipn gross claimed, r.rest gross - r.ipn gross claimed) = x := by
  simp only [withheld?, Option.bind_eq_bind, Option.bind_eq_some_iff, fit64?_eq_some, applyBp?_eq_some,
    Option.pure_def, Option.some.injEq, orZero?_eq_some (fun _ => fit64?_eq_some), and_assoc,
    exists_and_left, exists_eq_left']
  constructor
  · rintro ⟨hOpvCap, hOpv, hVosmsCap, hVosms, hDeduction, hAfterOpv, hRest, hTaxable, hIpn, -, -, hNet, h⟩
    exact ⟨⟨hOpvCap, hOpv, hVosmsCap, hVosms, hDeduction, hAfterOpv, hRest, hTaxable, hIpn, hNet⟩, h⟩
  · rintro ⟨h, hEq⟩
    exact ⟨h.opvCap, h.opv, h.vosmsCap, h.vosms, h.ipnDeduction, h.afterOpv, h.rest, h.taxable, h.ipn,
      h.afterOpv, h.rest, h.net, hEq⟩

theorem employer?_eq_some {x : Int × Int × Int × Int} :
    employer? gross (r.opv gross) (r.vosms gross) exempt r = some x ↔ EmployerFits gross exempt r ∧
      (r.so gross, r.osms gross, r.opvr gross exempt, r.socialTax gross) = x := by
  have hOpvr' (d : Int) : ((fit64? (r.mzpTiyn * r.opvBaseMaxMzp)).bind fun cap =>
      applyBp? (min gross cap) r.opvrBp) = some d ↔
      (InInt64 (r.mzpTiyn * r.opvBaseMaxMzp) ∧
        BpFits (min gross (r.mzpTiyn * r.opvBaseMaxMzp)) r.opvrBp) ∧
        roundBp (min gross (r.mzpTiyn * r.opvBaseMaxMzp)) r.opvrBp = d := by
    simp [Option.bind_eq_some_iff, and_assoc]
  have hTax' (d : Int) : ((fit64? (gross - r.opv gross)).bind fun afterOpv =>
      (fit64? (afterOpv - r.vosms gross)).bind fun rest => applyBp? rest r.socialTaxBp) = some d ↔
      (InInt64 (gross - r.opv gross) ∧ InInt64 (r.rest gross) ∧ BpFits (r.rest gross) r.socialTaxBp) ∧
        roundBp (r.rest gross) r.socialTaxBp = d := by
    simp [Option.bind_eq_some_iff, and_assoc, Rates.rest]
  simp only [employer?, Option.bind_eq_bind, Option.bind_eq_some_iff, fit64?_eq_some, applyBp?_eq_some,
    clamp?_eq_some, Option.pure_def, Option.some.injEq, and_assoc, exists_and_left, exists_eq_left',
    orZero?_eq_some hOpvr', orZero?_eq_some hTax']
  constructor
  · rintro ⟨hFloor, hCeiling, hAfterOpv, hInterval, hSo, hOsmsCap, hOsms, hOpvr, hTax, h⟩
    refine ⟨⟨hFloor, hCeiling, hAfterOpv, hInterval, hSo, hOsmsCap, hOsms, hOpvr, hTax⟩, ?_⟩
    cases exempt <;> exact h
  · rintro ⟨h, hEq⟩
    refine ⟨h.soFloor, h.soCeiling, h.afterOpv, h.soInterval, h.so, h.osmsCap, h.osms, h.opvr,
      h.socialTax, ?_⟩
    cases exempt <;> exact hEq

/-- `calculate?` gives the amounts of the nine steps, exactly where nothing overflows. -/
theorem calculate?_eq_some {input : Input} {result : Result} :
    calculate? input r = some result ↔
      (0 ≤ input.grossTiyn ∧ input.grossTiyn ≤ maxGrossTiyn) ∧
      WithheldFits input.grossTiyn input.ipnDeductionClaimed r ∧
      EmployerFits input.grossTiyn input.opvrExempt r ∧
      CostFits input.grossTiyn input.opvrExempt r ∧ exactResult input r = result := by
  simp only [calculate?, Option.bind_eq_bind, Option.bind_eq_some_iff, Option.guard_eq_some',
    exists_const, withheld?_eq_some, and_assoc, exists_and_left, exists_eq_left', employer?_eq_some,
    fit64?_eq_some, Option.pure_def, Option.some.injEq]
  constructor
  · rintro ⟨hGross, hWithheld, hEmployer, hOpvr, hSo, hOsms, hTax, h⟩
    exact ⟨by omega, by omega, hWithheld, hEmployer, ⟨hOpvr, hSo, hOsms, hTax⟩, h⟩
  · rintro ⟨hLow, hHigh, hWithheld, hEmployer, hCost, h⟩
    exact ⟨by omega, hWithheld, hEmployer, hCost.opvr, hCost.so, hCost.osms, hCost.socialTax, h⟩

end Fits

/-- Where nothing overflows, two's complement gives the same amounts. -/
theorem calculate_of_defined {input : Input} {r : Rates} {result : Result}
    (h : calculate? input r = some result) : calculate input r = .ok result := by
  obtain ⟨⟨hLow, hHigh⟩, hWithheld, hEmployer, hCost, rfl⟩ := calculate?_eq_some.mp h
  have hIn : ¬(input.grossTiyn < 0 ∨ maxGrossTiyn < input.grossTiyn) := by omega
  have hOpv : applyBp (min input.grossTiyn (wrap64 (r.mzpTiyn * r.opvBaseMaxMzp))) r.opvBp =
      r.opv input.grossTiyn := by
    rw [wrap64_of_inInt64 hWithheld.opvCap, applyBp_of_fits hWithheld.opv, Rates.opv]
  have hVosms : applyBp (min input.grossTiyn (wrap64 (r.mzpTiyn * r.vosmsBaseMaxMzp))) r.vosmsBp =
      r.vosms input.grossTiyn := by
    rw [wrap64_of_inInt64 hWithheld.vosmsCap, applyBp_of_fits hWithheld.vosms, Rates.vosms]
  have hRest : wrap64 (wrap64 (input.grossTiyn - r.opv input.grossTiyn) - r.vosms input.grossTiyn) =
      r.rest input.grossTiyn := by
    rw [wrap64_of_inInt64 hWithheld.afterOpv]
    exact wrap64_of_inInt64 hWithheld.rest
  have hDeduction : (if input.ipnDeductionClaimed then wrap64 (r.mrpTiyn * r.ipnDeductionMrp) else 0) =
      r.ipnDeduction input.ipnDeductionClaimed := by
    unfold Rates.ipnDeduction
    split
    · exact wrap64_of_inInt64 (hWithheld.ipnDeduction ‹_›)
    · rfl
  have hIpn : applyBp (max 0 (wrap64 (r.rest input.grossTiyn -
      r.ipnDeduction input.ipnDeductionClaimed))) r.ipnBp =
      r.ipn input.grossTiyn input.ipnDeductionClaimed := by
    rw [wrap64_of_inInt64 hWithheld.taxable, applyBp_of_fits hWithheld.ipn, Rates.ipn]
  have hSo : applyBp (clamp (wrap64 (input.grossTiyn - r.opv input.grossTiyn))
      (wrap64 (r.mzpTiyn * r.soBaseMinMzp)) (wrap64 (r.mzpTiyn * r.soBaseMaxMzp))) r.soBp =
      r.so input.grossTiyn := by
    rw [wrap64_of_inInt64 hEmployer.afterOpv, wrap64_of_inInt64 hEmployer.soFloor,
      wrap64_of_inInt64 hEmployer.soCeiling, applyBp_of_fits hEmployer.so, Rates.so]
  have hOsms : applyBp (min input.grossTiyn (wrap64 (r.mzpTiyn * r.osmsBaseMaxMzp))) r.osmsBp =
      r.osms input.grossTiyn := by
    rw [wrap64_of_inInt64 hEmployer.osmsCap, applyBp_of_fits hEmployer.osms, Rates.osms]
  have hOpvr : (if input.opvrExempt then 0
      else applyBp (min input.grossTiyn (wrap64 (r.mzpTiyn * r.opvBaseMaxMzp))) r.opvrBp) =
      r.opvr input.grossTiyn input.opvrExempt := by
    unfold Rates.opvr
    split
    · rfl
    · rename_i hExempt
      rw [wrap64_of_inInt64 hWithheld.opvCap, applyBp_of_fits (hEmployer.opvr (by simpa using hExempt)).2]
  have hTax : (if r.socialTaxApplies then applyBp (r.rest input.grossTiyn) r.socialTaxBp else 0) =
      r.socialTax input.grossTiyn := by
    unfold Rates.socialTax
    split
    · exact applyBp_of_fits (hEmployer.socialTax ‹_›).2.2
    · rfl
  simp only [calculate, ensure, if_pos hIn, bind, Except.bind, hOpv, hVosms, hRest, hDeduction, hIpn,
    hSo, hOsms, hOpvr, hTax, wrap64_of_inInt64 hWithheld.net, wrap64_of_inInt64 hCost.opvr,
    wrap64_of_inInt64 hCost.so, wrap64_of_inInt64 hCost.osms, wrap64_of_inInt64 hCost.socialTax]
  rfl

/-! ### Under the checks of the reference tables -/

def RateChecked (bp : Int) : Prop := 0 ≤ bp ∧ bp ≤ 10000

structure RatesChecked (r : Rates) : Prop where
  ipn : RateChecked r.ipnBp
  opv : RateChecked r.opvBp
  opvr : RateChecked r.opvrBp
  so : RateChecked r.soBp
  osms : RateChecked r.osmsBp
  vosms : RateChecked r.vosmsBp
  socialTax : RateChecked r.socialTaxBp

/-- A cap, a floor or a deduction: a product of a constant and its multiplier. -/
def ProductBounded (x y : Int) : Prop := 0 ≤ x ∧ 0 ≤ y ∧ x * y ≤ 100000000000000

structure ConstantsBounded (r : Rates) : Prop where
  ipnDeduction : ProductBounded r.mrpTiyn r.ipnDeductionMrp
  opvCap : ProductBounded r.mzpTiyn r.opvBaseMaxMzp
  soBaseMinMzp : 0 ≤ r.soBaseMinMzp
  soCeiling : ProductBounded r.mzpTiyn r.soBaseMaxMzp
  vosmsCap : ProductBounded r.mzpTiyn r.vosmsBaseMaxMzp
  osmsCap : ProductBounded r.mzpTiyn r.osmsBaseMaxMzp
  soInterval : r.soBaseMinMzp ≤ r.soBaseMaxMzp

theorem ProductBounded.nonneg {x y : Int} (h : ProductBounded x y) : 0 ≤ x * y :=
  Int.mul_nonneg h.1 h.2.1

theorem ProductBounded.fits {x y : Int} (h : ProductBounded x y) : InInt64 (x * y) := by
  have hLow := h.nonneg
  have hHigh := h.2.2
  constructor <;> omega

theorem ConstantsBounded.soFloor_le {r : Rates} (h : ConstantsBounded r) :
    r.mzpTiyn * r.soBaseMinMzp ≤ r.mzpTiyn * r.soBaseMaxMzp :=
  Int.mul_le_mul_of_nonneg_left h.soInterval h.soCeiling.1

theorem ConstantsBounded.soFloor {r : Rates} (h : ConstantsBounded r) :
    ProductBounded r.mzpTiyn r.soBaseMinMzp :=
  ⟨h.soCeiling.1, h.soBaseMinMzp, Int.le_trans h.soFloor_le h.soCeiling.2.2⟩

/-- The range that the bound on the gross keeps every base in. -/
def InBaseRange (x : Int) : Prop := -100000000000000 ≤ x ∧ x ≤ 100000000000000

theorem bpFits {x bp : Int} (h : InBaseRange x) (hBp : RateChecked bp) : BpFits x bp := by
  have hLow : -100000000000000 * bp ≤ x * bp := Int.mul_le_mul_of_nonneg_right h.1 hBp.1
  have hHigh : x * bp ≤ 100000000000000 * bp := Int.mul_le_mul_of_nonneg_right h.2 hBp.1
  obtain ⟨hBpLow, hBpHigh⟩ := hBp
  constructor <;> constructor <;> omega

theorem roundBp_inBaseRange {x bp : Int} (h : InBaseRange x) (hBp : RateChecked bp) :
    InBaseRange (roundBp x bp) := by
  have hLow : -100000000000000 * bp ≤ x * bp := Int.mul_le_mul_of_nonneg_right h.1 hBp.1
  have hHigh : x * bp ≤ 100000000000000 * bp := Int.mul_le_mul_of_nonneg_right h.2 hBp.1
  have hX := roundBp_spec x bp
  obtain ⟨hBpLow, hBpHigh⟩ := hBp
  constructor <;> omega

section Bounds

variable {r : Rates} {gross : Int} {claimed exempt : Bool}

/-- A contribution on a capped base lies between zero and the gross, and under that of its cap. -/
theorem capped_bounds {cap bp : Int} (hCap : 0 ≤ cap) (hGross : 0 ≤ gross) (hBp : RateChecked bp) :
    0 ≤ roundBp (min gross cap) bp ∧ roundBp (min gross cap) bp ≤ gross ∧
      roundBp (min gross cap) bp ≤ roundBp cap bp := by
  have hBase : 0 ≤ min gross cap := by omega
  have hSelf : roundBp (min gross cap) bp ≤ min gross cap := roundBp_le_self hBase hBp.2
  refine ⟨roundBp_nonneg (by omega) hBp.1 hBp.2, by omega, ?_⟩
  exact roundBp_mono (Int.min_le_right gross cap) hBp.1

/-- The two contributions of the employee take the gross and one tiyn more at most, and half of it and
one more where their rates are at most half. -/
theorem rest_bounds (hRates : RatesChecked r) (hConstants : ConstantsBounded r) (hGross : 0 ≤ gross) :
    -gross ≤ r.rest gross ∧ r.rest gross ≤ gross ∧
      (r.opvBp + r.vosmsBp ≤ 10000 → -1 ≤ r.rest gross) ∧
      (r.opvBp + r.vosmsBp ≤ 5000 → 0 ≤ r.rest gross) := by
  have hOpvCap := hConstants.opvCap.nonneg
  have hVosmsCap := hConstants.vosmsCap.nonneg
  obtain ⟨hOpvLow, hOpvHigh, -⟩ := capped_bounds hOpvCap hGross hRates.opv
  obtain ⟨hVosmsLow, hVosmsHigh, -⟩ := capped_bounds hVosmsCap hGross hRates.vosms
  have hPair (total : Int) (hSum : r.opvBp + r.vosmsBp ≤ total) :=
    roundBp_pair_le (x := min gross (r.mzpTiyn * r.opvBaseMaxMzp))
      (y := min gross (r.mzpTiyn * r.vosmsBaseMaxMzp)) (g := gross) (by omega) (by omega)
      hRates.opv.1 hRates.vosms.1 hSum
  simp only [Rates.rest, Rates.opv, Rates.vosms]
  refine ⟨by omega, by omega, fun hSum => ?_, fun hSum => ?_⟩
  · have hAll := hPair 10000 hSum
    omega
  · have hHalf := hPair 5000 hSum
    omega

theorem withheldFits (hRates : RatesChecked r) (hConstants : ConstantsBounded r)
    (hLow : 0 ≤ gross) (hHigh : gross ≤ maxGrossTiyn) : WithheldFits gross claimed r := by
  unfold maxGrossTiyn at hHigh
  have hOpvCap := hConstants.opvCap.nonneg
  have hVosmsCap := hConstants.vosmsCap.nonneg
  have hDeduction : 0 ≤ r.ipnDeduction claimed ∧ r.ipnDeduction claimed ≤ 100000000000000 := by
    have hProduct := hConstants.ipnDeduction.nonneg
    have hBound := hConstants.ipnDeduction.2.2
    unfold Rates.ipnDeduction
    split <;> omega
  obtain ⟨hOpvLow, hOpvHigh, -⟩ := capped_bounds hOpvCap hLow hRates.opv
  obtain ⟨hRestLow, hRestHigh, -, -⟩ := rest_bounds hRates hConstants hLow
  have hTaxable : InBaseRange (max 0 (r.rest gross - r.ipnDeduction claimed)) := by
    constructor <;> omega
  have hIpn : InBaseRange (r.ipn gross claimed) := roundBp_inBaseRange hTaxable hRates.ipn
  obtain ⟨hIpnLow, hIpnHigh⟩ := hIpn
  constructor
  case opvCap => exact hConstants.opvCap.fits
  case opv => exact bpFits ⟨by omega, by omega⟩ hRates.opv
  case vosmsCap => exact hConstants.vosmsCap.fits
  case vosms => exact bpFits ⟨by omega, by omega⟩ hRates.vosms
  case ipnDeduction => exact fun _ => hConstants.ipnDeduction.fits
  case afterOpv => constructor <;> simp only [Rates.opv] <;> omega
  case rest => constructor <;> omega
  case taxable => constructor <;> omega
  case ipn => exact bpFits hTaxable hRates.ipn
  case net => constructor <;> omega

theorem clamp_bounds {v lo hi : Int} (h : lo ≤ hi) :
    lo ≤ clamp v lo hi ∧ clamp v lo hi ≤ hi := by
  unfold clamp
  split_ifs <;> omega

/-- The contributions of the employer on capped bases, each between zero and the bound of a base. -/
theorem employer_bounds (exempt : Bool) (hRates : RatesChecked r) (hConstants : ConstantsBounded r)
    (hGross : 0 ≤ gross) :
    (0 ≤ r.so gross ∧ r.so gross ≤ roundBp (r.mzpTiyn * r.soBaseMaxMzp) r.soBp) ∧
    (0 ≤ r.osms gross ∧ r.osms gross ≤ gross) ∧
    (0 ≤ r.opvr gross exempt ∧ r.opvr gross exempt ≤ gross) := by
  have hFloor := hConstants.soFloor.nonneg
  obtain ⟨hLow, hHigh⟩ := clamp_bounds (v := gross - r.opv gross) hConstants.soFloor_le
  obtain ⟨hOsmsLow, hOsmsHigh, -⟩ := capped_bounds hConstants.osmsCap.nonneg hGross hRates.osms
  obtain ⟨hOpvrLow, hOpvrHigh, -⟩ := capped_bounds hConstants.opvCap.nonneg hGross hRates.opvr
  refine ⟨⟨?_, roundBp_mono hHigh hRates.so.1⟩, ⟨hOsmsLow, hOsmsHigh⟩, ?_⟩
  · apply roundBp_nonneg _ hRates.so.1 hRates.so.2
    omega
  · unfold Rates.opvr
    split <;> omega

theorem employerFits (hRates : RatesChecked r) (hConstants : ConstantsBounded r)
    (hLow : 0 ≤ gross) (hHigh : gross ≤ maxGrossTiyn) : EmployerFits gross exempt r := by
  have hWithheld : WithheldFits gross false r := withheldFits hRates hConstants hLow hHigh
  unfold maxGrossTiyn at hHigh
  have hFloor := hConstants.soFloor.nonneg
  have hCeiling := hConstants.soCeiling.2.2
  have hOpvCap := hConstants.opvCap.nonneg
  have hOsmsCap := hConstants.osmsCap.nonneg
  obtain ⟨hSoLow, hSoHigh⟩ := clamp_bounds (v := gross - r.opv gross) hConstants.soFloor_le
  obtain ⟨hRestLow, hRestHigh, -, -⟩ := rest_bounds hRates hConstants hLow
  constructor
  case soFloor => exact hConstants.soFloor.fits
  case soCeiling => exact hConstants.soCeiling.fits
  case afterOpv => exact hWithheld.afterOpv
  case soInterval => exact hConstants.soFloor_le
  case so => exact bpFits ⟨by omega, by omega⟩ hRates.so
  case osmsCap => exact hConstants.osmsCap.fits
  case osms => exact bpFits ⟨by omega, by omega⟩ hRates.osms
  case opvr => exact fun _ => ⟨hConstants.opvCap.fits, bpFits ⟨by omega, by omega⟩ hRates.opvr⟩
  case socialTax =>
    exact fun _ => ⟨hWithheld.afterOpv, hWithheld.rest, bpFits ⟨by omega, by omega⟩ hRates.socialTax⟩

theorem costFits (hRates : RatesChecked r) (hConstants : ConstantsBounded r)
    (hLow : 0 ≤ gross) (hHigh : gross ≤ maxGrossTiyn) : CostFits gross exempt r := by
  unfold maxGrossTiyn at hHigh
  obtain ⟨⟨hSoLow, hSoHigh⟩, ⟨hOsmsLow, hOsmsHigh⟩, hOpvrLow, hOpvrHigh⟩ :=
    employer_bounds exempt hRates hConstants hLow
  have hCeiling : r.mzpTiyn * r.soBaseMaxMzp ≤ 100000000000000 := hConstants.soCeiling.2.2
  have hCeilingSelf := roundBp_le_self hConstants.soCeiling.nonneg hRates.so.2
  obtain ⟨hRestLow, hRestHigh, -, -⟩ := rest_bounds hRates hConstants hLow
  have hTax : InBaseRange (r.socialTax gross) := by
    unfold Rates.socialTax
    split
    · exact roundBp_inBaseRange ⟨by omega, by omega⟩ hRates.socialTax
    · exact ⟨by omega, by omega⟩
  obtain ⟨hTaxLow, hTaxHigh⟩ := hTax
  constructor
  all_goals constructor <;> omega

end Bounds

/-- Under the checks of the reference tables the calculator returns, and nothing overflows on the way. -/
theorem calculate?_of_checked {input : Input} {r : Rates} (hRates : RatesChecked r)
    (hConstants : ConstantsBounded r) (hLow : 0 ≤ input.grossTiyn)
    (hHigh : input.grossTiyn ≤ maxGrossTiyn) : calculate? input r = some (exactResult input r) := by
  rw [calculate?_eq_some]
  exact ⟨⟨hLow, hHigh⟩, withheldFits hRates hConstants hLow hHigh,
    employerFits hRates hConstants hLow hHigh, costFits hRates hConstants hLow hHigh, rfl⟩

/-- A levy is at most what its rate makes of its cap. -/
def Capped (result : Result) (r : Rates) : Prop :=
  result.opv ≤ applyBp (r.mzpTiyn * r.opvBaseMaxMzp) r.opvBp ∧
  result.vosms ≤ applyBp (r.mzpTiyn * r.vosmsBaseMaxMzp) r.vosmsBp ∧
  result.so ≤ applyBp (r.mzpTiyn * r.soBaseMaxMzp) r.soBp ∧
  result.osms ≤ applyBp (r.mzpTiyn * r.osmsBaseMaxMzp) r.osmsBp ∧
  result.opvr ≤ applyBp (r.mzpTiyn * r.opvBaseMaxMzp) r.opvrBp

structure OthersNonneg (result : Result) : Prop where
  opv : 0 ≤ result.opv
  vosms : 0 ≤ result.vosms
  ipn : 0 ≤ result.ipn
  opvr : 0 ≤ result.opvr
  so : 0 ≤ result.so
  osms : 0 ≤ result.osms
  socialTax : 0 ≤ result.socialTax
  employerCostTotal : 0 ≤ result.employerCostTotal

section Checked

variable {input : Input} {r : Rates}

theorem applyBp_cap {x y bp : Int} (h : ProductBounded x y) (hBp : RateChecked bp) :
    applyBp (x * y) bp = roundBp (x * y) bp := by
  have hCap := h.nonneg
  have hBound := h.2.2
  exact applyBp_of_fits (bpFits ⟨by omega, by omega⟩ hBp)

theorem exactResult_capped (hRates : RatesChecked r) (hConstants : ConstantsBounded r)
    (hLow : 0 ≤ input.grossTiyn) : Capped (exactResult input r) r := by
  have hOpv := capped_bounds hConstants.opvCap.nonneg hLow hRates.opv
  have hVosms := capped_bounds hConstants.vosmsCap.nonneg hLow hRates.vosms
  have hOsms := capped_bounds hConstants.osmsCap.nonneg hLow hRates.osms
  have hOpvr := capped_bounds hConstants.opvCap.nonneg hLow hRates.opvr
  have hSo := (employer_bounds true hRates hConstants hLow).1
  unfold Capped
  rw [applyBp_cap hConstants.opvCap hRates.opv, applyBp_cap hConstants.vosmsCap hRates.vosms,
    applyBp_cap hConstants.soCeiling hRates.so, applyBp_cap hConstants.osmsCap hRates.osms,
    applyBp_cap hConstants.opvCap hRates.opvr]
  refine ⟨hOpv.2.2, hVosms.2.2, hSo.2, hOsms.2.2, ?_⟩
  show r.opvr input.grossTiyn input.opvrExempt ≤ roundBp (r.mzpTiyn * r.opvBaseMaxMzp) r.opvrBp
  unfold Rates.opvr
  split
  · exact Int.le_trans hOpvr.1 hOpvr.2.2
  · exact hOpvr.2.2

theorem exactResult_othersNonneg (hRates : RatesChecked r) (hConstants : ConstantsBounded r)
    (hLow : 0 ≤ input.grossTiyn) (hSum : r.opvBp + r.vosmsBp ≤ 10000) :
    OthersNonneg (exactResult input r) := by
  have hOpv := (capped_bounds hConstants.opvCap.nonneg hLow hRates.opv).1
  have hVosms := (capped_bounds hConstants.vosmsCap.nonneg hLow hRates.vosms).1
  obtain ⟨hSo, hOsms, hOpvr⟩ := employer_bounds input.opvrExempt hRates hConstants hLow
  have hRest := (rest_bounds hRates hConstants hLow).2.2.1 hSum
  have hIpn : 0 ≤ r.ipn input.grossTiyn input.ipnDeductionClaimed :=
    roundBp_nonneg (by omega) hRates.ipn.1 hRates.ipn.2
  have hTax : 0 ≤ r.socialTax input.grossTiyn := by
    unfold Rates.socialTax
    split
    · exact roundBp_nonneg hRest hRates.socialTax.1 hRates.socialTax.2
    · exact Int.le_refl 0
  have hCost : 0 ≤ (exactResult input r).employerCostTotal := by
    simp only [exactResult]
    omega
  exact ⟨hOpv, hVosms, hIpn, hOpvr.1, hSo.1, hOsms.1, hTax, hCost⟩

/-- The income tax takes at most what is left. -/
theorem exactResult_net_nonneg (hRates : RatesChecked r) (hConstants : ConstantsBounded r)
    (hLow : 0 ≤ input.grossTiyn) (hSum : r.opvBp + r.vosmsBp ≤ 5000) :
    0 ≤ (exactResult input r).net := by
  have hRest := (rest_bounds hRates hConstants hLow).2.2.2 hSum
  have hDeduction : 0 ≤ r.ipnDeduction input.ipnDeductionClaimed := by
    unfold Rates.ipnDeduction
    split
    · exact hConstants.ipnDeduction.nonneg
    · exact Int.le_refl 0
  have hIpn : r.ipn input.grossTiyn input.ipnDeductionClaimed ≤
      max 0 (r.rest input.grossTiyn - r.ipnDeduction input.ipnDeductionClaimed) :=
    roundBp_le_self (by omega) hRates.ipn.2
  show 0 ≤ r.rest input.grossTiyn - r.ipn input.grossTiyn input.ipnDeductionClaimed
  omega

/-- Under the checks of the reference tables no operation of the calculator overflows, the gross is
what is paid out and the three withholdings, and the amounts pass the checks of `payslips`. -/
theorem calculate_reliable (hRates : RatesChecked r) (hConstants : ConstantsBounded r)
    (hLow : 0 ≤ input.grossTiyn) (hHigh : input.grossTiyn ≤ maxGrossTiyn) :
    ∃ result, calculate? input r = some result ∧ calculate input r = .ok result ∧
      input.grossTiyn = result.net + result.opv + result.vosms + result.ipn ∧
      (r.opvBp + r.vosmsBp ≤ 10000 → OthersNonneg result) ∧
      Capped result r ∧
      (r.opvBp + r.vosmsBp ≤ 5000 →
        0 ≤ result.net ∧ (Payslip.ofResult input.grossTiyn result).Checks) := by
  have hDefined := calculate?_of_checked hRates hConstants hLow hHigh
  refine ⟨exactResult input r, hDefined, calculate_of_defined hDefined, ?_,
    exactResult_othersNonneg hRates hConstants hLow, exactResult_capped hRates hConstants hLow,
    fun hSum => ?_⟩
  · show input.grossTiyn = input.grossTiyn - r.opv input.grossTiyn - r.vosms input.grossTiyn -
      r.ipn input.grossTiyn input.ipnDeductionClaimed + r.opv input.grossTiyn +
      r.vosms input.grossTiyn + r.ipn input.grossTiyn input.ipnDeductionClaimed
    omega
  · have hNet := exactResult_net_nonneg hRates hConstants hLow hSum
    have hOthers := exactResult_othersNonneg hRates hConstants hLow (Int.le_trans hSum (by decide))
    exact ⟨hNet, ⟨hLow, hOthers.opv, hOthers.vosms, hOthers.ipn, hNet, hOthers.opvr, hOthers.so,
      hOthers.osms, hOthers.socialTax⟩⟩

end Checked

theorem calculate_reliable_2026 : ∃ result,
    calculate? ⟨30000000, true, false⟩ rates2026 = some result ∧
      calculate ⟨30000000, true, false⟩ rates2026 = .ok result ∧
      30000000 = result.net + result.opv + result.vosms + result.ipn ∧
      (rates2026.opvBp + rates2026.vosmsBp ≤ 10000 → OthersNonneg result) ∧
      Capped result rates2026 ∧
      (rates2026.opvBp + rates2026.vosmsBp ≤ 5000 →
        0 ≤ result.net ∧ (Payslip.ofResult 30000000 result).Checks) := by
  have hRates : RatesChecked rates2026 := by
    constructor <;> constructor <;> decide
  have hConstants : ConstantsBounded rates2026 := by
    constructor
    case soBaseMinMzp => decide
    case soInterval => decide
    all_goals refine ⟨?_, ?_, ?_⟩ <;> decide
  exact @calculate_reliable ⟨30000000, true, false⟩ rates2026 hRates hConstants (by decide) (by decide)

/-! ### Two grosses -/

section Raise

variable {r : Rates} {g₁ g₂ : Int}

theorem rest_almost_mono (hOpv : 0 ≤ r.opvBp) (hVosms : 0 ≤ r.vosmsBp)
    (hSum : r.opvBp + r.vosmsBp ≤ 10000) (h : g₁ ≤ g₂) : r.rest g₁ ≤ r.rest g₂ + 1 := by
  have hOpvBase : min g₁ (r.mzpTiyn * r.opvBaseMaxMzp) ≤ min g₂ (r.mzpTiyn * r.opvBaseMaxMzp) ∧
      min g₂ (r.mzpTiyn * r.opvBaseMaxMzp) ≤
        min g₁ (r.mzpTiyn * r.opvBaseMaxMzp) + (g₂ - g₁) := by omega
  have hVosmsBase : min g₁ (r.mzpTiyn * r.vosmsBaseMaxMzp) ≤ min g₂ (r.mzpTiyn * r.vosmsBaseMaxMzp) ∧
      min g₂ (r.mzpTiyn * r.vosmsBaseMaxMzp) ≤
        min g₁ (r.mzpTiyn * r.vosmsBaseMaxMzp) + (g₂ - g₁) := by omega
  have hPair := roundBp_gain_pair hOpvBase hVosmsBase hOpv hVosms hSum
  simp only [Rates.rest, Rates.opv, Rates.vosms]
  omega

/-- The income tax takes no more of a growth than the growth, so one tiyn is all that a net can lose. -/
theorem net_almost_mono {rest₁ rest₂ deduction bp : Int} (hBp : RateChecked bp)
    (h : rest₁ ≤ rest₂ + 1) :
    rest₁ - roundBp (max 0 (rest₁ - deduction)) bp - 1 ≤
      rest₂ - roundBp (max 0 (rest₂ - deduction)) bp := by
  rcases Int.le_total rest₁ rest₂ with hUp | hDown
  · have hGain := roundBp_gain (show max 0 (rest₁ - deduction) ≤ max 0 (rest₂ - deduction) by omega)
      hBp.2
    omega
  · have hTax := roundBp_mono (show max 0 (rest₂ - deduction) ≤ max 0 (rest₁ - deduction) by omega)
      hBp.1
    omega

theorem afterOpv_mono (hOpv : r.opvBp ≤ 10000) (h : g₁ ≤ g₂) :
    g₁ - r.opv g₁ ≤ g₂ - r.opv g₂ := by
  have hGain := roundBp_gain
    (show min g₁ (r.mzpTiyn * r.opvBaseMaxMzp) ≤ min g₂ (r.mzpTiyn * r.opvBaseMaxMzp) by omega) hOpv
  simp only [Rates.opv]
  omega

theorem clamp_mono {v w lo hi : Int} (hInterval : lo ≤ hi) (h : v ≤ w) :
    clamp v lo hi ≤ clamp w lo hi := by
  unfold clamp
  split_ifs <;> omega

theorem so_mono (hOpv : r.opvBp ≤ 10000) (hSo : 0 ≤ r.soBp)
    (hInterval : r.mzpTiyn * r.soBaseMinMzp ≤ r.mzpTiyn * r.soBaseMaxMzp) (h : g₁ ≤ g₂) :
    r.so g₁ ≤ r.so g₂ := by
  apply roundBp_mono _ hSo
  exact clamp_mono hInterval (afterOpv_mono hOpv h)

theorem osms_mono (hOsms : 0 ≤ r.osmsBp) (h : g₁ ≤ g₂) : r.osms g₁ ≤ r.osms g₂ := by
  apply roundBp_mono _ hOsms
  omega

theorem opvr_mono (hOpvr : 0 ≤ r.opvrBp) (exempt : Bool) (h : g₁ ≤ g₂) :
    r.opvr g₁ exempt ≤ r.opvr g₂ exempt := by
  unfold Rates.opvr
  split
  · exact Int.le_refl 0
  · apply roundBp_mono _ hOpvr
    omega

theorem socialTax_almost_mono (hTax : RateChecked r.socialTaxBp) (h : r.rest g₁ ≤ r.rest g₂ + 1) :
    r.socialTax g₁ ≤ r.socialTax g₂ + 1 := by
  unfold Rates.socialTax
  split
  · rcases Int.le_total (r.rest g₁) (r.rest g₂) with hUp | hDown
    · have hMono := roundBp_mono hUp hTax.1
      omega
    · have hGain := roundBp_gain hDown hTax.2
      omega
  · decide

/-- Of two grosses that the calculator takes, the higher one pays out at least what the lower one does,
less one tiyn, and costs the employer no less. -/
theorem calculate_almost_mono {claimed exempt : Bool} {result₁ result₂ : Result}
    (hRates : RatesChecked r) (hSum : r.opvBp + r.vosmsBp ≤ 10000) (h : g₁ ≤ g₂)
    (h₁ : calculate? ⟨g₁, claimed, exempt⟩ r = some result₁)
    (h₂ : calculate? ⟨g₂, claimed, exempt⟩ r = some result₂) :
    calculate ⟨g₁, claimed, exempt⟩ r = .ok result₁ ∧
    calculate ⟨g₂, claimed, exempt⟩ r = .ok result₂ ∧
    result₁.net - 1 ≤ result₂.net ∧ result₁.employerCostTotal ≤ result₂.employerCostTotal := by
  refine ⟨calculate_of_defined h₁, calculate_of_defined h₂, ?_⟩
  obtain ⟨-, -, hEmployer, -, rfl⟩ := calculate?_eq_some.mp h₁
  obtain ⟨-, -, -, -, rfl⟩ := calculate?_eq_some.mp h₂
  have hRest : r.rest g₁ ≤ r.rest g₂ + 1 := rest_almost_mono hRates.opv.1 hRates.vosms.1 hSum h
  constructor
  · exact net_almost_mono hRates.ipn hRest
  · have hOpvr := opvr_mono hRates.opvr.1 exempt h
    have hSo := so_mono hRates.opv.2 hRates.so.1 hEmployer.soInterval h
    have hOsms := osms_mono hRates.osms.1 h
    have hTax := socialTax_almost_mono hRates.socialTax hRest
    show g₁ + r.opvr g₁ exempt + r.so g₁ + r.osms g₁ + r.socialTax g₁ ≤
      g₂ + r.opvr g₂ exempt + r.so g₂ + r.osms g₂ + r.socialTax g₂
    rcases Int.lt_or_eq_of_le h with hLess | rfl
    · omega
    · exact Int.le_refl _

theorem calculate_almost_mono_2026 : ∃ result₁ result₂,
    calculate ⟨30000000, true, false⟩ rates2026 = .ok result₁ ∧
    calculate ⟨30000001, true, false⟩ rates2026 = .ok result₂ ∧
    result₁.net - 1 ≤ result₂.net ∧ result₁.employerCostTotal ≤ result₂.employerCostTotal := by
  have hRates : RatesChecked rates2026 := by
    constructor <;> constructor <;> decide
  exact ⟨_, _, @calculate_almost_mono rates2026 30000000 30000001 true false _ _ hRates (by decide)
    (by decide) rfl rfl⟩

end Raise

end CyberAccountant.Payroll
