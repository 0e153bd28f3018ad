import CyberAccountant.Library.Rounding
import CyberAccountant.Tax.Declaration

/-! The whole tenge of form 300.00.  Accrued and deductible VAT and the balance are rounded each on its
own, and what the form files still reconciles up to one tenge. -/

namespace CyberAccountant.Tax

open CyberAccountant.Library CyberAccountant.Ledger

namespace FnoXml

/-- `roundHalfUpToTenge` in 64-bit integers: none where an operation overflows. -/
def roundHalfUpToTenge? (tiyn : Int) : Option Int := do
  let q ← fit64? (tiyn.tdiv 100)
  let r ← fit64? (tiyn.tmod 100)
  if 50 ≤ r then fit64? (q + 1) else if r ≤ -50 then fit64? (q - 1) else some q

/-- Quotient and remainder, which has the sign of the amount. -/
theorem tiyn_split (tiyn : Int) :
    100 * tiyn.tdiv 100 + tiyn.tmod 100 = tiyn ∧ -100 < tiyn.tmod 100 ∧ tiyn.tmod 100 < 100 ∧
      (0 < tiyn.tmod 100 → 0 < tiyn) ∧ (tiyn.tmod 100 < 0 → tiyn < 0) := by
  have hSplit := Int.mul_tdiv_add_tmod tiyn 100
  have hSmall := Int.tmod_lt_of_pos tiyn (show (0 : Int) < 100 by decide)
  have hLarge := Int.lt_tmod_of_pos tiyn (show (0 : Int) < 100 by decide)
  refine ⟨hSplit, hLarge, hSmall, fun hPos => ?_, fun hNeg => ?_⟩
  · by_contra hSign
    have := Int.tmod_nonneg 100 (show 0 ≤ -tiyn by omega)
    rw [Int.neg_tmod] at this
    omega
  · by_contra hSign
    have := Int.tmod_nonneg 100 (show 0 ≤ tiyn by omega)
    omega

/-- The nearest whole tenge, a tie away from zero. -/
theorem roundHalfUpToTenge_away (tiyn : Int) : RoundsAway 100 tiyn (roundHalfUpToTenge tiyn) := by
  obtain ⟨hSplit, hLow, hHigh, hPos, hNeg⟩ := tiyn_split tiyn
  have hError : ∀ n, n = roundHalfUpToTenge tiyn → 2 * (100 * n - tiyn) ≤ 100 ∧ 2 * (tiyn - 100 * n) ≤ 100 ∧
      (2 * (100 * n - tiyn) = 100 → 0 ≤ tiyn) ∧ (2 * (tiyn - 100 * n) = 100 → tiyn ≤ 0) := by
    rintro n rfl
    unfold roundHalfUpToTenge
    dsimp only
    split_ifs <;> omega
  obtain ⟨hOver, hUnder, hUp, hDown⟩ := hError _ rfl
  exact RoundsAway.of_half (by decide) hOver hUnder hUp hDown

theorem roundHalfUpToTenge_neg (tiyn : Int) : roundHalfUpToTenge (-tiyn) = -roundHalfUpToTenge tiyn :=
  (roundHalfUpToTenge_away (-tiyn)).unique (by decide) (roundHalfUpToTenge_away tiyn).neg

/-- Every amount of 64 bits is rounded without overflow, the least one among them. -/
theorem roundHalfUpToTenge?_eq {tiyn : Int} (h : InInt64 tiyn) :
    roundHalfUpToTenge? tiyn = some (roundHalfUpToTenge tiyn) := by
  obtain ⟨hSplit, hLow, hHigh, -⟩ := tiyn_split tiyn
  obtain ⟨hMin, hMax⟩ := h
  have hQuotient : InInt64 (tiyn.tdiv 100) := ⟨by omega, by omega⟩
  have hRemainder : InInt64 (tiyn.tmod 100) := ⟨by omega, by omega⟩
  have hUp : InInt64 (tiyn.tdiv 100 + 1) := ⟨by omega, by omega⟩
  have hDown : InInt64 (tiyn.tdiv 100 - 1) := ⟨by omega, by omega⟩
  unfold roundHalfUpToTenge? roundHalfUpToTenge
  rw [fit64?_of hQuotient, fit64?_of hRemainder]
  simp only [Option.bind_eq_bind, Option.bind_some, fit64?_of hUp, fit64?_of hDown]
  split_ifs <;> rfl

end FnoXml

open FnoXml

/-- The amounts of form 300.00 in whole tenge. -/
structure VatTenge where
  accrued : Int
  deductible : Int
  toPay : Int
  toRefund : Int
  deriving DecidableEq

/-- What is to be refunded: none where the negation overflows. -/
def Fno300.toRefund? (balanceTiyn : Int) : Option Int :=
  if balanceTiyn < 0 then fit64? (-balanceTiyn) else some 0

/-- The amounts as `Fno300.buildXml` computes them in 64-bit integers: none where an operation
overflows. -/
def Fno300.tenge? (accruedTiyn deductibleTiyn balanceTiyn : Int) : Option VatTenge := do
  let toPayTiyn := if 0 < balanceTiyn then balanceTiyn else 0
  let toRefundTiyn ← Fno300.toRefund? balanceTiyn
  let accrued ← roundHalfUpToTenge? accruedTiyn
  let deductible ← roundHalfUpToTenge? deductibleTiyn
  let toPay ← roundHalfUpToTenge? toPayTiyn
  let toRefund ← roundHalfUpToTenge? toRefundTiyn
  some ⟨accrued, deductible, toPay, toRefund⟩

/-- The form files the amounts, in the sheet and in the summary. -/
structure Fno.FilesVat (fno : Fno) (tenge : VatTenge) : Prop where
  accruedField : fno.field? "field_300_00_012" = some (toString tenge.accrued)
  accruedElement : fno.summary? "accruedTenge" = some (toString tenge.accrued)
  deductibleField : fno.field? "field_300_00_023" = some (toString tenge.deductible)
  deductibleElement : fno.summary? "deductibleTenge" = some (toString tenge.deductible)
  toPayField : fno.field? "field_300_00_030_01" = some (toString tenge.toPay)
  toPayElement : fno.summary? "toPayTenge" = some (toString tenge.toPay)
  toRefundField : fno.field? "field_300_00_030_02" = some (toString tenge.toRefund)
  toRefundElement : fno.summary? "toRefundTenge" = some (toString tenge.toRefund)

variable {accrued deductible balance : Int}

/-- A balance that can be negated is split and rounded without overflow. -/
theorem Fno300.tenge?_eq (hAccrued : InInt64 accrued) (hDeductible : InInt64 deductible)
    (hBalance : InInt64 balance) (hNegated : InInt64 (-balance)) :
    Fno300.tenge? accrued deductible balance =
      some ⟨roundHalfUpToTenge accrued, roundHalfUpToTenge deductible,
        roundHalfUpToTenge (if 0 < balance then balance else 0),
        roundHalfUpToTenge (if balance < 0 then -balance else 0)⟩ := by
  have hZero : InInt64 0 := by decide
  have hToPay : InInt64 (if 0 < balance then balance else 0) := by split_ifs <;> assumption
  have hToRefund : InInt64 (if balance < 0 then -balance else 0) := by split_ifs <;> assumption
  have hRefund : Fno300.toRefund? balance = some (if balance < 0 then -balance else 0) := by
    unfold Fno300.toRefund?
    split_ifs
    · exact fit64?_of hNegated
    · rfl
  unfold Fno300.tenge?
  simp only [hRefund, roundHalfUpToTenge?_eq hAccrued, roundHalfUpToTenge?_eq hDeductible,
    roundHalfUpToTenge?_eq hToPay, roundHalfUpToTenge?_eq hToRefund, Option.bind_eq_bind, Option.bind_some]

/-- One of the two fields is zero, and together they are the rounded balance. -/
theorem roundedBalance (balance : Int) :
    (roundHalfUpToTenge (if 0 < balance then balance else 0) = 0 ∨
      roundHalfUpToTenge (if balance < 0 then -balance else 0) = 0) ∧
    roundHalfUpToTenge (if 0 < balance then balance else 0) -
      roundHalfUpToTenge (if balance < 0 then -balance else 0) = roundHalfUpToTenge balance := by
  have hZero : roundHalfUpToTenge 0 = 0 := rfl
  rcases Int.lt_trichotomy balance 0 with hSign | rfl | hSign
  · rw [if_neg (by omega), if_pos hSign, roundHalfUpToTenge_neg, hZero]
    exact ⟨.inl rfl, by omega⟩
  · exact ⟨.inl rfl, rfl⟩
  · rw [if_pos hSign, if_neg (by omega), hZero]
    exact ⟨.inr rfl, by omega⟩

/-- The amounts of a built form are those of its row. -/
theorem Fno300.filesVat {row : Calculation} {org : OrgInfo} {fno : Fno} {tenge : VatTenge}
    (h : Fno300.buildXml row org = .ok fno)
    (hTenge : tenge = ⟨roundHalfUpToTenge (snapshotValue row "accrued_tiyn"),
      roundHalfUpToTenge (snapshotValue row "deductible_tiyn"),
      roundHalfUpToTenge (if 0 < row.totalTiyn then row.totalTiyn else 0),
      roundHalfUpToTenge (if row.totalTiyn < 0 then -row.totalTiyn else 0)⟩) : fno.FilesVat tenge := by
  obtain ⟨hAccrued, hAccrued', hDeductible, hDeductible', hPay, hPay', hRefund, hRefund'⟩ := Fno300.buildXml_ok h
  subst hTenge
  exact ⟨hAccrued, hAccrued', hDeductible, hDeductible', hPay, hPay', hRefund, hRefund'⟩

/-- Rounding goes to the nearest tenge and away from zero on a tie, for every amount and without
overflow; of the fields "to pay" and "to refund" one is zero; and what is filed differs from consistent
arithmetic by at most one tenge. -/
theorem vatForm_reconciles (hAccrued : InInt64 accrued) (hDeductible : InInt64 deductible)
    (hAccruedSign : 0 ≤ accrued) (hDeductibleSign : 0 ≤ deductible) :
    (∀ tiyn, RoundsAway 100 tiyn (roundHalfUpToTenge tiyn) ∧
      roundHalfUpToTenge (-tiyn) = -roundHalfUpToTenge tiyn ∧
      (InInt64 tiyn → roundHalfUpToTenge? tiyn = some (roundHalfUpToTenge tiyn))) ∧
    InInt64 (accrued - deductible) ∧
    ∃ tenge, Fno300.tenge? accrued deductible (accrued - deductible) = some tenge ∧
      tenge.accrued = roundHalfUpToTenge accrued ∧ tenge.deductible = roundHalfUpToTenge deductible ∧
      (tenge.toPay = 0 ∨ tenge.toRefund = 0) ∧
      |(tenge.accrued - tenge.deductible) - (tenge.toPay - tenge.toRefund)| ≤ 1 ∧
      ∀ row org fno, Fno300.buildXml row org = .ok fno → snapshotValue row "accrued_tiyn" = accrued →
        snapshotValue row "deductible_tiyn" = deductible → row.totalTiyn = accrued - deductible →
        fno.FilesVat tenge := by
  have hBalance : InInt64 (accrued - deductible) := ⟨by have := hDeductible.2; omega, by have := hAccrued.2; omega⟩
  have hNegated : InInt64 (-(accrued - deductible)) :=
    ⟨by have := hAccrued.2; omega, by have := hDeductible.2; omega⟩
  obtain ⟨hOne, hTogether⟩ := roundedBalance (accrued - deductible)
  refine ⟨fun tiyn => ⟨roundHalfUpToTenge_away tiyn, roundHalfUpToTenge_neg tiyn, roundHalfUpToTenge?_eq⟩,
    hBalance, _, Fno300.tenge?_eq hAccrued hDeductible hBalance hNegated, rfl, rfl, hOne, ?_, ?_⟩
  · rw [hTogether]
    exact (roundHalfUpToTenge_away accrued).sub_close (by decide) (roundHalfUpToTenge_away deductible)
      (roundHalfUpToTenge_away (accrued - deductible))
  · intro row org fno hForm hRowAccrued hRowDeductible hRowTotal
    exact Fno300.filesVat hForm (by rw [hRowAccrued, hRowDeductible, hRowTotal])

/-- The row of a quarter with 1.49 of accrued and 0.50 of deductible VAT. -/
def quarterRow : Calculation :=
  { id := 0
    orgId := 0
    kind := .vat
    periodFrom := .newYear
    periodTo := .endOfMarch
    inputSnapshot := .null
    resultSnapshot := [("accrued_tiyn", 149), ("deductible_tiyn", 50), ("balance_tiyn", 99)]
    totalTiyn := 99 }

/-- 1.49 accrued and 0.50 deductible are filed as 1 and 1, and their balance 0.99 as 1 to pay. -/
theorem vatForm_reconciles_apart : ∃ tenge, Fno300.tenge? 149 50 (149 - 50) = some tenge ∧
    (tenge.accrued - tenge.deductible) - (tenge.toPay - tenge.toRefund) = -1 ∧
    ∃ row org fno, Fno300.buildXml row org = .ok fno ∧ fno.FilesVat tenge := by
  obtain ⟨-, -, tenge, hTenge, -, -, -, -, hForms⟩ := @vatForm_reconciles 149 50
    (by decide) (by decide) (by decide) (by decide)
  have hBuilt : yields (Fno300.buildXml quarterRow ⟨0, "123456789012", "Cyber", "2026", "1"⟩) (fun _ => true) =
      true := by decide +kernel
  obtain ⟨fno, hForm, -⟩ := of_yields hBuilt
  refine ⟨tenge, hTenge, ?_, _, _, fno, hForm, hForms _ _ fno hForm rfl rfl rfl⟩
  have hValue : Fno300.tenge? 149 50 (149 - 50) = some ⟨1, 1, 1, 0⟩ := by decide
  rw [← Option.some.inj (hValue.symm.trans hTenge)]
  decide

end CyberAccountant.Tax
