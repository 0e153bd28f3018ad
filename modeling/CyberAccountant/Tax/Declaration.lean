import CyberAccountant.Tax.FilingPeriod

/-! The printed declaration and the XML of one filing: two encoders of one calculation, and what the
client may write beside them. -/

namespace CyberAccountant.Tax

open CyberAccountant.Library CyberAccountant.Ledger CyberAccountant.Api.Validation
open CyberAccountant.Money (formatTiynRu toWordsRu readTiynRu readWordsRu readTiynRu_formatTiynRu
  readWordsRu_toWordsRu)

/-- The whole tenge nearest to an amount, upwards from the half. -/
def halfUp (tiyn : Nat) : Nat := (tiyn + 50) / 100

theorem roundHalfUpToTenge_natCast (tiyn : Nat) : FnoXml.roundHalfUpToTenge tiyn = halfUp tiyn := by
  unfold FnoXml.roundHalfUpToTenge halfUp
  rw [Int.tdiv_eq_ediv_of_nonneg (by omega), Int.tmod_eq_emod_of_nonneg (by omega)]
  dsimp only
  split_ifs <;> omega

theorem tengeAmount_of_nonneg {tiyn : Int} (h : 0 ≤ tiyn) :
    FnoXml.tengeAmount tiyn = toString (halfUp tiyn.toNat) := by
  obtain ⟨n, rfl⟩ := Int.eq_ofNat_of_zero_le h
  rw [FnoXml.tengeAmount, roundHalfUpToTenge_natCast]
  rfl

/-! ### What the two documents say -/

/-- The amount that the printed form has under a key. -/
def Filing.printedAmount (filing : Filing) (key : String) : Option Nat :=
  (textAt filing.input [key]).bind readTiynRu

/-- The amount that the printed form spells out under a key. -/
def Filing.printedWords (filing : Filing) (key : String) : Option Nat :=
  (textAt filing.input [key]).bind readWordsRu

/-- A field of the sheet and an element of the summary have the same whole tenge. -/
def Fno.Reports (fno : Fno) (field element : String) (tenge : Nat) : Prop :=
  fno.field? field = some (toString tenge) ∧ fno.summary? element = some (toString tenge)

/-- Form 910.00: the income and the tax. -/
def Filing.SnrAgrees (filing : Filing) : Prop :=
  ∃ income tax, filing.printedAmount "income_tenge" = some income ∧
    filing.xml.Reports "field_910_00_001" "incomeTenge" (halfUp income) ∧
    filing.printedAmount "tax_tenge" = some tax ∧
    filing.xml.summary? "taxTenge" = some (toString (halfUp tax)) ∧
    filing.printedWords "tax_words" = some tax

/-- Form 300.00: what is accrued and what is deductible, and the balance with its direction. -/
def Filing.VatAgrees (filing : Filing) : Prop :=
  ∃ accrued deductible balance, filing.printedAmount "vat_charged_tenge" = some accrued ∧
    filing.xml.Reports "field_300_00_012" "accruedTenge" (halfUp accrued) ∧
    filing.printedAmount "vat_credited_tenge" = some deductible ∧
    filing.xml.Reports "field_300_00_023" "deductibleTenge" (halfUp deductible) ∧
    filing.printedAmount "balance_tenge" = some balance ∧
    filing.printedWords "balance_words" = some balance ∧
    ((textAt filing.input ["balance_kind"] = some "to_pay" ∧
        filing.xml.Reports "field_300_00_030_01" "toPayTenge" (halfUp balance) ∧
        filing.xml.Reports "field_300_00_030_02" "toRefundTenge" 0) ∨
      (textAt filing.input ["balance_kind"] = some "to_refund" ∧
        filing.xml.Reports "field_300_00_030_01" "toPayTenge" 0 ∧
        filing.xml.Reports "field_300_00_030_02" "toRefundTenge" (halfUp balance)))

/-- The XML is the rounding of what is printed, and the words are what is printed. -/
def Filing.Agrees (filing : Filing) : Prop :=
  match filing.kind with
  | .fno910 => filing.SnrAgrees
  | .fno300 => filing.VatAgrees

/-- The client has changed nothing of the input that the server has built, and nothing of the XML. -/
def Filing.Derived (filing : Filing) : Prop :=
  ∃ row organization today base, filing.Of row organization today ∧
    buildFormInput filing.kind row organization today = .ok base ∧
    ∀ key path, (base.at? [key]).isSome → filing.input.at? (key :: path) = base.at? (key :: path)

/-! ### The input -/

theorem orFail_formatted {tiyn : Int} {text : String} (h : formatted tiyn = .ok text) :
    0 ≤ tiyn ∧ readTiynRu text = some tiyn.toNat :=
  readTiynRu_formatTiynRu (orFail_eq_ok.mp h)

theorem spellOutTiyn_ok {magnitude : Int} {text : String} (h : spellOutTiyn magnitude = .ok text) :
    readWordsRu text = some magnitude.toNat := by
  unfold spellOutTiyn at h
  split at h
  · rename_i hWords
    cases h
    exact (readWordsRu_toWordsRu hWords).2
  · cases h
  · cases h

variable {filing : Filing} {row : Calculation} {organization : Organization} {today : Date}

/-- The input has none of the keys that the client may write. -/
theorem buildFormInput_keys {kind : FilingKind} {base : Json}
    (h : buildFormInput kind row organization today = .ok base) :
    ∃ ms, base = .obj ms ∧ Json.member ms "" = none ∧ Json.member ms "director" = none ∧
      Json.member ms "accountant" = none := by
  cases kind with
  | fno910 =>
    simp only [buildFormInput, bind_eq_ok, pure_eq_ok] at h
    obtain ⟨_, -, _, -, _, -, _, -, _, -, rfl⟩ := h
    refine ⟨_, rfl, ?_⟩
    simp [Json.member]
  | fno300 =>
    simp only [buildFormInput, bind_eq_ok, pure_eq_ok] at h
    obtain ⟨_, -, _, -, _, -, _, -, _, -, _, -, _, -, _, -, _, -, rfl⟩ := h
    refine ⟨_, rfl, ?_⟩
    simp [Json.member]

/-- Every field of the derived input stays, at every depth. -/
theorem Filing.Of.keeps {base : Json} {extra : List (String × Json)}
    (hBase : buildFormInput filing.kind row organization today = .ok base)
    (hMerge : mergeAllowedExtra base extra filing.kind.allowedExtraFields = (.ok (), filing.input)) (key : String)
    (path : List String) (h : (base.at? [key]).isSome) :
    filing.input.at? (key :: path) = base.at? (key :: path) := by
  obtain ⟨ms, rfl, hEmpty, hDirector, hAccountant⟩ := buildFormInput_keys hBase
  have hSome : (Json.member ms key).isSome := by simpa [Json.at?_cons, Json.members] using h
  have hNe : ∀ k, Json.member ms k = none → key ≠ k := by
    rintro k hNone rfl
    rw [hNone] at hSome
    cases hSome
  have hOther : key ∉ filing.kind.allowedExtraFields := by
    cases filing.kind <;> simpa [FilingKind.allowedExtraFields] using ⟨hNe _ hDirector, hNe _ hAccountant⟩
  exact mergeAllowedExtra_at? (allowedExtraFields_plain filing.kind) hMerge (hNe _ hEmpty) hOther path

theorem Filing.Of.derived (h : filing.Of row organization today) : filing.Derived := by
  obtain ⟨base, extra, hBase, hMerge⟩ := h.input
  exact ⟨row, organization, today, base, h, hBase, Filing.Of.keeps hBase hMerge⟩

/-! ### The two encoders -/

theorem textAt_kept {base : Json} {key text : String}
    (hKeep : (base.at? [key]).isSome → filing.input.at? [key] = base.at? [key])
    (h : textAt base [key] = some text) : textAt filing.input [key] = some text := by
  have hSome : (base.at? [key]).isSome := by
    unfold textAt at h
    split at h
    · rename_i hAt
      rw [hAt]
      rfl
    · cases h
  unfold textAt at h ⊢
  rw [hKeep hSome]
  exact h

/-- An amount that is printed is read back. -/
theorem printedAmount_of {key text : String} {tiyn : Int} (hText : textAt filing.input [key] = some text)
    (h : formatted tiyn = .ok text) : 0 ≤ tiyn ∧ filing.printedAmount key = some tiyn.toNat := by
  obtain ⟨hSign, hRead⟩ := orFail_formatted h
  exact ⟨hSign, by rw [Filing.printedAmount, hText, Option.bind_some, hRead]⟩

theorem printedWords_of {key text : String} {tiyn : Int} (hText : textAt filing.input [key] = some text)
    (h : spellOutTiyn tiyn = .ok text) : filing.printedWords key = some tiyn.toNat := by
  rw [Filing.printedWords, hText, Option.bind_some, spellOutTiyn_ok h]

theorem snapshotValue_of_required {key : String} {value : Int} (h : requiredInt row key = .ok value) :
    snapshotValue row key = value := by
  rw [snapshotValue, orFail_eq_ok.mp h]
  rfl

/-- The fields of form 910.00. -/
theorem Fno910.buildXml_ok {org : OrgInfo} {fno : Fno} (h : Fno910.buildXml row org = .ok fno) :
    fno.field? "field_910_00_001" = some (FnoXml.tengeAmount (snapshotValue row "income_tiyn")) ∧
    fno.summary? "incomeTenge" = some (FnoXml.tengeAmount (snapshotValue row "income_tiyn")) ∧
    fno.summary? "taxTenge" = some (FnoXml.tengeAmount row.totalTiyn) := by
  simp only [Fno910.buildXml, bind_eq_ok, ensure_eq_ok, pure_eq_ok, exists_const] at h
  obtain ⟨-, -, rfl⟩ := h
  simp [Fno.field?, Fno.summary?, FnoXml.identityFields]

theorem Filing.Of.snrAgrees (h : filing.Of row organization today) (hKind : filing.kind = .fno910) :
    filing.SnrAgrees := by
  obtain ⟨base, extra, hBase, hMerge⟩ := h.input
  have hKeep := fun key => Filing.Of.keeps hBase hMerge key []
  have hXml := h.xml
  rw [hKind] at hBase hXml
  obtain ⟨hIncomeField, hIncomeElement, hTaxElement⟩ := Fno910.buildXml_ok hXml
  simp only [buildFormInput, bind_eq_ok, pure_eq_ok] at hBase
  obtain ⟨income, hIncome, _, -, incomeText, hIncomeText, taxText, hTaxText, words, hWords, rfl⟩ := hBase
  obtain ⟨hIncomeSign, hIncomePrinted⟩ := printedAmount_of
    (textAt_kept (hKeep "income_tenge") (by simp [textAt, Json.at?_cons, Json.member, Json.members])) hIncomeText
  obtain ⟨hTaxSign, hTaxPrinted⟩ := printedAmount_of
    (textAt_kept (hKeep "tax_tenge") (by simp [textAt, Json.at?_cons, Json.member, Json.members])) hTaxText
  have hWordsPrinted := printedWords_of
    (textAt_kept (hKeep "tax_words") (by simp [textAt, Json.at?_cons, Json.member, Json.members])) hWords
  rw [snapshotValue_of_required hIncome, tengeAmount_of_nonneg hIncomeSign] at hIncomeField hIncomeElement
  rw [tengeAmount_of_nonneg hTaxSign] at hTaxElement
  exact ⟨_, _, hIncomePrinted, ⟨hIncomeField, hIncomeElement⟩, hTaxPrinted, hTaxElement, hWordsPrinted⟩

/-- The fields of form 300.00. -/
theorem Fno300.buildXml_ok {org : OrgInfo} {fno : Fno} (h : Fno300.buildXml row org = .ok fno) :
    fno.field? "field_300_00_012" = some (FnoXml.tengeAmount (snapshotValue row "accrued_tiyn")) ∧
    fno.summary? "accruedTenge" = some (FnoXml.tengeAmount (snapshotValue row "accrued_tiyn")) ∧
    fno.field? "field_300_00_023" = some (FnoXml.tengeAmount (snapshotValue row "deductible_tiyn")) ∧
    fno.summary? "deductibleTenge" = some (FnoXml.tengeAmount (snapshotValue row "deductible_tiyn")) ∧
    fno.field? "field_300_00_030_01" =
      some (FnoXml.tengeAmount (if 0 < row.totalTiyn then row.totalTiyn else 0)) ∧
    fno.summary? "toPayTenge" = some (FnoXml.tengeAmount (if 0 < row.totalTiyn then row.totalTiyn else 0)) ∧
    fno.field? "field_300_00_030_02" =
      some (FnoXml.tengeAmount (if row.totalTiyn < 0 then -row.totalTiyn else 0)) ∧
    fno.summary? "toRefundTenge" =
      some (FnoXml.tengeAmount (if row.totalTiyn < 0 then -row.totalTiyn else 0)) := by
  simp only [Fno300.buildXml, bind_eq_ok, ensure_eq_ok, pure_eq_ok, exists_const] at h
  obtain ⟨-, -, quarter, -, rfl⟩ := h
  simp [Fno.field?, Fno.summary?, FnoXml.identityFields]

/-- The total of a recorded row of VAT is the balance of its snapshot. -/
theorem Calculation.Recorded.balance (h : row.Recorded) (hKind : row.kind = .vat) {balance : Int}
    (hBalance : requiredInt row "balance_tiyn" = .ok balance) : row.totalTiyn = balance := by
  have hSummed := h.summed
  rw [Calculation.SummedOver, hKind] at hSummed
  obtain ⟨_, _, c, -, hSnapshot, hTotal⟩ := hSummed
  have hLookup := orFail_eq_ok.mp hBalance
  rw [snapshotInt, hSnapshot] at hLookup
  rw [hTotal]
  simpa [vatResult, List.lookup_cons] using hLookup

/-- The balance of a recorded row can be negated in 64 bits. -/
theorem Calculation.Recorded.negatable (h : row.Recorded) (hKind : row.kind = .vat) :
    InInt64 (-row.totalTiyn) := by
  have hSummed := h.summed
  rw [Calculation.SummedOver, hKind] at hSummed
  obtain ⟨_, _, c, hFigures, -, hTotal⟩ := hSummed
  simp only [calculateVat, bind_eq_ok, pure_eq_ok] at hFigures
  obtain ⟨accrued, hAccrued, deductible, hDeductible, _, -, rfl⟩ := hFigures
  obtain ⟨hAccruedSign, -, hAccruedMax⟩ := sumLineAmountTiyn_bounds hAccrued
  obtain ⟨hDeductibleSign, -, hDeductibleMax⟩ := sumLineAmountTiyn_bounds hDeductible
  have hExact : wrap64 (accrued - deductible) = accrued - deductible :=
    wrap64_of_inInt64 ⟨by omega, by omega⟩
  rw [hTotal]
  dsimp only
  rw [hExact]
  exact ⟨by omega, by omega⟩

theorem Filing.Of.vatAgrees (h : filing.Of row organization today) (hRow : row.Recorded)
    (hKind : filing.kind = .fno300) : filing.VatAgrees := by
  obtain ⟨base, extra, hBase, hMerge⟩ := h.input
  have hKeep := fun key => Filing.Of.keeps hBase hMerge key []
  have hXml := h.xml
  have hVat : row.kind = .vat := by rw [h.kind, hKind]; rfl
  rw [hKind] at hBase hXml
  obtain ⟨hAccruedField, hAccruedElement, hCreditedField, hCreditedElement, hPayField, hPayElement, hRefundField,
    hRefundElement⟩ := Fno300.buildXml_ok hXml
  simp only [buildFormInput, bind_eq_ok, pure_eq_ok] at hBase
  obtain ⟨accrued, hAccrued, deductible, hDeductible, balance, hBalance, _, -, _, -, accruedText, hAccruedText,
    creditedText, hCreditedText, balanceText, hBalanceText, words, hWords, rfl⟩ := hBase
  obtain ⟨hAccruedSign, hAccruedPrinted⟩ := printedAmount_of
    (textAt_kept (hKeep "vat_charged_tenge") (by simp [textAt, Json.at?_cons, Json.member, Json.members]))
    hAccruedText
  obtain ⟨hCreditedSign, hCreditedPrinted⟩ := printedAmount_of
    (textAt_kept (hKeep "vat_credited_tenge") (by simp [textAt, Json.at?_cons, Json.member, Json.members]))
    hCreditedText
  obtain ⟨-, hBalancePrinted⟩ := printedAmount_of
    (textAt_kept (hKeep "balance_tenge") (by simp [textAt, Json.at?_cons, Json.member, Json.members])) hBalanceText
  have hWordsPrinted := printedWords_of
    (textAt_kept (hKeep "balance_words") (by simp [textAt, Json.at?_cons, Json.member, Json.members])) hWords
  have hDirection : textAt filing.input ["balance_kind"] =
      some (if balance < 0 then "to_refund" else "to_pay") :=
    textAt_kept (hKeep "balance_kind") (by simp [textAt, Json.at?_cons, Json.member, Json.members])
  rw [snapshotValue_of_required hAccrued, tengeAmount_of_nonneg hAccruedSign] at hAccruedField hAccruedElement
  rw [snapshotValue_of_required hDeductible, tengeAmount_of_nonneg hCreditedSign] at hCreditedField hCreditedElement
  rw [hRow.balance hVat hBalance] at hPayField hPayElement hRefundField hRefundElement
  refine ⟨_, _, _, hAccruedPrinted, ⟨hAccruedField, hAccruedElement⟩, hCreditedPrinted,
    ⟨hCreditedField, hCreditedElement⟩, hBalancePrinted, hWordsPrinted, ?_⟩
  have hZero : FnoXml.tengeAmount 0 = toString 0 := rfl
  by_cases hSign : balance < 0
  · rw [if_pos hSign] at hDirection hRefundField hRefundElement
    rw [if_neg (by omega), hZero] at hPayField hPayElement
    rw [tengeAmount_of_nonneg (by omega)] at hRefundField hRefundElement
    rw [if_pos hSign]
    exact .inr ⟨hDirection, ⟨hPayField, hPayElement⟩, hRefundField, hRefundElement⟩
  · rw [if_neg hSign] at hDirection hRefundField hRefundElement
    have hPay : (if 0 < balance then balance else 0) = balance := by split_ifs <;> omega
    rw [hPay, tengeAmount_of_nonneg (by omega)] at hPayField hPayElement
    rw [hZero] at hRefundField hRefundElement
    rw [if_neg hSign]
    exact .inl ⟨hDirection, ⟨hPayField, hPayElement⟩, hRefundField, hRefundElement⟩

/-- In every filing the XML is the rounding of what is printed and the words are what is printed, and all
of it comes from the calculation. -/
theorem declaration_agrees (h : filing.Accepted) : filing.Agrees ∧ filing.Derived := by
  obtain ⟨row, organization, today, hOf, hRow⟩ := h.of
  refine ⟨?_, hOf.derived⟩
  unfold Filing.Agrees
  cases hKind : filing.kind with
  | fno910 => exact hOf.snrAgrees hKind
  | fno300 => exact hOf.vatAgrees hRow hKind

/-- The filing of the whole quarter. -/
theorem declaration_agrees_quarter : ∃ filing : Filing, filing.Accepted ∧ filing.kind = .fno300 ∧
    textAt filing.input ["sales_tenge"] = some "112,00" ∧ filing.Agrees ∧ filing.Derived := by
  obtain ⟨_, whole, -, hWhole, -, hKind, -, -, -, -, -, -, hSales⟩ := filedTwice_run
  exact ⟨whole, hWhole, hKind, hSales, declaration_agrees hWhole⟩

end CyberAccountant.Tax
