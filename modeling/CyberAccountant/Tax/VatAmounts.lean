import CyberAccountant.Api.JournalController
import CyberAccountant.Ledger.NumericInput
import CyberAccountant.Tax.ExactFigures

/-! VAT amounts from the request to the sums.  The text of a VAT amount is passed on unread, so what the
column holds is what the database makes of the text; where every text says an amount, that amount is held
and every sum is a number. -/

namespace CyberAccountant.Tax

open CyberAccountant.Library CyberAccountant.Ledger CyberAccountant.Api.Validation CyberAccountant.Api.JournalController

/-- The VAT amount of a line, if it has one, says a finite amount with at most two decimals. -/
def CleanVat (line : JournalLine) : Prop := ∀ text ∈ line.vatAmount, ∃ tiyn, Denotes text tiyn

/-- Every VAT amount of the items says an amount, and its row holds it. -/
def StoredAsSent (items : List Json) (rows : List LineRow) : Prop :=
  List.Forall₂ (fun item row => ∀ text, stringField item "vat_amount" = some text →
    ∃ tiyn : Nat, Denotes text tiyn ∧ row.vatAmount.map VatAmount.value = some (.tiyn tiyn)) items rows

/-- The sum that a turnover casts is a number, and the turnover is that number as far as it fits. -/
def Evaluates (db : Db) (org : Uuid) (accounts : List String) (side : Side) (periodFrom periodTo : Date)
    (vatOnly : Bool) : Prop :=
  ∃ tiyn, 0 ≤ tiyn ∧ rangeTotal (figureItems db org accounts side vatOnly) periodFrom periodTo = .tiyn tiyn ∧
    (InInt64 tiyn → sumLineAmountTiyn db org accounts side periodFrom periodTo vatOnly = .ok tiyn)

/-! ### From the request to the rows -/

theorem readVatAmount_value {num : NumericText} {text : String} {vat : Option VatAmount}
    (h : Txn.readVatAmount num (some text) = .ok vat) :
    ∃ v, num.read text = some v ∧ vat.map VatAmount.value = some v := by
  simp only [Txn.readVatAmount, bind_eq_ok, orFail_eq_ok, map_eq_ok, VatAmount.ofNumeric?] at h
  obtain ⟨v, hRead, checked, hCheck, rfl⟩ := h
  split_ifs at hCheck
  obtain rfl := Option.some.inj hCheck
  exact ⟨v, hRead, rfl⟩

section rows

variable {num : NumericText} (hNum : ReadsNumerals num) {readUuid : String → Option Uuid}
include hNum

/-- The row of an item whose VAT amount says an amount holds it. -/
theorem row_holds {now : Timestamp} {org entry : Uuid} {d : Uuid × JournalLine} {row : LineRow} {text : String}
    {tiyn : Nat} (hRow : Txn.lineRow num now org entry d = .ok row) (hText : d.2.vatAmount = some text)
    (hDenotes : Denotes text tiyn) : row.vatAmount.map VatAmount.value = some (.tiyn tiyn) := by
  obtain ⟨-, -, -, -, -, -, hVat⟩ := Txn.lineRow_ok hRow
  rw [hText] at hVat
  obtain ⟨v, hRead, hValue⟩ := readVatAmount_value hVat
  rw [hValue, hNum.read_of_denotes hDenotes hRead]

theorem storedAsSent_of_clean {now : Timestamp} {org entry : Uuid} {drawn : List (Uuid × JournalLine)}
    {rows : List LineRow} (hRows : List.Forall₂ (fun d row => Txn.lineRow num now org entry d = .ok row) drawn rows)
    {items : List Json} (hItems : drawn.map Prod.snd = items.map (lineOf readUuid))
    (hClean : ∀ item ∈ items, ∀ text, stringField item "vat_amount" = some text → ∃ tiyn, Denotes text tiyn) :
    StoredAsSent items rows := by
  induction hRows generalizing items with
  | nil =>
    obtain rfl : items = [] := by simpa using hItems.symm
    exact .nil
  | @cons d row drawn rows hHead _ ih =>
    cases items with
    | nil => simp at hItems
    | cons item items =>
      rw [List.map_cons, List.map_cons, List.cons.injEq] at hItems
      rw [List.forall_mem_cons] at hClean
      refine .cons (fun text hText => ?_) (ih hItems.2 hClean.2)
      obtain ⟨tiyn, hDenotes⟩ := hClean.1 text hText
      have hLine : d.2.vatAmount = some text := by rw [hItems.1]; exact hText
      exact ⟨tiyn, hDenotes, row_holds hNum hHead hLine hDenotes⟩

/-- The VAT amounts of a request that is answered 201 are stored as they were sent exactly where each of
them says an amount. -/
theorem storedAsSent_iff {w : World} (hReach : Reachable num w) {now : Timestamp} {dbRead db : Db}
    {org user : Uuid} {body : Json} {id : Uuid} {lineIds : Nat → Uuid}
    (h : create num readUuid now dbRead w.db org user body id lineIds = .ok db) :
    StoredAsSent (bodyLines body) (db.linesOf id) ↔
      ∀ item ∈ bodyLines body, ∀ text, stringField item "vat_amount" = some text → ∃ tiyn, Denotes text tiyn := by
  constructor
  · intro hStored item hItem text hText
    obtain ⟨i, hi, rfl⟩ := List.mem_iff_getElem.mp hItem
    obtain ⟨tiyn, hDenotes, -⟩ := hStored.get hi (hStored.length_eq ▸ hi) text hText
    exact ⟨tiyn, hDenotes⟩
  · intro hClean
    obtain ⟨req, hLines, -, hDraft⟩ := create_ok h
    obtain ⟨rows, hRows, hNew, -, rfl, -⟩ := createDraft_ok hDraft
    have hSelf : (w.db.addEntry (draftHeader now id req) rows).linesOf id = rows :=
      hReach.ok.lines.linesOf_addEntry hNew (rows_entry hRows)
    rw [hSelf]
    exact storedAsSent_of_clean hNum hRows (by rw [withIds_map_snd, hLines]) hClean

end rows

/-! ### From the rows to the sums -/

/-- The VAT amount of a line, if it has one, is read as a number or not at all. -/
def VatRead (num : NumericText) (line : JournalLine) : Prop :=
  ∀ text ∈ line.vatAmount, ∀ v, num.read text = some v → ∃ tiyn, v = .tiyn tiyn

/-- The VAT amount of a row, if it has one, is a number. -/
def VatIsNumber (l : LineRow) : Prop := ∀ vat ∈ l.vatAmount, ∃ tiyn, vat.value = .tiyn tiyn

theorem vat_carried (num : NumericText) : Carried num (VatRead num) VatIsNumber where
  stored {now org entry d l} hText hRow := by
    intro vat hVat
    obtain ⟨-, -, -, -, -, -, hRead⟩ := Txn.lineRow_ok hRow
    cases hSent : d.2.vatAmount with
    | none =>
      rw [hSent] at hRead
      have hNone : none = l.vatAmount := by simpa [Txn.readVatAmount] using hRead
      rw [← hNone] at hVat
      cases hVat
    | some text =>
      rw [hSent] at hRead
      obtain ⟨v, hV, hValue⟩ := readVatAmount_value hRead
      rw [Option.mem_def.mp hVat, Option.map_some, Option.some.injEq] at hValue
      rw [hValue]
      exact hText text hSent v hV
  loaded l hRow := by
    intro text hText v hRead
    obtain ⟨vat, hVat, rfl⟩ := Option.map_eq_some_iff.mp hText
    rw [num.read_write vat.value vat.nonNeg vat.fits] at hRead
    obtain rfl := Option.some.inj hRead
    exact hRow vat hVat
  mirrored _ hText := hText

/-- In every run whose drafts have clean VAT amounts every sum is a number. -/
theorem evaluates_of_run {num : NumericText} (hNum : ReadsNumerals num) {w : World}
    (hRun : Run (DraftsStep num CleanVat) World.initial w) (org : Uuid) (accounts : List String) (side : Side)
    (periodFrom periodTo : Date) (vatOnly : Bool) : Evaluates w.db org accounts side periodFrom periodTo vatOnly := by
  have hReach : Reachable num w := Run.mono (fun _ _ hStep => hStep.1) hRun
  have hVatRead : Run (DraftsStep num (VatRead num)) World.initial w := by
    refine Run.mono (fun _ _ hStep => ⟨hStep.1, fun c req hChecks hPending line hLine text hText v hRead => ?_⟩) hRun
    obtain ⟨tiyn, hDenotes⟩ := hStep.2 c req hChecks hPending line hLine text hText
    exact ⟨tiyn, hNum.read_of_denotes hDenotes hRead⟩
  have hVat := (LinesAll.run (vat_carried num) hVatRead).rows
  have hNumber : ∀ l ∈ w.db.lines, ∀ v, summedColumn vatOnly l = some v → ∃ t, v = .tiyn t := by
    intro l hl v hV
    cases vatOnly with
    | false =>
      obtain ⟨tiyn, hValue⟩ := hReach.amounts l hl
      obtain rfl : l.amount.value = v := by simpa [summedColumn] using hV
      exact ⟨tiyn, hValue⟩
    | true =>
      obtain ⟨vat, hSome, rfl⟩ := Option.map_eq_some_iff.mp hV
      exact hVat l hl vat hSome
  obtain ⟨tiyn, hSign, hTotal⟩ := rangeTotal_number hNumber periodFrom periodTo
  refine ⟨tiyn, hSign, hTotal, fun hFits => ?_⟩
  rw [sumLineAmountTiyn_eq, hTotal]
  exact toBigint_eq_ok.mpr ⟨rfl, hFits⟩

/-- VAT amounts are stored as sent exactly where their texts say amounts, and where all of them do, no sum
fails that fits. -/
theorem vatAmounts_sound_iff {num : NumericText} (hNum : ReadsNumerals num) :
    (∀ {w : World}, Reachable num w → ∀ (readUuid : String → Option Uuid) (now : Timestamp) (dbRead db : Db)
      (org user : Uuid) (body : Json) (id : Uuid) (lineIds : Nat → Uuid),
      create num readUuid now dbRead w.db org user body id lineIds = .ok db →
      (StoredAsSent (bodyLines body) (db.linesOf id) ↔
        ∀ item ∈ bodyLines body, ∀ text, stringField item "vat_amount" = some text → ∃ tiyn, Denotes text tiyn)) ∧
    (∀ w, Run (DraftsStep num CleanVat) World.initial w → ∀ org accounts side periodFrom periodTo vatOnly,
      Evaluates w.db org accounts side periodFrom periodTo vatOnly) :=
  ⟨fun hReach _ _ _ _ _ _ _ _ _ h => storedAsSent_iff hNum hReach h, fun _ hRun => evaluates_of_run hNum hRun⟩

/-- The sale of 112.00 with a text for its VAT. -/
def saleBody (vatAmount : String) : Json :=
  .obj [("description", .str "Sale"), ("entry_date", .str "2026-03-01"),
    ("lines", .arr
      [.obj [("account_code", .str "1210"), ("amount", .str "112.00"), ("side", .str "debit")],
        .obj [("account_code", .str "6010"), ("amount", .str "112.00"), ("side", .str "credit"),
          ("vat_amount", .str vatAmount)]])]

/-- The draft that the service is given of it. -/
def saleWithVat (vatAmount : String) : DraftRequest :=
  { saleRequest with
    lines := [⟨"1210", "debit", "112.00", none, none⟩, ⟨"6010", "credit", "112.00", none, some vatAmount⟩] }

/-- A request for that sale on the empty journal. -/
def createSale (vatAmount : String) : Except Refusal Db :=
  create .postgres (fun _ => none) 100 saleStart saleStart 1 7 (saleBody vatAmount) 10 (· + 20)

/-- The text is that of its second line. -/
theorem saleBody_vat (vatAmount : String) :
    (∀ item ∈ bodyLines (saleBody vatAmount), ∀ text, stringField item "vat_amount" = some text → text = vatAmount) ∧
      ∃ item ∈ bodyLines (saleBody vatAmount), stringField item "vat_amount" = some vatAmount := by
  have hItems : bodyLines (saleBody vatAmount) =
      [.obj [("account_code", .str "1210"), ("amount", .str "112.00"), ("side", .str "debit")],
        .obj [("account_code", .str "6010"), ("amount", .str "112.00"), ("side", .str "credit"),
          ("vat_amount", .str vatAmount)]] := rfl
  rw [hItems]
  refine ⟨fun item hItem text hText => ?_, _, List.mem_cons_of_mem _ List.mem_cons_self, rfl⟩
  rcases List.mem_pair.mp hItem with rfl | rfl
  · cases hText
  · exact (Option.some.inj hText).symm

theorem denotes_twelve : Denotes "12.00" 1200 := ⟨⟨false, 1200, -2⟩, by decide, by decide⟩

theorem not_denotes_thousandths (tiyn : Nat) : ¬Denotes "1.005" tiyn := by
  rintro ⟨n, hNumeral, hSays, -⟩
  obtain rfl : ⟨false, 1005, -3⟩ = n := by
    have hRead : numeralOf "1.005" = some ⟨false, 1005, -3⟩ := by decide
    exact Option.some.inj (hRead.symm.trans hNumeral)
  change 1005 = tiyn * 10 at hSays
  omega

/-- A VAT of 12.00 is stored and summed. -/
theorem vatAmounts_sound_sale : (∃ db, createSale "12.00" = .ok db ∧
      StoredAsSent (bodyLines (saleBody "12.00")) (db.linesOf 10)) ∧
    ∃ w, Run (DraftsStep .postgres CleanVat) World.initial w ∧
      Evaluates w.db 1 incomeAccounts .credit halfYearStart halfYearEnd true := by
  obtain ⟨hStored, hSums⟩ := vatAmounts_sound_iff postgres_readsNumerals
  constructor
  · obtain ⟨db, hCreate, -⟩ := @of_yields _ _ (createSale "12.00") (fun _ => true) (by decide +kernel)
    refine ⟨db, hCreate, (hStored saleStart_reachable _ _ _ _ _ _ _ _ _ hCreate).mpr ?_⟩
    intro item hItem text hText
    obtain rfl := (saleBody_vat "12.00").1 item hItem text hText
    exact ⟨1200, denotes_twelve⟩
  · have hClean : ∀ line ∈ (saleWithVat "12.00").lines, CleanVat line := by
      intro line hLine text hText
      rcases List.mem_pair.mp hLine with rfl | rfl
      · cases hText
      · obtain rfl := Option.some.inj hText
        exact ⟨1200, denotes_twelve⟩
    obtain ⟨w, hRun, -⟩ := @draftedAndPosted_run .postgres CleanVat (saleWithVat "12.00") (fun _ => true)
      (by decide +kernel) hClean (by decide +kernel)
    exact ⟨w, hRun, hSums w hRun _ _ _ _ _ _⟩

/-- The text 1.005 is accepted and stored as 1.01, and NaN is accepted and makes a sum fail. -/
theorem vat_texts_unchecked : (∃ db, createSale "1.005" = .ok db ∧
      (db.linesOf 10).map (fun l => l.vatAmount.map VatAmount.value) = [none, some (.tiyn 101)] ∧
      ¬StoredAsSent (bodyLines (saleBody "1.005")) (db.linesOf 10)) ∧
    (∃ db, createSale "NaN" = .ok db) ∧
    ∃ w, Reachable .postgres w ∧
      sumLineAmountTiyn w.db 1 incomeAccounts .credit halfYearStart halfYearEnd true = .error .notBigint := by
  refine ⟨?_, ?_, ?_⟩
  · obtain ⟨db, hCreate, hRows⟩ := @of_yields _ _ (createSale "1.005")
      (fun db => (db.linesOf 10).map (fun l => l.vatAmount.map VatAmount.value) = [none, some (.tiyn 101)])
      (by decide +kernel)
    refine ⟨db, hCreate, by simpa using hRows, fun hStored => ?_⟩
    have hClean := (storedAsSent_iff postgres_readsNumerals saleStart_reachable hCreate).mp hStored
    obtain ⟨item, hItem, hText⟩ := (saleBody_vat "1.005").2
    obtain ⟨tiyn, hDenotes⟩ := hClean item hItem _ hText
    exact not_denotes_thousandths tiyn hDenotes
  · obtain ⟨db, hCreate, -⟩ := @of_yields _ _ (createSale "NaN") (fun _ => true) (by decide +kernel)
    exact ⟨db, hCreate⟩
  · obtain ⟨w, hReach, hSum⟩ := @draftedAndPosted_reachable .postgres (saleWithVat "NaN")
      (fun db => sumLineAmountTiyn db 1 incomeAccounts .credit halfYearStart halfYearEnd true = .error .notBigint)
      (by decide +kernel) (by decide +kernel)
    exact ⟨w, hReach, by simpa using hSum⟩

end CyberAccountant.Tax
