import CyberAccountant.Library.XmlElement
import CyberAccountant.Tax.Filings
import Std.Data.String.ToInt

/-! The text of a form as XML: what a parser reads of it.  The generators escape the five characters of markup and
write every other one as it is, also those that XML does not allow and those that it does not keep. -/

namespace CyberAccountant.Tax

open CyberAccountant.Library CyberAccountant.Library.Xml CyberAccountant.Ledger

/-! ### A form as a document -/

namespace FnoXml

def Field.inSheet (f : Field) : Element := .leaf "field" [("name", f.name)] f.value

def Field.inSummary (f : Field) : Element := .leaf f.name [] f.value

theorem toList_escapeChar (c : Char) : (escapeChar c).toList = Xml.escapeChar c := by
  unfold escapeChar Xml.escapeChar
  split
  case h_6 => simp
  all_goals rfl

theorem toList_escape (text : String) : (escape text).toList = Xml.escape text.toList := by
  have hLoop (chars : List Char) (out : String) :
      (chars.foldl (fun out c => out ++ escapeChar c) out).toList = out.toList ++ Xml.escape chars := by
    induction chars generalizing out with
    | nil => simp [Xml.escape]
    | cons c chars ih =>
      rw [List.foldl_cons, ih, String.toList_append, toList_escapeChar, escape_cons, List.append_assoc]
  rw [escape, hLoop]
  rfl

end FnoXml

open FnoXml

namespace Fno

/-- The elements of a form. -/
def root (fno : Fno) : Element :=
  .node "fno"
    [("code", fno.formCode), ("version", fno.formVersion), ("formatVersion", "1"), ("schemaValidated", "false"),
      ("bin", fno.bin)]
    [.node "form" [("name", fno.formName)]
      [.node "sheetGroup" [] [.node "sheet" [("name", fno.sheetName)] (fno.sheet.map Field.inSheet)]],
    .node "calcSummary" [("xmlns", "urn:cyber-accountant:fno-summary")] (fno.summary.map Field.inSummary)]

/-- A form whose names, and the values of whose summary, need no escaping. -/
structure Plain (fno : Fno) : Prop where
  formCode : isPlain fno.formCode
  formVersion : isPlain fno.formVersion
  formName : isPlain fno.formName
  sheetName : isPlain fno.sheetName
  sheet : ∀ f ∈ fno.sheet, isPlain f.name
  summary : ∀ f ∈ fno.summary, isName f.name ∧ isPlain f.value

variable {fno : Fno}

theorem render_inSheet {f : Field} (h : isPlain f.name = true) : render f.inSheet = (Field.text f).toList := by
  have hName : Xml.escape f.name.toList = f.name.toList := escape_of_plain h
  have hText : (Field.text f).toList = "<field name=\"".toList ++ f.name.toList ++ "\">".toList ++
      Xml.escape f.value.toList ++ "</field>".toList := by
    rw [← toList_escape, ← String.toList_append, ← String.toList_append, ← String.toList_append,
      ← String.toList_append]
    rfl
  rw [hText]
  simp [Field.inSheet, render, startText, attributeText, endText, hName]

theorem render_inSummary {f : Field} (h : isPlain f.value = true) :
    render f.inSummary = (Field.element f).toList := by
  simp [Field.element, Field.inSummary, render, startText, endText, escape_of_plain h]

theorem toList_sheet {fields : List Field} (h : ∀ f ∈ fields, isPlain f.name = true) :
    (String.join (fields.map Field.text)).toList = renderAll (fields.map Field.inSheet) := by
  induction fields with
  | nil => rfl
  | cons f fields ih =>
    rw [List.forall_mem_cons] at h
    rw [List.map_cons, List.map_cons, renderAll, render_inSheet h.1, ← ih h.2, ← String.toList_append,
      String.join_cons]

theorem toList_summary {fields : List Field} (h : ∀ f ∈ fields, isPlain f.value = true) :
    (String.join (fields.map Field.element)).toList = renderAll (fields.map Field.inSummary) := by
  induction fields with
  | nil => rfl
  | cons f fields ih =>
    rw [List.forall_mem_cons] at h
    rw [List.map_cons, List.map_cons, renderAll, render_inSummary h.1, ← ih h.2, ← String.toList_append,
      String.join_cons]

theorem startText_fno (h : fno.Plain) :
    startText "fno" [("code", fno.formCode), ("version", fno.formVersion), ("formatVersion", "1"),
        ("schemaValidated", "false"), ("bin", fno.bin)] =
      "<fno code=\"".toList ++ (fno.formCode.toList ++ ("\" version=\"".toList ++ (fno.formVersion.toList ++
        ("\" formatVersion=\"1\" schemaValidated=\"false\" bin=\"".toList ++
          ((escape fno.bin).toList ++ "\">".toList))))) := by
  have hCode : fno.formCode.toList.flatMap Xml.escapeChar = fno.formCode.toList := escape_of_plain h.formCode
  have hVersion : fno.formVersion.toList.flatMap Xml.escapeChar = fno.formVersion.toList :=
    escape_of_plain h.formVersion
  simp [startText, attributeText, hCode, hVersion, toList_escape, Xml.escape, Xml.escapeChar]

theorem startText_sheet (h : fno.Plain) :
    startText "form" [("name", fno.formName)] ++
        (startText "sheetGroup" [] ++ startText "sheet" [("name", fno.sheetName)]) =
      "<form name=\"".toList ++ (fno.formName.toList ++ ("\"><sheetGroup><sheet name=\"".toList ++
        (fno.sheetName.toList ++ "\">".toList))) := by
  simp [startText, attributeText, escape_of_plain h.formName, escape_of_plain h.sheetName]

theorem endText_sheet :
    endText "sheet" ++ (endText "sheetGroup" ++ endText "form") = "</sheet></sheetGroup></form>".toList := by
  simp [endText]

theorem startText_summary :
    startText "calcSummary" [("xmlns", "urn:cyber-accountant:fno-summary")] =
      "<calcSummary xmlns=\"urn:cyber-accountant:fno-summary\">".toList := by
  simp [startText, attributeText, Xml.escape, Xml.escapeChar]

theorem endText_summary : endText "calcSummary" = "</calcSummary>".toList ∧ endText "fno" = "</fno>".toList := by
  simp [endText]

/-- The text of a form is that of its elements. -/
theorem text_eq (h : fno.Plain) : fno.text = write fno.root := by
  have hSheet := toList_sheet h.sheet
  have hSummary := toList_summary fun f hf => (h.summary f hf).2
  have hText : fno.text.toList = declaration.toList ++
      (startText "fno" [("code", fno.formCode), ("version", fno.formVersion), ("formatVersion", "1"),
        ("schemaValidated", "false"), ("bin", fno.bin)] ++
      ((startText "form" [("name", fno.formName)] ++
          (startText "sheetGroup" [] ++ startText "sheet" [("name", fno.sheetName)])) ++
      (renderAll (fno.sheet.map Field.inSheet) ++ ((endText "sheet" ++ (endText "sheetGroup" ++ endText "form")) ++
      (startText "calcSummary" [("xmlns", "urn:cyber-accountant:fno-summary")] ++
      (renderAll (fno.summary.map Field.inSummary) ++ (endText "calcSummary" ++ endText "fno"))))))) := by
    rw [startText_fno h, startText_sheet h, endText_sheet, startText_summary, endText_summary.1, endText_summary.2,
      ← hSheet, ← hSummary]
    unfold text
    simp only [String.toList_append, List.append_assoc, declaration, -String.reduceAppend, -String.reduceToList]
  rw [← String.toList_inj, hText]
  simp only [write, root, String.toList_append, String.toList_ofList, render, renderAll, List.append_assoc,
    List.append_nil, -String.reduceAppend, -String.reduceToList]

theorem namedAll_sheet (fields : List Field) : Element.namedAll (fields.map Field.inSheet) = true := by
  induction fields with
  | nil => rfl
  | cons f fields ih =>
    have hTag : isTag "field" [("name", f.name)] = true := isTag_of_names ["name"] rfl (by decide)
    rw [List.map_cons, Element.namedAll, ih, Bool.and_true]
    exact hTag

theorem namedAll_summary {fields : List Field} (h : ∀ f ∈ fields, isName f.name = true) :
    Element.namedAll (fields.map Field.inSummary) = true := by
  induction fields with
  | nil => rfl
  | cons f fields ih =>
    rw [List.forall_mem_cons] at h
    have hTag : isTag f.name [] = true := by simp [isTag, h.1]
    rw [List.map_cons, Element.namedAll, ih h.2, Bool.and_true]
    exact hTag

theorem root_named (h : fno.Plain) : fno.root.named = true := by
  have hFno : isTag "fno" [("code", fno.formCode), ("version", fno.formVersion), ("formatVersion", "1"),
      ("schemaValidated", "false"), ("bin", fno.bin)] = true :=
    isTag_of_names ["code", "version", "formatVersion", "schemaValidated", "bin"] rfl (by decide +kernel)
  have hForm : isTag "form" [("name", fno.formName)] = true := isTag_of_names ["name"] rfl (by decide +kernel)
  have hSheet : isTag "sheet" [("name", fno.sheetName)] = true := isTag_of_names ["name"] rfl (by decide +kernel)
  have hOthers : isTag "sheetGroup" [] = true ∧
      isTag "calcSummary" [("xmlns", "urn:cyber-accountant:fno-summary")] = true := by
    decide +kernel
  simp [root, Element.named, Element.namedAll, hFno, hForm, hSheet, hOthers, namedAll_sheet,
    namedAll_summary fun f hf => (h.summary f hf).1]

theorem textsAll_sheet (fields : List Field) :
    Element.textsAll (fields.map Field.inSheet) = fields.flatMap fun f => [f.name, f.value] := by
  induction fields with
  | nil => rfl
  | cons f fields ih => rw [List.map_cons, Element.textsAll, ih, List.flatMap_cons]; rfl

theorem textsAll_summary (fields : List Field) :
    Element.textsAll (fields.map Field.inSummary) = fields.map Field.value := by
  induction fields with
  | nil => rfl
  | cons f fields ih => rw [List.map_cons, Element.textsAll, ih, List.map_cons]; rfl

/-- A form is legal XML if the BIN and the values of its sheet are. -/
theorem legal_iff (h : fno.Plain) :
    fno.root.texts.all isLegal = true ↔ isLegal fno.bin = true ∧ ∀ f ∈ fno.sheet, isLegal f.value = true := by
  have hFormat : isLegal "1" = true ∧ isLegal "false" = true ∧ isLegal "urn:cyber-accountant:fno-summary" = true := by
    decide +kernel
  have hSheet : ∀ f ∈ fno.sheet, isLegal f.name = true := fun f hf => isLegal_of_plain (h.sheet f hf)
  have hSummary : ∀ f ∈ fno.summary, isLegal f.value = true := fun f hf => isLegal_of_plain (h.summary f hf).2
  simp only [root, Element.texts, Element.textsAll, textsAll_sheet, textsAll_summary, List.map_cons, List.map_nil,
    List.all_append, List.all_cons, List.all_nil, List.all_flatMap, List.all_map, Bool.and_eq_true,
    isLegal_of_plain h.formCode, isLegal_of_plain h.formVersion, isLegal_of_plain h.formName,
    isLegal_of_plain h.sheetName, hFormat, List.all_eq_true, Function.comp_apply, true_and, and_true]
  constructor
  · rintro ⟨hBin, hFields, -⟩
    exact ⟨hBin, fun f hf => (hFields f hf).2⟩
  · rintro ⟨hBin, hFields⟩
    exact ⟨hBin, fun f hf => ⟨hSheet f hf, hFields f hf⟩, hSummary⟩

end Fno

/-! ### Reading a form -/

/-- The fields of the sheet of a document: the name and the text of each. -/
def sheetFields (doc : Item) : List (Option String × String) :=
  let sheets := ((doc.elements "form").flatMap (·.elements "sheetGroup")).flatMap (·.elements "sheet")
  (sheets.flatMap (·.elements "field")).map fun field => (field.attribute? "name", field.text)

/-- The elements of the summary of a document. -/
def summaryFields (doc : Item) : List (Option String × String) :=
  (((doc.elements "calcSummary").flatMap Item.content).filter (·.name?.isSome)).map
    fun element => (element.name?, element.text)

namespace Fno

variable {fno : Fno}

theorem item_sheet {fields : List Field} (h : ∀ f ∈ fields, isPlain f.name = true) :
    Element.itemAll (Element.mapTextsAll (blanks ∘ lines) lines (fields.map Field.inSheet)) =
      fields.map fun f => Item.element "field" [("name", f.name)] ((lines f.value).toList.map .char) := by
  induction fields with
  | nil => rfl
  | cons f fields ih =>
    rw [List.forall_mem_cons] at h
    have hName : (blanks ∘ lines) f.name = f.name := blanks_lines_of_plain h.1
    simp only [List.map_cons, Element.mapTextsAll, Element.itemAll, ih h.2, Field.inSheet, Element.mapTexts,
      Element.item, Element.mapAttributes, List.map_nil, hName]

theorem item_summary {fields : List Field} (h : ∀ f ∈ fields, isPlain f.value = true) :
    Element.itemAll (Element.mapTextsAll (blanks ∘ lines) lines (fields.map Field.inSummary)) =
      fields.map fun f => Item.element f.name [] (f.value.toList.map .char) := by
  induction fields with
  | nil => rfl
  | cons f fields ih =>
    rw [List.forall_mem_cons] at h
    simp only [List.map_cons, Element.mapTextsAll, Element.itemAll, ih h.2, Field.inSummary, Element.mapTexts,
      Element.item, Element.mapAttributes, List.map_nil, lines_of_plain h.1]

/-- What is read of a form. -/
theorem item_received (h : fno.Plain) :
    fno.root.received.item =
      .element "fno"
        [("code", fno.formCode), ("version", fno.formVersion), ("formatVersion", "1"), ("schemaValidated", "false"),
          ("bin", blanks (lines fno.bin))]
        [.element "form" [("name", fno.formName)]
          [.element "sheetGroup" []
            [.element "sheet" [("name", fno.sheetName)]
              (fno.sheet.map fun f => .element "field" [("name", f.name)] ((lines f.value).toList.map .char))]],
        .element "calcSummary" [("xmlns", "urn:cyber-accountant:fno-summary")]
          (fno.summary.map fun f => .element f.name [] (f.value.toList.map .char))] := by
  have hFormat : isPlain "1" = true ∧ isPlain "false" = true ∧ isPlain "urn:cyber-accountant:fno-summary" = true := by
    decide +kernel
  have hSheet := item_sheet h.sheet
  have hSummary := item_summary fun f hf => (h.summary f hf).2
  simp only [root, Element.received, Element.mapTexts, Element.mapTextsAll, Element.item, Element.itemAll,
    Element.mapAttributes, List.map_cons, List.map_nil, Function.comp_apply, hSheet, hSummary,
    blanks_lines_of_plain h.formCode, blanks_lines_of_plain h.formVersion, blanks_lines_of_plain h.formName,
    blanks_lines_of_plain h.sheetName, blanks_lines_of_plain hFormat.1, blanks_lines_of_plain hFormat.2.1,
    blanks_lines_of_plain hFormat.2.2]

theorem sheetFields_received (h : fno.Plain) :
    sheetFields fno.root.received.item = fno.sheet.map fun f => (some f.name, lines f.value) := by
  have hFields (fields : List Field) :
      ((fields.map fun f => Item.element "field" [("name", f.name)] ((lines f.value).toList.map .char)).filter
        fun child => child.name? = some "field").map (fun field => (field.attribute? "name", field.text)) =
      fields.map fun f => (some f.name, lines f.value) := by
    induction fields with
    | nil => rfl
    | cons f fields ih =>
      simp only [List.map_cons]
      rw [List.filter_cons_of_pos (by rfl), List.map_cons, ih, Item.text_chars]
      rfl
  rw [item_received h]
  simpa [sheetFields, Item.elements, Item.content, Item.name?] using hFields fno.sheet

theorem summaryFields_received (h : fno.Plain) :
    summaryFields fno.root.received.item = fno.summary.map fun f => (some f.name, f.value) := by
  rw [item_received h]
  simp [summaryFields, Item.elements, Item.content, Item.name?, Function.comp_def, Item.text_chars, List.filter_map]

end Fno

/-! ### Values without markup -/

theorem isPlain_ofList {chars : List Char} (h : ∀ c ∈ chars, c.isDigit = true ∨ c = '-') :
    isPlain (String.ofList chars) = true := by
  rw [isPlain, String.toList_ofList, List.all_eq_true]
  intro c hc
  rcases h c hc with hDigit | rfl
  · exact isPlainChar_of_digit hDigit
  · decide

theorem isPlain_nat (n : Nat) : isPlain n.repr = true := by
  have hDigits := isPlain_ofList fun c hc => .inl (List.all_eq_true.mp (toDigits_all_isDigit n) c hc)
  rwa [← Nat.toList_repr, String.ofList_toList] at hDigits

theorem isPlain_int (n : Int) : isPlain n.repr = true := by
  rw [Int.repr_eq_if]
  split
  · exact isPlain_nat _
  · have hAbs : (-n).toNat.repr.toList.all isPlainChar = true := isPlain_nat _
    rw [isPlain, String.toList_append, List.all_append, hAbs, Bool.and_true]
    decide

theorem dateText_chars (d : Date) : ∀ c ∈ (dateText d).toList, c.isDigit = true ∨ c = '-' := by
  have hYear := List.all_eq_true.mp (toDigits_all_isDigit d.year)
  have hMonth := List.all_eq_true.mp (twoDigits_digits d.month)
  have hDay := List.all_eq_true.mp (twoDigits_digits d.day)
  intro c hc
  simp only [dateText, String.toList_ofList, List.mem_append, List.mem_cons, List.mem_replicate] at hc
  rcases hc with ((⟨-, rfl⟩ | hc) | rfl | hc) | rfl | hc
  · exact .inl rfl
  · exact .inl (hYear c hc)
  · exact .inr rfl
  · exact .inl (hMonth c hc)
  · exact .inr rfl
  · exact .inl (hDay c hc)

theorem isPlain_dateText (d : Date) : isPlain (dateText d) = true := by
  have hPlain := isPlain_ofList (dateText_chars d)
  rwa [String.ofList_toList] at hPlain

theorem isPlain_yearOf (d : Date) : isPlain (yearOf (dateText d)) = true :=
  isPlain_ofList fun c hc => dateText_chars d c (List.mem_of_mem_take hc)

theorem FnoXml.escape_plain {text : String} (h : isPlain text = true) : FnoXml.escape text = text := by
  rw [← String.toList_inj, toList_escape, escape_of_plain h]

/-! ### The forms of an organization -/

/-- The form is of the organization: beside its BIN and its name, it writes no text that needs escaping. -/
structure Fno.Files (fno : Fno) (org : Organization) : Prop where
  plain : fno.Plain
  bin : fno.bin = org.bin
  identity : ∃ others, fno.sheet = ⟨"iin", org.bin⟩ :: ⟨"rnn", org.bin⟩ :: ⟨"payer_name1", org.name⟩ :: others ∧
    ∀ f ∈ others, isPlain f.value
  sheetNames : (fno.sheet.map Field.name).Nodup
  summaryNames : (fno.summary.map Field.name).Nodup

theorem isPlain_escape_dateText (d : Date) : isPlain (FnoXml.escape (dateText d)) = true := by
  rw [FnoXml.escape_plain (isPlain_dateText d)]
  exact isPlain_dateText d

theorem isPlain_tengeAmount (tiyn : Int) : isPlain (tengeAmount tiyn) = true := isPlain_int _

/-- What the forms write of themselves. -/
theorem formTexts_plain :
    (isPlain "910.00" ∧ isPlain "27" ∧ isPlain "form_910_00" ∧ isPlain "page_910_00_01") ∧
    (isPlain "300.00" ∧ isPlain "29" ∧ isPlain "form_300_00" ∧ isPlain "page_300_00_01") ∧
      isPlain "KZT" ∧ isPlain "true" := by
  decide +kernel

theorem Fno910.files {row : Calculation} {org : Organization} {info : OrgInfo} {fno : Fno}
    (h : Fno910.buildXml row info = .ok fno) (hBin : info.bin = org.bin) (hName : info.name = org.name)
    (hYear : isPlain info.taxPeriodYear = true) (hHalf : isPlain info.taxPeriodHalf = true) :
    fno.Files org := by
  obtain ⟨⟨hCode, hVersion, hForm, hSheet⟩, -, hCurrency, hTrue⟩ := formTexts_plain
  simp only [Fno910.buildXml, bind_eq_ok, ensure_eq_ok, pure_eq_ok, exists_const] at h
  obtain ⟨-, -, rfl⟩ := h
  refine ⟨⟨hCode, hVersion, hForm, hSheet, ?_, ?_⟩, hBin, ⟨_, by rw [identityFields, hBin, hName]; rfl, ?_⟩, ?_, ?_⟩
  · simp only [identityFields, List.cons_append, List.nil_append, List.forall_mem_cons]
    decide +kernel
  · have hNames : isName "incomeTenge" ∧ isName "rateBp" ∧ isName "taxTenge" ∧ isName "periodFrom" ∧
        isName "periodTo" := by
      decide +kernel
    simp [hNames, isPlain_tengeAmount, isPlain_int, isPlain_escape_dateText]
  · simp [hYear, hHalf, hCurrency, hTrue, isPlain_tengeAmount]
  all_goals
    simp only [identityFields, List.cons_append, List.nil_append, List.map_cons, List.map_nil]
    decide +kernel

theorem Fno300.files {row : Calculation} {org : Organization} {info : OrgInfo} {fno : Fno}
    (h : Fno300.buildXml row info = .ok fno) (hBin : info.bin = org.bin) (hName : info.name = org.name)
    (hYear : isPlain info.taxPeriodYear = true) : fno.Files org := by
  obtain ⟨-, ⟨hCode, hVersion, hForm, hSheet⟩, hCurrency, hTrue⟩ := formTexts_plain
  simp only [Fno300.buildXml, bind_eq_ok, ensure_eq_ok, pure_eq_ok, exists_const] at h
  obtain ⟨-, -, quarter, -, rfl⟩ := h
  refine ⟨⟨hCode, hVersion, hForm, hSheet, ?_, ?_⟩, hBin, ⟨_, by rw [identityFields, hBin, hName]; rfl, ?_⟩, ?_, ?_⟩
  · simp only [identityFields, List.cons_append, List.nil_append, List.forall_mem_cons]
    decide +kernel
  · have hNames : isName "accruedTenge" ∧ isName "deductibleTenge" ∧ isName "balanceTenge" ∧ isName "toPayTenge" ∧
        isName "toRefundTenge" ∧ isName "periodFrom" ∧ isName "periodTo" := by
      decide +kernel
    simp [hNames, isPlain_tengeAmount, isPlain_escape_dateText]
  · simp [hYear, hCurrency, hTrue, isPlain_nat, isPlain_tengeAmount]
  all_goals
    simp only [identityFields, List.cons_append, List.nil_append, List.map_cons, List.map_nil]
    decide +kernel

theorem buildFormXml_files {kind : FilingKind} {row : Calculation} {org : Organization} {fno : Fno}
    (h : buildFormXml kind row org = .ok fno) : fno.Files org := by
  cases kind with
  | fno910 => exact Fno910.files h rfl rfl (isPlain_yearOf _) (isPlain_nat _)
  | fno300 => exact Fno300.files h rfl rfl (isPlain_yearOf _)

/-! ### What comes back -/

/-- The amounts that the sheet of a form files, in tenge. -/
def sheetAmounts : FilingKind → Calculation → List (String × Int)
  | .fno910, row => [("field_910_00_001", roundHalfUpToTenge (snapshotValue row "income_tiyn"))]
  | .fno300, row =>
    [("field_300_00_012", roundHalfUpToTenge (snapshotValue row "accrued_tiyn")),
      ("field_300_00_023", roundHalfUpToTenge (snapshotValue row "deductible_tiyn")),
      ("field_300_00_030_01", roundHalfUpToTenge (if 0 < row.totalTiyn then row.totalTiyn else 0)),
      ("field_300_00_030_02", roundHalfUpToTenge (if row.totalTiyn < 0 then -row.totalTiyn else 0))]

/-- The amounts of the summary, and the rate in hundredths of a percent. -/
def summaryAmounts : FilingKind → Calculation → List (String × Int)
  | .fno910, row =>
    [("incomeTenge", roundHalfUpToTenge (snapshotValue row "income_tiyn")), ("rateBp", snapshotValue row "rate_bp"),
      ("taxTenge", roundHalfUpToTenge row.totalTiyn)]
  | .fno300, row =>
    [("accruedTenge", roundHalfUpToTenge (snapshotValue row "accrued_tiyn")),
      ("deductibleTenge", roundHalfUpToTenge (snapshotValue row "deductible_tiyn")),
      ("balanceTenge", roundHalfUpToTenge row.totalTiyn),
      ("toPayTenge", roundHalfUpToTenge (if 0 < row.totalTiyn then row.totalTiyn else 0)),
      ("toRefundTenge", roundHalfUpToTenge (if row.totalTiyn < 0 then -row.totalTiyn else 0))]

/-- The document says what was put into the form. -/
structure Faithful (kind : FilingKind) (row : Calculation) (org : Organization) (fno : Fno) (doc : Item) : Prop where
  /-- No value opens, closes or adds an element. -/
  tags : doc.tags = fno.root.item.tags
  sheet : sheetFields doc = fno.sheet.map fun f => (some f.name, f.value)
  summary : summaryFields doc = fno.summary.map fun f => (some f.name, f.value)
  bin : ∀ name ∈ ["iin", "rnn"], (sheetFields doc).lookup (some name) = some org.bin
  name : (sheetFields doc).lookup (some "payer_name1") = some org.name
  amounts : ∀ a ∈ sheetAmounts kind row, ((sheetFields doc).lookup (some a.1)).bind String.toInt? = some a.2
  totals : ∀ a ∈ summaryAmounts kind row, ((summaryFields doc).lookup (some a.1)).bind String.toInt? = some a.2

/-- A text of characters that XML allows, without a carriage return. -/
def IsClean (text : String) : Prop := isLegal text = true ∧ '\r' ∉ text.toList

instance (text : String) : Decidable (IsClean text) := inferInstanceAs (Decidable (_ ∧ _))

variable {kind : FilingKind} {row : Calculation} {org : Organization} {fno : Fno}

/-- What is read of the text of a form. -/
theorem Fno.Files.parse_text (h : fno.Files org) :
    parse fno.text = if isLegal org.bin = true ∧ isLegal org.name = true then some fno.root.received.item else none := by
  obtain ⟨others, hSheet, hOthers⟩ := h.identity
  have hLegal : fno.root.texts.all isLegal = true ↔ isLegal org.bin = true ∧ isLegal org.name = true := by
    rw [Fno.legal_iff h.plain, hSheet, h.bin]
    simp only [List.forall_mem_cons]
    constructor
    · rintro ⟨hBin, -, -, hName, -⟩
      exact ⟨hBin, hName⟩
    · rintro ⟨hBin, hName⟩
      exact ⟨hBin, hBin, hBin, hName, fun f hf => isLegal_of_plain (hOthers f hf)⟩
  rw [Fno.text_eq h.plain, parse_write (Fno.root_named h.plain)]
  exact if_congr hLegal rfl rfl

/-- The fields of the sheet come back if the BIN and the name do. -/
theorem Fno.Files.sheet_iff (h : fno.Files org) :
    sheetFields fno.root.received.item = (fno.sheet.map fun f => (some f.name, f.value)) ↔
      '\r' ∉ org.bin.toList ∧ '\r' ∉ org.name.toList := by
  obtain ⟨others, hSheet, hOthers⟩ := h.identity
  rw [Fno.sheetFields_received h.plain, List.map_inj_left, hSheet]
  simp only [List.forall_mem_cons, Prod.mk.injEq, true_and, lines_eq_self]
  constructor
  · rintro ⟨hBin, -, hName, -⟩
    exact ⟨hBin, hName⟩
  · rintro ⟨hBin, hName⟩
    exact ⟨hBin, hBin, hName, fun f hf => lines_eq_self.mp (lines_of_plain (hOthers f hf))⟩

theorem lookup_field {fields : List Field} (hNames : (fields.map Field.name).Nodup) {f : Field} (hf : f ∈ fields) :
    (fields.map fun f => (some f.name, f.value)).lookup (some f.name) = some f.value := by
  induction fields with
  | nil => cases hf
  | cons g fields ih =>
    rw [List.map_cons, List.nodup_cons] at hNames
    rcases List.mem_cons.mp hf with rfl | hRest
    · rw [List.map_cons, List.lookup_cons_self]
    · have hNe : (some f.name == some g.name) = false := by
        simpa using fun hEq : f.name = g.name => hNames.1 (hEq ▸ List.mem_map_of_mem hRest)
      rw [List.map_cons, List.lookup_cons, hNe]
      exact ih hNames.2 hRest

theorem amounts_written (h : buildFormXml kind row org = .ok fno) :
    (∀ a ∈ sheetAmounts kind row, ⟨a.1, toString a.2⟩ ∈ fno.sheet) ∧
      ∀ a ∈ summaryAmounts kind row, ⟨a.1, toString a.2⟩ ∈ fno.summary := by
  cases kind with
  | fno910 =>
    simp only [buildFormXml, Fno910.buildXml, bind_eq_ok, ensure_eq_ok, pure_eq_ok, exists_const] at h
    obtain ⟨-, -, rfl⟩ := h
    simp [sheetAmounts, summaryAmounts, tengeAmount]
  | fno300 =>
    simp only [buildFormXml, Fno300.buildXml, bind_eq_ok, ensure_eq_ok, pure_eq_ok, exists_const] at h
    obtain ⟨-, -, quarter, -, rfl⟩ := h
    simp [sheetAmounts, summaryAmounts, tengeAmount]

theorem Fno.tags_received (fno : Fno) : fno.root.received.item.tags = fno.root.item.tags :=
  Element.tags_mapTexts _ _ fno.root

theorem lookup_amount {fields : List Field} (hNames : (fields.map Field.name).Nodup) {a : String × Int}
    (ha : ⟨a.1, toString a.2⟩ ∈ fields) :
    ((fields.map fun f => (some f.name, f.value)).lookup (some a.1)).bind String.toInt? = some a.2 := by
  rw [lookup_field hNames ha]
  exact Int.toInt?_repr a.2

theorem Fno.Files.faithful (h : fno.Files org) (hBuilt : buildFormXml kind row org = .ok fno)
    (hBin : '\r' ∉ org.bin.toList) (hName : '\r' ∉ org.name.toList) :
    Faithful kind row org fno fno.root.received.item := by
  have hSheet := h.sheet_iff.mpr ⟨hBin, hName⟩
  have hSummary := Fno.summaryFields_received h.plain
  obtain ⟨others, hFields, -⟩ := h.identity
  obtain ⟨hAmounts, hTotals⟩ := amounts_written hBuilt
  have hIdentity (f : Field) (hf : f ∈ fno.sheet) :
      (sheetFields fno.root.received.item).lookup (some f.name) = some f.value := by
    rw [hSheet]
    exact lookup_field h.sheetNames hf
  refine ⟨Fno.tags_received fno, hSheet, hSummary, ?_, hIdentity ⟨"payer_name1", org.name⟩ (by simp [hFields]), ?_, ?_⟩
  · simp only [List.forall_mem_cons]
    exact ⟨hIdentity ⟨"iin", org.bin⟩ (by simp [hFields]), hIdentity ⟨"rnn", org.bin⟩ (by simp [hFields]), by simp⟩
  · intro a ha
    rw [hSheet]
    exact lookup_amount h.sheetNames (hAmounts a ha)
  · intro a ha
    rw [hSummary]
    exact lookup_amount h.summaryNames (hTotals a ha)

/-- The XML of a form is well formed and says what was put into it exactly if XML allows every character of the
BIN and of the name and none of them is a carriage return.  It is well formed also with carriage returns, which
do not come back, and whatever the values are, its elements are those of the form. -/
theorem fnoXml_faithful_iff (h : buildFormXml kind row org = .ok fno) :
    ((∃ doc, parse fno.text = some doc ∧ Faithful kind row org fno doc) ↔ IsClean org.bin ∧ IsClean org.name) ∧
    ((∃ doc, parse fno.text = some doc) ↔ isLegal org.bin = true ∧ isLegal org.name = true) ∧
    ∀ doc, parse fno.text = some doc → doc.tags = fno.root.item.tags ∧
      (doc.attribute? "bin" = some org.bin ↔ ∀ c ∈ org.bin.toList, isWhiteSpace c = true → c = ' ') := by
  have hFiles := buildFormXml_files h
  rw [hFiles.parse_text]
  by_cases hLegal : isLegal org.bin = true ∧ isLegal org.name = true
  · rw [if_pos hLegal]
    refine ⟨?_, iff_of_true ⟨_, rfl⟩ hLegal, ?_⟩
    · constructor
      · rintro ⟨doc, hDoc, hFaithful⟩
        cases hDoc
        obtain ⟨hBin, hName⟩ := hFiles.sheet_iff.mp hFaithful.sheet
        exact ⟨⟨hLegal.1, hBin⟩, hLegal.2, hName⟩
      · rintro ⟨hBin, hName⟩
        exact ⟨_, rfl, hFiles.faithful h hBin.2 hName.2⟩
    · rintro _ ⟨rfl⟩
      have hBin : fno.root.received.item.attribute? "bin" = some (blanks (lines org.bin)) := by
        rw [Fno.item_received hFiles.plain, ← hFiles.bin]
        rfl
      rw [hBin, Option.some.injEq]
      exact ⟨Fno.tags_received fno, blanks_lines_eq_self⟩
  · rw [if_neg hLegal]
    refine ⟨iff_of_false ?_ fun hClean => hLegal ⟨hClean.1.1, hClean.2.1⟩, iff_of_false ?_ hLegal, nofun⟩
    · rintro ⟨_, hNone, -⟩
      cases hNone
    · rintro ⟨_, hNone⟩
      cases hNone

/-- The row of a half-year with an income of 1000.00 at 4%. -/
def halfYearRow : Calculation :=
  { id := 0
    orgId := 0
    kind := .snrSimplified
    periodFrom := .newYear
    periodTo := .endOfJune
    inputSnapshot := .null
    resultSnapshot := [("income_tiyn", 100000), ("rate_bp", 400)]
    totalTiyn := 4000 }

def orgNamed (name : String) : Organization := ⟨0, "123456789012", name⟩

theorem halfYear_builds (name : String) : ∃ fno, buildFormXml .fno910 halfYearRow (orgNamed name) = .ok fno := ⟨_, rfl⟩

theorem fnoXml_faithful_quoted : ∃ fno, buildFormXml .fno910 halfYearRow (orgNamed "\"A & B\" <C>") = .ok fno ∧
    ∃ doc, parse fno.text = some doc ∧ Faithful .fno910 halfYearRow (orgNamed "\"A & B\" <C>") fno doc := by
  obtain ⟨fno, hBuilt⟩ := halfYear_builds "\"A & B\" <C>"
  exact ⟨fno, hBuilt, (fnoXml_faithful_iff hBuilt).1.mpr ⟨by decide +kernel, by decide +kernel⟩⟩

/-- With a control character in the name there is no document, and with a carriage return another name. -/
theorem fnoXml_unfaithful :
    (∃ fno, buildFormXml .fno910 halfYearRow (orgNamed "A\x01B") = .ok fno ∧ parse fno.text = none) ∧
    ∃ fno doc, buildFormXml .fno910 halfYearRow (orgNamed "A\rB") = .ok fno ∧ parse fno.text = some doc ∧
      (some "payer_name1", "A\nB") ∈ sheetFields doc ∧
      sheetFields doc ≠ fno.sheet.map fun f => (some f.name, f.value) := by
  obtain ⟨control, hControl⟩ := halfYear_builds "A\x01B"
  obtain ⟨broken, hBroken⟩ := halfYear_builds "A\rB"
  have hFiles := buildFormXml_files hBroken
  have hSheet := hFiles.sheet_iff
  refine ⟨⟨control, hControl, ?_⟩, broken, broken.root.received.item, hBroken, ?_, ?_, ?_⟩
  · rw [(buildFormXml_files hControl).parse_text, if_neg (by decide +kernel)]
  · rw [hFiles.parse_text, if_pos (by decide +kernel)]
  · obtain ⟨others, hFields, -⟩ := hFiles.identity
    have hLines : lines "A\rB" = "A\nB" := by decide +kernel
    rw [Fno.sheetFields_received hFiles.plain, hFields]
    simp [orgNamed, hLines]
  · exact fun hSame => absurd (hSheet.mp hSame).2 (by decide +kernel)

end CyberAccountant.Tax
