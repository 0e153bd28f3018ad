import CyberAccountant.Docgen.BlockSteps
import CyberAccountant.Library.Literals

/-! The texts of the tenant in a compiled source: each is a literal of its own, and the rest of the source
does not depend on them. -/

namespace CyberAccountant.Docgen.Blocks

open CyberAccountant.Library CyberAccountant.Library.Literals

/-! ### Literals -/

theorem escape_cons (c : Char) (raw : List Char) :
    escape (c :: raw) = (if c = '\\' ∨ c = '"' then ['\\', c] else [c]) ++ escape raw := rfl

/-- A literal ends at its last quote. -/
theorem after_escape (raw done : List Char) :
    after (.literal done false) (escape raw) = .literal (done ++ escape raw) false ∧
      lexFrom (.literal done false) (escape raw) = [] := by
  induction raw generalizing done with
  | nil => exact ⟨by rw [escape, List.flatMap_nil, List.append_nil]; rfl, rfl⟩
  | cons c raw ih =>
    rw [escape_cons]
    by_cases hSpecial : c = '\\' ∨ c = '"'
    · rw [if_pos hSpecial, after_append, Literals.lexFrom_append]
      have hAfter : after (.literal done false) ['\\', c] = .literal (done ++ ['\\', c]) false := by
        simp [after, step]
      have hTokens : lexFrom (.literal done false) ['\\', c] = [] := by
        simp [lexFrom, step]
      rw [hAfter, hTokens, (ih _).1, (ih _).2, List.append_assoc]
      exact ⟨rfl, rfl⟩
    · rw [if_neg hSpecial, after_append, Literals.lexFrom_append]
      rw [not_or] at hSpecial
      have hAfter : after (.literal done false) [c] = .literal (done ++ [c]) false := by
        simp [after, step, hSpecial.1, hSpecial.2]
      have hTokens : lexFrom (.literal done false) [c] = [] := by
        simp [lexFrom, step, hSpecial.2]
      rw [hAfter, hTokens, (ih _).1, (ih _).2, List.append_assoc]
      exact ⟨rfl, rfl⟩

theorem literal_toList (text : String) : (literal text).toList = ['"'] ++ escape text.toList ++ ['"'] := by
  rw [literal, String.toList_ofList]
  rfl

theorem literal_closed (text : String) : Closed (literal text).toList := by
  rw [Closed, literal_toList, after_append, after_append]
  have hOpen : after .code ['"'] = .literal [] false := rfl
  rw [hOpen, (after_escape text.toList []).1]
  rfl

theorem lexFrom_literal (text : String) : lexFrom .code (literal text).toList = [.literal (escape text.toList)] := by
  rw [literal_toList, Literals.lexFrom_append, Literals.lexFrom_append, after_append]
  have hOpen : after .code ['"'] = .literal [] false := rfl
  rw [hOpen, (after_escape text.toList []).1, (after_escape text.toList []).2]
  rfl

/-- It denotes the text. -/
theorem denote_escape (raw : List Char) : denote (escape raw) = raw := by
  induction raw with
  | nil => rw [escape, List.flatMap_nil, denote]
  | cons c raw ih =>
    rw [escape_cons]
    by_cases hBackslash : c = '\\'
    · subst hBackslash
      rw [if_pos (.inl rfl)]
      show denote ('\\' :: '\\' :: escape raw) = _
      rw [denote, ih]
    by_cases hQuote : c = '"'
    · subst hQuote
      rw [if_pos (.inr rfl)]
      show denote ('\\' :: '"' :: escape raw) = _
      rw [denote, ih]
    · rw [if_neg (by rw [not_or]; exact ⟨hBackslash, hQuote⟩)]
      show denote (c :: escape raw) = _
      rw [denote_cons hBackslash, ih]

/-! ### The labels of a source -/

/-- What the reader gets from a fragment of the preamble. -/
def Fragment.tokens : Fragment → List Token
  | .label text => [.literal (escape text.toList)]
  | fragment => fragment.render.toList.map .code

/-- A label, or code without quotes and slashes. -/
def Fragment.Quiet : Fragment → Prop
  | .code text => Plain text.toList
  | .label _ => True
  | _ => False

/-- A fragment without the text of its label. -/
def Fragment.blank : Fragment → Fragment
  | .label _ => .label ""
  | fragment => fragment

def Fragment.text? : Fragment → Option String
  | .label text => some text
  | _ => none

theorem Fragment.Quiet.lexes {fragment : Fragment} (h : fragment.Quiet) :
    Closed fragment.render.toList ∧ lexFrom .code fragment.render.toList = fragment.tokens := by
  cases fragment with
  | code text => exact ⟨h.closed, h.lexFrom⟩
  | label text => exact ⟨literal_closed text, lexFrom_literal text⟩
  | _ => cases h

theorem render_cons (fragment : Fragment) (rest : List Fragment) :
    (render (fragment :: rest)).toList = fragment.render.toList ++ (render rest).toList := by
  rw [render, List.map_cons, String.join_cons, String.toList_append]
  rfl

theorem lexes_render {fragments : List Fragment} (h : ∀ fragment ∈ fragments, fragment.Quiet) :
    Closed (render fragments).toList ∧
      lexFrom .code (render fragments).toList = fragments.flatMap Fragment.tokens := by
  induction fragments with
  | nil => exact ⟨rfl, rfl⟩
  | cons fragment rest ih =>
    rw [List.forall_mem_cons] at h
    obtain ⟨hClosed, hTokens⟩ := h.1.lexes
    obtain ⟨hRestClosed, hRestTokens⟩ := ih h.2
    rw [render_cons, hClosed.lexFrom_append, hTokens, hRestTokens]
    exact ⟨hClosed.append hRestClosed, rfl⟩

theorem literals_append (tokens more : List Token) : literals (tokens ++ more) = literals tokens ++ literals more :=
  List.filterMap_append

theorem literals_code (text : List Char) : literals (text.map .code) = [] := by
  induction text with
  | nil => rfl
  | cons c text ih => exact ih

/-- The literals of the preamble are its labels. -/
theorem literals_tokens {fragments : List Fragment} (h : ∀ fragment ∈ fragments, fragment.Quiet) :
    literals (fragments.flatMap Fragment.tokens) =
      (fragments.filterMap Fragment.text?).map fun text => escape text.toList := by
  induction fragments with
  | nil => rfl
  | cons fragment rest ih =>
    rw [List.forall_mem_cons] at h
    rw [List.flatMap_cons, literals_append, ih h.2]
    cases fragment with
    | code text =>
      rw [Fragment.tokens, literals_code]
      · rfl
      · exact fun _ hLabel => nomatch hLabel
    | label text => rfl
    | _ => exact absurd h.1 id

theorem blank_tokens (fragments : List Fragment) :
    (fragments.flatMap Fragment.tokens).map Token.blank = (fragments.map Fragment.blank).flatMap Fragment.tokens := by
  induction fragments with
  | nil => rfl
  | cons fragment rest ih =>
    have hCode (text : List Char) : (text.map Token.code).map Token.blank = text.map Token.code := by
      rw [List.map_map]
      rfl
    rw [List.flatMap_cons, List.map_append, ih, List.map_cons, List.flatMap_cons]
    congr 1
    cases fragment with
    | label text => rfl
    | _ => exact hCode _

/-! ### What the labels of a compilation are -/

/-- The preamble is quiet, and its labels are the texts. -/
structure Sound (st : Build) (texts : List String) : Prop where
  quiet : ∀ fragment ∈ st.preamble, fragment.Quiet
  texts : st.preamble.filterMap Fragment.text? = texts

/-- The texts that a block prints. -/
def blockTexts (b : Json) : List String :=
  match kindOf b with
  | some .header => [textOr b "title" ""]
  | some .text => [textOr b "text" ""]
  | some .fields => (elementsOf b "rows").map fun row => textOr row "label" ""
  | some .table => (elementsOf b "columns").map fun c => textOr c "title" ""
  | some .totals => [textOr b "label" "Итого к оплате", textOr b "words_label" "Сумма прописью"]
  | some .signatures => (elementsOf b "parties").map titleOf
  | _ => []

def textsOf : Json → List String
  | .arr blocks => blocks.flatMap blockTexts
  | _ => []

theorem plain_labelName (st : Build) : Plain st.labelName.toList := by
  have hDigits : Plain (toString st.literalCounter).toList := by
    intro c hc
    have hDigit : c.isDigit = true := by
      have hRepr : (toString st.literalCounter).toList = Nat.toDigits 10 st.literalCounter := Nat.toList_repr
      rw [hRepr] at hc
      exact Nat.isDigit_of_mem_toDigits (by decide) (by decide) hc
    constructor
    · rintro rfl
      cases hDigit
    · rintro rfl
      cases hDigit
  rw [Build.labelName, String.toList_append]
  exact Plain.append (by decide +kernel) hDigits

section

variable {st st' : Build} {texts : List String} {b b' : Json}

theorem Sound.of_same (h : Sound st texts) (hSame : st'.preamble = st.preamble) : Sound st' texts where
  quiet := by
    rw [hSame]
    exact h.quiet
  texts := by
    rw [hSame]
    exact h.texts

theorem Sound.emitLabel (h : Sound st texts) (text : String) : Sound (st.emitLabel text) (texts ++ [text]) where
  quiet := by
    intro fragment hMem
    rcases List.mem_append.mp hMem with hBefore | hNew
    · exact h.quiet fragment hBefore
    · simp only [List.mem_cons, List.not_mem_nil, or_false] at hNew
      rcases hNew with rfl | rfl | rfl
      · have hName := (plain_labelName st)
        simp only [Fragment.Quiet, String.toList_append]
        exact (Plain.append (by decide +kernel) hName).append (by decide +kernel)
      · trivial
      · show Plain "\n".toList
        decide +kernel
  texts := by
    have hPreamble : (st.emitLabel text).preamble =
        st.preamble ++ [.code ("#let " ++ st.labelName ++ " = "), .label text, .code "\n"] := rfl
    rw [hPreamble, List.filterMap_append, h.texts]
    rfl

theorem Sound.emitRule (h : Sound st texts) : Sound st.emitRule texts where
  quiet := by
    intro fragment hMem
    rcases List.mem_append.mp hMem with hBefore | hNew
    · exact h.quiet fragment hBefore
    · rw [List.mem_singleton.mp hNew]
      show Plain _
      decide +kernel
  texts := by
    have hPreamble : st.emitRule.preamble = st.preamble ++
        [.code "#let sigrule = box(width: 1fr, height: 8mm, stroke: (bottom: 0.4pt))\n"] := rfl
    rw [hPreamble, List.filterMap_append, h.texts]
    exact List.append_nil texts

/-- A loop that prints a text in each round. -/
theorem sound_foldl {σ : Type} {build : σ → Build} {add : σ → Json → σ} {text : Json → String}
    (hAdd : ∀ s texts a, Sound (build s) texts → Sound (build (add s a)) (texts ++ [text a]))
    {list : List Json} {s : σ} (h : Sound (build s) texts) : Sound (build (list.foldl add s)) (texts ++ list.map text) := by
  induction list generalizing s texts with
  | nil =>
    rw [List.map_nil, List.append_nil]
    exact h
  | cons a list ih =>
    have hRest := ih (hAdd s texts a h)
    rwa [List.append_assoc] at hRest

theorem Sound.addRow (h : Sound st texts) (row : Json) : Sound (st.addRow row) (texts ++ [textOr row "label" ""]) := by
  have hLabelled := h.emitLabel (textOr row "label" "")
  rw [Build.addRow]
  cases variableOf row with
  | none =>
    refine hLabelled.of_same ?_
    simp only [Build.addField, Build.declareField]
    split <;> rfl
  | some var => exact hLabelled.of_same rfl

theorem Sound.addBlock (h : Sound st texts) (b : Json) : Sound (st.addBlock b) (texts ++ blockTexts b) := by
  rw [Build.addBlock, blockTexts]
  cases kindOf b with
  | none =>
    rw [List.append_nil]
    exact h
  | some kind =>
    cases kind with
    | header => exact (h.emitLabel _).of_same rfl
    | text => exact (h.emitLabel _).of_same rfl
    | fields =>
      have hOpen : Sound st.openFields texts := h.of_same rfl
      have hRows := @sound_foldl texts Build (fun st => st) Build.addRow (fun row => textOr row "label" "")
        (fun _ _ row hSound => hSound.addRow row) (elementsOf b "rows") _ hOpen
      exact hRows.of_same rfl
    | table =>
      have hOpen : Sound (Columns.start st).build texts := h
      have hColumns := @sound_foldl texts Columns Columns.build Columns.addColumn (fun c => textOr c "title" "")
        (fun _ _ c hSound => hSound.emitLabel (textOr c "title" "")) (elementsOf b "columns") _ hOpen
      exact hColumns.of_same rfl
    | totals =>
      have hBoth := (h.emitLabel (textOr b "label" "Итого к оплате")).emitLabel
        (textOr b "words_label" "Сумма прописью")
      rw [List.append_assoc] at hBoth
      exact hBoth.of_same rfl
    | signatures =>
      have hOpen : Sound (st.openSignatures (elementsOf b "parties").length) texts := h.emitRule.of_same rfl
      have hParties := @sound_foldl texts Build (fun st => st) (fun st party => st.addParty (titleOf party)) titleOf
        (fun _ _ party hSound => (hSound.emitLabel (titleOf party)).of_same rfl) (elementsOf b "parties") _ hOpen
      exact hParties.of_same rfl
    | pagebreak =>
      rw [List.append_nil]
      exact h.of_same rfl

theorem sound_blocks (blocks : List Json) :
    Sound (blocks.foldl Build.addBlock .start) (blocks.flatMap blockTexts) := by
  have hFold (st : Build) (texts : List String) (h : Sound st texts) :
      Sound (blocks.foldl Build.addBlock st) (texts ++ blocks.flatMap blockTexts) := by
    induction blocks generalizing st texts with
    | nil =>
      rw [List.flatMap_nil, List.append_nil]
      exact h
    | cons b blocks ih =>
      rw [List.flatMap_cons, ← List.append_assoc]
      exact ih _ _ (h.addBlock b)
  exact hFold .start [] ⟨fun _ hMem => (nomatch hMem), rfl⟩

end

/-! ### Blocks without their texts -/

/-- A text under one of the keys, emptied. -/
def blankUnder (keys : List String) (key : String) (v : Json) : Json :=
  match v with
  | .str text => if key ∈ keys then .str "" else .str text
  | v => v

/-- A row, a column or a party without its texts. -/
def eraseEntry : Json → Json
  | .str _ => .str ""
  | .obj ms => .obj (ms.map fun m => (m.1, blankUnder ["title", "label", "label_kk"] m.1 m.2))
  | v => v

/-- A member of a block without the texts of the tenant. -/
def eraseUnder (key : String) (v : Json) : Json :=
  match v with
  | .arr list => if key ∈ ["rows", "columns", "parties"] then .arr (list.map eraseEntry) else .arr list
  | v => blankUnder ["title", "text", "label", "label_kk", "words_label"] key v

def eraseBlock : Json → Json
  | .obj ms => .obj (ms.map fun m => (m.1, eraseUnder m.1 m.2))
  | v => v

/-- The blocks without the titles, texts and labels of the tenant. -/
def eraseTexts : Json → Json
  | .arr blocks => .arr (blocks.map eraseBlock)
  | v => v

section

variable {b b' row row' : Json} {key : String}

theorem member_map (g : String → Json → Json) (ms : List (String × Json)) (key : String) :
    Json.member (ms.map fun m => (m.1, g m.1 m.2)) key = (Json.member ms key).map (g key) := by
  induction ms with
  | nil => rfl
  | cons m ms ih =>
    obtain ⟨k, v⟩ := m
    rw [List.map_cons, Json.member, Json.member]
    by_cases hKey : k = key
    · rw [if_pos hKey, if_pos hKey, hKey]
      rfl
    · rw [if_neg hKey, if_neg hKey]
      exact ih

theorem member_eraseEntry (row : Json) (key : String) : Json.member (eraseEntry row).members key =
    (Json.member row.members key).map (blankUnder ["title", "label", "label_kk"] key) := by
  cases row with
  | obj ms => exact member_map (blankUnder ["title", "label", "label_kk"]) ms key
  | _ => rfl

theorem member_eraseBlock (b : Json) (key : String) : Json.member (eraseBlock b).members key =
    (Json.member b.members key).map (eraseUnder key) := by
  cases b with
  | obj ms => exact member_map eraseUnder ms key
  | _ => rfl

theorem blankUnder_other {keys : List String} (h : key ∉ keys) : blankUnder keys key = id := by
  funext v
  cases v with
  | str text => exact if_neg h
  | _ => rfl

/-- What is under other keys of a row stays. -/
theorem member_of_eraseEntry (hKey : key ∉ ["title", "label", "label_kk"]) (h : eraseEntry row = eraseEntry row') :
    Json.member row.members key = Json.member row'.members key := by
  have hRow := member_eraseEntry row key
  rw [blankUnder_other hKey, Option.map_id, h, member_eraseEntry, blankUnder_other hKey, Option.map_id] at hRow
  exact hRow.symm

theorem eraseUnder_other (hArrays : key ∉ ["rows", "columns", "parties"])
    (hTexts : key ∉ ["title", "text", "label", "label_kk", "words_label"]) : eraseUnder key = id := by
  funext v
  cases v with
  | arr list => exact if_neg hArrays
  | str text => exact congrFun (blankUnder_other hTexts) (.str text)
  | _ => rfl

/-- What is under other keys of a block stays. -/
theorem member_of_eraseBlock (hArrays : key ∉ ["rows", "columns", "parties"])
    (hTexts : key ∉ ["title", "text", "label", "label_kk", "words_label"]) (h : eraseBlock b = eraseBlock b') :
    Json.member b.members key = Json.member b'.members key := by
  have hBlock := member_eraseBlock b key
  rw [eraseUnder_other hArrays hTexts, Option.map_id, h, member_eraseBlock, eraseUnder_other hArrays hTexts,
    Option.map_id] at hBlock
  exact hBlock.symm

/-- The arrays of a block keep their elements, apart from the texts. -/
theorem elementsOf_erase (hKey : key ∈ ["rows", "columns", "parties"]) (b : Json) :
    elementsOf (eraseBlock b) key = (elementsOf b key).map eraseEntry := by
  rw [elementsOf, elementsOf, elements, elements, member_eraseBlock]
  cases Json.member b.members key with
  | none => rfl
  | some v =>
    cases v with
    | arr list =>
      rw [Option.map_some, eraseUnder, if_pos hKey]
      cases list <;> rfl
    | str text =>
      by_cases hText : key ∈ ["title", "text", "label", "label_kk", "words_label"]
      · simp only [Option.map_some, eraseUnder, blankUnder, if_pos hText]
        rfl
      · simp only [Option.map_some, eraseUnder, blankUnder, if_neg hText]
        rfl
    | _ => rfl

theorem elementsOf_same (hKey : key ∈ ["rows", "columns", "parties"]) (h : eraseBlock b = eraseBlock b') :
    (elementsOf b key).map eraseEntry = (elementsOf b' key).map eraseEntry := by
  rw [← elementsOf_erase hKey, ← elementsOf_erase hKey, h]

/-! ### Compilations of blocks with other texts -/

/-- The same source so far, apart from the texts of the labels. -/
structure Related (st st' : Build) : Prop where
  body : st.body = st'.body
  counter : st.literalCounter = st'.literalCounter
  preamble : st.preamble.map Fragment.blank = st'.preamble.map Fragment.blank

variable {st st' : Build}

theorem Related.labelName (h : Related st st') : st.labelName = st'.labelName := by
  rw [Build.labelName, Build.labelName, h.counter]

theorem Related.emitLabel (h : Related st st') (text text' : String) :
    Related (st.emitLabel text) (st'.emitLabel text') where
  body := h.body
  counter := by
    show st.literalCounter + 1 = st'.literalCounter + 1
    rw [h.counter]
  preamble := by
    simp only [Build.emitLabel, List.map_append, h.preamble, h.labelName]
    rfl

theorem Related.emitRule (h : Related st st') : Related st.emitRule st'.emitRule where
  body := h.body
  counter := h.counter
  preamble := by simp only [Build.emitRule, List.map_append, h.preamble]

theorem Related.write (h : Related st st') {fragments fragments' : List Fragment} (hSame : fragments = fragments') :
    Related (st.write fragments) (st'.write fragments') where
  body := by simp only [Build.write, h.body, hSame]
  counter := h.counter
  preamble := h.preamble

/-- What the schema and the form become does not matter. -/
theorem Related.of_same {st₁ st₁' : Build} (h : Related st st')
    (hLeft : st₁.body = st.body ∧ st₁.literalCounter = st.literalCounter ∧ st₁.preamble = st.preamble)
    (hRight : st₁'.body = st'.body ∧ st₁'.literalCounter = st'.literalCounter ∧ st₁'.preamble = st'.preamble) :
    Related st₁ st₁' where
  body := by rw [hLeft.1, hRight.1, h.body]
  counter := by rw [hLeft.2.1, hRight.2.1, h.counter]
  preamble := by rw [hLeft.2.2, hRight.2.2, h.preamble]

/-- Two loops over elements that a function does not tell apart. -/
theorem related_foldl {α σ γ : Type} {R : σ → σ → Prop} {g : α → γ} {add : σ → α → σ}
    (hAdd : ∀ s s' a a', R s s' → g a = g a' → R (add s a) (add s' a')) {list list' : List α}
    (hSame : list.map g = list'.map g) {s s' : σ} (h : R s s') : R (list.foldl add s) (list'.foldl add s') := by
  induction list generalizing list' s s' with
  | nil =>
    rw [List.map_nil] at hSame
    rw [List.map_eq_nil_iff.mp hSame.symm]
    exact h
  | cons a list ih =>
    cases list' with
    | nil => cases hSame
    | cons a' list' =>
      obtain ⟨hFirst, hRest⟩ := List.cons.inj hSame
      exact ih hRest (hAdd s s' a a' h hFirst)

theorem Related.addRow (h : Related st st') (hSame : eraseEntry row = eraseEntry row') :
    Related (st.addRow row) (st'.addRow row') := by
  have hVariable : variableOf row = variableOf row' := by
    rw [variableOf, variableOf, member_of_eraseEntry (by decide) hSame]
  have hField : textOr row "field" "" = textOr row' "field" "" := by
    rw [textOr, textOr, member_of_eraseEntry (by decide) hSame]
  have hLabelled : Related (st.addRowLabel (textOr row "label" "")) (st'.addRowLabel (textOr row' "label" "")) :=
    (h.emitLabel _ _).write (by rw [h.labelName])
  rw [Build.addRow, Build.addRow, hVariable]
  cases variableOf row' with
  | none =>
    have hRow (st : Build) (field label labelKk : String) (isRequired : Bool) :
        (st.addField field label labelKk isRequired).body = st.body ++ [.code "[#", .member field, .code "],\n"] ∧
          (st.addField field label labelKk isRequired).literalCounter = st.literalCounter ∧
          (st.addField field label labelKk isRequired).preamble = st.preamble := by
      simp only [Build.addField, Build.declareField]
      split <;> exact ⟨rfl, rfl, rfl⟩
    simp only [hField]
    exact (hLabelled.write rfl).of_same (hRow _ _ _ _ _) (hRow _ _ _ _ _)
  | some var => exact (hLabelled.write rfl).of_same ⟨rfl, rfl, rfl⟩ ⟨rfl, rfl, rfl⟩

/-- The same columns so far, apart from their titles. -/
structure RelatedColumns (columns columns' : Columns) : Prop where
  build : Related columns.build columns'.build
  keys : columns.keys = columns'.keys
  headerCells : columns.headerCells = columns'.headerCells
  widths : columns.widths = columns'.widths

theorem RelatedColumns.addColumn {columns columns' : Columns} {c c' : Json} (h : RelatedColumns columns columns')
    (hSame : eraseEntry c = eraseEntry c') : RelatedColumns (columns.addColumn c) (columns'.addColumn c') := by
  have hKey : textOr c "key" "" = textOr c' "key" "" := by
    rw [textOr, textOr, member_of_eraseEntry (by decide) hSame]
  refine ⟨h.build.emitLabel _ _, ?_, ?_, ?_⟩
  · simp only [Columns.addColumn, Columns.add, h.keys, hKey]
  · simp only [Columns.addColumn, Columns.add, h.headerCells, h.build.labelName]
  · simp only [Columns.addColumn, Columns.add, h.widths, hKey]

/-- Blocks that differ in their texts only add the same, apart from the texts. -/
theorem Related.addBlock (h : Related st st') (hSame : eraseBlock b = eraseBlock b') :
    Related (st.addBlock b) (st'.addBlock b') := by
  have hKind : kindOf b = kindOf b' := by
    rw [kindOf, kindOf, member_of_eraseBlock (by decide) (by decide) hSame]
  have hField (default : String) : textOr b "field" default = textOr b' "field" default := by
    rw [textOr, textOr, member_of_eraseBlock (by decide) (by decide) hSame]
  rw [Build.addBlock, Build.addBlock, hKind]
  cases kindOf b' with
  | none => exact h
  | some kind =>
    cases kind with
    | header => exact (h.emitLabel _ _).write (by rw [h.labelName])
    | text => exact (h.emitLabel _ _).write (by rw [h.labelName])
    | fields =>
      have hOpen : Related st.openFields st'.openFields := h.write rfl
      have hRows := @related_foldl Json Build Json Related eraseEntry Build.addRow
        (fun _ _ _ _ hRel hRow => hRel.addRow hRow) _ _ (@elementsOf_same b b' "rows" (by decide) hSame) _ _ hOpen
      exact hRows.write rfl
    | table =>
      have hStart : RelatedColumns (.start st) (.start st') := ⟨h, rfl, rfl, rfl⟩
      have hColumns := @related_foldl Json Columns Json RelatedColumns eraseEntry Columns.addColumn
        (fun _ _ _ _ hRel hColumn => hRel.addColumn hColumn) _ _ (@elementsOf_same b b' "columns" (by decide) hSame)
        _ _ hStart
      refine (hColumns.build.write ?_).of_same ⟨rfl, rfl, rfl⟩ ⟨rfl, rfl, rfl⟩
      rw [hColumns.widths, hColumns.headerCells, hColumns.keys, hField]
    | totals =>
      have hFirst := h.emitLabel (textOr b "label" "Итого к оплате") (textOr b' "label" "Итого к оплате")
      have hSecond := hFirst.emitLabel (textOr b "words_label" "Сумма прописью")
        (textOr b' "words_label" "Сумма прописью")
      refine (hSecond.write ?_).of_same ⟨rfl, rfl, rfl⟩ ⟨rfl, rfl, rfl⟩
      rw [h.labelName, hFirst.labelName]
    | signatures =>
      have hParties := @elementsOf_same b b' "parties" (by decide) hSame
      have hLength : (elementsOf b "parties").length = (elementsOf b' "parties").length := by
        rw [← List.length_map eraseEntry, hParties, List.length_map]
      have hOpen : Related (st.openSignatures (elementsOf b "parties").length)
          (st'.openSignatures (elementsOf b' "parties").length) := h.emitRule.write (by rw [hLength])
      have hSigned := @related_foldl Json Build Json Related eraseEntry
        (fun st party => st.addParty (titleOf party))
        (fun _ _ _ _ hRel _ => (hRel.emitLabel _ _).write (by rw [hRel.labelName])) _ _ hParties _ _ hOpen
      exact hSigned.write rfl
    | pagebreak => exact h.write rfl

end

/-! ### The source -/

theorem closed_join {lines : List String} (h : ∀ line ∈ lines, Closed line.toList) :
    Closed (String.join lines).toList := by
  induction lines with
  | nil => rfl
  | cons line lines ih =>
    rw [List.forall_mem_cons] at h
    rw [String.join_cons, String.toList_append]
    exact h.1.append (ih h.2)

set_option maxRecDepth 2000 in
/-- Each line of the header ends outside of literals and comments. -/
theorem header_closed : Closed header.toList := by
  refine closed_join ?_
  rw [headerLines]
  repeat' refine List.forall_mem_cons.mpr ⟨?_, ?_⟩
  all_goals first
    | exact fun _ hMem => nomatch hMem
    | exact closed_of_run rfl (by decide +kernel)

/-- A source is read as the header, the labels and the body. -/
theorem lex_source {st : Build} (h : ∀ fragment ∈ st.preamble, fragment.Quiet) : lex st.compiled.source =
    lex header ++ (st.preamble.flatMap Fragment.tokens ++ lex ("\n" ++ render st.body)) := by
  obtain ⟨hClosed, hTokens⟩ := lexes_render h
  have hSource : st.compiled.source.toList =
      header.toList ++ ((render st.preamble).toList ++ ("\n" ++ render st.body).toList) := by
    simp only [Build.compiled, String.toList_append, List.append_assoc]
  rw [lex, hSource, header_closed.lexFrom_append, hClosed.lexFrom_append, hTokens]
  rfl

/-- Of two lists of blocks that differ in the texts of the tenant only, the sources are the same outside of
literals, and each text is what a literal of its own denotes. -/
theorem texts_inert {blocks blocks' : Json} {out out' compiled compiled' : Compiled Json}
    (hSame : eraseTexts blocks = eraseTexts blocks') (h : compile blocks out = .ok (none, compiled))
    (h' : compile blocks' out' = .ok (none, compiled')) :
    (lex compiled.source).map Token.blank = (lex compiled'.source).map Token.blank ∧
    (∃ before after,
      literals (lex compiled.source) = before ++ (textsOf blocks).map (fun text => escape text.toList) ++ after ∧
      literals (lex compiled'.source) = before ++ (textsOf blocks').map (fun text => escape text.toList) ++ after) ∧
    ∀ text, denote (escape text) = text := by
  obtain ⟨list, rfl, rfl⟩ := compile_eq h
  obtain ⟨list', rfl, rfl⟩ := compile_eq h'
  have hMaps : list.map eraseBlock = list'.map eraseBlock := Json.arr.inj hSame
  have hStart : Related .start .start := ⟨rfl, rfl, rfl⟩
  have hRelated := @related_foldl Json Build Json Related eraseBlock Build.addBlock
    (fun _ _ _ _ hRel hBlock => hRel.addBlock hBlock) list list' hMaps _ _ hStart
  have hSound := sound_blocks list
  have hSound' := sound_blocks list'
  have hBody : lex ("\n" ++ render (list.foldl Build.addBlock .start).body) =
      lex ("\n" ++ render (list'.foldl Build.addBlock .start).body) := by
    rw [hRelated.body]
  refine ⟨?_, ⟨literals (lex header), literals (lex ("\n" ++ render (list'.foldl Build.addBlock .start).body)), ?_,
    ?_⟩, denote_escape⟩
  · rw [lex_source hSound.quiet, lex_source hSound'.quiet, hBody]
    simp only [List.map_append, blank_tokens, hRelated.preamble]
  · rw [lex_source hSound.quiet, hBody, literals_append, literals_append, literals_tokens hSound.quiet, hSound.texts,
      List.append_assoc]
    rfl
  · rw [lex_source hSound'.quiet, literals_append, literals_append, literals_tokens hSound'.quiet, hSound'.texts,
      List.append_assoc]
    rfl

/-- A header that would end its literal and run code, against a plain one. -/
theorem texts_inert_header :
    (lex (Build.start.addHeader "\"; #panic()").compiled.source).map Token.blank =
      (lex (Build.start.addHeader "Счёт").compiled.source).map Token.blank :=
  (@texts_inert (.arr [.obj [("title", .str "\"; #panic()"), ("type", .str "header")]])
    (.arr [.obj [("title", .str "Счёт"), ("type", .str "header")]]) ⟨"", .null, .null, ""⟩ ⟨"", .null, .null, ""⟩ _ _
    rfl rfl rfl).1

end CyberAccountant.Docgen.Blocks
