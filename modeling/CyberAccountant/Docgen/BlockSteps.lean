import CyberAccountant.Docgen.BlockCompiler

/-! What an accepted block adds to a compilation, as functions of the block alone. -/

namespace CyberAccountant.Docgen.Blocks

open CyberAccountant.Library CyberAccountant.Security.Jwt

/-- The text under a key, or else the default. -/
def textOr (j : Json) (key default : String) : String :=
  match Json.member j.members key with
  | some (.str text) => text
  | _ => default

def boolOr (j : Json) (key : String) (default : Bool) : Bool :=
  match Json.member j.members key with
  | some (.bool b) => b
  | _ => default

def titleOf : Json → String
  | .str title => title
  | party => textOr party "title" ""

/-- The variable that a row names. -/
def variableOf (row : Json) : Option String :=
  match Json.member row.members "variable" with
  | some (.str var) => some var
  | _ => none

/-- The elements of an array under a key. -/
def elementsOf (b : Json) (key : String) : List Json := (elements b key).getD []

namespace Build

def addRow (st : Build) (row : Json) : Build :=
  let labelled := st.addRowLabel (textOr row "label" "")
  match variableOf row with
  | some var => labelled.addVariable var
  | none =>
    labelled.addField (textOr row "field" "") (textOr row "label" "")
      (textOr row "label_kk" (textOr row "label" "")) (boolOr row "required" true)

def addRows (st : Build) (b : Json) : Build := ((elementsOf b "rows").foldl addRow st.openFields).closeFields

end Build

def Columns.addColumn (columns : Columns) (c : Json) : Columns := columns.add (textOr c "title" "") (textOr c "key" "")

namespace Build

def addColumns (st : Build) (b : Json) : Build :=
  ((elementsOf b "columns").foldl Columns.addColumn (.start st)).addTable (textOr b "field" "items")
    (elementsOf b "columns")

def addAmounts (st : Build) (b : Json) : Build :=
  st.addTotals (textOr b "field" "total_tiyn") (textOr b "label" "Итого к оплате")
    (textOr b "words_label" "Сумма прописью") (textOr b "label_kk" (textOr b "label" "Итого к оплате"))

def addParties (st : Build) (b : Json) : Build :=
  ((elementsOf b "parties").foldl (fun st party => st.addParty (titleOf party))
    (st.openSignatures (elementsOf b "parties").length)).write [.code ")\n"]

end Build

/-- The kinds of blocks. -/
inductive Kind where
  | header
  | text
  | fields
  | table
  | totals
  | signatures
  | pagebreak
  deriving DecidableEq

def kindOf (b : Json) : Option Kind :=
  match Json.member b.members "type" with
  | some (.str type) =>
    if type = "header" then some .header
    else if type = "text" then some .text
    else if type = "fields" then some .fields
    else if type = "table" then some .table
    else if type = "totals" then some .totals
    else if type = "signatures" then some .signatures
    else if type = "pagebreak" then some .pagebreak
    else none
  | _ => none

def Build.addBlock (st : Build) (b : Json) : Build :=
  match kindOf b with
  | some .header => st.addHeader (textOr b "title" "")
  | some .text => st.addText (textOr b "text" "")
  | some .fields => st.addRows b
  | some .table => st.addColumns b
  | some .totals => st.addAmounts b
  | some .signatures => st.addParties b
  | some .pagebreak => st.write [.code "#pagebreak()\n"]
  | none => st

/-! ### What is read -/

section

variable {α β : Type} {j b : Json} {key default : String} {index : Nat} {st st' : Build}

theorem read_eq {text : String} (h : read j key default = .ok text) : text = textOr j key default := by
  cases j with
  | obj ms =>
    simp only [read, value] at h
    simp only [textOr, Json.members]
    cases hMember : Json.member ms key with
    | none =>
      rw [hMember] at h
      cases h
      rfl
    | some v =>
      rw [hMember] at h
      cases v with
      | str text =>
        cases h
        rfl
      | _ => cases h
  | _ => cases h

theorem readBool_eq {b default : Bool} (h : readBool j key default = .ok b) : b = boolOr j key default := by
  cases j with
  | obj ms =>
    simp only [readBool] at h
    simp only [boolOr, Json.members]
    cases hMember : Json.member ms key with
    | none =>
      rw [hMember] at h
      cases h
      rfl
    | some v =>
      rw [hMember] at h
      cases v with
      | bool b =>
        cases h
        rfl
      | _ => cases h
  | _ => cases h

theorem find_eq {id var : String} (h : find var = some id) : id = var := by
  have hFound := List.find?_some h
  exact of_decide_eq_true hFound

/-- A loop whose rounds each do what a function does. -/
theorem foldlM_eq {f : β → α → Except Failure β} {g : β → α → β} (h : ∀ b a b', f b a = .ok b' → b' = g b a)
    {list : List α} {b b' : β} (hLoop : list.foldlM f b = .ok b') : b' = list.foldl g b := by
  induction list generalizing b with
  | nil =>
    cases hLoop
    rfl
  | cons a list ih =>
    rw [List.foldlM_cons, bind_eq_ok] at hLoop
    obtain ⟨next, hNext, hRest⟩ := hLoop
    rw [List.foldl_cons, ← h b a next hNext]
    exact ih hRest

/-! ### What the blocks add -/

theorem compileHeader_eq (h : compileHeader index b st = .ok st') : st' = st.addHeader (textOr b "title" "") := by
  simp only [compileHeader, bind_eq_ok, pure_eq_ok] at h
  obtain ⟨title, hTitle, -, -, rfl⟩ := h
  rw [read_eq hTitle]

theorem compileText_eq (h : compileText index b st = .ok st') : st' = st.addText (textOr b "text" "") := by
  simp only [compileText, bind_eq_ok, pure_eq_ok] at h
  obtain ⟨text, hText, -, -, rfl⟩ := h
  rw [read_eq hText]

theorem compileRow_eq {row : Json} (h : compileRow index st row = .ok st') : st' = st.addRow row := by
  simp only [compileRow, bind_eq_ok] at h
  obtain ⟨label, hLabel, -, -, hValue⟩ := h
  rw [compileRowValue] at hValue
  rw [Build.addRow, variableOf, ← read_eq hLabel]
  cases hVariable : Json.member row.members "variable" with
  | none =>
    simp only [hVariable, bind_eq_ok, pure_eq_ok] at hValue
    obtain ⟨field, hField, -, -, labelKk, hKk, isRequired, hRequired, rfl⟩ := hValue
    rw [read_eq hField, read_eq hKk, readBool_eq hRequired]
  | some v =>
    rw [hVariable] at hValue
    cases v with
    | str var =>
      cases hFind : find var with
      | none =>
        simp only [hFind] at hValue
        cases hValue
      | some id =>
        simp only [hFind] at hValue
        cases hValue
        rw [find_eq hFind]
    | _ => cases hValue

theorem elements_eq {list : List Json} (h : elements b key = some list) : list = elementsOf b key := by
  rw [elementsOf, h]
  rfl

theorem compileFields_eq (h : compileFields index b st = .ok st') : st' = st.addRows b := by
  simp only [compileFields, bind_eq_ok, orFail_eq_ok, pure_eq_ok] at h
  obtain ⟨rows, hRows, filled, hLoop, rfl⟩ := h
  have hFilled : filled = rows.foldl Build.addRow st.openFields :=
    foldlM_eq (fun _ _ _ hRow => compileRow_eq hRow) hLoop
  rw [hFilled, elements_eq hRows]
  rfl

theorem compileColumn_eq {columns columns' : Columns} {c : Json} (h : compileColumn index columns c = .ok columns') :
    columns' = columns.addColumn c := by
  simp only [compileColumn, bind_eq_ok, pure_eq_ok] at h
  obtain ⟨title, hTitle, key, hKey, -, -, rfl⟩ := h
  rw [read_eq hTitle, read_eq hKey]
  rfl

theorem compileTable_eq (h : compileTable index b st = .ok st') : st' = st.addColumns b := by
  simp only [compileTable, bind_eq_ok, orFail_eq_ok, pure_eq_ok] at h
  obtain ⟨columns, hColumns, field, hField, -, -, table, hLoop, rfl⟩ := h
  have hTable : table = columns.foldl Columns.addColumn (.start st) :=
    foldlM_eq (fun _ _ _ hColumn => compileColumn_eq hColumn) hLoop
  rw [hTable, elements_eq hColumns, read_eq hField]
  rfl

theorem compileTotals_eq (h : compileTotals index b st = .ok st') : st' = st.addAmounts b := by
  simp only [compileTotals, bind_eq_ok, pure_eq_ok] at h
  obtain ⟨tiyn, hTiyn, -, -, label, hLabel, words, hWords, labelKk, hKk, rfl⟩ := h
  rw [read_eq hTiyn, read_eq hKk, read_eq hLabel, read_eq hWords]
  rfl

theorem compileParty_eq {party : Json} (h : compileParty index st party = .ok st') :
    st' = st.addParty (titleOf party) := by
  simp only [compileParty, bind_eq_ok, pure_eq_ok] at h
  obtain ⟨title, hTitle, -, -, rfl⟩ := h
  cases party with
  | str text =>
    cases hTitle
    rfl
  | _ => rw [read_eq hTitle]; rfl

theorem compileSignatures_eq (h : compileSignatures index b st = .ok st') : st' = st.addParties b := by
  simp only [compileSignatures, bind_eq_ok, orFail_eq_ok, pure_eq_ok] at h
  obtain ⟨parties, hParties, signed, hLoop, rfl⟩ := h
  have hSigned : signed = parties.foldl (fun st party => st.addParty (titleOf party))
      (st.openSignatures parties.length) :=
    foldlM_eq (fun _ _ _ hParty => compileParty_eq hParty) hLoop
  rw [hSigned, elements_eq hParties]
  rfl

theorem compileBlock_eq (h : compileBlock index b st = .ok st') : st' = st.addBlock b := by
  rw [compileBlock] at h
  rw [Build.addBlock, kindOf]
  cases hType : Json.member b.members "type" with
  | none =>
    rw [hType] at h
    cases h
  | some v =>
    rw [hType] at h
    cases v with
    | str type =>
      simp only at h ⊢
      split_ifs at h ⊢
      · exact compileHeader_eq h
      · exact compileText_eq h
      · exact compileFields_eq h
      · exact compileTable_eq h
      · exact compileTotals_eq h
      · exact compileSignatures_eq h
      · cases h
        rfl
    | _ => cases h

theorem foldl_zipIdx (f : β → α → β) (list : List α) (first : Nat) (b : β) :
    (list.zipIdx first).foldl (fun b entry => f b entry.1) b = list.foldl f b := by
  induction list generalizing first b with
  | nil => rfl
  | cons a list ih => exact ih _ _

theorem compileBlocks_eq {blocks : List Json} (h : compileBlocks blocks = .ok st) :
    st = blocks.foldl Build.addBlock .start := by
  rw [← foldl_zipIdx Build.addBlock blocks 0]
  exact foldlM_eq (fun _ _ _ hBlock => compileBlock_eq hBlock) h

theorem compile_accepted {blocks : Json} {out compiled : Compiled Json}
    (h : compile blocks out = .ok (none, compiled)) :
    ∃ list st, blocks = .arr list ∧ compileBlocks list = .ok st ∧ compiled = st.compiled := by
  rw [compile] at h
  cases hCompiled : compiledOf blocks with
  | ok compiled' =>
    rw [hCompiled] at h
    cases h
    cases blocks with
    | arr list =>
      simp only [compiledOf, bind_eq_ok, pure_eq_ok] at hCompiled
      obtain ⟨-, -, -, -, st, hBlocks, -, -, rfl⟩ := hCompiled
      exact ⟨list, st, rfl, hBlocks, rfl⟩
    | _ => cases hCompiled
  | error failure =>
    rw [hCompiled] at h
    cases failure <;> cases h

/-- A compiled template is what its blocks add up to. -/
theorem compile_eq {blocks : Json} {out compiled : Compiled Json} (h : compile blocks out = .ok (none, compiled)) :
    ∃ list, blocks = .arr list ∧ compiled = (list.foldl Build.addBlock .start).compiled := by
  obtain ⟨list, st, rfl, hBlocks, rfl⟩ := compile_accepted h
  exact ⟨list, rfl, by rw [compileBlocks_eq hBlocks]⟩

end

end CyberAccountant.Docgen.Blocks
