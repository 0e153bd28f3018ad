import CyberAccountant.Docgen.BlockSteps
import CyberAccountant.Docgen.ServerFields
import CyberAccountant.Library.JsonSchema

/-! The input with which a template is tried before it is published, made from its schema alone. -/

namespace CyberAccountant.Docgen.Blocks

open CyberAccountant.Library CyberAccountant.Library.JsonSchema CyberAccountant.Security.Jwt

/-! ### The fixture -/

/-- The exceptions of `fixture_from_schema`. -/
inductive FixtureFault where
  | thrown (error : TypeError)
  /-- 207: what has no keys is gone through by its keys. -/
  | noKey
  /-- 302: `total_tiyn` is no number. -/
  | notNumber
  | money (error : InputPolicy.Thrown)

def sampleText : Json := .str "проверка"

/-- The keys that a loop over a value goes through. -/
def keysOf : Json → Except FixtureFault (List String)
  | .obj ms => .ok (ms.map Prod.fst)
  | .null => .ok []
  | .arr [] => .ok []
  | _ => .error .noKey

/-- The columns of an array, where its schema tells them. -/
def columnsOf (prop : Json) : Except FixtureFault (List String) :=
  match Json.member prop.members "items" with
  | none => .ok []
  | some items =>
    match Json.member items.members "properties" with
    | none => .ok []
    | some columns => keysOf columns

def setSample (row : List (String × Json)) (key : String) : List (String × Json) := Json.setMember row key sampleText

/-- A value for a property, by its type. -/
def sample (prop : Json) : Except FixtureFault Json := do
  let type ← (value prop "type" "string").mapError .thrown
  if type = "integer" then return .int 123456
  else if type = "array" then
    let columns ← columnsOf prop
    return .arr [.obj (columns.foldl setSample [])]
  else return sampleText

def addSample (input : List (String × Json)) (prop : String × Json) : Except FixtureFault (List (String × Json)) := do
  return Json.setMember input prop.1 (← sample prop.2)

def samples : Json → Except FixtureFault (List (String × Json))
  | .obj props => props.foldlM addSample []
  | .null => .ok []
  | .arr [] => .ok []
  -- A value of another kind has no keys, also where its elements have types.
  | _ => .error .noKey

def fixtureFromSchema (schema : Json) : Except FixtureFault Json :=
  match Json.member schema.members "properties" with
  | none => .ok (.obj [])
  | some props => do
    let input ← samples props
    match Json.member input "total_tiyn" with
    | none => return .obj input
    | some (.int tiyn) =>
      let total ← (InputPolicy.formatted tiyn).mapError .money
      let words ← (InputPolicy.inWords tiyn).mapError .money
      return .obj (Json.setMember (Json.setMember input "total" total) "total_words" words)
    | some _ => .error .notNumber

/-! ### What the blocks declare -/

/-- What a block declares of a member of the input. -/
inductive Declared where
  | text
  | amount
  | rows (keys : List String)
  deriving DecidableEq

def Declared.schema : Declared → Json
  | .text => typed "string"
  | .amount => Blocks.amount
  | .rows keys => rowsOf keys

def rowDeclaration (row : Json) : String × Declared := ((variableOf row).getD (textOr row "field" ""), .text)

def declarations (b : Json) : List (String × Declared) :=
  match kindOf b with
  | some .fields => (elementsOf b "rows").map rowDeclaration
  | some .table => [(textOr b "field" "items", .rows ((elementsOf b "columns").map fun c => textOr c "key" ""))]
  | some .totals => [(textOr b "field" "total_tiyn", .amount), ("total", .text), ("total_words", .text)]
  | _ => []

def declarationsOf : Json → List (String × Declared)
  | .arr blocks => blocks.flatMap declarations
  | _ => []

/-- The member of the input that a fragment reads. -/
def Fragment.reads? : Fragment → Option String
  | .member name => some name
  | .memberOr path => some path
  | _ => none

def setDeclared (props : List (String × Json)) (declaration : String × Declared) : List (String × Json) :=
  Json.setMember props declaration.1 declaration.2.schema

/-- A step of a compilation that declares these members: it reads and requires no others. -/
structure Declares (st : Build) (declared : List (String × Declared)) (st' : Build) : Prop where
  properties : st'.properties = declared.foldl setDeclared st.properties
  reads : ∀ fragment ∈ st'.body, fragment ∈ st.body ∨
    ∀ name, fragment.reads? = some name → name ∈ declared.map Prod.fst
  required : ∀ name ∈ st'.required, name ∈ st.required ∨ name ∈ declared.map Prod.fst

section

variable {st st₁ st₂ : Build} {first second : List (String × Declared)}

theorem Declares.refl (st : Build) : Declares st [] st where
  properties := rfl
  reads := fun _ hMem => .inl hMem
  required := fun _ hMem => .inl hMem

theorem Declares.trans (h : Declares st first st₁) (h' : Declares st₁ second st₂) :
    Declares st (first ++ second) st₂ where
  properties := by rw [h'.properties, h.properties, List.foldl_append]
  reads := by
    intro fragment hMem
    rw [List.map_append]
    rcases h'.reads fragment hMem with hBefore | hSecond
    · exact (h.reads fragment hBefore).imp id fun hFirst name hReads => List.mem_append_left _ (hFirst name hReads)
    · exact .inr fun name hReads => List.mem_append_right _ (hSecond name hReads)
  required := by
    intro name hMem
    rw [List.map_append]
    rcases h'.required name hMem with hBefore | hSecond
    · exact (h.required name hBefore).imp id (List.mem_append_left _)
    · exact .inr (List.mem_append_right _ hSecond)

/-- What a step writes and requires, where it is known what it declares. -/
theorem Declares.of_written (fragments : List Fragment) (names : List String)
    (hProperties : st₁.properties = first.foldl setDeclared st.properties) (hBody : st₁.body = st.body ++ fragments)
    (hReads : ∀ fragment ∈ fragments, ∀ name, fragment.reads? = some name → name ∈ first.map Prod.fst)
    (hRequired : st₁.required = st.required ++ names) (hNames : ∀ name ∈ names, name ∈ first.map Prod.fst) :
    Declares st first st₁ where
  properties := hProperties
  reads := by
    intro fragment hMem
    rw [hBody] at hMem
    exact (List.mem_append.mp hMem).imp id (hReads fragment)
  required := by
    intro name hMem
    rw [hRequired] at hMem
    exact (List.mem_append.mp hMem).imp id (hNames name)

/-- A label and code that reads nothing. -/
theorem declares_printed (st : Build) (text code : String) :
    Declares st [] ((st.emitLabel text).write [.code code]) :=
  .of_written [.code code] [] rfl rfl (by simp [Fragment.reads?]) (List.append_nil _).symm (by simp)

theorem declares_code (st : Build) (code : String) : Declares st [] (st.write [.code code]) :=
  .of_written [.code code] [] rfl rfl (by simp [Fragment.reads?]) (List.append_nil _).symm (by simp)

theorem declares_field (st : Build) (field label labelKk : String) (isRequired : Bool) :
    Declares st [(field, .text)] (st.addField field label labelKk isRequired) := by
  have hReads : ∀ fragment ∈ [Fragment.code "[#", .member field, .code "],\n"], ∀ name,
      fragment.reads? = some name → name ∈ [(field, Declared.text)].map Prod.fst := by
    simp [Fragment.reads?, eq_comm]
  cases isRequired with
  | true => exact .of_written _ [field] rfl rfl hReads rfl (by simp)
  | false => exact .of_written _ [] rfl rfl hReads (List.append_nil _).symm (by simp)

theorem declares_variable (st : Build) (id : String) : Declares st [(id, .text)] (st.addVariable id) := by
  have hReads : ∀ fragment ∈ [Fragment.code "[#", .memberOr (inputPath id), .code "],\n"], ∀ name,
      fragment.reads? = some name → name ∈ [(id, Declared.text)].map Prod.fst := by
    simp [Fragment.reads?, inputPath, eq_comm]
  exact .of_written _ [] rfl rfl hReads (List.append_nil _).symm (by simp)

theorem declares_row (st : Build) (row : Json) : Declares st [rowDeclaration row] (st.addRow row) := by
  have hLabelled : Declares st [] (st.addRowLabel (textOr row "label" "")) := declares_printed st _ _
  rw [Build.addRow, rowDeclaration]
  cases variableOf row with
  | none => exact hLabelled.trans (declares_field _ _ _ _ _)
  | some var => exact hLabelled.trans (declares_variable _ var)

/-- A loop whose rounds each declare something. -/
theorem declares_foldl {σ : Type} {build : σ → Build} {add : σ → Json → σ} {declared : Json → List (String × Declared)}
    (hAdd : ∀ s a, Declares (build s) (declared a) (build (add s a))) (list : List Json) (s : σ) :
    Declares (build s) (list.flatMap declared) (build (list.foldl add s)) := by
  induction list generalizing s with
  | nil => exact .refl (build s)
  | cons a list ih =>
    rw [List.flatMap_cons]
    exact (hAdd s a).trans (ih (add s a))

theorem keys_columns (columns : Columns) (list : List Json) :
    (list.foldl Columns.addColumn columns).keys = columns.keys ++ list.map fun c => textOr c "key" "" := by
  induction list generalizing columns with
  | nil => exact (List.append_nil _).symm
  | cons c list ih =>
    rw [List.foldl_cons, ih, List.map_cons]
    simp [Columns.addColumn, Columns.add]

theorem declares_table (table : Columns) (itemsField : String) (columns : List Json) :
    Declares table.build [(itemsField, .rows table.keys)] (table.addTable itemsField columns) :=
  .of_written _ [itemsField] rfl rfl (by simp [Fragment.reads?, eq_comm]) rfl (by simp)

theorem declares_totals (st : Build) (tiyn label wordsLabel labelKk : String) :
    Declares st [(tiyn, .amount), ("total", .text), ("total_words", .text)]
      (st.addTotals tiyn label wordsLabel labelKk) := by
  refine .of_written _ [tiyn, "total", "total_words"] rfl rfl ?_ ?_ (by simp)
  · simp [Fragment.reads?]
  · simp [Build.addTotals, Build.require, Build.addFormField, Build.setProperty, Build.write, Build.emitLabel]

/-- A block declares what its declarations say. -/
theorem declares_block (st : Build) (b : Json) : Declares st (declarations b) (st.addBlock b) := by
  have hNothing (list : List Json) : list.flatMap (fun _ => ([] : List (String × Declared))) = [] := by simp
  rw [Build.addBlock, declarations]
  cases kindOf b with
  | none => exact .refl st
  | some kind =>
    cases kind with
    | header => exact declares_printed st _ _
    | text => exact declares_printed st _ _
    | fields =>
      have hRows := @declares_foldl Build (fun st => st) Build.addRow (fun row => [rowDeclaration row])
        declares_row (elementsOf b "rows") st.openFields
      have hAll := ((declares_code st _).trans hRows).trans (declares_code _ ")\n#v(3mm)\n")
      rwa [List.append_nil, List.nil_append, ← List.map_eq_flatMap] at hAll
    | table =>
      have hColumns := @declares_foldl Columns Columns.build Columns.addColumn (fun _ => [])
        (fun columns c => .of_written [] [] rfl (List.append_nil _).symm (by simp) (List.append_nil _).symm (by simp))
        (elementsOf b "columns") (.start st)
      have hKeys := keys_columns (.start st) (elementsOf b "columns")
      have hAll := hColumns.trans (declares_table _ (textOr b "field" "items") (elementsOf b "columns"))
      rwa [hNothing, hKeys] at hAll
    | totals => exact declares_totals st _ _ _ _
    | signatures =>
      have hOpen : Declares st [] (st.openSignatures (elementsOf b "parties").length) :=
        .of_written [.code _] [] rfl rfl (by simp [Fragment.reads?]) (List.append_nil _).symm (by simp)
      have hParties := @declares_foldl Build (fun st => st) (fun st party => st.addParty (titleOf party)) (fun _ => [])
        (fun st party => declares_printed st _ _) (elementsOf b "parties")
        (st.openSignatures (elementsOf b "parties").length)
      have hAll := (hOpen.trans hParties).trans (declares_code _ ")\n")
      rwa [hNothing] at hAll
    | pagebreak => exact declares_code st _

/-- A compilation declares what its blocks do. -/
theorem declares_blocks (blocks : List Json) :
    Declares .start (blocks.flatMap declarations) (blocks.foldl Build.addBlock .start) :=
  @declares_foldl Build (fun st => st) Build.addBlock declarations declares_block blocks .start

end

/-! ### What is last under a name -/

/-- The value that is last under a name. -/
def lastOf {α : Type} : List (String × α) → String → Option α
  | [], _ => none
  | (name, a) :: rest, key => (lastOf rest key).or (if name = key then some a else none)

section

variable {α : Type} {key : String}

theorem member_foldl_set (set : α → Json) (list : List (String × α)) (ms : List (String × Json)) :
    Json.member (list.foldl (fun ms entry => Json.setMember ms entry.1 (set entry.2)) ms) key =
      ((lastOf list key).map set).or (Json.member ms key) := by
  induction list generalizing ms with
  | nil => rfl
  | cons entry list ih =>
    obtain ⟨name, a⟩ := entry
    rw [List.foldl_cons, ih, lastOf]
    cases lastOf list key with
    | some b => rfl
    | none =>
      by_cases hName : name = key
      · rw [if_pos hName, hName, Json.member_setMember_same]
        rfl
      · rw [if_neg hName, Json.member_setMember_other (Ne.symm hName)]
        rfl

theorem lastOf_isSome {list : List (String × α)} (h : key ∈ list.map Prod.fst) : (lastOf list key).isSome := by
  induction list with
  | nil => cases h
  | cons entry list ih =>
    obtain ⟨name, a⟩ := entry
    rw [lastOf, Option.isSome_or]
    rw [List.map_cons, List.mem_cons] at h
    rcases h with rfl | hRest
    · simp
    · rw [ih hRest, Bool.true_or]

/-- Where each name is there once, the last value is the only one. -/
theorem lastOf_ascending {ms : List (String × Json)} (h : Json.Ascending ms) : lastOf ms key = Json.member ms key := by
  induction ms with
  | nil => rfl
  | cons entry ms ih =>
    obtain ⟨name, v⟩ := entry
    obtain ⟨hFirst, hRest⟩ := List.pairwise_cons.mp h
    rw [lastOf, Json.member, ih hRest]
    by_cases hName : name = key
    · have hNone : Json.member ms key = none := by
        cases hMember : Json.member ms key with
        | none => rfl
        | some w =>
          have hLt := hFirst (key, w) (Json.mem_of_member hMember)
          exact absurd hName (ne_of_lt hLt)
      rw [hNone, if_pos hName, Option.none_or]
    · rw [if_neg hName, if_neg hName, Option.or_none]

theorem ascending_foldl_set (set : α → Json) (list : List (String × α)) {ms : List (String × Json)}
    (h : Json.Ascending ms) :
    Json.Ascending (list.foldl (fun ms entry => Json.setMember ms entry.1 (set entry.2)) ms) := by
  induction list generalizing ms with
  | nil => exact h
  | cons entry list ih => exact ih h.setMember

end

/-! ### The fixture of a compiled template -/

/-- The value that the fixture has for what is declared. -/
def Declared.sampled : Declared → Json
  | .text => sampleText
  | .amount => .int 123456
  | .rows keys =>
    .arr [.obj (((keys.foldl (fun props key => Json.setMember props key (typed "string")) []).map Prod.fst).foldl
      setSample [])]

theorem sample_schema (d : Declared) : sample d.schema = .ok d.sampled := by
  cases d <;> rfl

theorem member_nil {set : Json} (key : String) (v : Json) (h : Json.member [] key = some v) : v = set := by
  cases h

/-- Every member that is set to one value has it. -/
theorem member_foldl_same {set : Json} {keys : List String} {ms : List (String × Json)}
    (h : ∀ key v, Json.member ms key = some v → v = set) {key : String} {v : Json}
    (hMember : Json.member (keys.foldl (fun ms key => Json.setMember ms key set) ms) key = some v) : v = set := by
  induction keys generalizing ms with
  | nil => exact h key v hMember
  | cons first keys ih =>
    refine ih (fun other w hOther => ?_) hMember
    by_cases hKey : other = first
    · rw [hKey, Json.member_setMember_same] at hOther
      exact (Option.some.inj hOther).symm
    · rw [Json.member_setMember_other hKey] at hOther
      exact h other w hOther

theorem ascending_foldl_same (set : Json) (keys : List String) {ms : List (String × Json)} (h : Json.Ascending ms) :
    Json.Ascending (keys.foldl (fun ms key => Json.setMember ms key set) ms) := by
  induction keys generalizing ms with
  | nil => exact h
  | cons first keys ih => exact ih h.setMember

/-- What the fixture has satisfies what is declared. -/
theorem admits_sampled (d : Declared) : admits d.schema d.sampled = true := by
  cases d with
  | text => rfl
  | amount => rfl
  | rows keys =>
    let props := keys.foldl (fun props key => Json.setMember props key (typed "string")) []
    have hProps : Json.Ascending props := ascending_foldl_same _ keys List.Pairwise.nil
    have hRow : admitsEach props ((props.map Prod.fst).foldl setSample []) = true := by
      refine admitsEach_iff.mpr fun prop hProp w hMember => ?_
      have hTyped : prop.2 = typed "string" :=
        member_foldl_same member_nil (hProps.member_of_mem hProp)
      have hText : w = sampleText := member_foldl_same member_nil hMember
      rw [hTyped, hText]
      rfl
    have hSchema : admits (Declared.rows keys).schema (Declared.rows keys).sampled =
        admitsEach props ((props.map Prod.fst).foldl setSample []) := by
      simp [Declared.schema, Declared.sampled, rowsOf, admits, admitsAll, admitsMembers, itemsOf, admitsPlain, hasType,
        Json.members, props]
    rw [hSchema, hRow]

/-- A text is no table. -/
theorem admits_text_iff {d : Declared} {text : String} : admits d.schema (.str text) = true ↔ d = .text := by
  cases d with
  | text => exact ⟨fun _ => rfl, fun _ => rfl⟩
  | amount => simp [Declared.schema, amount, admits, admitsAll, admitsPlain, hasType]
  | rows keys => simp [Declared.schema, rowsOf, admits, admitsAll, admitsPlain, hasType]

section

variable {declared : List (String × Declared)} {input ms : List (String × Json)} {key : String}

/-- The properties of a schema, from the declarations. -/
def propertiesOf (declared : List (String × Declared)) : List (String × Json) := declared.foldl setDeclared []

def sampleOr (schema : Json) : Json :=
  match sample schema with
  | .ok v => v
  | .error _ => .null

/-- The fixture before the amounts are spelled out. -/
def sampledOf (declared : List (String × Declared)) : List (String × Json) :=
  (propertiesOf declared).foldl (fun ms entry => Json.setMember ms entry.1 (sampleOr entry.2)) []

theorem properties_ascending (declared : List (String × Declared)) : Json.Ascending (propertiesOf declared) :=
  ascending_foldl_set Declared.schema declared List.Pairwise.nil

theorem member_properties : Json.member (propertiesOf declared) key = (lastOf declared key).map Declared.schema := by
  have hMember := @member_foldl_set Declared key Declared.schema declared []
  rwa [Json.member, Option.or_none] at hMember

theorem member_sampled : Json.member (sampledOf declared) key = (lastOf declared key).map Declared.sampled := by
  have hMember := @member_foldl_set Json key sampleOr (propertiesOf declared) []
  rw [Json.member, Option.or_none, lastOf_ascending (properties_ascending declared), member_properties,
    Option.map_map] at hMember
  refine hMember.trans ?_
  congr 1
  funext d
  rw [Function.comp_apply, sampleOr, sample_schema]

theorem samples_eq (declared : List (String × Declared)) :
    samples (.obj (propertiesOf declared)) = .ok (sampledOf declared) := by
  have hLoop : ∀ (props ms : List (String × Json)), (∀ prop ∈ props, ∃ d : Declared, prop.2 = d.schema) →
      props.foldlM addSample ms =
        .ok (props.foldl (fun ms entry => Json.setMember ms entry.1 (sampleOr entry.2)) ms) := by
    intro props
    induction props with
    | nil => exact fun ms _ => rfl
    | cons prop props ih =>
      intro ms h
      rw [List.forall_mem_cons] at h
      obtain ⟨⟨d, hSchema⟩, hRest⟩ := h
      have hStep : addSample ms prop = .ok (Json.setMember ms prop.1 (sampleOr prop.2)) := by
        rw [addSample, sampleOr, hSchema, sample_schema]
        rfl
      rw [List.foldlM_cons, hStep]
      exact ih _ hRest
  refine hLoop (propertiesOf declared) [] fun prop hProp => ?_
  have hMember := (properties_ascending declared).member_of_mem hProp
  rw [member_properties] at hMember
  obtain ⟨d, -, hSchema⟩ := Option.map_eq_some_iff.mp hMember
  exact ⟨d, hSchema.symm⟩

/-- The schema of a template that declares these members and requires some of them. -/
theorem admits_schema {names : List String} {st : Build} (hProperties : st.properties = propertiesOf declared)
    (hRequired : st.required = names) : admits st.schema (.obj input) = true ↔
      (∀ key d w, lastOf declared key = some d → Json.member input key = some w → admits d.schema w = true) ∧
        ∀ name ∈ names, (Json.member input name).isSome := by
  have hSchema : admits st.schema (.obj input) =
      (admitsEach (propertiesOf declared) input && hasMembers (names.map .str) (.obj input)) := by
    simp [Build.schema, hProperties, hRequired, admits, admitsAll, admitsMembers, admitsPlain, hasType, Json.members]
  rw [hSchema, Bool.and_eq_true, admitsEach_iff]
  refine and_congr ⟨fun h key d w hLast hMember => ?_, fun h prop hProp w hMember => ?_⟩ ?_
  · have hProp : (key, d.schema) ∈ propertiesOf declared := by
      refine Json.mem_of_member ?_
      rw [member_properties, hLast]
      rfl
    exact h _ hProp w hMember
  · have hOf := (properties_ascending declared).member_of_mem hProp
    rw [member_properties] at hOf
    obtain ⟨d, hLast, hSame⟩ := Option.map_eq_some_iff.mp hOf
    rw [← hSame]
    exact h _ d w hLast hMember
  · simp [hasMembers, Json.isObject, Json.members]

/-- A text in place of what is declared last under a key. -/
theorem member_set_text {text : String} {key' : String} {d : Declared} {w : Json}
    (h : ∀ d w, lastOf declared key = some d → Json.member ms key = some w → admits d.schema w = true)
    (hText : ∀ d, lastOf declared key' = some d → d = .text) (hLast : lastOf declared key = some d)
    (hMember : Json.member (Json.setMember ms key' (.str text)) key = some w) : admits d.schema w = true := by
  by_cases hKey : key = key'
  · subst hKey
    rw [Json.member_setMember_same] at hMember
    cases hMember
    exact admits_text_iff.mpr (hText d hLast)
  · rw [Json.member_setMember_other hKey] at hMember
    exact h d w hLast hMember

theorem isSome_set {v : Json} {key' : String} (h : (Json.member ms key).isSome) :
    (Json.member (Json.setMember ms key' v) key).isSome := by
  by_cases hKey : key = key'
  · rw [hKey, Json.member_setMember_same]
    rfl
  · rwa [Json.member_setMember_other hKey]

/-- The fixture has what is declared. -/
theorem sampled_isSome (h : key ∈ declared.map Prod.fst) : (Json.member (sampledOf declared) key).isSome := by
  rw [member_sampled, Option.isSome_map]
  exact lastOf_isSome h

end

/-! ### Whether the fixture fits -/

/-- The body of the source that the blocks compile to. -/
def bodyOf : Json → List Fragment
  | .arr blocks =>
    match compileBlocks blocks with
    | .ok st => st.body
    | .error _ => []
  | _ => []

theorem source_eq {blocks : Json} {out compiled : Compiled Json} (h : compile blocks out = .ok (none, compiled)) :
    ∃ preamble, compiled.source = header ++ render preamble ++ "\n" ++ render (bodyOf blocks) := by
  obtain ⟨list, st, rfl, hBlocks, rfl⟩ := compile_accepted h
  refine ⟨st.preamble, ?_⟩
  rw [bodyOf, hBlocks]
  rfl

/-- The fixture of a template: it is made, satisfies the schema, and has every member that the body reads. -/
def FixtureFits (compiled : Compiled Json) (body : List Fragment) : Prop :=
  ∃ input, fixtureFromSchema compiled.schema = .ok input ∧ admits compiled.schema input = true ∧
    ∀ fragment ∈ body, ∀ name, fragment.reads? = some name → (Json.member input.members name).isSome

/-- What is last under `total_tiyn` is an amount, if anything is, and then `total` and `total_words` are
texts. -/
def Fits (declared : List (String × Declared)) : Prop :=
  match lastOf declared "total_tiyn" with
  | none => True
  | some .amount =>
    (∀ d, lastOf declared "total" = some d → d = .text) ∧ ∀ d, lastOf declared "total_words" = some d → d = .text
  | some _ => False

section

variable {declared : List (String × Declared)} {st : Build}

/-- What the fixture is made of, by what is declared last under `total_tiyn`. -/
theorem fixture_eq (hProperties : st.properties = propertiesOf declared) :
    (lastOf declared "total_tiyn" = none → fixtureFromSchema st.schema = .ok (.obj (sampledOf declared))) ∧
    (∀ d, lastOf declared "total_tiyn" = some d → d ≠ .amount → fixtureFromSchema st.schema = .error .notNumber) ∧
    (lastOf declared "total_tiyn" = some .amount → ∃ total words, fixtureFromSchema st.schema =
      .ok (.obj (Json.setMember (Json.setMember (sampledOf declared) "total" (.str total)) "total_words"
        (.str words)))) := by
  have hMember : Json.member st.schema.members "properties" = some (.obj (propertiesOf declared)) := by
    rw [← hProperties]
    rfl
  have hTiyn := @member_sampled declared "total_tiyn"
  simp only [fixtureFromSchema, hMember, samples_eq, bind, Except.bind, hTiyn]
  refine ⟨fun hNone => ?_, fun d hLast hNot => ?_, fun hLast => ?_⟩
  · rw [hNone]
    rfl
  · rw [hLast]
    cases d with
    | text => rfl
    | amount => exact absurd rfl hNot
    | rows keys => rfl
  · obtain ⟨words, hWords⟩ := @Money.toWordsRu_accepts 123456 (by decide)
    obtain ⟨total, hTotal⟩ : ∃ total, Money.formatTiynRu 123456 = some total := ⟨_, rfl⟩
    refine ⟨total, words, ?_⟩
    simp only [hLast, Option.map_some, Declared.sampled, InputPolicy.formatted, hTotal, InputPolicy.inWords, hWords,
      Except.mapError]
    rfl

theorem sampled_admitted {key : String} {d : Declared} {w : Json} (hLast : lastOf declared key = some d)
    (hMember : Json.member (sampledOf declared) key = some w) : admits d.schema w = true := by
  rw [member_sampled, hLast] at hMember
  cases hMember
  exact admits_sampled d

/-- A fixture whose members fit their declarations fits, where what is required and what is read is declared. -/
theorem fits_of_members (hProperties : st.properties = propertiesOf declared)
    (hRequired : ∀ name ∈ st.required, name ∈ declared.map Prod.fst)
    (hReads : ∀ fragment ∈ st.body, ∀ name, fragment.reads? = some name → name ∈ declared.map Prod.fst)
    {made : List (String × Json)} (hMade : fixtureFromSchema st.schema = .ok (.obj made))
    (hEach : ∀ key d w, lastOf declared key = some d → Json.member made key = some w → admits d.schema w = true)
    (hSome : ∀ name ∈ declared.map Prod.fst, (Json.member made name).isSome) :
    ∃ input, fixtureFromSchema st.schema = .ok input ∧ admits st.schema input = true ∧
      ∀ fragment ∈ st.body, ∀ name, fragment.reads? = some name → (Json.member input.members name).isSome := by
  have hAdmits : admits st.schema (.obj made) = true :=
    (admits_schema hProperties rfl).mpr ⟨hEach, fun name hName => hSome name (hRequired name hName)⟩
  exact ⟨_, hMade, hAdmits, fun fragment hFragment name hName => hSome name (hReads fragment hFragment name hName)⟩

end

/-- The fixture of accepted blocks fits exactly if no row and no table takes the name `total_tiyn`, or those
of its texts, from a block of totals. -/
theorem fixture_fits_iff {blocks : Json} {out compiled : Compiled Json}
    (h : compile blocks out = .ok (none, compiled)) :
    FixtureFits compiled (bodyOf blocks) ↔ Fits (declarationsOf blocks) := by
  obtain ⟨list, st, rfl, hBlocks, rfl⟩ := compile_accepted h
  have hBody : bodyOf (.arr list) = st.body := by
    rw [bodyOf, hBlocks]
  have hDeclares := declares_blocks list
  rw [← compileBlocks_eq hBlocks] at hDeclares
  have hProperties : st.properties = propertiesOf (list.flatMap declarations) := hDeclares.properties
  have hRequired : ∀ name ∈ st.required, name ∈ (list.flatMap declarations).map Prod.fst := fun name hName =>
    (hDeclares.required name hName).resolve_left fun hNone => nomatch hNone
  have hReads : ∀ fragment ∈ st.body, ∀ name, fragment.reads? = some name →
      name ∈ (list.flatMap declarations).map Prod.fst := fun fragment hFragment =>
    (hDeclares.reads fragment hFragment).resolve_left fun hNone => nomatch hNone
  obtain ⟨hNone, hOther, hAmount⟩ := fixture_eq hProperties
  rw [FixtureFits, hBody, show declarationsOf (.arr list) = list.flatMap declarations from rfl, Fits]
  show (∃ input, fixtureFromSchema st.schema = .ok input ∧ admits st.schema input = true ∧ _) ↔ _
  cases hLast : lastOf (list.flatMap declarations) "total_tiyn" with
  | none =>
    refine iff_of_true (fits_of_members hProperties hRequired hReads (hNone hLast) ?_ ?_) trivial
    · exact fun _ _ _ => sampled_admitted
    · exact fun _ => sampled_isSome
  | some d =>
    by_cases hIs : d = .amount
    · subst hIs
      obtain ⟨total, words, hFixture⟩ := hAmount hLast
      constructor
      · rintro ⟨input, hMade, hAdmits, -⟩
        rw [hFixture] at hMade
        cases hMade
        obtain ⟨hEach, -⟩ := (admits_schema hProperties rfl).mp hAdmits
        refine ⟨fun d hTotal => ?_, fun d hWords => ?_⟩
        · refine admits_text_iff.mp (hEach "total" d (.str total) hTotal ?_)
          rw [Json.member_setMember_other (by decide), Json.member_setMember_same]
        · exact admits_text_iff.mp (hEach "total_words" d (.str words) hWords Json.member_setMember_same)
      · rintro ⟨hTotal, hWords⟩
        refine fits_of_members hProperties hRequired hReads hFixture ?_ ?_
        · intro key d w hKey hMember
          refine member_set_text (fun d w hOf hIn => ?_) hWords hKey hMember
          exact member_set_text (fun _ _ => sampled_admitted) hTotal hOf hIn
        · exact fun name hName => isSome_set (isSome_set (sampled_isSome hName))
    · have hThrows := hOther d hLast hIs
      refine iff_of_false ?_ ?_
      · rintro ⟨input, hMade, -⟩
        rw [hThrows] at hMade
        cases hMade
      · cases d with
        | amount => exact absurd rfl hIs
        | _ => exact id

def totalsBlocks : Json :=
  .arr [.obj [("title", .str "Счёт"), ("type", .str "header")], .obj [("type", .str "totals")]]

theorem totals_fixture_fits : ∃ compiled, compile totalsBlocks ⟨"", .null, .null, ""⟩ = .ok (none, compiled) ∧
    FixtureFits compiled (bodyOf totalsBlocks) := by
  refine ⟨_, rfl, (@fixture_fits_iff totalsBlocks ⟨"", .null, .null, ""⟩ _ rfl).mpr ?_⟩
  refine ⟨fun d hTotal => ?_, fun d hWords => ?_⟩
  · cases hTotal
    rfl
  · cases hWords
    rfl

/-- A row whose field is named like the amount of a block of totals. -/
def totalRow : Json :=
  .arr [.obj [
    ("rows", .arr [.obj [("field", .str "total_tiyn"), ("label", .str "Итого")]]),
    ("type", .str "fields")]]

theorem total_row_throws : ∃ compiled, compile totalRow ⟨"", .null, .null, ""⟩ = .ok (none, compiled) ∧
    fixtureFromSchema compiled.schema = .error .notNumber :=
  ⟨_, rfl, rfl⟩

end CyberAccountant.Docgen.Blocks
