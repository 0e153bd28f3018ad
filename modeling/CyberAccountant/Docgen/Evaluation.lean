import CyberAccountant.Docgen.Fixture
import CyberAccountant.Docgen.Normalize

/-! What the body of a compiled template reads of its input.  Whether the reads find what they ask for is decided by
the blocks alone: what can be rendered from one admitted input can be from each. -/

namespace CyberAccountant.Docgen.Blocks

open CyberAccountant.Library CyberAccountant.Library.JsonSchema CyberAccountant.Security.Jwt TemplateRegistry

/-! ### Reading -/

/-- Why the engine stops at a read. -/
inductive ReadError where
  | noKey (name : String)
  /-- No array, or one with an element that has no keys. -/
  | noRows (name : String)
  deriving DecidableEq

/-- The code calls `map` on what is read before it. -/
def mapsOver : List Fragment → Bool
  | .code text :: _ => ".map(".toList.isPrefixOf text.toList
  | _ => false

def isRows : Json → Bool
  | .arr rows => rows.all Json.isObject
  | _ => false

def readMember (d : List (String × Json)) (name : String) (mapped : Bool) : Except ReadError Json := do
  let v ← orFail (.noKey name) (Json.member d name)
  -- The closure asks each row for its cells by their keys.
  ensure (mapped = true → isRows v = true) (.noRows name)
  return v

/-- What the body reads of the dictionary `d`, in the order of the source. -/
def evaluate (d : List (String × Json)) : List Fragment → Except ReadError (List Json)
  | [] => .ok []
  | .member name :: rest => do
    let v ← readMember d name (mapsOver rest)
    return v :: (← evaluate d rest)
  | .memberOr path :: rest => return (Json.member d path).getD (.str "") :: (← evaluate d rest)
  | .code _ :: rest | .label _ :: rest => evaluate d rest

/-- What a fragment prints of the client's input: what is missing is empty. -/
def Fragment.printed (input : Json) (fragment : Fragment) : Option Json :=
  fragment.reads?.map fun name => (Json.member input.members name).getD (.str "")

/-! ### Reading what is declared -/

/-- What is mapped over is declared as a table, after all else that is declared under its name. -/
def MapsTables (declared : List (String × Declared)) : List Fragment → Prop
  | [] => True
  | .member name :: rest =>
    (mapsOver rest = true → ∃ keys, lastOf declared name = some (.rows keys)) ∧ MapsTables declared rest
  | _ :: rest => MapsTables declared rest

/-- The dictionary has what is declared, each member as its schema says. -/
def Has (declared : List (String × Declared)) (d : List (String × Json)) : Prop :=
  ∀ name declaration, lastOf declared name = some declaration →
    ∃ v, Json.member d name = some v ∧ admits declaration.schema v = true

section

variable {declared : List (String × Declared)} {d : List (String × Json)} {body : List Fragment} {name : String}

theorem isRows_iff {declaration : Declared} {v : Json} (h : admits declaration.schema v = true) :
    isRows v = true ↔ ∃ keys, declaration = .rows keys := by
  cases declaration with
  | text =>
    cases v with
    | arr rows => simp [Declared.schema, typed, admits, admitsAll, admitsPlain, hasType] at h
    | _ => simp [isRows]
  | amount =>
    cases v with
    | arr rows => simp [Declared.schema, amount, admits, admitsAll, admitsPlain, hasType] at h
    | _ => simp [isRows]
  | rows keys =>
    refine iff_of_true ?_ ⟨keys, rfl⟩
    simp only [Declared.schema, rowsOf, admits, admitsAll, admitsPlain, hasType] at h
    cases v with
    | arr rows =>
      simp [itemsOf] at h
      simp only [isRows, List.all_eq_true]
      intro row hRow
      have hType := (h row hRow).2
      cases row with
      | obj ms => rfl
      | _ => simp at hType
    | _ => simp at h

theorem readMember_eq {mapped : Bool} {declaration : Declared} (hHas : Has declared d)
    (hLast : lastOf declared name = some declaration) :
    ((readMember d name mapped).isOk = true ↔ (mapped = true → ∃ keys, lastOf declared name = some (.rows keys))) ∧
      ∀ v, readMember d name mapped = .ok v → Json.member d name = some v := by
  obtain ⟨v, hMember, hAdmits⟩ := hHas name declaration hLast
  have hRows : isRows v = true ↔ ∃ keys, lastOf declared name = some (.rows keys) := by
    rw [isRows_iff hAdmits, hLast]
    simp
  rw [← hRows]
  constructor
  · rw [readMember, hMember]
    show (ensure (mapped = true → isRows v = true) (ReadError.noRows name) >>= fun _ => .ok v).isOk = true ↔ _
    rw [ensure]
    by_cases hRead : mapped = true → isRows v = true
    · rw [if_pos hRead]
      exact iff_of_true rfl hRead
    · rw [if_neg hRead]
      exact iff_of_false Bool.false_ne_true hRead
  · intro w hRead
    simp only [readMember, bind_eq_ok, orFail_eq_ok, pure_eq_ok] at hRead
    obtain ⟨v', hSome, -, -, rfl⟩ := hRead
    exact hSome

/-- Of a dictionary that has what is declared, a body that maps only over tables reads all that it names. -/
theorem evaluate_eq (hHas : Has declared d) (hMaps : MapsTables declared body)
    (hReads : ∀ fragment ∈ body, ∀ name, fragment.reads? = some name → name ∈ declared.map Prod.fst) :
    evaluate d body = .ok (body.filterMap (Fragment.printed (.obj d))) := by
  induction body with
  | nil => rfl
  | cons fragment rest ih =>
    rw [List.forall_mem_cons] at hReads
    obtain ⟨hFirst, hRest⟩ := hReads
    cases fragment with
    | member name =>
      obtain ⟨hMapped, hMaps⟩ := hMaps
      obtain ⟨declaration, hLast⟩ := Option.isSome_iff_exists.mp (lastOf_isSome (hFirst name rfl))
      obtain ⟨hOk, hValue⟩ := @readMember_eq declared d name (mapsOver rest) declaration hHas hLast
      have hRead := hOk.mpr hMapped
      cases hMember : readMember d name (mapsOver rest) with
      | error e =>
        rw [hMember] at hRead
        cases hRead
      | ok v =>
        rw [evaluate, hMember, ih hMaps hRest, List.filterMap_cons]
        simp [Fragment.printed, Fragment.reads?, Json.members, hValue v hMember]
    | memberOr path =>
      rw [evaluate, ih hMaps hRest, List.filterMap_cons]
      rfl
    | code text => exact ih hMaps hRest
    | label text => exact ih hMaps hRest

/-- A body that can be read maps only over tables. -/
theorem mapsTables_of_evaluate (hHas : Has declared d) (hRun : (evaluate d body).isOk = true)
    (hReads : ∀ fragment ∈ body, ∀ name, fragment.reads? = some name → name ∈ declared.map Prod.fst) :
    MapsTables declared body := by
  induction body with
  | nil => trivial
  | cons fragment rest ih =>
    rw [List.forall_mem_cons] at hReads
    obtain ⟨hFirst, hRest⟩ := hReads
    cases fragment with
    | member name =>
      obtain ⟨declaration, hLast⟩ := Option.isSome_iff_exists.mp (lastOf_isSome (hFirst name rfl))
      obtain ⟨hOk, -⟩ := @readMember_eq declared d name (mapsOver rest) declaration hHas hLast
      rw [evaluate] at hRun
      cases hMember : readMember d name (mapsOver rest) with
      | error e =>
        rw [hMember] at hRun
        cases hRun
      | ok v =>
        cases hNext : evaluate d rest with
        | error e =>
          rw [hMember, hNext] at hRun
          cases hRun
        | ok vs => exact ⟨hOk.mp (by rw [hMember]; rfl), ih (by rw [hNext]; rfl) hRest⟩
    | memberOr path =>
      rw [evaluate] at hRun
      cases hNext : evaluate d rest with
      | error e =>
        rw [hNext] at hRun
        cases hRun
      | ok vs => exact ih (by rw [hNext]; rfl) hRest
    | code text => exact ih hRun hRest
    | label text => exact ih hRun hRest

end

/-! ### What is required -/

/-- A step of a compilation requires each amount and each table that it declares. -/
structure Obliges (st : Build) (declared : List (String × Declared)) (st' : Build) : Prop where
  kept : ∀ name ∈ st.required, name ∈ st'.required
  obliged : ∀ entry ∈ declared, entry.2 ≠ .text → entry.1 ∈ st'.required

section

variable {st st₁ st₂ : Build} {first second : List (String × Declared)}

theorem Obliges.trans (h : Obliges st first st₁) (h' : Obliges st₁ second st₂) : Obliges st (first ++ second) st₂ where
  kept := fun name hName => h'.kept name (h.kept name hName)
  obliged := by
    intro entry hEntry hKind
    rcases List.mem_append.mp hEntry with hFirst | hSecond
    · exact h'.kept _ (h.obliged entry hFirst hKind)
    · exact h'.obliged entry hSecond hKind

/-- A step that requires more names, among them those of the amounts and tables that it declares. -/
theorem Obliges.of_required (names : List String) (hRequired : st₁.required = st.required ++ names)
    (h : ∀ entry ∈ first, entry.2 ≠ .text → entry.1 ∈ names) : Obliges st first st₁ where
  kept := fun name hName => by
    rw [hRequired]
    exact List.mem_append_left _ hName
  obliged := fun entry hEntry hKind => by
    rw [hRequired]
    exact List.mem_append_right _ (h entry hEntry hKind)

theorem Obliges.of_same (h : st₁.required = st.required) : Obliges st [] st₁ :=
  .of_required [] (by rw [h, List.append_nil]) (fun _ hEntry => by cases hEntry)

theorem obliges_foldl {σ : Type} {build : σ → Build} {add : σ → Json → σ} {declared : Json → List (String × Declared)}
    (hAdd : ∀ s a, Obliges (build s) (declared a) (build (add s a))) (list : List Json) (s : σ) :
    Obliges (build s) (list.flatMap declared) (build (list.foldl add s)) := by
  induction list generalizing s with
  | nil => exact .of_same rfl
  | cons a list ih =>
    rw [List.flatMap_cons]
    exact (hAdd s a).trans (ih (add s a))

theorem obliges_row (st : Build) (row : Json) : Obliges st [rowDeclaration row] (st.addRow row) := by
  have hText : ∀ names : List String, ∀ entry ∈ [rowDeclaration row], entry.2 ≠ .text → entry.1 ∈ names := by
    intro names entry hEntry hKind
    rw [List.mem_singleton.mp hEntry] at hKind
    exact absurd rfl hKind
  rw [Build.addRow]
  cases variableOf row with
  | some var => exact .of_required [] (List.append_nil _).symm (hText [])
  | none =>
    cases boolOr row "required" true with
    | true => exact .of_required [textOr row "field" ""] rfl (hText _)
    | false => exact .of_required [] (List.append_nil _).symm (hText [])

theorem obliges_block (st : Build) (b : Json) : Obliges st (declarations b) (st.addBlock b) := by
  rw [Build.addBlock, declarations]
  cases kindOf b with
  | none => exact .of_same rfl
  | some kind =>
    cases kind with
    | header | text | pagebreak => exact .of_same rfl
    | fields =>
      have hRows := @obliges_foldl Build (fun st => st) Build.addRow (fun row => [rowDeclaration row]) obliges_row
        (elementsOf b "rows") st.openFields
      rw [← List.map_eq_flatMap] at hRows
      exact ⟨hRows.kept, hRows.obliged⟩
    | table =>
      have hColumns := @obliges_foldl Columns Columns.build Columns.addColumn (fun _ => [])
        (fun columns c => .of_same rfl) (elementsOf b "columns") (.start st)
      refine ⟨fun name hName => List.mem_append_left _ (hColumns.kept name hName), fun entry hEntry _ => ?_⟩
      rw [List.mem_singleton.mp hEntry]
      exact List.mem_append_right _ List.mem_cons_self
    | totals =>
      refine .of_required [textOr b "field" "total_tiyn", "total", "total_words"] ?_ ?_
      · simp [Build.addAmounts, Build.addTotals, Build.require, Build.addFormField, Build.setProperty, Build.write,
          Build.emitLabel]
      · intro entry hEntry hKind
        rcases List.mem_cons.mp hEntry with rfl | hRest
        · exact List.mem_cons_self
        · rcases List.mem_cons.mp hRest with rfl | hLast
          · exact absurd rfl hKind
          · rw [List.mem_singleton.mp hLast] at hKind
            exact absurd rfl hKind
    | signatures =>
      have hParties := @obliges_foldl Build (fun st => st) (fun st party => st.addParty (titleOf party)) (fun _ => [])
        (fun st party => .of_same rfl) (elementsOf b "parties") (st.openSignatures (elementsOf b "parties").length)
      exact ⟨hParties.kept, fun _ hEntry => by cases hEntry⟩

theorem obliges_blocks (blocks : List Json) :
    Obliges .start (blocks.flatMap declarations) (blocks.foldl Build.addBlock .start) :=
  @obliges_foldl Build (fun st => st) Build.addBlock declarations obliges_block blocks .start

end

/-! ### What is filled in -/

def Declared.zero : Declared → Json
  | .text => .str ""
  | .amount => .null
  | .rows _ => .arr []

section

variable {declared : List (String × Declared)} {root : Json} {ms : List (String × Json)}

theorem defaultFor_schema (root : Json) (fuel : Nat) (d : Declared) :
    defaultFor root (fuel + 1) d.schema = .ok d.zero := by
  cases d <;> rfl

theorem mem_of_lastOf {α : Type} {list : List (String × α)} {key : String} {a : α} (h : lastOf list key = some a) :
    (key, a) ∈ list := by
  induction list with
  | nil => cases h
  | cons entry list ih =>
    obtain ⟨name, b⟩ := entry
    rw [lastOf] at h
    rcases Option.or_eq_some_iff.mp h with hLater | ⟨-, hHere⟩
    · exact List.mem_cons_of_mem _ (ih hLater)
    · split at hHere
      · rename_i hName
        cases hHere
        rw [hName]
        exact List.mem_cons_self
      · cases hHere

/-- The properties of a schema that come of declarations. -/
def Stems (declared : List (String × Declared)) (props : List (String × Json)) : Prop :=
  ∀ prop ∈ props, ∃ d, lastOf declared prop.1 = some d ∧ prop.2 = d.schema

/-- What becomes of an input without objects under the names that are declared. -/
theorem fillMembers_declared {props : List (String × Json)} (hStems : Stems declared props)
    (hPlain : ∀ prop ∈ props, ∀ inner, Json.member ms prop.1 ≠ some (.obj inner)) :
    ∃ ms', (∀ fuel, props.foldlM (fillMember (defaultFor root (fuel + 1)) (fillObject root (fuel + 1))) ms = .ok ms') ∧
      (∀ key v, Json.member ms key = some v → Json.member ms' key = some v) ∧
      (∀ prop ∈ props, (Json.member ms' prop.1).isSome) ∧
      ∀ key v, Json.member ms key = none → Json.member ms' key = some v →
        ∃ d, lastOf declared key = some d ∧ v = d.zero := by
  induction props generalizing ms with
  | nil =>
    refine ⟨ms, fun _ => rfl, fun _ _ h => h, fun _ h => (by cases h), fun key v hNone hSome => ?_⟩
    rw [hNone] at hSome
    cases hSome
  | cons prop props ih =>
    obtain ⟨key, schema⟩ := prop
    rw [Stems, List.forall_mem_cons] at hStems
    rw [List.forall_mem_cons] at hPlain
    obtain ⟨⟨d, hLast, hSchema⟩, hStemsRest⟩ := hStems
    obtain ⟨hHere, hPlainRest⟩ := hPlain
    obtain rfl : schema = d.schema := hSchema
    cases hMember : Json.member ms key with
    | some v =>
      have hStep : ∀ fuel, fillMember (defaultFor root (fuel + 1)) (fillObject root (fuel + 1)) ms (key, d.schema) = .ok ms := by
        intro fuel
        rw [fillMember, hMember]
        cases v with
        | obj inner => exact absurd hMember (hHere inner)
        | _ => rfl
      obtain ⟨ms', hLoop, hKept, hAll, hNew⟩ := ih hStemsRest hPlainRest
      refine ⟨ms', fun fuel => by rw [List.foldlM_cons, hStep]; exact hLoop fuel, hKept, ?_, hNew⟩
      rw [List.forall_mem_cons]
      exact ⟨by rw [hKept key v hMember]; rfl, hAll⟩
    | none =>
      have hStep : ∀ fuel, fillMember (defaultFor root (fuel + 1)) (fillObject root (fuel + 1)) ms (key, d.schema) =
          .ok (Json.setMember ms key d.zero) := by
        intro fuel
        rw [fillMember, hMember, defaultFor_schema]
        rfl
      have hPlainNext : ∀ prop ∈ props, ∀ inner, Json.member (Json.setMember ms key d.zero) prop.1 ≠ some (.obj inner) := by
        intro prop hProp inner
        by_cases hKey : prop.1 = key
        · rw [hKey, Json.member_setMember_same]
          cases d <;> simp [Declared.zero]
        · rw [Json.member_setMember_other hKey]
          exact hPlainRest prop hProp inner
      obtain ⟨ms', hLoop, hKept, hAll, hNew⟩ := ih hStemsRest hPlainNext
      refine ⟨ms', fun fuel => by rw [List.foldlM_cons, hStep]; exact hLoop fuel, fun other v hOther => ?_, ?_, fun other v hNone hSome => ?_⟩
      · by_cases hKey : other = key
        · rw [hKey, hMember] at hOther
          cases hOther
        · exact hKept other v (by rw [Json.member_setMember_other hKey]; exact hOther)
      · rw [List.forall_mem_cons]
        exact ⟨by rw [hKept key d.zero Json.member_setMember_same]; rfl, hAll⟩
      · by_cases hKey : other = key
        · subst hKey
          rw [hKept other d.zero Json.member_setMember_same] at hSome
          exact ⟨d, hLast, (Option.some.inj hSome).symm⟩
        · exact hNew other v (by rw [Json.member_setMember_other hKey]; exact hNone) hSome

end

section

variable {declared : List (String × Declared)} {st : Build}

/-- No declaration is of an object. -/
theorem not_object_of_admits {d : Declared} {inner : List (String × Json)} :
    admits d.schema (.obj inner) = false := by
  cases d <;> simp [Declared.schema, typed, amount, rowsOf, admits, admitsAll, admitsPlain, hasType]

theorem stems_properties (declared : List (String × Declared)) : Stems declared (propertiesOf declared) := by
  intro prop hProp
  have hMember := (properties_ascending declared).member_of_mem hProp
  rw [member_properties] at hMember
  obtain ⟨d, hLast, hSchema⟩ := Option.map_eq_some_iff.mp hMember
  exact ⟨d, hLast, hSchema.symm⟩

/-- An admitted input is filled up to what is declared.  Only texts are missing in it. -/
theorem normalize_admitted (hProperties : st.properties = propertiesOf declared)
    (hObliges : ∀ entry ∈ declared, entry.2 ≠ .text → entry.1 ∈ st.required) {ms : List (String × Json)}
    (hAdmits : admits st.schema (.obj ms) = true) :
    ∃ ms', Returns (fun fuel => normalizeInput fuel st.schema (.obj ms)) (.obj ms') ∧ Has declared ms' ∧
      ∀ name ∈ declared.map Prod.fst, (Json.member ms' name).getD (.str "") = (Json.member ms name).getD (.str "") := by
  obtain ⟨hEach, hRequired⟩ := (admits_schema hProperties rfl).mp hAdmits
  have hPlain : ∀ prop ∈ propertiesOf declared, ∀ inner, Json.member ms prop.1 ≠ some (.obj inner) := by
    intro prop hProp inner hMember
    obtain ⟨d, hLast, -⟩ := stems_properties declared prop hProp
    have hObject := hEach _ d _ hLast hMember
    rw [not_object_of_admits] at hObject
    cases hObject
  obtain ⟨ms', hLoop, hKept, hAll, hNew⟩ :=
    @fillMembers_declared declared st.schema ms _ (stems_properties declared) hPlain
  have hMade : ∀ name d, lastOf declared name = some d → Json.member ms name = none →
      Json.member ms' name = some (.str "") ∧ d = .text := by
    intro name d hLast hNone
    have hText : d = .text := by
      by_contra hKind
      have hSome := hRequired name (hObliges _ (mem_of_lastOf hLast) hKind)
      rw [hNone] at hSome
      cases hSome
    have hProp : (name, d.schema) ∈ propertiesOf declared := by
      refine Json.mem_of_member ?_
      rw [member_properties, hLast]
      rfl
    obtain ⟨v, hMember⟩ := Option.isSome_iff_exists.mp (hAll _ hProp)
    obtain ⟨d', hLast', rfl⟩ := hNew name v hNone hMember
    obtain rfl : d = d' := Option.some.inj (hLast.symm.trans hLast')
    exact ⟨by rw [hMember, hText]; rfl, hText⟩
  refine ⟨ms', ⟨2, fun fuel hFuel => ?_⟩, fun name d hLast => ?_, fun name hName => ?_⟩
  · obtain ⟨fuel, rfl⟩ := Nat.exists_eq_add_of_le' hFuel
    show fillObject st.schema (fuel + 2) st.schema (.obj ms) = .ok (.obj ms')
    have hProps : TemplateRegistry.properties st.schema = some (propertiesOf declared) := by
      rw [← hProperties]
      rfl
    have hTarget : resolveRef st.schema st.schema = .ok st.schema := rfl
    rw [fillObject, hTarget]
    simp only [Except.mapError, bind, Except.bind, hProps, hLoop]
    rfl
  · cases hMember : Json.member ms name with
    | some v => exact ⟨v, hKept name v hMember, hEach name d v hLast hMember⟩
    | none =>
      obtain ⟨hFilled, rfl⟩ := hMade name d hLast hMember
      exact ⟨_, hFilled, rfl⟩
  · obtain ⟨d, hLast⟩ := Option.isSome_iff_exists.mp (lastOf_isSome hName)
    cases hMember : Json.member ms name with
    | some v => rw [hKept name v hMember]
    | none => rw [(hMade name d hLast hMember).1]; rfl

/-- What every accepted block list declares, requires and reads. -/
theorem accepted_declares {blocks : Json} {out compiled : Compiled Json}
    (h : compile blocks out = .ok (none, compiled)) :
    ∃ (declared : List (String × Declared)) (st : Build), compiled = st.compiled ∧ bodyOf blocks = st.body ∧
      st.properties = propertiesOf declared ∧ (∀ entry ∈ declared, entry.2 ≠ .text → entry.1 ∈ st.required) ∧
      ∀ fragment ∈ st.body, ∀ name, fragment.reads? = some name → name ∈ declared.map Prod.fst := by
  obtain ⟨list, st, rfl, hBlocks, rfl⟩ := compile_accepted h
  have hBody : bodyOf (.arr list) = st.body := by
    rw [bodyOf, hBlocks]
  have hDeclares := declares_blocks list
  have hObliges := obliges_blocks list
  rw [← compileBlocks_eq hBlocks] at hDeclares hObliges
  exact ⟨_, st, rfl, hBody, hDeclares.properties, hObliges.obliged, fun fragment hFragment =>
    (hDeclares.reads fragment hFragment).resolve_left fun hNone => by cases hNone⟩

theorem object_of_admits {v : Json} (h : admits st.schema v = true) : ∃ ms, v = .obj ms := by
  cases v with
  | obj ms => exact ⟨ms, rfl⟩
  | _ => simp [Build.schema, admits, admitsAll, admitsPlain, hasType] at h

end

/-- If an admitted input of accepted blocks can be rendered, as the fixture is before the template is published, then
each admitted input can: it is filled up, every read of the body finds what it asks for, and what is printed is what
the client has sent, and nothing where he has sent nothing. -/
theorem renders_all {blocks : Json} {out compiled : Compiled Json} (h : compile blocks out = .ok (none, compiled))
    {tried full : Json} (hTried : admits compiled.schema tried = true)
    (hFull : Returns (fun fuel => normalizeInput fuel compiled.schema tried) full)
    (hReads : (evaluate full.members (bodyOf blocks)).isOk = true) {input : Json}
    (hInput : admits compiled.schema input = true) :
    ∃ filled, Returns (fun fuel => normalizeInput fuel compiled.schema input) filled ∧
      evaluate filled.members (bodyOf blocks) = .ok ((bodyOf blocks).filterMap (Fragment.printed input)) := by
  obtain ⟨declared, st, rfl, hBody, hProperties, hObliges, hNames⟩ := accepted_declares h
  have hSchema : st.compiled.schema = st.schema := rfl
  rw [hSchema] at hTried hFull hInput ⊢
  rw [hBody] at hReads ⊢
  obtain ⟨ms, rfl⟩ := object_of_admits hTried
  obtain ⟨ms', rfl⟩ := object_of_admits hInput
  obtain ⟨triedFull, hReturns, hHas, -⟩ := normalize_admitted hProperties hObliges hTried
  obtain rfl := hFull.unique hReturns
  have hMaps := mapsTables_of_evaluate hHas hReads hNames
  obtain ⟨filled, hFilled, hHas', hSame⟩ := normalize_admitted hProperties hObliges hInput
  refine ⟨_, hFilled, ?_⟩
  rw [Json.members, evaluate_eq hHas' hMaps hNames]
  congr 1
  apply List.filterMap_congr
  intro fragment hFragment
  rw [Fragment.printed, Fragment.printed]
  cases hRead : fragment.reads? with
  | none => rfl
  | some name =>
    rw [Option.map_some, Option.map_some]
    exact congrArg some (hSame name (hNames fragment hFragment name hRead))

/-- A note that may be left out, and a table. -/
def listBlocks : Json :=
  .arr [
    .obj [("rows", .arr [.obj [("field", .str "note"), ("label", .str "Примечание"), ("required", .bool false)]]),
      ("type", .str "fields")],
    .obj [("columns", .arr [.obj [("key", .str "name"), ("title", .str "Услуга")]]), ("type", .str "table")]]

/-- The fixture of these blocks. -/
def listFixture : Json := .obj [("items", .arr [.obj [("name", sampleText)]]), ("note", sampleText)]

def listInput : Json := .obj [("items", .arr [.obj [("name", .str "Аудит")], .obj []])]

/-- The list without a note is printed with its rows as they are. -/
theorem renders_all_list : ∃ compiled, compile listBlocks ⟨"", .null, .null, ""⟩ = .ok (none, compiled) ∧
    fixtureFromSchema compiled.schema = .ok listFixture ∧
    ∃ filled, Returns (fun fuel => normalizeInput fuel compiled.schema listInput) filled ∧
      evaluate filled.members (bodyOf listBlocks) =
        .ok [.str "", .arr [.obj [("name", .str "Аудит")], .obj []]] := by
  refine ⟨_, rfl, rfl, ?_⟩
  refine @renders_all listBlocks ⟨"", .null, .null, ""⟩ _ rfl listFixture listFixture rfl ⟨2, fun fuel hFuel => ?_⟩ rfl
    listInput rfl
  obtain ⟨fuel, rfl⟩ := Nat.exists_eq_add_of_le' hFuel
  rfl

end CyberAccountant.Docgen.Blocks
