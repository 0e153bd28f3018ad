import CyberAccountant.Docgen.BlockSteps

/-! When a compilation of blocks ends with a result or an error, and when with an exception.  The checks of
the blocks are listed in the order in which they are made; the first that fails tells how it ends. -/

namespace CyberAccountant.Docgen.Blocks

open CyberAccountant.Library CyberAccountant.Security.Jwt

/-! ### The checks -/

inductive Check where
  /-- A member is read: whether it has its type. -/
  | typed (holds : Bool)
  /-- The block is refused unless this holds. -/
  | asked (holds : Bool)

/-- How a compilation ends. -/
inductive Verdict where
  | accepted
  | refused
  | thrown
  deriving DecidableEq

def Check.verdict : Check → Verdict
  | .typed holds => if holds then .accepted else .thrown
  | .asked holds => if holds then .accepted else .refused

def Verdict.andThen : Verdict → Verdict → Verdict
  | .accepted, v => v
  | v, _ => v

/-- The verdict of the first check that fails. -/
def verdictOf (checks : List Check) : Verdict := checks.foldr (fun check v => check.verdict.andThen v) .accepted

def isText (j : Json) (key : String) : Bool :=
  j.isObject && match Json.member j.members key with
    | none => true
    | some (.str _) => true
    | some _ => false

def isBool (j : Json) (key : String) : Bool :=
  match Json.member j.members key with
  | none => true
  | some (.bool _) => true
  | some _ => false

/-- A text that may not be empty. -/
def textChecks (j : Json) (key : String) : List Check :=
  [.typed (isText j key), .asked (textOr j key "" ≠ "")]

def valueChecks (row : Json) : List Check :=
  match Json.member row.members "variable" with
  | some (.str var) => [.asked (find var).isSome]
  | some _ => [.typed false]
  | none => [.typed (isText row "field"), .asked (isValidField (textOr row "field" "")),
      .typed (isText row "label_kk"), .typed (isBool row "required")]

def rowChecks (row : Json) : List Check := textChecks row "label" ++ valueChecks row

def columnChecks (c : Json) : List Check :=
  [.typed (isText c "title"), .typed (isText c "key"),
    .asked (textOr c "title" "" ≠ "" ∧ isValidField (textOr c "key" ""))]

def partyChecks : Json → List Check
  | .str title => [.asked (title ≠ "")]
  | party => textChecks party "title"

/-- The checks of the elements of an array, which may not be empty. -/
def elementChecks (b : Json) (key : String) (between : List Check) (checks : Json → List Check) : List Check :=
  match elements b key with
  | none => [.asked false]
  | some list => between ++ list.flatMap checks

def totalsChecks (b : Json) : List Check :=
  [.typed (isText b "field"), .asked (isValidField (textOr b "field" "total_tiyn")), .typed (isText b "label"),
    .typed (isText b "words_label"), .typed (isText b "label_kk")]

def blockChecks (b : Json) : List Check :=
  match Json.member b.members "type" with
  | some (.str type) =>
    if type = "header" then textChecks b "title"
    else if type = "text" then textChecks b "text"
    else if type = "fields" then elementChecks b "rows" [] rowChecks
    else if type = "table" then
      elementChecks b "columns"
        [.typed (isText b "field"), .asked (isValidField (textOr b "field" "items"))] columnChecks
    else if type = "totals" then totalsChecks b
    else if type = "signatures" then elementChecks b "parties" [] partyChecks
    else [.asked (type = "pagebreak")]
  | _ => [.asked false]

/-- The checks up to the one for labels. -/
def checksOf : Json → List Check
  | .arr blocks => .asked (blocks ≠ []) :: .asked (blocks.length ≤ 200) :: blocks.flatMap blockChecks
  | _ => [.asked false]

/-! ### Verdicts of computations -/

def verdict {α : Type} : Except Failure α → Verdict
  | .ok _ => .accepted
  | .error (.refused _) => .refused
  | .error _ => .thrown

section

variable {α β γ : Type}

theorem verdictOf_cons (check : Check) (checks : List Check) :
    verdictOf (check :: checks) = check.verdict.andThen (verdictOf checks) := rfl

theorem Verdict.andThen_assoc (u v w : Verdict) : (u.andThen v).andThen w = u.andThen (v.andThen w) := by
  cases u <;> rfl

theorem verdictOf_append (checks more : List Check) :
    verdictOf (checks ++ more) = (verdictOf checks).andThen (verdictOf more) := by
  induction checks with
  | nil => rfl
  | cons check checks ih => rw [List.cons_append, verdictOf_cons, verdictOf_cons, ih, Verdict.andThen_assoc]

theorem verdict_bind {x : Except Failure α} {f : α → Except Failure β} {v : Verdict}
    (h : ∀ a, x = .ok a → verdict (f a) = v) : verdict (x >>= f) = (verdict x).andThen v := by
  cases x with
  | error failure => cases failure <;> rfl
  | ok a => exact h a rfl

theorem verdict_ensure (p : Prop) [Decidable p] (index : Nat) (code message : String) :
    verdict (ensure p (refusal index code message)) = (Check.asked p).verdict := by
  unfold ensure
  split <;> simp_all [verdict, refusal, Check.verdict]

theorem verdict_foldlM {f : β → α → Except Failure β} {checks : α → List Check}
    (h : ∀ b a, verdict (f b a) = verdictOf (checks a)) (list : List α) (b : β) :
    verdict (list.foldlM f b) = verdictOf (list.flatMap checks) := by
  induction list generalizing b with
  | nil => rfl
  | cons a list ih =>
    rw [List.foldlM_cons, List.flatMap_cons, verdictOf_append, ← h b a]
    exact verdict_bind fun b' _ => ih b'

/-! ### The members -/

variable {j b : Json} {key default code message : String} {index : Nat}

theorem verdict_read : verdict (read j key default) = (Check.typed (isText j key)).verdict := by
  cases j with
  | obj ms =>
    simp only [read, value, isText, Json.isObject, Json.members, Bool.true_and]
    cases Json.member ms key with
    | none => rfl
    | some v => cases v <;> rfl
  | _ => rfl

theorem verdict_readBool {ms : List (String × Json)} (default : Bool) :
    verdict (readBool (.obj ms) key default) = (Check.typed (isBool (.obj ms) key)).verdict := by
  simp only [readBool, isBool, Json.members]
  cases Json.member ms key with
  | none => rfl
  | some v => cases v <;> rfl

theorem isObject_of_read {text : String} (h : read j key default = .ok text) : ∃ ms, j = .obj ms := by
  cases j with
  | obj ms => exact ⟨ms, rfl⟩
  | _ => cases h

/-- A read and what follows it. -/
theorem verdict_read_bind {f : String → Except Failure β} {rest : List Check}
    (h : ∀ text, read j key default = .ok text → text = textOr j key default → verdict (f text) = verdictOf rest) :
    verdict (read j key default >>= f) = verdictOf (.typed (isText j key) :: rest) := by
  rw [verdictOf_cons, ← @verdict_read j key default]
  exact verdict_bind fun text hText => h text hText (read_eq hText)

theorem verdict_ensure_bind {p : Prop} [Decidable p] {f : Unit → Except Failure β} {rest : List Check}
    (h : verdict (f ()) = verdictOf rest) :
    verdict (ensure p (refusal index code message) >>= f) = verdictOf (.asked p :: rest) := by
  rw [verdictOf_cons, ← verdict_ensure p index code message]
  exact verdict_bind fun _ _ => h

theorem verdict_ensure_bool {p : Bool} {f : Unit → Except Failure β} {rest : List Check}
    (h : verdict (f ()) = verdictOf rest) :
    verdict (ensure (p = true) (refusal index code message) >>= f) = verdictOf (.asked p :: rest) := by
  have hAsked : verdict (ensure (p = true) (refusal index code message) >>= f) =
      verdictOf (.asked (decide (p = true)) :: rest) := verdict_ensure_bind h
  rwa [Bool.decide_eq_true] at hAsked

/-- A text that may not be empty, and what follows it. -/
theorem verdict_text_bind {f : String → Except Failure β} {rest : List Check}
    (h : ∀ text, read j key "" = .ok text → verdict (f text) = verdictOf rest) :
    verdict (do
      let text ← read j key ""
      ensure (text ≠ "") (refusal index code message)
      f text) = verdictOf (textChecks j key ++ rest) := by
  refine verdict_read_bind fun text hText hEq => ?_
  rw [← hEq]
  exact verdict_ensure_bind (h text hText)

theorem verdict_text_end {f : String → Except Failure β} (h : ∀ text, verdict (f text) = .accepted) :
    verdict (do
      let text ← read j key ""
      ensure (text ≠ "") (refusal index code message)
      f text) = verdictOf (textChecks j key) := by
  rw [← List.append_nil (textChecks j key)]
  exact verdict_text_bind fun text _ => h text

/-- A loop and what follows it. -/
theorem verdict_loop_bind {f : β → α → Except Failure β} {g : β → Except Failure γ} {checks : α → List Check}
    (hf : ∀ b a, verdict (f b a) = verdictOf (checks a)) (hg : ∀ b, verdict (g b) = .accepted) (list : List α)
    (b : β) : verdict (list.foldlM f b >>= g) = verdictOf (list.flatMap checks) := by
  have hEnd : (verdictOf (list.flatMap checks)).andThen .accepted = verdictOf (list.flatMap checks) := by
    cases verdictOf (list.flatMap checks) <;> rfl
  rw [← hEnd, ← verdict_foldlM hf list b]
  exact verdict_bind fun b' _ => hg b'

/-- An array that may not be empty, and what follows. -/
theorem verdict_elements_bind {f : List Json → Except Failure β} {between : List Check} {checks : Json → List Check}
    (h : ∀ list, verdict (f list) = verdictOf (between ++ list.flatMap checks)) :
    verdict (orFail (refusal index code message) (elements b key) >>= f) =
      verdictOf (elementChecks b key between checks) := by
  rw [elementChecks]
  cases elements b key with
  | none => rfl
  | some list => exact h list

/-! ### The blocks -/

variable {st : Build}

theorem verdict_header : verdict (compileHeader index b st) = verdictOf (textChecks b "title") :=
  verdict_text_end fun _ => rfl

theorem verdict_text : verdict (compileText index b st) = verdictOf (textChecks b "text") :=
  verdict_text_end fun _ => rfl

theorem verdict_rowValue {ms : List (String × Json)} {label : String} :
    verdict (compileRowValue index (.obj ms) label st) = verdictOf (valueChecks (.obj ms)) := by
  rw [compileRowValue, valueChecks]
  cases Json.member (Json.obj ms).members "variable" with
  | none =>
    refine verdict_read_bind fun field _ hField => ?_
    rw [← hField]
    refine verdict_ensure_bool ?_
    refine verdict_read_bind fun _ _ _ => ?_
    rw [verdictOf_cons, ← @verdict_readBool "required" ms true]
    exact verdict_bind fun _ _ => rfl
  | some v =>
    cases v with
    | str var =>
      dsimp only
      cases find var <;> rfl
    | _ => rfl

theorem verdict_row (st : Build) (row : Json) : verdict (compileRow index st row) = verdictOf (rowChecks row) := by
  refine verdict_text_bind fun label hLabel => ?_
  obtain ⟨ms, rfl⟩ := isObject_of_read hLabel
  exact verdict_rowValue

theorem verdict_fields : verdict (compileFields index b st) = verdictOf (elementChecks b "rows" [] rowChecks) :=
  verdict_elements_bind fun rows => verdict_loop_bind verdict_row (fun _ => rfl) rows _

theorem verdict_column (columns : Columns) (c : Json) :
    verdict (compileColumn index columns c) = verdictOf (columnChecks c) := by
  refine verdict_read_bind fun title _ hTitle => verdict_read_bind fun key _ hKey => ?_
  rw [← hTitle, ← hKey]
  exact verdict_ensure_bind rfl

theorem verdict_table : verdict (compileTable index b st) = verdictOf (elementChecks b "columns"
    [.typed (isText b "field"), .asked (isValidField (textOr b "field" "items"))] columnChecks) := by
  refine verdict_elements_bind fun columns => verdict_read_bind fun field _ hField => ?_
  rw [← hField]
  refine verdict_ensure_bool ?_
  exact verdict_loop_bind verdict_column (fun _ => rfl) columns _

theorem verdict_totals : verdict (compileTotals index b st) = verdictOf (totalsChecks b) := by
  refine verdict_read_bind fun tiyn _ hTiyn => ?_
  rw [← hTiyn]
  refine verdict_ensure_bool ?_
  refine verdict_read_bind fun label _ _ => verdict_read_bind fun words _ _ => ?_
  exact verdict_read_bind fun _ _ _ => rfl

theorem verdict_party (st : Build) (party : Json) :
    verdict (compileParty index st party) = verdictOf (partyChecks party) := by
  cases party with
  | str title => exact verdict_ensure_bind rfl
  | _ => exact verdict_text_end fun _ => rfl

theorem verdict_signatures :
    verdict (compileSignatures index b st) = verdictOf (elementChecks b "parties" [] partyChecks) :=
  verdict_elements_bind fun parties => verdict_loop_bind verdict_party (fun _ => rfl) parties _

theorem verdict_ite {p : Prop} [Decidable p] {x y : Except Failure β} {checks more : List Check}
    (hThen : verdict x = verdictOf checks) (hElse : verdict y = verdictOf more) :
    verdict (if p then x else y) = verdictOf (if p then checks else more) := by
  split
  · exact hThen
  · exact hElse

theorem verdict_block : verdict (compileBlock index b st) = verdictOf (blockChecks b) := by
  rw [compileBlock, blockChecks]
  cases Json.member b.members "type" with
  | none => rfl
  | some v =>
    cases v with
    | str type =>
      refine verdict_ite verdict_header (verdict_ite verdict_text (verdict_ite verdict_fields
        (verdict_ite verdict_table (verdict_ite verdict_totals (verdict_ite verdict_signatures ?_)))))
      by_cases hType : type = "pagebreak"
      · rw [if_pos hType, verdictOf_cons, decide_eq_true hType]
        rfl
      · rw [if_neg hType, verdictOf_cons, decide_eq_false hType]
        rfl
    | _ => rfl

theorem flatMap_zipIdx {checks : Json → List Check} (blocks : List Json) (first : Nat) :
    ((blocks.zipIdx first).flatMap fun entry => checks entry.1) = blocks.flatMap checks := by
  induction blocks generalizing first with
  | nil => rfl
  | cons b blocks ih => rw [List.zipIdx_cons, List.flatMap_cons, List.flatMap_cons, ih]

theorem verdict_blocks (blocks : List Json) :
    verdict (compileBlocks blocks) = verdictOf (blocks.flatMap blockChecks) := by
  rw [compileBlocks, ← flatMap_zipIdx blocks 0]
  exact @verdict_foldlM (Json × Nat) Build (fun st entry => compileBlock entry.2 entry.1 st)
    (fun entry => blockChecks entry.1) (fun _ _ => verdict_block) _ _

theorem andThen_thrown_congr {u v w : Verdict} (h : v = .thrown ↔ w = .thrown) :
    u.andThen v = .thrown ↔ u.andThen w = .thrown := by
  cases u with
  | accepted => exact h
  | _ => exact Iff.rfl

theorem verdict_bind_thrown {x : Except Failure α} {f : α → Except Failure β} (h : ∀ a, verdict (f a) ≠ .thrown) :
    verdict (x >>= f) = .thrown ↔ verdict x = .thrown := by
  cases x with
  | error failure => cases failure <;> exact Iff.rfl
  | ok a => exact ⟨fun hThrown => absurd hThrown (h a), fun hThrown => nomatch hThrown⟩

/-- The exceptions of a compilation are those of its blocks. -/
theorem verdict_compiledOf (blocks : Json) :
    verdict (compiledOf blocks) = .thrown ↔ verdictOf (checksOf blocks) = .thrown := by
  cases blocks with
  | arr list =>
    have hEnd (st : Build) : verdict (do
        ensure (st.labels ≠ []) (refusal 0 "no_static_labels"
          ("a template with no static label at all cannot be gated — the content layer would have nothing " ++
            "to check"))
        return st.compiled) ≠ .thrown := by
      unfold ensure
      split <;> exact fun hThrown => nomatch hThrown
    rw [checksOf, verdictOf_cons, verdictOf_cons, ← verdict_blocks,
      ← verdict_ensure (list ≠ []) 0 "blocks_empty" "a template needs at least one block",
      ← verdict_ensure (list.length ≤ 200) 0 "too_many_blocks" "a template may not have more than 200 blocks"]
    rw [show verdict (compiledOf (.arr list)) = _ from
      verdict_bind fun _ _ => verdict_bind fun _ _ => rfl]
    exact andThen_thrown_congr (andThen_thrown_congr (verdict_bind_thrown hEnd))
  | _ => exact Iff.rfl

end

/-- What a list of blocks of any kind may expect: a result or an error, and of a failed compilation nothing. -/
def Total (blocks : Json) : Prop :=
  ∀ out, ∃ error out', compile blocks out = .ok (error, out') ∧ (error.isSome → out' = out)

/-- A compilation of blocks ends without an exception exactly if no member of another type is read before
something is refused. -/
theorem compile_total_iff (blocks : Json) : Total blocks ↔ verdictOf (checksOf blocks) ≠ .thrown := by
  refine Iff.trans ?_ (not_congr (verdict_compiledOf blocks))
  constructor
  · intro hTotal hThrown
    obtain ⟨error, out', hRun, -⟩ := hTotal ⟨"", .null, .null, ""⟩
    rw [compile] at hRun
    cases hCompiled : compiledOf blocks with
    | ok compiled =>
      rw [hCompiled] at hThrown
      cases hThrown
    | error failure =>
      rw [hCompiled] at hThrown hRun
      cases failure with
      | refused e => cases hThrown
      | _ => cases hRun
  · intro hNot out
    rw [compile]
    cases hCompiled : compiledOf blocks with
    | ok compiled =>
      refine ⟨none, compiled, rfl, fun hSome => ?_⟩
      cases hSome
    | error failure =>
      cases failure with
      | refused e => exact ⟨some e, out, rfl, fun _ => rfl⟩
      | _ =>
        rw [hCompiled] at hNot
        exact absurd rfl hNot

/-- A header whose title is a number. -/
theorem header_throws : ¬ Total (.arr [.obj [("title", .int 5), ("type", .str "header")]]) := by
  intro hTotal
  obtain ⟨error, out', hRun, -⟩ := hTotal ⟨"", .null, .null, ""⟩
  have hThrows : compile (.arr [.obj [("title", .int 5), ("type", .str "header")]]) ⟨"", .null, .null, ""⟩ =
      .error (.typeError .notString) := rfl
  rw [hThrows] at hRun
  cases hRun

end CyberAccountant.Docgen.Blocks
