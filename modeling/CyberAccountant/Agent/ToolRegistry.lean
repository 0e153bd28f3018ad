import CyberAccountant.Agent.AutonomyPolicy
import CyberAccountant.Ledger.Accounts
import CyberAccountant.Library.Table
import CyberAccountant.Tenancy.OrgPermissions

/-! The table of policies, the lookup in it, and the one way to run a tool of the agent. -/

namespace CyberAccountant.Agent

open CyberAccountant.Library CyberAccountant.Ledger CyberAccountant.Tenancy

/-! ### Lists of ids as text -/

def isUuidChar (c : Char) : Bool := c.isDigit || ('a' ≤ c && c ≤ 'f') || c = '-'

/-- The text of a value of the type `UUID`. -/
structure UuidText where
  text : String
  length : text.toList.length = 36
  chars : ∀ c ∈ text.toList, isUuidChar c
  deriving DecidableEq

/-- An element of a `UUID[]` as text; an element may be `NULL`. -/
def elementText : Option UuidText → String
  | none => "NULL"
  | some u => u.text

def joinElements : List (Option UuidText) → List Char
  | [] => []
  | [x] => (elementText x).toList
  | x :: y :: xs => (elementText x).toList ++ ',' :: joinElements (y :: xs)

/-- A `UUID[]` as text. -/
def arrayText (xs : List (Option UuidText)) : String :=
  String.ofList ('{' :: joinElements xs ++ ['}'])

/-- One character of the loop of `parse_uuid_array`: the elements so far and the current one. -/
def parseStep (state : List String × List Char) (c : Char) : List String × List Char :=
  if c = '{' ∨ c = '}' ∨ c = '"' then state
  else if c = ',' then
    (if state.2 ≠ [] then state.1 ++ [String.ofList state.2] else state.1, [])
  else (state.1, state.2 ++ [c])

def parseUuidArray (raw : String) : List String :=
  let (out, cur) := raw.toList.foldl parseStep ([], [])
  if cur ≠ [] then out ++ [String.ofList cur] else out

/-- The characters that belong to an element. -/
def IsElementChar (c : Char) : Prop := c ≠ '{' ∧ c ≠ '}' ∧ c ≠ '"' ∧ c ≠ ','

instance : DecidablePred IsElementChar := fun _ => inferInstanceAs (Decidable (_ ∧ _))

theorem isElementChar_of_uuid {c : Char} (h : isUuidChar c) : IsElementChar c := by
  refine ⟨?_, ?_, ?_, ?_⟩ <;> rintro rfl <;> exact absurd h (by decide)

theorem elementText_chars (x : Option UuidText) :
    (elementText x).toList ≠ [] ∧ ∀ c ∈ (elementText x).toList, IsElementChar c := by
  cases x with
  | none => simp [elementText, IsElementChar]
  | some u =>
    refine ⟨fun hEmpty => ?_, fun c hc => isElementChar_of_uuid (u.chars c hc)⟩
    have hLength := u.length
    rw [show u.text.toList = [] from hEmpty] at hLength
    cases hLength

theorem foldl_element {cs : List Char} (h : ∀ c ∈ cs, IsElementChar c) (out : List String)
    (cur : List Char) : cs.foldl parseStep (out, cur) = (out, cur ++ cs) := by
  induction cs generalizing cur with
  | nil => simp
  | cons c cs ih =>
    rw [List.forall_mem_cons] at h
    obtain ⟨hOpen, hClose, hQuote, hComma⟩ := h.1
    have hStep : parseStep (out, cur) c = (out, cur ++ [c]) := by
      simp [parseStep, hOpen, hClose, hQuote, hComma]
    rw [List.foldl_cons, hStep, ih h.2, List.append_assoc, List.singleton_append]

theorem foldl_elements (xs : List (Option UuidText)) (out : List String) :
    let (out', cur) := (joinElements xs).foldl parseStep (out, [])
    (if cur ≠ [] then out' ++ [String.ofList cur] else out') = out ++ xs.map elementText := by
  induction xs generalizing out with
  | nil => simp [joinElements]
  | cons x xs ih =>
    obtain ⟨hSome, hChars⟩ := elementText_chars x
    cases xs with
    | nil =>
      simp only [joinElements, foldl_element hChars, List.nil_append]
      simp [hSome]
    | cons y ys =>
      have hComma : parseStep (out, (elementText x).toList) ',' = (out ++ [elementText x], []) := by
        simp [parseStep, hSome]
      simp only [joinElements, List.foldl_append, foldl_element hChars, List.nil_append, List.foldl_cons,
        hComma]
      rw [ih]
      simp

/-- The loop reads back the elements that the database has written. -/
theorem parseUuidArray_arrayText (xs : List (Option UuidText)) :
    parseUuidArray (arrayText xs) = xs.map elementText := by
  have hOpen : parseStep ([], []) '{' = ([], []) := rfl
  have hClose : ∀ state, parseStep state '}' = state := fun state => by simp [parseStep]
  have hLoop := foldl_elements xs []
  simp only [parseUuidArray, arrayText, String.toList_ofList, List.cons_append, List.foldl_cons, hOpen,
    List.foldl_append, List.foldl_nil, hClose]
  simpa using hLoop

/-! ### Policies -/

/-- A row of `autonomy_policies`. -/
structure PolicyRow where
  orgId : Uuid
  action : String
  mode : Mode
  maxAmountTiyn : Option Int
  counterpartyAllowlist : Option (List (Option UuidText))
  docType : Option String
  requirePriorApproval : Bool

/-- The checks and the unique key of `autonomy_policies`; a document type that is `NULL` differs from
every other. -/
structure PolicyTable (rows : List PolicyRow) : Prop where
  amount : ∀ row ∈ rows, ∀ max ∈ row.maxAmountTiyn, 0 ≤ max
  unique : rows.Pairwise fun a b =>
    ¬(a.orgId = b.orgId ∧ a.action = b.action ∧ a.docType.isSome ∧ a.docType = b.docType)

/-- The policy that is read from a row. -/
def PolicyRow.load (row : PolicyRow) : Policy where
  action := row.action
  mode := (parseMode row.mode.name).getD .approve
  maxAmountTiyn := row.maxAmountTiyn
  counterpartyAllowlist :=
    match row.counterpartyAllowlist with
    | none => []
    | some ids => parseUuidArray (arrayText ids)
  docType := row.docType
  requirePriorApproval := row.requirePriorApproval

/-- `WHERE org_id = $1 AND action = $2 LIMIT 1`: the first row in the order in which the table is
scanned. -/
def firstRow (rows : List PolicyRow) (org : Uuid) (action : String) : Option PolicyRow :=
  rows.find? fun row => row.orgId = org ∧ row.action = action

def findPolicy (rows : List PolicyRow) (org : Uuid) (action : String) : Option Policy :=
  (firstRow rows org action).map PolicyRow.load

/-! ### Tools -/

structure ToolSpec where
  name : String
  resource : String
  action : String

structure ToolContext where
  orgId : Uuid
  runId : Uuid
  role : String

inductive ToolStatus where
  | executed
  | needsApproval
  | refused
  deriving DecidableEq

section registry

variable {α ρ : Type}

/-- What an attempt to run a tool comes to; a result is there where the handler has run. -/
structure ToolOutcome (ρ : Type) where
  status : ToolStatus
  result : Option ρ
  reason : String
  policyMode : Option Mode

/-- A tool with its handler and, perhaps, the function that takes the fields of the action from the
arguments. -/
structure Entry (α ρ : Type) where
  spec : ToolSpec
  handler : ToolContext → α → ρ
  extractor : Option (α → Action)

/-- The tools by name. -/
abbrev ToolRegistry (α ρ : Type) := Table String (Entry α ρ)

/-- A name that is taken stays with its tool. -/
def ToolRegistry.add (tools : ToolRegistry α ρ) (entry : Entry α ρ) : ToolRegistry α ρ :=
  match tools entry.spec.name with
  | some _ => tools
  | none => tools.put entry.spec.name entry

/-- The action that the engine judges. -/
def Entry.actionOf (entry : Entry α ρ) (name : String) (args : α) : Action :=
  match entry.extractor with
  | none => ⟨name, none, none, none, false⟩
  | some extract => { extract args with name := name }

def execute (tools : ToolRegistry α ρ) (ctx : ToolContext) (name : String) (args : α)
    (loadPolicy : Uuid → String → Option Policy) : ToolOutcome ρ :=
  match tools name with
  | none => ⟨.refused, none, "инструмент '" ++ name ++ "' не существует", none⟩
  | some entry =>
    if ¬allows ctx.role entry.spec.resource entry.spec.action then
      ⟨.refused, none, "роли '" ++ ctx.role ++ "' не разрешён доступ '" ++ entry.spec.action ++ "' к '" ++
        entry.spec.resource ++ "'", none⟩
    else
      let decision := evaluate (loadPolicy ctx.orgId name) (entry.actionOf name args)
      match decision.mode with
      | .forbid => ⟨.refused, none, decision.reason, some .forbid⟩
      | .approve => ⟨.needsApproval, none, decision.reason, some .approve⟩
      | .auto => ⟨.executed, some (entry.handler ctx args), decision.reason, some .auto⟩

/-- The handler runs exactly where the tool is known, the matrix allows it and the engine answers
`auto`. -/
theorem execute_executed {tools : ToolRegistry α ρ} {ctx : ToolContext} {name : String} {args : α}
    {loadPolicy : Uuid → String → Option Policy} :
    (execute tools ctx name args loadPolicy).status = .executed ↔
      ∃ entry, tools name = some entry ∧ allows ctx.role entry.spec.resource entry.spec.action ∧
        (evaluate (loadPolicy ctx.orgId name) (entry.actionOf name args)).mode = .auto := by
  unfold execute
  cases hTool : tools name with
  | none => simp
  | some entry =>
    simp only [Option.some.injEq, exists_eq_left']
    by_cases hAllows : allows ctx.role entry.spec.resource entry.spec.action = true
    · rw [if_neg (not_not.mpr hAllows)]
      cases hMode : (evaluate (loadPolicy ctx.orgId name) (entry.actionOf name args)).mode <;>
        simp [hAllows]
    · rw [if_pos hAllows]
      simp [hAllows]

end registry

/-! ### Enforcement -/

/-- The row is about the action: its organisation, its name, and its document type unless the row has
none. -/
def Applies (row : PolicyRow) (org : Uuid) (action : Action) : Prop :=
  row.orgId = org ∧ row.action = action.name ∧
    (row.docType = none ∨ ∃ d, row.docType = some d ∧ action.docType = some d)

/-- Every bound that the row sets is met by a field of the action that is known. -/
structure BoundsMet (row : PolicyRow) (action : Action) : Prop where
  amount : ∀ max, row.maxAmountTiyn = some max → ∃ amount, action.amountTiyn = some amount ∧ amount ≤ max
  counterparty : ∀ ids, row.counterpartyAllowlist = some ids →
    ∃ u : UuidText, some u ∈ ids ∧ action.counterpartyId = some u.text
  docType : ∀ d, row.docType = some d → action.docType = some d

/-- No row about the action forbids it, and one that is automatic has its bounds met. -/
def Permitted (rows : List PolicyRow) (org : Uuid) (action : Action) : Prop :=
  (∀ row ∈ rows, Applies row org action → row.mode ≠ .forbid) ∧
    ∃ row ∈ rows, Applies row org action ∧ row.mode = .auto ∧ BoundsMet row action

/-- The engine's checks of the row are those of its bounds: the action has a document type if the row
has one, and the row's list of counterparties is neither empty nor names the counterparty by a
`NULL`. -/
structure ChecksBounds (row : PolicyRow) (action : Action) : Prop where
  docType : row.docType.isSome → action.docType.isSome
  listed : row.counterpartyAllowlist ≠ some []
  named : ∀ ids, row.counterpartyAllowlist = some ids → none ∈ ids → action.counterpartyId ≠ some "NULL"

/-- If the row that the lookup finds lets the action pass, then no other row forbids it, and that row's
bounds were checked or those of another automatic row about the action are met. -/
def LookupSound (rows : List PolicyRow) (org : Uuid) (action : Action) : Prop :=
  ∀ row, firstRow rows org action.name = some row → Passes row.load action →
    (∀ other ∈ rows, Applies other org action → other.mode ≠ .forbid) ∧
      (ChecksBounds row action ∨
        ∃ other ∈ rows, Applies other org action ∧ other.mode = .auto ∧ BoundsMet other action)

theorem uuidText_ne_null (u : UuidText) : u.text ≠ "NULL" := by
  intro hEq
  have hLength := u.length
  rw [hEq] at hLength
  exact absurd hLength (by decide)

theorem firstRow_some {rows : List PolicyRow} {org : Uuid} {action : String} {row : PolicyRow}
    (h : firstRow rows org action = some row) : row ∈ rows ∧ row.orgId = org ∧ row.action = action := by
  have hTest := List.find?_some h
  exact ⟨List.mem_of_find?_eq_some h, by simpa using hTest⟩

/-- A row that lets an action pass has its bounds met if and only if the engine's checks of it are
those of its bounds. -/
theorem Passes.checksBounds_iff {row : PolicyRow} {action : Action} (h : Passes row.load action) :
    ChecksBounds row action ↔ BoundsMet row action := by
  have hList : ∀ ids, row.counterpartyAllowlist = some ids →
      row.load.counterpartyAllowlist = ids.map elementText := fun ids hIds => by
    simp [PolicyRow.load, hIds, parseUuidArray_arrayText]
  constructor
  · rintro ⟨hDoc, hListed, hNamed⟩
    refine ⟨h.amount, fun ids hIds => ?_, fun d hD => ?_⟩
    · have hSome : ids ≠ [] := fun hEmpty => hListed (by rw [hIds, hEmpty])
      obtain ⟨id, hId, hMem⟩ := h.allowlist (by rw [hList ids hIds]; simpa using hSome)
      rw [hList ids hIds] at hMem
      obtain ⟨x, hX, rfl⟩ := List.mem_map.mp hMem
      cases x with
      | none => exact absurd hId (hNamed ids hIds hX)
      | some u => exact ⟨u, hX, hId⟩
    · obtain ⟨given, hGiven⟩ := Option.isSome_iff_exists.mp (hDoc (by rw [hD]; rfl))
      rw [hGiven, h.docType d hD given hGiven]
  · rintro ⟨-, hParty, hDoc⟩
    refine ⟨fun hSome => ?_, fun hEmpty => ?_, fun ids hIds _ hNull => ?_⟩
    · obtain ⟨d, hD⟩ := Option.isSome_iff_exists.mp hSome
      rw [hDoc d hD]
      rfl
    · obtain ⟨u, hU, -⟩ := hParty [] hEmpty
      cases hU
    · obtain ⟨u, -, hU⟩ := hParty ids hIds
      rw [hNull, Option.some.injEq] at hU
      exact uuidText_ne_null u hU.symm

theorem actionOf_name {α ρ : Type} (entry : Entry α ρ) (name : String) (args : α) :
    (entry.actionOf name args).name = name := by
  unfold Entry.actionOf
  cases entry.extractor <;> rfl

/-- A tool that writes to the journal; its arguments are the document type. -/
def postEntry : Entry String Unit :=
  ⟨⟨"ledger.post_entry", "journal", "write"⟩, fun _ _ => (), some fun docType =>
    ⟨"", some 100, none, some docType, false⟩⟩

/-- Automatic in general, forbidden for invoices. -/
def invoicesForbidden : List PolicyRow :=
  [⟨1, "ledger.post_entry", .auto, none, none, none, false⟩,
    ⟨1, "ledger.post_entry", .forbid, none, none, some "invoice", false⟩]

end CyberAccountant.Agent
