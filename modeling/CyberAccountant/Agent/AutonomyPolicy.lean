import Mathlib.Data.Option.Basic
import Mathlib.Data.List.Basic

/-! The policy engine: whether the agent may perform an action by itself, has to ask, or must not. -/

namespace CyberAccountant.Agent

inductive Mode where
  | auto
  | approve
  | forbid
  deriving DecidableEq

def Mode.name : Mode → String
  | .auto => "auto"
  | .approve => "approve"
  | .forbid => "forbid"

def parseMode (s : String) : Option Mode :=
  if s = "auto" then some .auto
  else if s = "approve" then some .approve
  else if s = "forbid" then some .forbid
  else none

@[simp] theorem parseMode_name (m : Mode) : parseMode m.name = some m := by cases m <;> rfl

/-- From what permits to what forbids. -/
def Mode.rank : Mode → Nat
  | .auto => 0
  | .approve => 1
  | .forbid => 2

structure Policy where
  action : String
  mode : Mode
  maxAmountTiyn : Option Int
  counterpartyAllowlist : List String
  docType : Option String
  requirePriorApproval : Bool

structure Action where
  name : String
  amountTiyn : Option Int
  counterpartyId : Option String
  docType : Option String
  hasPriorApproval : Bool
  deriving DecidableEq

structure Decision where
  mode : Mode
  reason : String
  deriving DecidableEq

def strictestOf (a b : Mode) : Mode := if b.rank ≤ a.rank then a else b

/-- A bound that the action breaks lowers the decision, for the reason given. -/
def Decision.lowered (d : Decision) : Option String → Decision
  | none => d
  | some reason => ⟨strictestOf d.mode .approve, reason⟩

/-! The bounds of a policy, each with the reason for which an action breaks it. -/

def amountFault (policy : Policy) (action : Action) : Option String :=
  match policy.maxAmountTiyn with
  | none => none
  | some max =>
    match action.amountTiyn with
    | none => some "у действия нет суммы, а политика задаёт предел — проверить человеку"
    | some amount => if amount > max then some "сумма превышает предел политики" else none

def allowlistFault (policy : Policy) (action : Action) : Option String :=
  if policy.counterpartyAllowlist = [] then none
  else
    match action.counterpartyId with
    | none => some "у действия нет контрагента, а политика задаёт белый список"
    | some id =>
      if id ∈ policy.counterpartyAllowlist then none
      else some "контрагент не в белом списке политики"

def docTypeFault (policy : Policy) (action : Action) : Option String :=
  match policy.docType, action.docType with
  | some wanted, some given =>
    if wanted ≠ given then some "тип документа не тот, для которого задана политика" else none
  | _, _ => none

def priorApprovalFault (policy : Policy) (action : Action) : Option String :=
  if policy.requirePriorApproval ∧ ¬action.hasPriorApproval then
    some "политика разрешает автоматически только повторение уже одобренного действия"
  else none

def evaluate (policy : Option Policy) (action : Action) : Decision :=
  match policy with
  | none =>
    ⟨.approve, "для действия '" ++ action.name ++
      "' политика не задана — по умолчанию требуется одобрение"⟩
  | some policy =>
    match policy.mode with
    | .forbid => ⟨.forbid, "действие '" ++ action.name ++ "' запрещено политикой организации"⟩
    | .approve => ⟨.approve, "политика для '" ++ action.name ++ "' требует одобрения"⟩
    | .auto =>
      [amountFault policy action, allowlistFault policy action, docTypeFault policy action,
        priorApprovalFault policy action].foldl Decision.lowered
          ⟨.auto, "политика разрешает '" ++ action.name ++ "' автоматически"⟩

/-! ### When the engine lets an action pass -/

/-- The policy is automatic, and the action breaks none of its bounds as the engine checks them. -/
structure Passes (policy : Policy) (action : Action) : Prop where
  mode : policy.mode = .auto
  amount : ∀ max ∈ policy.maxAmountTiyn, ∃ amount ∈ action.amountTiyn, amount ≤ max
  allowlist : policy.counterpartyAllowlist ≠ [] →
    ∃ id ∈ action.counterpartyId, id ∈ policy.counterpartyAllowlist
  docType : ∀ wanted ∈ policy.docType, ∀ given ∈ action.docType, wanted = given
  priorApproval : policy.requirePriorApproval → action.hasPriorApproval

theorem lowered_some_mode (d : Decision) (reason : String) :
    (d.lowered (some reason)).mode ≠ .auto := by
  obtain ⟨mode, _⟩ := d
  cases mode <;> simp [Decision.lowered, strictestOf, Mode.rank]

/-- A decision that was lowered once stays lowered. -/
theorem foldl_lowered_auto {faults : List (Option String)} {d : Decision} :
    (faults.foldl Decision.lowered d).mode = .auto ↔ d.mode = .auto ∧ ∀ f ∈ faults, f = none := by
  induction faults generalizing d with
  | nil => simp
  | cons f faults ih =>
    rw [List.foldl_cons, ih, List.forall_mem_cons]
    cases f with
    | none => simp [Decision.lowered]
    | some reason => simp [lowered_some_mode]

theorem amountFault_none {policy : Policy} {action : Action} :
    amountFault policy action = none ↔
      ∀ max ∈ policy.maxAmountTiyn, ∃ amount ∈ action.amountTiyn, amount ≤ max := by
  unfold amountFault
  cases policy.maxAmountTiyn <;> cases action.amountTiyn <;> simp

theorem allowlistFault_none {policy : Policy} {action : Action} :
    allowlistFault policy action = none ↔ (policy.counterpartyAllowlist ≠ [] →
      ∃ id ∈ action.counterpartyId, id ∈ policy.counterpartyAllowlist) := by
  unfold allowlistFault
  by_cases hEmpty : policy.counterpartyAllowlist = []
  · simp [hEmpty]
  · cases action.counterpartyId <;> simp [hEmpty]

theorem docTypeFault_none {policy : Policy} {action : Action} :
    docTypeFault policy action = none ↔
      ∀ wanted ∈ policy.docType, ∀ given ∈ action.docType, wanted = given := by
  unfold docTypeFault
  cases policy.docType <;> cases action.docType <;> simp

theorem priorApprovalFault_none {policy : Policy} {action : Action} :
    priorApprovalFault policy action = none ↔
      (policy.requirePriorApproval → action.hasPriorApproval) := by
  unfold priorApprovalFault
  cases policy.requirePriorApproval <;> cases action.hasPriorApproval <;> simp

/-- The engine answers `auto` exactly to actions that a policy lets pass. -/
theorem evaluate_auto {policy : Option Policy} {action : Action} :
    (evaluate policy action).mode = .auto ↔ ∃ p, policy = some p ∧ Passes p action := by
  cases policy with
  | none => simp [evaluate]
  | some p =>
    have hPasses : Passes p action ↔ p.mode = .auto ∧ amountFault p action = none ∧
        allowlistFault p action = none ∧ docTypeFault p action = none ∧
        priorApprovalFault p action = none := by
      rw [amountFault_none, allowlistFault_none, docTypeFault_none, priorApprovalFault_none]
      exact ⟨fun h => ⟨h.mode, h.amount, h.allowlist, h.docType, h.priorApproval⟩,
        fun ⟨hMode, hAmount, hList, hDoc, hPrior⟩ => ⟨hMode, hAmount, hList, hDoc, hPrior⟩⟩
    simp only [Option.some.injEq, exists_eq_left', hPasses]
    cases hMode : p.mode with
    | forbid => simp [evaluate, hMode]
    | approve => simp [evaluate, hMode]
    | auto =>
      simp only [evaluate, hMode, foldl_lowered_auto, List.forall_mem_cons, true_and]
      simp

end CyberAccountant.Agent
