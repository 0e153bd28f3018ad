import CyberAccountant.Agent.AutonomyPolicy

/-! Stricter policies and actions of which less is known.  A decision should never become more
permissive by either; the policy engine keeps to it for policies, and for actions as long as no
document type is forgotten that alone stood in the way. -/

namespace CyberAccountant.Agent

/-- The bound is set where it was, no higher. -/
def LowersMax : Option Int → Option Int → Prop
  | none, _ => True
  | some max, some max' => max' ≤ max
  | some _, none => False

/-- What was set stays as it was. -/
def KeepsSet {α : Type} : Option α → Option α → Prop
  | none, _ => True
  | some a, b => b = some a

/-- The other policy adds bounds, tightens them or has a stricter mode. -/
structure Policy.Tightens (p p' : Policy) : Prop where
  mode : p.mode.rank ≤ p'.mode.rank
  amount : LowersMax p.maxAmountTiyn p'.maxAmountTiyn
  /-- An allowlist that is empty is no bound. -/
  allowlist : p.counterpartyAllowlist ≠ [] →
    p'.counterpartyAllowlist ≠ [] ∧ ∀ id ∈ p'.counterpartyAllowlist, id ∈ p.counterpartyAllowlist
  docType : KeepsSet p.docType p'.docType
  priorApproval : p.requirePriorApproval → p'.requirePriorApproval

/-- Less is known of the other action. -/
structure Action.Forgets (a a' : Action) : Prop where
  amount : ∀ amount ∈ a'.amountTiyn, amount ∈ a.amountTiyn
  counterparty : ∀ id ∈ a'.counterpartyId, id ∈ a.counterpartyId
  docType : ∀ given ∈ a'.docType, given ∈ a.docType
  priorApproval : a'.hasPriorApproval = a.hasPriorApproval

/-- A document type that is known to be another is all that keeps the action from being automatic. -/
structure OnlyDocType (p : Policy) (a : Action) : Prop where
  mode : p.mode = .auto
  amount : amountFault p a = none
  allowlist : allowlistFault p a = none
  priorApproval : priorApprovalFault p a = none
  docType : docTypeFault p a ≠ none

theorem Mode.rank_eq_zero {m : Mode} : m.rank = 0 ↔ m = .auto := by cases m <;> simp [Mode.rank]

theorem lowered_mode_le (d : Decision) (fault : Option String) (h : d.mode.rank ≤ 1) :
    (d.lowered fault).mode.rank ≤ 1 := by
  cases fault with
  | none => exact h
  | some reason =>
    obtain ⟨mode, _⟩ := d
    cases mode <;> simp_all [Decision.lowered, strictestOf, Mode.rank]

theorem foldl_lowered_le (faults : List (Option String)) (d : Decision) (h : d.mode.rank ≤ 1) :
    (faults.foldl Decision.lowered d).mode.rank ≤ 1 := by
  induction faults generalizing d with
  | nil => exact h
  | cons f faults ih => exact ih (d.lowered f) (lowered_mode_le d f h)

/-- Only a policy that forbids makes the engine forbid. -/
theorem evaluate_rank_le {p : Policy} {a : Action} (h : p.mode ≠ .forbid) :
    (evaluate (some p) a).mode.rank ≤ 1 := by
  cases hMode : p.mode with
  | forbid => exact absurd hMode h
  | approve => simp [evaluate, hMode, Mode.rank]
  | auto =>
    simp only [evaluate, hMode]
    exact foldl_lowered_le _ _ (by simp [Mode.rank])

theorem evaluate_forbid {p : Policy} {a : Action} (h : p.mode = .forbid) :
    (evaluate (some p) a).mode = .forbid := by
  simp [evaluate, h]

/-- A decision by a policy whose mode is no stricter is no stricter, if whatever that other policy lets
pass this one lets pass too. -/
theorem evaluate_le_of_passes {p p' : Policy} {a a' : Action} (hMode : p.mode.rank ≤ p'.mode.rank)
    (hPasses : Passes p' a' → Passes p a) :
    (evaluate (some p) a).mode.rank ≤ (evaluate (some p') a').mode.rank := by
  by_cases hForbid : p'.mode = .forbid
  · rw [evaluate_forbid hForbid]
    cases (evaluate (some p) a).mode <;> simp [Mode.rank]
  have hAllowed : p.mode ≠ .forbid := by
    rintro h
    rw [h] at hMode
    cases hMode' : p'.mode <;> simp_all [Mode.rank]
  by_cases hAuto : (evaluate (some p') a').mode = .auto
  · obtain ⟨q, hq, hPass⟩ := evaluate_auto.mp hAuto
    obtain rfl := Option.some.inj hq
    have hStill : (evaluate (some p) a).mode = .auto := evaluate_auto.mpr ⟨p, rfl, hPasses hPass⟩
    rw [hStill]
    exact Nat.zero_le _
  · have hAsks : (evaluate (some p') a').mode.rank ≠ 0 := fun h => hAuto (Mode.rank_eq_zero.mp h)
    have hRank := evaluate_rank_le (a := a) hAllowed
    omega

/-- What a tighter policy lets pass the policy lets pass. -/
theorem Policy.Tightens.passes {p p' : Policy} {a : Action} (h : p.Tightens p') (hPass : Passes p' a) :
    Passes p a where
  mode := by
    have hRank := h.mode
    rw [hPass.mode] at hRank
    exact Mode.rank_eq_zero.mp (Nat.le_zero.mp hRank)
  amount max hMax := by
    have hAmount := h.amount
    rw [Option.mem_def.mp hMax] at hAmount
    cases hMax' : p'.maxAmountTiyn with
    | none =>
      rw [hMax'] at hAmount
      exact hAmount.elim
    | some max' =>
      rw [hMax'] at hAmount
      obtain ⟨amount, hKnown, hLe⟩ := hPass.amount max' hMax'
      exact ⟨amount, hKnown, Int.le_trans hLe hAmount⟩
  allowlist hSet := by
    obtain ⟨hSet', hSubset⟩ := h.allowlist hSet
    obtain ⟨id, hKnown, hListed⟩ := hPass.allowlist hSet'
    exact ⟨id, hKnown, hSubset id hListed⟩
  docType wanted hWanted given hGiven := by
    have hKept := h.docType
    rw [Option.mem_def.mp hWanted] at hKept
    exact hPass.docType wanted hKept given hGiven
  priorApproval hRequired := hPass.priorApproval (h.priorApproval hRequired)

theorem evaluate_tightens {p p' : Policy} (a : Action) (h : p.Tightens p') :
    (evaluate (some p) a).mode.rank ≤ (evaluate (some p') a).mode.rank :=
  evaluate_le_of_passes h.mode h.passes

/-- Knowledge that is removed lets nothing pass that another document type did not keep out alone. -/
theorem Action.Forgets.passes {p : Policy} {a a' : Action} (h : a.Forgets a') (hOnly : ¬ OnlyDocType p a)
    (hPass : Passes p a') : Passes p a := by
  have hAmount : amountFault p a = none := amountFault_none.mpr fun max hMax =>
    let ⟨amount, hKnown, hLe⟩ := hPass.amount max hMax
    ⟨amount, h.amount amount hKnown, hLe⟩
  have hAllowlist : allowlistFault p a = none := allowlistFault_none.mpr fun hSet =>
    let ⟨id, hKnown, hListed⟩ := hPass.allowlist hSet
    ⟨id, h.counterparty id hKnown, hListed⟩
  have hPrior : priorApprovalFault p a = none := priorApprovalFault_none.mpr fun hRequired =>
    h.priorApproval ▸ hPass.priorApproval hRequired
  have hDoc : docTypeFault p a = none := by
    by_contra hFault
    exact hOnly ⟨hPass.mode, hAmount, hAllowlist, hPrior, hFault⟩
  exact ⟨hPass.mode, amountFault_none.mp hAmount, allowlistFault_none.mp hAllowlist, docTypeFault_none.mp hDoc,
    priorApprovalFault_none.mp hPrior⟩

/-- The same action without its document type. -/
def Action.withoutDocType (a : Action) : Action := { a with docType := none }

theorem forgets_docType (a : Action) : a.Forgets a.withoutDocType :=
  ⟨fun _ h => h, fun _ h => h, fun _ h => by simp [Action.withoutDocType] at h, rfl⟩

/-- An action that only its document type keeps out passes without it. -/
theorem OnlyDocType.slips {p : Policy} {a : Action} (h : OnlyDocType p a) :
    (evaluate (some p) a).mode ≠ .auto ∧ (evaluate (some p) a.withoutDocType).mode = .auto := by
  constructor
  · intro hAuto
    obtain ⟨q, hq, hPass⟩ := evaluate_auto.mp hAuto
    obtain rfl := Option.some.inj hq
    exact h.docType (docTypeFault_none.mpr hPass.docType)
  · refine evaluate_auto.mpr ⟨p, rfl, h.mode, amountFault_none.mp h.amount, allowlistFault_none.mp h.allowlist,
      fun wanted _ given hGiven => ?_, priorApprovalFault_none.mp h.priorApproval⟩
    simp [Action.withoutDocType] at hGiven

/-- Decisions become no more permissive by tighter policies and by knowledge that is removed, exactly if
the action is none that its document type alone keeps out. -/
theorem evaluate_monotone_iff (p : Policy) (a : Action) :
    ((∀ p', p.Tightens p' → (evaluate (some p) a).mode.rank ≤ (evaluate (some p') a).mode.rank) ∧
      ∀ a', a.Forgets a' → (evaluate (some p) a).mode.rank ≤ (evaluate (some p) a').mode.rank) ↔
    ¬ OnlyDocType p a := by
  constructor
  · rintro ⟨-, hForgets⟩ hOnly
    obtain ⟨hAsks, hPasses⟩ := hOnly.slips
    have hLe := hForgets _ (forgets_docType a)
    rw [hPasses] at hLe
    exact hAsks (Mode.rank_eq_zero.mp (Nat.le_zero.mp hLe))
  · intro hOnly
    exact ⟨fun p' h => evaluate_tightens a h, fun a' h => evaluate_le_of_passes (Nat.le_refl _) (h.passes hOnly)⟩

/-- A policy for invoices only. -/
def invoicePolicy : Policy := ⟨"ledger.post_entry", .auto, none, [], some "invoice", false⟩

def postWaybill : Action := ⟨"ledger.post_entry", none, none, some "waybill", false⟩

/-- Asked about when it is known to be another type, let through when the type is not known. -/
theorem waybill_slips : postWaybill.Forgets postWaybill.withoutDocType ∧
    (evaluate (some invoicePolicy) postWaybill).mode = .approve ∧
    (evaluate (some invoicePolicy) postWaybill.withoutDocType).mode = .auto :=
  ⟨forgets_docType _, by decide, by decide⟩

end CyberAccountant.Agent
