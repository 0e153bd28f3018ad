import CyberAccountant.Agent.Orchestrator

/-! The budget of an organisation: what its runs have cost, and whether it can hold back a run.  A run records the
tokens of each reply of the model, at no cost. -/

namespace CyberAccountant.Agent

open CyberAccountant.Library CyberAccountant.Library.Program CyberAccountant.Ledger CyberAccountant.Tenancy

variable {W ρ : Type}

/-! ### Tokens and costs -/

/-- The input and output tokens of a reply. -/
abbrev Usage : Type := Int × Int

/-- What a call of the model has consumed. -/
def ModelAnswer.usage? : ModelAnswer → Option Usage
  | .replied reply => some (reply.inputTokens, reply.outputTokens)
  | _ => none

def consumed? : AgentEvent ρ → Option Usage
  | ⟨.callModel _, reply⟩ => reply.usage?
  | _ => none

/-- What is recorded of a usage, and the cost. -/
def AgentCommand.charge? : AgentCommand ρ → Option (Usage × Int)
  | .addUsage _ _ inputTokens outputTokens costTiyn => some ((inputTokens, outputTokens), costTiyn)
  | _ => none

/-- The cost that a call records for a run. -/
def AgentCommand.costOf (row : RunRow) : AgentCommand ρ → Int
  | .addUsage org run _ _ costTiyn => if org = row.orgId ∧ run = row.id then costTiyn else 0
  | _ => 0

/-- What the calls so far have recorded for a run. -/
def recordedCost (trace : List (AgentEvent ρ)) (row : RunRow) : Int := (trace.map fun e => e.1.costOf row).sum

/-- The price of a thousand tokens, in tiyn. -/
structure Prices where
  input : Nat
  output : Nat

/-- Tokens have been consumed at a positive price. -/
def Prices.Charges (prices : Prices) (usage : Usage) : Prop :=
  (0 < usage.1 ∧ 0 < prices.input) ∨ (0 < usage.2 ∧ 0 < prices.output)

/-! ### A run records each usage at no cost -/

/-- The next call records the usage that is due, at no cost, and so on for what each reply of the model consumes;
nothing is due in the end. -/
def MeteredFrom (due : Option Usage) (p : AgentM ρ α) : Prop :=
  p.Follows (fun due c => c.charge? = due.map fun usage => (usage, 0)) (fun _ c reply => consumed? ⟨c, reply⟩)
    (fun _ due => due = none) due

def Metered (p : AgentM ρ α) : Prop := MeteredFrom none p

section

variable {α β : Type} (env : Environment W ρ) (org run : Uuid)

theorem metered_pure (a : α) : Metered (pure a : AgentM ρ α) := rfl

theorem Metered.bind {p : AgentM ρ α} {f : α → AgentM ρ β} (h : Metered p) (hf : ∀ a, Metered (f a)) :
    Metered (p >>= f) :=
  Follows.bind h fun a due hDue => by
    rw [hDue]
    exact hf a

theorem Metered.map {p : AgentM ρ α} (f : α → β) (h : Metered p) : Metered (f <$> p) :=
  h.bind fun a => metered_pure (f a)

/-- A call that neither asks the model nor records a usage. -/
theorem metered_call (c : AgentCommand ρ) (hCharge : c.charge? = none) (hUsage : ∀ reply, consumed? ⟨c, reply⟩ = none) :
    Metered (call c) :=
  ⟨hCharge, hUsage⟩

theorem metered_callModel (messages : List Message) {f : ModelAnswer → AgentM ρ α}
    (h : ∀ reply : ModelAnswer, MeteredFrom reply.usage? (f reply)) : Metered (call (.callModel messages) >>= f) :=
  ⟨rfl, h⟩

theorem metered_addUsage (inputTokens outputTokens : Int) {f : Unit → AgentM ρ α} (h : Metered (f ())) :
    MeteredFrom (some (inputTokens, outputTokens))
      (call (.addUsage org run inputTokens outputTokens 0) >>= f) :=
  ⟨rfl, fun _ => h⟩

theorem executeTool_metered (ctx : ToolContext) (name : String) (args : Json) :
    Metered (executeTool env ctx name args) := by
  unfold executeTool
  split
  · exact metered_pure _
  · rename_i entry hTool
    split
    · exact metered_pure _
    · extract_lets decided
      have hDecided : ∀ action, Metered (decided action) := by
        intro action
        cases action with
        | none => exact metered_pure _
        | some action =>
          apply (metered_call _ rfl fun _ => rfl).bind
          intro policy
          obtain ⟨mode, reason⟩ := evaluate policy { action with name := name }
          cases mode with
          | forbid => exact metered_pure _
          | approve => exact metered_pure _
          | auto =>
            apply (metered_call _ rfl fun _ => rfl).bind
            intro result
            cases result with
            | none => exact metered_pure _
            | some result => exact metered_pure _
      split
      · exact (metered_call _ rfl fun _ => rfl).bind hDecided
      · exact (metered_pure _).bind hDecided

theorem runTools_metered (toolCalls : List (String × Json)) (results : List (ToolResult ρ)) :
    Metered (runTools env org run toolCalls results) := by
  induction toolCalls generalizing results with
  | nil => exact metered_pure _
  | cons toolCall rest ih =>
    apply (executeTool_metered env ⟨org, run, "agent"⟩ toolCall.1 toolCall.2).bind
    intro outcome
    cases outcome with
    | none => exact metered_pure _
    | some outcome =>
      apply (metered_call _ rfl fun _ => rfl).bind
      intro _
      split
      · apply (metered_call _ rfl fun _ => rfl).bind
        intro diff
        cases diff with
        | none => exact metered_pure _
        | some diff =>
          exact (metered_call _ rfl fun _ => rfl).bind fun _ =>
            (metered_call _ rfl fun _ => rfl).bind fun _ => metered_pure _
      · exact ih _

theorem stopRun_metered (status : RunStatus) (reason : StopReason) :
    Metered (stopRun (ρ := ρ) org run status reason) :=
  (metered_call _ rfl fun _ => rfl).bind fun _ => (metered_call _ rfl fun _ => rfl).bind fun _ => metered_pure _

theorem modelLoop_metered (left : Nat) (messages : List Message) : Metered (modelLoop env org run left messages) := by
  induction left generalizing messages with
  | zero => exact metered_pure _
  | succ left ih =>
    apply metered_callModel
    intro reply
    cases reply with
    | thrown => exact metered_pure _
    | notConfigured what => exact (stopRun_metered org run _ _).map _
    | failed what => exact (stopRun_metered org run _ _).map _
    | replied reply =>
      apply metered_addUsage
      apply (metered_call _ rfl fun _ => rfl).bind
      intro _
      split
      · exact metered_pure _
      · apply (runTools_metered env org run reply.toolCalls []).bind
        intro toolsEnd
        cases toolsEnd with
        | thrown => exact metered_pure _
        | stopped result => exact metered_pure _
        | results results =>
          apply (metered_call _ rfl fun _ => rfl).bind
          intro text
          cases text with
          | none => exact metered_pure _
          | some text => exact (metered_call _ rfl fun _ => rfl).bind fun _ => ih _

theorem runWithin_metered (request : RunRequest) (limits : RunLimits) : Metered (runWithin env request limits) := by
  apply (metered_call _ rfl fun _ => rfl).bind
  intro run
  apply (metered_call _ rfl fun _ => rfl).bind
  intro _
  apply (modelLoop_metered env request.orgId run _ _).bind
  intro loopEnd
  cases loopEnd with
  | thrown => exact metered_pure _
  | stopped result => exact metered_pure _
  | finalText text =>
    dsimp only
    split
    · exact (stopRun_metered request.orgId run _ _).map _
    · exact (metered_call _ rfl fun _ => rfl).bind fun _ => metered_pure _

theorem run_metered (request : RunRequest) (limits : RunLimits) : Metered (Agent.run env request limits) := by
  unfold Agent.run
  split
  · exact runWithin_metered env request limits
  · apply (metered_call _ rfl fun _ => rfl).bind
    intro spent
    split
    · exact (metered_call _ rfl fun _ => rfl).bind fun run => (stopRun_metered request.orgId run _ _).map _
    · exact runWithin_metered env request limits

end

/-! ### What has been recorded -/

/-- Nothing that is recorded has cost anything, and all that has been consumed is recorded but for what is due. -/
structure Unpaid (due : Option Usage) (s : AgentState W ρ) : Prop where
  rows : ∀ row ∈ s.db.runs, row.costTiyn = 0
  charges : ∀ e ∈ s.trace, ∀ usage cost, e.1.charge? = some (usage, cost) → cost = 0
  recorded : s.trace.filterMap (fun e => e.1.charge?.map Prod.fst) ++ due.toList = s.trace.filterMap consumed?

theorem updateRun_unpaid {db : AgentDb ρ} {org run : Uuid} {f : RunRow → RunRow}
    (h : ∀ row ∈ db.runs, row.costTiyn = 0) (hf : ∀ row, row.costTiyn = 0 → (f row).costTiyn = 0) :
    ∀ row ∈ (db.updateRun org run f).runs, row.costTiyn = 0 := by
  intro row hRow
  obtain ⟨old, hOld, rfl⟩ := mem_changeRow.mp hRow
  split
  · split
    · exact hf old (h old hOld)
    · exact h old hOld
  · exact h old hOld

/-- A usage that is recorded costs nothing. -/
theorem cost_of_due {c : AgentCommand ρ} {due : Option Usage} (hDue : c.charge? = due.map fun usage => (usage, 0))
    {usage : Usage} {cost : Int} (hCharge : c.charge? = some (usage, cost)) : cost = 0 := by
  rw [hCharge] at hDue
  cases due with
  | none => cases hDue
  | some usage' =>
    cases hDue
    rfl

theorem answer_unpaid {env : Environment W ρ} {db : AgentDb ρ} {w : W} {due : Option Usage}
    (h : ∀ row ∈ db.runs, row.costTiyn = 0) (c : AgentCommand ρ) (hDue : c.charge? = due.map fun usage => (usage, 0)) :
    ∀ row ∈ (answer env c db w).2.1.runs, row.costTiyn = 0 := by
  cases c with
  | startRun org trigger startedBy =>
    intro row hRow
    rcases List.mem_append.mp hRow with hRow | hRow
    · exact h row hRow
    · rw [List.mem_singleton.mp hRow]
  | finishRun org run status summary error => exact updateRun_unpaid h fun row hRow => hRow
  | addUsage org run inputTokens outputTokens costTiyn =>
    apply updateRun_unpaid h
    intro row hRow
    show row.costTiyn + costTiyn = 0
    rw [hRow, cost_of_due hDue rfl, Int.add_zero]
  | extract name args =>
    simp only [answer]
    split <;> exact h
  | handle ctx name args =>
    simp only [answer]
    split <;> exact h
  | costSince org since => exact h
  | appendStep run kind payload tool decision reason => exact h
  | findPolicy org action => exact h
  | requestApproval org run action payload humanDiff => exact h
  | callModel messages => exact h
  | humanDiff action args => exact h
  | dump results => exact h

theorem Unpaid.exec {env : Environment W ρ} {due : Option Usage} {s : AgentState W ρ} (h : Unpaid due s)
    (c : AgentCommand ρ) (hDue : c.charge? = due.map fun usage => (usage, 0)) :
    Unpaid (consumed? ⟨c, (exec env c s).1⟩) (exec env c s).2 where
  rows := answer_unpaid h.rows c hDue
  charges e he usage cost hCharge := by
    rcases List.mem_append.mp he with he | he
    · exact h.charges e he usage cost hCharge
    · rw [List.mem_singleton.mp he] at hCharge
      exact cost_of_due hDue hCharge
  recorded := by
    have hLast : (c.charge?.map Prod.fst) = due := by
      rw [hDue, Option.map_map]
      exact Option.map_id'
    have hCharged : (Agent.exec env c s).2.trace.filterMap (fun e => e.1.charge?.map Prod.fst) =
        s.trace.filterMap (fun e => e.1.charge?.map Prod.fst) ++ (c.charge?.map Prod.fst).toList :=
      List.filterMap_append
    have hConsumed : (Agent.exec env c s).2.trace.filterMap consumed? =
        s.trace.filterMap consumed? ++ (consumed? ⟨c, (Agent.exec env c s).1⟩).toList :=
      List.filterMap_append
    rw [hCharged, hConsumed, hLast, h.recorded]

/-- A run keeps that nothing has cost anything. -/
theorem Unpaid.run {env : Environment W ρ} {s : AgentState W ρ} (h : Unpaid none s) {p : AgentM ρ α}
    (hp : Metered p) : Unpaid none (p.run (Agent.exec env) s).2 := by
  have hKept : ∃ due, due = none ∧ Unpaid due (p.run (Agent.exec env) s).2 :=
    Follows.run (fun due c s hs hDue => hs.exec c hDue) hp h
  obtain ⟨due, rfl, hEnd⟩ := hKept
  exact hEnd

/-! ### Runs one after another -/

/-- A run of an organisation as it is asked for, with the time, the policies, the model and the tools of the moment. -/
structure Turn (W ρ : Type) where
  env : Environment W ρ
  now : Timestamp
  policies : List PolicyRow
  request : RunRequest
  limits : RunLimits

/-- The state that a turn starts from. -/
def Turn.start (turn : Turn W ρ) (s : AgentState W ρ) : AgentState W ρ :=
  { s with db := { s.db with now := turn.now, policies := turn.policies } }

def Turn.take (turn : Turn W ρ) (s : AgentState W ρ) : AgentState W ρ :=
  ((Agent.run turn.env turn.request turn.limits).run (exec turn.env) (turn.start s)).2

/-- The tables, the world and the calls after some runs. -/
def history (turns : List (Turn W ρ)) (s : AgentState W ρ) : AgentState W ρ := turns.foldl (fun s turn => turn.take s) s

theorem Turn.take_unpaid (turn : Turn W ρ) {s : AgentState W ρ} (h : Unpaid none s) : Unpaid none (turn.take s) := by
  have hStart : Unpaid none (turn.start s) := ⟨h.rows, h.charges, h.recorded⟩
  exact hStart.run (run_metered turn.env turn.request turn.limits)

theorem history_unpaid (turns : List (Turn W ρ)) {s : AgentState W ρ} (h : Unpaid none s) :
    Unpaid none (history turns s) := by
  induction turns generalizing s with
  | nil => exact h
  | cons turn turns ih => exact ih (turn.take_unpaid h)

/-- The rows of an organisation in a period. -/
def AgentDb.runsSince (db : AgentDb ρ) (org : Uuid) (since : Timestamp) : List RunRow :=
  db.runs.filter fun row => row.orgId = org ∧ since ≤ row.createdAt

/-- The budget is enforced in a sequence of runs: all that is consumed is recorded, at a cost that is positive where
the price is, the spend of a period is the sum of the costs recorded for its runs, and no call of the model is made
once it has reached the budget. -/
structure Enforced (prices : Prices) (turns : List (Turn W ρ)) (s : AgentState W ρ) : Prop where
  recorded : (history turns s).trace.filterMap (fun e => e.1.charge?.map Prod.fst) =
    (history turns s).trace.filterMap consumed?
  charged : ∀ e ∈ (history turns s).trace, ∀ usage cost, e.1.charge? = some (usage, cost) → prices.Charges usage →
    0 < cost
  spend : ∀ org since, (history turns s).db.costSince org since =
    (((history turns s).db.runsSince org since).map (recordedCost (history turns s).trace)).sum
  withheld : ∀ before turn after, turns = before ++ turn :: after →
    ∀ budget, turn.limits.budgetTiyn = some budget → 0 < budget →
    ∀ earlier messages reply later,
      (turn.take (history before s)).trace = earlier ++ ⟨.callModel messages, reply⟩ :: later →
      (history before s).trace.length ≤ earlier.length →
      (((turn.take (history before s)).db.runsSince turn.request.orgId turn.limits.periodStart).map
        (recordedCost earlier)).sum < budget

theorem recordedCost_eq_zero {trace : List (AgentEvent ρ)} {row : RunRow}
    (h : ∀ e ∈ trace, ∀ usage cost, e.1.charge? = some (usage, cost) → cost = 0) : recordedCost trace row = 0 := by
  apply List.sum_eq_zero
  intro cost hCost
  obtain ⟨e, he, rfl⟩ := List.mem_map.mp hCost
  have hZero := h e he
  revert hZero
  generalize e.1 = c
  intro hZero
  cases c with
  | addUsage org run inputTokens outputTokens costTiyn =>
    have hEq := hZero _ _ rfl
    simp [AgentCommand.costOf, hEq]
  | _ => rfl

theorem sum_recordedCost {trace : List (AgentEvent ρ)} (rows : List RunRow)
    (h : ∀ e ∈ trace, ∀ usage cost, e.1.charge? = some (usage, cost) → cost = 0) :
    (rows.map (recordedCost trace)).sum = 0 := by
  apply List.sum_eq_zero
  intro cost hCost
  obtain ⟨row, -, rfl⟩ := List.mem_map.mp hCost
  exact recordedCost_eq_zero h

theorem unpaid_start (db : AgentDb ρ) (w : W) : Unpaid none (⟨{ db with runs := [] }, w, []⟩ : AgentState W ρ) where
  rows _ hRow := absurd hRow List.not_mem_nil
  charges _ he := absurd he List.not_mem_nil
  recorded := rfl

theorem Unpaid.budget_iff {s : AgentState W ρ} (h : Unpaid none s) (prices : Prices) (turns : List (Turn W ρ)) :
    Enforced prices turns s ↔
      ∀ e ∈ (history turns s).trace, ∀ usage, consumed? e = some usage → ¬prices.Charges usage := by
  have hEnd := history_unpaid turns h
  have hRecorded := hEnd.recorded
  rw [Option.toList_none, List.append_nil] at hRecorded
  constructor
  · intro hEnforced e he usage hUsage hCharges
    have hMem : usage ∈ (history turns s).trace.filterMap consumed? := List.mem_filterMap.mpr ⟨e, he, hUsage⟩
    rw [← hRecorded] at hMem
    obtain ⟨e', he', hCharge⟩ := List.mem_filterMap.mp hMem
    obtain ⟨⟨usage', cost⟩, hCharge', rfl⟩ := Option.map_eq_some_iff.mp hCharge
    have hPositive := hEnforced.charged e' he' usage' cost hCharge' hCharges
    rw [hEnd.charges e' he' usage' cost hCharge'] at hPositive
    exact absurd hPositive (lt_irrefl 0)
  · intro hFree
    refine ⟨hRecorded, ?_, ?_, ?_⟩
    · intro e he usage cost hCharge hCharges
      have hMem : usage ∈ (history turns s).trace.filterMap (fun e => e.1.charge?.map Prod.fst) :=
        List.mem_filterMap.mpr ⟨e, he, by rw [hCharge]; rfl⟩
      rw [hRecorded] at hMem
      obtain ⟨e', he', hUsage⟩ := List.mem_filterMap.mp hMem
      exact absurd hCharges (hFree e' he' usage hUsage)
    · intro org since
      rw [sum_recordedCost _ hEnd.charges]
      apply List.sum_eq_zero
      intro cost hCost
      obtain ⟨row, hRow, rfl⟩ := List.mem_map.mp hCost
      exact hEnd.rows row (List.mem_filter.mp hRow).1
    · intro before turn after _ budget _ hPositive earlier messages reply later hTrace _
      have hTaken := turn.take_unpaid (history_unpaid before h)
      rw [sum_recordedCost _ fun e he => hTaken.charges e (hTrace ▸ List.mem_append_left _ he)]
      exact hPositive

/-- The budget of an organisation is enforced exactly while the model has consumed no tokens at a positive price. -/
theorem enforced_iff (prices : Prices) (turns : List (Turn W ρ)) (db : AgentDb ρ) (w : W) :
    Enforced prices turns ⟨{ db with runs := [] }, w, []⟩ ↔
      ∀ e ∈ (history turns ⟨{ db with runs := [] }, w, []⟩).trace, ∀ usage, consumed? e = some usage →
        ¬prices.Charges usage :=
  (unpaid_start db w).budget_iff prices turns

/-- A model that answers at once. -/
def shortAnswer : Environment Unit Unit where
  callModel _ w := (.replied ⟨"Остаток 120 000 ₸", [], 900, 40, "end_turn"⟩, w)
  tools := Table.empty
  dump _ := some ""

def shortTurn : Turn Unit Unit :=
  ⟨shortAnswer, 10, [], ⟨1, "chat", none, "Какой остаток?"⟩, ⟨some 500000, 0, 8⟩⟩

/-- Tokens that have a price are recorded at no cost. -/
theorem budget_unenforced : ¬Enforced ⟨3, 15⟩ [shortTurn] ⟨⟨[], [], [], [], 0⟩, (), []⟩ := by
  intro h
  have hCharged := h.charged ⟨.addUsage 1 1 900 40 0, ()⟩ (List.mem_of_getElem? (i := 4) rfl) (900, 40) 0 rfl
    (Or.inl ⟨by decide, by decide⟩)
  exact absurd hCharged (lt_irrefl 0)

end CyberAccountant.Agent
