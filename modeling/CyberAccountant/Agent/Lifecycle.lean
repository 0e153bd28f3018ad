import CyberAccountant.Agent.Orchestrator
import Mathlib.Data.List.MinMax

/-! How a run of the agent ends: with a status that is no longer `running`, a step for each handler that has
been run, and no more calls of the model than its limit. -/

namespace CyberAccountant.Agent

open CyberAccountant.Library CyberAccountant.Library.Program CyberAccountant.Ledger CyberAccountant.Tenancy

variable {W ρ : Type}

/-! ### What a run has called -/

/-- The tool whose handler has been called, with its arguments. -/
def handledCall? : AgentEvent ρ → Option (String × Json)
  | ⟨.handle _ name args, _⟩ => some (name, args)
  | _ => none

def isModelCall : AgentEvent ρ → Bool
  | ⟨.callModel _, _⟩ => true
  | _ => false

def ModelAnswer.isThrown : ModelAnswer → Bool
  | .thrown => true
  | _ => false

/-- The call has thrown, and nothing of the run catches it. -/
def threw : AgentEvent ρ → Bool
  | ⟨.callModel _, reply⟩ => reply.isThrown
  | ⟨.extract _ _, reply⟩ => reply.isNone
  | ⟨.handle _ _ _, reply⟩ => reply.isNone
  | ⟨.humanDiff _ _, reply⟩ => reply.isNone
  | ⟨.dump _, reply⟩ => reply.isNone
  | _ => false

def ModelAnswer.isEmpty : ModelAnswer → Bool
  | .replied reply => reply.text = "" && reply.toolCalls.isEmpty
  | _ => false

/-- The model has replied with neither a text nor a tool call. -/
def emptyReply : AgentEvent ρ → Bool
  | ⟨.callModel _, reply⟩ => reply.isEmpty
  | _ => false

/-- A tool call that needs an approval has been recorded. -/
def asksApproval : AgentEvent ρ → Bool
  | ⟨.appendStep _ _ (.toolCall _ .needsApproval) _ _ _, _⟩ => true
  | _ => false

def StepPayload.executed? (tool : Option String) : StepPayload ρ → Option (String × Json)
  | .toolCall args .executed => tool.map fun name => (name, args)
  | _ => none

/-- The handlers that the steps of a run record, in their order. -/
def executedOf (run : Uuid) (steps : List (StepRow ρ)) : List (String × Json) :=
  steps.filterMap fun step => if step.runId = run then step.payload.executed? step.tool else none

namespace AgentState

def handled (s : AgentState W ρ) : List (String × Json) := s.trace.filterMap handledCall?

def modelCalls (s : AgentState W ρ) : Nat := s.trace.countP isModelCall

end AgentState

/-- What holds of a run that has ended. -/
structure Lifecycle (run : Uuid) (maxModelCalls : Int) (s : AgentState W ρ) : Prop where
  terminal : ∀ row ∈ s.db.runs, row.id = run → row.status ≠ .running
  recorded : executedOf run s.db.steps = s.handled
  approval : ∀ before e after, s.trace = before ++ e :: after → asksApproval e = true →
    ∀ later ∈ after, handledCall? later = none
  calls : (s.modelCalls : Int) ≤ maxModelCalls
  limit : ∀ row ∈ s.db.runs, row.id = run → ∀ n, row.error = some (.callLimit n) →
    (s.modelCalls : Int) = maxModelCalls

/-! ### While it goes on -/

/-- How far a run has come: what its row says, the calls of the model, the handlers whose steps have yet to be
recorded, whether the model has replied with nothing, and whether an approval has been asked for. -/
structure Progress where
  status : RunStatus
  error : Option StopReason
  calls : Nat
  pending : List (String × Json)
  empty : Bool
  asked : Bool

/-- The run goes on after that many calls of the model. -/
def Progress.going (calls : Nat) : Progress := ⟨.running, none, calls, [], false, false⟩

/-- The run has come so far, and nothing has thrown. -/
structure At (org run : Uuid) (p : Progress) (s : AgentState W ρ) : Prop where
  there : ∃ row ∈ s.db.runs, row.id = run
  rows : ∀ row ∈ s.db.runs, row.id = run → row.orgId = org ∧ row.status = p.status ∧ row.error = p.error
  recorded : executedOf run s.db.steps ++ p.pending = s.handled
  approval : ∀ before e after, s.trace = before ++ e :: after → asksApproval e = true →
    ∀ later ∈ after, handledCall? later = none
  unthrown : ∀ e ∈ s.trace, threw e = false
  asked : s.trace.any asksApproval = p.asked
  empty : s.trace.any emptyReply = p.empty
  calls : s.modelCalls = p.calls

/-- An exception has left the run: its row is as it was. -/
def Thrown (run : Uuid) (s : AgentState W ρ) : Prop :=
  (∃ row ∈ s.db.runs, row.id = run ∧ row.status = .running) ∧ ∃ e ∈ s.trace, threw e = true

section

variable (env : Environment W ρ) {org run : Uuid} {p q : Progress} {calls : Nat} {s : AgentState W ρ}

theorem executedOf_append (run : Uuid) (steps : List (StepRow ρ)) (step : StepRow ρ) :
    executedOf run (steps ++ [step]) = executedOf run steps ++
      (if step.runId = run then step.payload.executed? step.tool else none).toList := by
  rw [executedOf, List.filterMap_append]
  rfl

theorem handled_append (db : AgentDb ρ) (w : W) (trace : List (AgentEvent ρ)) (e : AgentEvent ρ) :
    (AgentState.mk db w (trace ++ [e])).handled = trace.filterMap handledCall? ++ (handledCall? e).toList := by
  rw [AgentState.handled, List.filterMap_append]
  rfl

theorem modelCalls_append (db : AgentDb ρ) (w : W) (trace : List (AgentEvent ρ)) (e : AgentEvent ρ) :
    (AgentState.mk db w (trace ++ [e])).modelCalls = trace.countP isModelCall + (if isModelCall e then 1 else 0) := by
  rw [AgentState.modelCalls, List.countP_append, List.countP_singleton]

/-- A call that does not throw; no handler is run once an approval has been asked for. -/
theorem At.event (h : At org run p s) {db : AgentDb ρ} {w : W} {e : AgentEvent ρ}
    (hThere : ∃ row ∈ db.runs, row.id = run)
    (hRows : ∀ row ∈ db.runs, row.id = run → row.orgId = org ∧ row.status = q.status ∧ row.error = q.error)
    (hRecorded : executedOf run db.steps ++ q.pending =
      executedOf run s.db.steps ++ p.pending ++ (handledCall? e).toList)
    (hThrew : threw e = false) (hHandled : p.asked = true → handledCall? e = none)
    (hAsked : q.asked = (p.asked || asksApproval e)) (hEmpty : q.empty = (p.empty || emptyReply e))
    (hCalls : q.calls = p.calls + if isModelCall e then 1 else 0) : At org run q ⟨db, w, s.trace ++ [e]⟩ where
  there := hThere
  rows := hRows
  recorded := by
    rw [hRecorded, h.recorded, handled_append]
    rfl
  approval before e' after hTrace hAsks later hLater := by
    rcases List.eq_nil_or_concat after with rfl | ⟨after', last, rfl⟩
    · cases hLater
    · rw [List.concat_eq_append, ← List.cons_append, ← List.append_assoc] at hTrace
      obtain ⟨hBefore, hLast⟩ := List.append_inj' hTrace rfl
      rw [List.concat_eq_append] at hLater
      rcases List.mem_append.mp hLater with hLater | hLater
      · exact h.approval before e' after' hBefore hAsks later hLater
      · obtain rfl : e = last := by simpa using hLast
        rw [List.mem_singleton.mp hLater]
        refine hHandled (h.asked ▸ List.any_eq_true.mpr ⟨e', ?_, hAsks⟩)
        rw [hBefore]
        simp
  unthrown e' he' := by
    rcases List.mem_append.mp he' with he' | he'
    · exact h.unthrown e' he'
    · rw [List.mem_singleton.mp he']
      exact hThrew
  asked := by
    rw [List.any_append, h.asked, hAsked]
    simp
  empty := by
    rw [List.any_append, h.empty, hEmpty]
    simp
  calls := by
    rw [modelCalls_append, hCalls, ← h.calls]
    rfl

/-- A call that is not one of those a run is asked about. -/
structure Plain (c : AgentCommand ρ) : Prop where
  handled : ∀ reply, handledCall? ⟨c, reply⟩ = none
  model : ∀ reply, isModelCall ⟨c, reply⟩ = false
  empty : ∀ reply, emptyReply ⟨c, reply⟩ = false

/-- A plain call that writes neither runs nor steps. -/
theorem At.quiet (h : At org run p s) (c : AgentCommand ρ) (hPlain : Plain c)
    (hRuns : (answer env c s.db s.world).2.1.runs = s.db.runs) (hSteps : (answer env c s.db s.world).2.1.steps = s.db.steps)
    (hAsks : ∀ reply, asksApproval ⟨c, reply⟩ = false) (hThrew : threw ⟨c, (exec env c s).1⟩ = false) :
    At org run p (exec env c s).2 := by
  refine h.event (q := p) (e := ⟨c, (exec env c s).1⟩) (by rw [hRuns]; exact h.there) (by rw [hRuns]; exact h.rows) ?_
    hThrew (fun _ => hPlain.handled _) ?_ ?_ ?_
  · rw [hSteps, hPlain.handled]
    simp
  · rw [hAsks, Bool.or_false]
  · rw [hPlain.empty, Bool.or_false]
  · rw [hPlain.model]
    rfl

theorem At.appendStep (h : At org run p s) (kind : StepKind) (payload : StepPayload ρ) (tool : Option String)
    (decision : Option Mode) (reason : Option String) {pending : List (String × Json)}
    (hPending : (payload.executed? tool).toList ++ pending = p.pending) :
    At org run { p with
        pending
        asked := p.asked || asksApproval (ρ := ρ) ⟨.appendStep run kind payload tool decision reason, ()⟩ }
      (exec env (.appendStep run kind payload tool decision reason) s).2 := by
  refine h.event (e := ⟨.appendStep run kind payload tool decision reason, ()⟩) h.there h.rows ?_ rfl (fun _ => rfl) rfl
    (Bool.or_false _).symm rfl
  show executedOf run (s.db.appendStep run kind payload tool decision reason).steps ++ pending = _
  rw [AgentDb.appendStep, executedOf_append, if_pos rfl, ← hPending]
  simp [handledCall?]

/-- A call that throws: nothing is written. -/
theorem At.thrown (h : At org run p s) (hStatus : p.status = .running) (c : AgentCommand ρ)
    (hRuns : (answer env c s.db s.world).2.1.runs = s.db.runs) (hThrew : threw ⟨c, (exec env c s).1⟩ = true) :
    Thrown run (exec env c s).2 := by
  obtain ⟨row, hRow, hId⟩ := h.there
  refine ⟨⟨row, ?_, hId, hStatus ▸ (h.rows row hRow hId).2.1⟩, ⟨c, (exec env c s).1⟩, ?_, hThrew⟩
  · show row ∈ (answer env c s.db s.world).2.1.runs
    rw [hRuns]
    exact hRow
  · exact List.mem_append_right _ List.mem_cons_self

theorem there_updateRun {db : AgentDb ρ} {f : RunRow → RunRow} (hKey : ∀ row, (f row).id = row.id)
    (h : ∃ row ∈ db.runs, row.id = run) : ∃ row ∈ (db.updateRun org run f).runs, row.id = run := by
  obtain ⟨row, hRow, hId⟩ := h
  refine ⟨_, mem_changeRow.mpr ⟨row, hRow, rfl⟩, ?_⟩
  rw [if_pos hId]
  split
  · exact (hKey row).trans hId
  · exact hId

theorem rows_updateRun {db : AgentDb ρ} {f : RunRow → RunRow} {C : RunRow → Prop}
    (h : ∀ row ∈ db.runs, row.id = run → row.orgId = org ∧ C (f row)) :
    ∀ row ∈ (db.updateRun org run f).runs, row.id = run → C row := by
  intro row hRow hId
  obtain ⟨old, hOld, rfl⟩ := mem_changeRow.mp hRow
  by_cases hHere : old.id = run
  · rw [if_pos hHere, if_pos (h old hOld hHere).1]
    exact (h old hOld hHere).2
  · rw [if_neg hHere] at hId
    exact absurd hId hHere

/-- The row of the run takes the status and the error. -/
theorem At.finishRun (h : At org run p s) (status : RunStatus) (summary : String) (error : Option StopReason) :
    At org run { p with status, error } (exec env (.finishRun org run status summary error) s).2 := by
  refine h.event (e := ⟨.finishRun org run status summary error, ()⟩) ?_ ?_ ?_ rfl (fun _ => rfl)
    (Bool.or_false _).symm (Bool.or_false _).symm rfl
  · exact there_updateRun (fun _ => rfl) h.there
  · exact rows_updateRun fun row hRow hId =>
      ⟨(h.rows row hRow hId).1, (h.rows row hRow hId).1, rfl, rfl⟩
  · show executedOf run s.db.steps ++ p.pending = _
    simp [handledCall?]

/-- What a reply has cost is added to the row. -/
theorem At.addUsage (h : At org run p s) (inputTokens outputTokens costTiyn : Int) :
    At org run p (exec env (.addUsage org run inputTokens outputTokens costTiyn) s).2 := by
  refine h.event (e := ⟨.addUsage org run inputTokens outputTokens costTiyn, ()⟩) ?_ ?_ ?_ rfl (fun _ => rfl)
    (Bool.or_false _).symm (Bool.or_false _).symm rfl
  · exact there_updateRun (fun _ => rfl) h.there
  · exact rows_updateRun fun row hRow hId => ⟨(h.rows row hRow hId).1, h.rows row hRow hId⟩
  · show executedOf run s.db.steps ++ p.pending = _
    simp [handledCall?]

/-! ### The tools -/

/-- The handler that a tool call has run and no step has recorded yet. -/
def ToolOutcome.unrecorded (name : String) (args : Json) (outcome : ToolOutcome ρ) : List (String × Json) :=
  if outcome.status = .executed then [(name, args)] else []

/-- What a tool call does to a run that is going on. -/
def ToolGoing (org run : Uuid) (calls : Nat) (name : String) (args : Json)
    (r : Option (ToolOutcome ρ) × AgentState W ρ) : Prop :=
  match r.1 with
  | none => Thrown run r.2
  | some outcome => At org run { Progress.going calls with pending := outcome.unrecorded name args } r.2

theorem runs_handle (ctx : ToolContext) (name : String) (args : Json) (db : AgentDb ρ) (w : W) :
    (answer env (.handle ctx name args) db w).2.1 = db := by
  simp only [answer]
  split <;> rfl

theorem runs_extract (name : String) (args : Json) (db : AgentDb ρ) (w : W) :
    (answer env (.extract name args) db w).2.1 = db := by
  simp only [answer]
  split <;> rfl

theorem handle_going {ctx : ToolContext} {name : String} {args : Json} (h : At org run (.going calls) s)
    (reason : String) :
    ToolGoing org run calls name args
      ((do
        match ← call (.handle ctx name args) with
        | none => pure none
        | some result => pure (some ⟨.executed, some result, reason, some .auto⟩) :
          AgentM ρ (Option (ToolOutcome ρ))).run (exec env) s) := by
  have hDb := runs_handle env ctx name args s.db s.world
  simp only [call, run_bind, perform, run_call, run_done]
  cases hReply : (exec env (.handle ctx name args) s).1 with
  | none =>
    refine h.thrown env rfl (.handle ctx name args) (by rw [hDb]) ?_
    rw [hReply]
    rfl
  | some result =>
    have hNext : At org run { Progress.going calls with pending := [(name, args)] }
        ⟨(answer env (.handle ctx name args) s.db s.world).2.1, (answer env (.handle ctx name args) s.db s.world).2.2,
          s.trace ++ [⟨.handle ctx name args, some result⟩]⟩ := by
      refine h.event ?_ ?_ ?_ rfl nofun rfl rfl rfl
      · rw [hDb]
        exact h.there
      · rw [hDb]
        exact h.rows
      · rw [hDb]
        simp [Progress.going, handledCall?]
    rw [← hReply] at hNext
    exact hNext

theorem toolGoing_of_unrun {name : String} {args : Json} {outcome : ToolOutcome ρ} (h : At org run (.going calls) s)
    (hStatus : outcome.status ≠ .executed) : ToolGoing org run calls name args (some outcome, s) := by
  show At org run { Progress.going calls with pending := outcome.unrecorded name args } s
  rw [ToolOutcome.unrecorded, if_neg hStatus]
  exact h

/-- From the action of a tool call on. -/
theorem decide_going {ctx : ToolContext} {name : String} {args : Json} (action : Action)
    (h : At org run (.going calls) s) :
    ToolGoing org run calls name args
      ((do
        let policy ← call (.findPolicy ctx.orgId name)
        let decision := evaluate policy { action with name := name }
        match decision.mode with
        | .forbid => pure (some ⟨.refused, none, decision.reason, some .forbid⟩)
        | .approve => pure (some ⟨.needsApproval, none, decision.reason, some .approve⟩)
        | .auto => do
          match ← call (.handle ctx name args) with
          | none => pure none
          | some result => pure (some ⟨.executed, some result, decision.reason, some .auto⟩) :
          AgentM ρ (Option (ToolOutcome ρ))).run (exec env) s) := by
  have hFound := h.quiet env (.findPolicy ctx.orgId name) ⟨fun _ => rfl, fun _ => rfl, fun _ => rfl⟩ rfl rfl
    (fun _ => rfl) rfl
  rw [run_bind]
  generalize ((call (.findPolicy ctx.orgId name) : AgentM ρ _).run (exec env) s).1 = policy
  show ToolGoing org run calls name args (Program.run (exec env) _ (exec env (.findPolicy ctx.orgId name) s).2)
  obtain ⟨mode, reason⟩ := evaluate policy { action with name := name }
  cases mode with
  | forbid => exact toolGoing_of_unrun hFound nofun
  | approve => exact toolGoing_of_unrun hFound nofun
  | auto => exact handle_going env hFound reason

theorem executeTool_going (ctx : ToolContext) (name : String) (args : Json) (h : At org run (.going calls) s) :
    ToolGoing org run calls name args ((executeTool env ctx name args).run (exec env) s) := by
  unfold executeTool
  split
  · exact toolGoing_of_unrun h nofun
  · rename_i entry hTool
    split
    · exact toolGoing_of_unrun h nofun
    · cases hExtractor : entry.extractor with
      | none => exact decide_going env _ h
      | some extract =>
        have hDb := runs_extract env name args s.db s.world
        simp only [Option.isSome_some, if_true, call, run_bind, perform, run_call, run_done]
        cases hReply : (exec env (.extract name args) s).1 with
        | none =>
          refine h.thrown env rfl (.extract name args) (by rw [hDb]) ?_
          rw [hReply]
          rfl
        | some action =>
          refine decide_going env action (h.quiet env (.extract name args) ⟨fun _ => rfl, fun _ => rfl, fun _ => rfl⟩
            (by rw [hDb]) (by rw [hDb]) (fun _ => rfl) ?_)
          rw [hReply]
          rfl

/-- The run has been stopped, for another reason than the limit of calls. -/
def Stopped (org run : Uuid) (calls : Nat) (s : AgentState W ρ) : Prop :=
  ∃ p, At org run p s ∧ p.status ≠ .running ∧ (∀ n, p.error ≠ some (.callLimit n)) ∧ p.pending = [] ∧
    p.empty = false ∧ p.calls ≤ calls

/-- What the tool calls of a reply do to a run that is going on. -/
def ToolsGoing (org run : Uuid) (calls : Nat) (r : ToolsEnd ρ × AgentState W ρ) : Prop :=
  match r.1 with
  | .results _ => At org run (.going calls) r.2
  | .stopped _ => Stopped org run calls r.2
  | .thrown => Thrown run r.2

/-- The step of a tool call records the handler that it has run. -/
theorem record_going {name : String} {args : Json} {outcome : ToolOutcome ρ}
    (h : At org run { Progress.going calls with pending := outcome.unrecorded name args } s) :
    At org run { Progress.going calls with asked := decide (outcome.status = .needsApproval) }
      (exec env (.appendStep run .toolCall (.toolCall args outcome.status) (some name) outcome.policyMode
        (some outcome.reason)) s).2 := by
  obtain ⟨status, result, reason, mode⟩ := outcome
  have hPending : (StepPayload.executed? (ρ := ρ) (some name) (.toolCall args status)).toList ++ [] =
      ToolOutcome.unrecorded name args ⟨status, result, reason, mode⟩ := by
    cases status <;> rfl
  have hNext := h.appendStep env .toolCall (.toolCall args status) (some name) mode (some reason) hPending
  cases status <;> exact hNext

/-- From the tool call that needs an approval on. -/
theorem approval_going {name : String} {args : Json} (reason : String)
    (h : At org run { Progress.going calls with asked := true } s) :
    ToolsGoing org run calls
      ((do
        match ← call (.humanDiff name args) with
        | none => pure .thrown
        | some diff => do
          let approval ← call (.requestApproval org run name args diff)
          call (.finishRun org run .awaitingApproval reason none)
          pure (.stopped ⟨run, .awaitingApproval, reason, some approval⟩) : AgentM ρ (ToolsEnd ρ)).run (exec env) s) := by
  simp only [call, run_bind, perform, run_call, run_done]
  cases hReply : (exec env (.humanDiff name args) s).1 with
  | none =>
    refine h.thrown env rfl (.humanDiff name args) rfl ?_
    rw [hReply]
    rfl
  | some diff =>
    have hDiff := h.quiet env (.humanDiff name args) ⟨fun _ => rfl, fun _ => rfl, fun _ => rfl⟩ rfl rfl
      (fun _ => rfl) (by rw [hReply]; rfl)
    have hRequested := hDiff.quiet env (.requestApproval org run name args diff)
      ⟨fun _ => rfl, fun _ => rfl, fun _ => rfl⟩ rfl rfl (fun _ => rfl) rfl
    exact ⟨_, hRequested.finishRun env .awaitingApproval reason none, nofun, nofun, rfl, rfl, le_refl calls⟩

theorem runTools_going (toolCalls : List (String × Json)) (results : List (ToolResult ρ))
    (h : At org run (.going calls) s) :
    ToolsGoing org run calls ((runTools env org run toolCalls results).run (exec env) s) := by
  induction toolCalls generalizing results s with
  | nil => exact h
  | cons toolCall rest ih =>
    obtain ⟨name, args⟩ := toolCall
    have hTool := executeTool_going env ⟨org, run, "agent"⟩ name args h
    rw [runTools, run_bind]
    revert hTool
    generalize (executeTool env ⟨org, run, "agent"⟩ name args).run (exec env) s = r
    obtain ⟨outcome, s'⟩ := r
    intro hTool
    cases outcome with
    | none => exact hTool
    | some outcome =>
      have hRecorded := record_going env hTool
      by_cases hStatus : outcome.status = .needsApproval
      · rw [decide_eq_true hStatus] at hRecorded
        simp only [if_pos hStatus]
        exact approval_going env outcome.reason hRecorded
      · rw [decide_eq_false hStatus] at hRecorded
        simp only [if_neg hStatus]
        exact ih _ hRecorded

/-! ### The loop -/

/-- What the loop does to a run: its text is empty when the model has replied with nothing, and otherwise only
when no call of the model is left. -/
def LoopGoing (org run : Uuid) (total : Nat) (r : LoopEnd × AgentState W ρ) : Prop :=
  match r.1 with
  | .finalText text => ∃ calls empty, At org run { Progress.going calls with empty } r.2 ∧ calls ≤ total ∧
      (empty = true → text = "") ∧ (empty = false → text = "" → calls = total)
  | .stopped _ => Stopped org run total r.2
  | .thrown => Thrown run r.2

theorem Stopped.mono {total : Nat} (h : Stopped org run calls s) (hLe : calls ≤ total) : Stopped org run total s := by
  obtain ⟨p, hAt, hStatus, hError, hPending, hEmpty, hCalls⟩ := h
  exact ⟨p, hAt, hStatus, hError, hPending, hEmpty, hCalls.trans hLe⟩

theorem stopRun_at (h : At org run p s) (status : RunStatus) (reason : StopReason) :
    At org run { p with status, error := some reason } ((stopRun (ρ := ρ) org run status reason).run (exec env) s).2 := by
  have hStep := h.appendStep env .error (.error reason) none none none (List.nil_append p.pending)
  have hFinished := hStep.finishRun env status reason.text (some reason)
  rw [show (p.asked || asksApproval (ρ := ρ) ⟨.appendStep run .error (.error reason) none none none, ()⟩) = p.asked from
    Bool.or_false _] at hFinished
  exact hFinished

/-- A failed call of the model stops the run. -/
theorem stopRun_stopped {total : Nat} (h : At org run (.going calls) s) (hLe : calls ≤ total) {status : RunStatus}
    {reason : StopReason} (hStatus : status ≠ .running) (hReason : ∀ n, reason ≠ .callLimit n) :
    Stopped org run total ((stopRun (ρ := ρ) org run status reason).run (exec env) s).2 :=
  ⟨_, stopRun_at env h status reason, hStatus, fun n hEq => hReason n (Option.some.inj hEq), rfl, rfl, hLe⟩

theorem callModel_at (h : At org run (.going calls) s) (messages : List Message)
    (hThrown : (exec env (.callModel messages) s).1.isThrown = false) :
    At org run { Progress.going (calls + 1) with empty := (exec env (.callModel messages) s).1.isEmpty }
      (exec env (.callModel messages) s).2 :=
  h.event (e := ⟨.callModel messages, (exec env (.callModel messages) s).1⟩) h.there h.rows
    (by simp [Progress.going, handledCall?, answer]) hThrown (fun _ => rfl) rfl rfl rfl

/-- From the tool calls of a reply on. -/
theorem tools_going {total left : Nat} {messages : List Message} {reply : ModelReply} (hLe : calls ≤ total)
    (hLoop : ∀ (messages : List Message) (s : AgentState W ρ), At org run (.going calls) s →
      LoopGoing org run total ((modelLoop env org run left messages).run (exec env) s))
    (h : At org run (.going calls) s) :
    LoopGoing org run total
      ((do
        match ← runTools env org run reply.toolCalls [] with
        | .thrown => pure .thrown
        | .stopped result => pure (.stopped result)
        | .results results => do
          match ← call (.dump results) with
          | none => pure .thrown
          | some text => do
            call (.appendStep run .toolResult (.toolResult results) none none none)
            modelLoop env org run left (messages ++ [⟨"assistant", reply.text⟩, ⟨"user", text⟩]) :
          AgentM ρ LoopEnd).run (exec env) s) := by
  have hTools := runTools_going env reply.toolCalls [] h
  rw [run_bind]
  revert hTools
  generalize (runTools env org run reply.toolCalls []).run (exec env) s = r
  obtain ⟨toolsEnd, s'⟩ := r
  intro hTools
  cases toolsEnd with
  | thrown => exact hTools
  | stopped result => exact Stopped.mono hTools hLe
  | results results =>
    have hGoing : At org run (.going calls) s' := hTools
    simp only [call, run_bind, perform, run_call, run_done]
    cases hReply : (exec env (.dump results) s').1 with
    | none =>
      refine hGoing.thrown env rfl (.dump results) rfl ?_
      rw [hReply]
      rfl
    | some text =>
      have hDump := hGoing.quiet env (.dump results) ⟨fun _ => rfl, fun _ => rfl, fun _ => rfl⟩ rfl rfl
        (fun _ => rfl) (by rw [hReply]; rfl)
      exact hLoop _ _ (hDump.appendStep env .toolResult (.toolResult results) none none none rfl)

theorem modelLoop_going (left : Nat) (messages : List Message) (h : At org run (.going calls) s) :
    LoopGoing org run (calls + left) ((modelLoop env org run left messages).run (exec env) s) := by
  induction left generalizing messages calls s with
  | zero => exact ⟨calls, false, h, le_refl calls, nofun, fun _ _ => rfl⟩
  | succ left ih =>
    have hLe : calls + 1 ≤ calls + (left + 1) := by omega
    have hModel := callModel_at env h messages
    have hThrew := fun hThrown => h.thrown env rfl (.callModel messages) rfl hThrown
    have hCall : (call (.callModel messages) : AgentM ρ _).run (exec env) s = exec env (.callModel messages) s := rfl
    rw [modelLoop, run_bind, hCall]
    revert hModel hThrew
    generalize exec env (.callModel messages) s = r
    obtain ⟨a, s'⟩ := r
    intro hModel hThrew
    cases a with
    | thrown => exact hThrew rfl
    | notConfigured what => exact stopRun_stopped env (hModel rfl) hLe nofun nofun
    | failed what => exact stopRun_stopped env (hModel rfl) hLe nofun nofun
    | replied reply =>
      have hStep : At org run { Progress.going (calls + 1) with empty := (ModelAnswer.replied reply).isEmpty } _ :=
        ((hModel rfl).addUsage env reply.inputTokens reply.outputTokens 0).appendStep env .modelReply
          (.modelReply reply.text reply.toolCalls.length reply.stopReason) none none none rfl
      by_cases hCalls : reply.toolCalls.isEmpty = true
      · rw [ModelAnswer.isEmpty, hCalls, Bool.and_true] at hStep
        simp only [if_pos hCalls]
        exact ⟨calls + 1, _, hStep, hLe, of_decide_eq_true,
          fun hEmpty hText => absurd hText (of_decide_eq_false hEmpty)⟩
      · rw [ModelAnswer.isEmpty, Bool.eq_false_of_not_eq_true hCalls, Bool.and_false] at hStep
        simp only [if_neg hCalls]
        refine tools_going env hLe (fun messages' s'' hNext => ?_) hStep
        rw [Nat.add_comm left 1, ← Nat.add_assoc]
        exact ih messages' hNext

/-! ### The run -/

theorem freshId_not_mem (ids : List Uuid) : freshId ids ∉ ids := fun h =>
  Nat.not_succ_le_self _ (List.le_max_of_le' 0 h (le_refl (freshId ids)))

/-- The calls before a run is started are none that it is asked about. -/
def Unasked (trace : List (AgentEvent ρ)) : Prop :=
  ∀ e ∈ trace, handledCall? e = none ∧ isModelCall e = false ∧ emptyReply e = false ∧ threw e = false ∧
    asksApproval e = false

theorem startRun_at (hTrace : Unasked s.trace) (trigger : String) (startedBy : Option Uuid) :
    At org s.db.freshRunId (.going 0) (exec env (.startRun org trigger startedBy) s).2 := by
  have hFresh := freshId_not_mem (s.db.runs.map RunRow.id ++ s.db.steps.map StepRow.runId)
  rw [List.mem_append, not_or] at hFresh
  have hNew : Unasked (s.trace ++ [⟨.startRun org trigger startedBy, s.db.freshRunId⟩]) := fun e he => by
    rcases List.mem_append.mp he with he | he
    · exact hTrace e he
    · rw [List.mem_singleton.mp he]
      exact ⟨rfl, rfl, rfl, rfl, rfl⟩
  have hHandled : (exec env (.startRun org trigger startedBy) s).2.handled = [] :=
    List.filterMap_eq_nil_iff.mpr fun e he => (hNew e he).1
  refine ⟨⟨_, List.mem_append_right _ List.mem_cons_self, rfl⟩, ?_, ?_, ?_, ?_, ?_, ?_, ?_⟩
  · intro row hRow hId
    rcases List.mem_append.mp hRow with hRow | hRow
    · exact absurd (List.mem_map.mpr ⟨row, hRow, hId⟩) hFresh.1
    · rw [List.mem_singleton.mp hRow]
      exact ⟨rfl, rfl, rfl⟩
  · rw [hHandled]
    refine List.append_eq_nil_iff.mpr ⟨List.filterMap_eq_nil_iff.mpr fun step hStep => ?_, rfl⟩
    exact if_neg fun hId => hFresh.2 (List.mem_map.mpr ⟨step, hStep, hId⟩)
  · intro before e after hEq hAsks later hLater
    have hMem : later ∈ (exec env (.startRun org trigger startedBy) s).2.trace := by
      rw [hEq]
      simp [hLater]
    exact (hNew later hMem).1
  · exact fun e he => (hNew e he).2.2.2.1
  · exact List.any_eq_false.mpr fun e he => by simp [(hNew e he).2.2.2.2]
  · exact List.any_eq_false.mpr fun e he => by simp [(hNew e he).2.2.1]
  · exact List.countP_eq_zero.mpr fun e he => by simp [(hNew e he).2.1]

/-- When a run meets what is asked of it: nothing has thrown out of it, and the model has replied with neither
a text nor a tool call at most once, when no call of it was left. -/
structure Answered (maxModelCalls : Int) (s : AgentState W ρ) : Prop where
  limit : 0 ≤ maxModelCalls
  unthrown : ∀ e ∈ s.trace, threw e = false
  unempty : ∀ e ∈ s.trace, emptyReply e = true → (s.modelCalls : Int) = maxModelCalls

/-- A run that has thrown is neither. -/
theorem Thrown.lifecycle_iff {maxModelCalls : Int} (h : Thrown run s) :
    Lifecycle run maxModelCalls s ↔ Answered maxModelCalls s := by
  obtain ⟨⟨row, hRow, hId, hStatus⟩, e, he, hThrew⟩ := h
  refine iff_of_false (fun hLifecycle => hLifecycle.terminal row hRow hId hStatus) fun hAnswered => ?_
  exact Bool.noConfusion (hThrew.symm.trans (hAnswered.unthrown e he))

/-- A run that has come to an end is held to its number of calls. -/
theorem At.lifecycle_iff (maxModelCalls : Int) (h : At org run p s) (hStatus : p.status ≠ .running)
    (hPending : p.pending = []) :
    (Lifecycle run maxModelCalls s ↔ (p.calls : Int) ≤ maxModelCalls ∧
      ((∃ n, p.error = some (.callLimit n)) → (p.calls : Int) = maxModelCalls)) ∧
    (Answered maxModelCalls s ↔ 0 ≤ maxModelCalls ∧ (p.empty = true → (p.calls : Int) = maxModelCalls)) := by
  constructor
  · constructor
    · intro hLifecycle
      refine ⟨h.calls ▸ hLifecycle.calls, fun ⟨n, hError⟩ => ?_⟩
      obtain ⟨row, hRow, hId⟩ := h.there
      rw [← h.calls]
      exact hLifecycle.limit row hRow hId n ((h.rows row hRow hId).2.2.trans hError)
    · rintro ⟨hCalls, hLimit⟩
      refine ⟨fun row hRow hId hRunning => hStatus ((h.rows row hRow hId).2.1.symm.trans hRunning), ?_, h.approval,
        h.calls.symm ▸ hCalls, fun row hRow hId n hError => ?_⟩
      · rw [← h.recorded, hPending, List.append_nil]
      · rw [h.calls]
        exact hLimit ⟨n, (h.rows row hRow hId).2.2.symm.trans hError⟩
  · constructor
    · intro hAnswered
      refine ⟨hAnswered.limit, fun hEmpty => ?_⟩
      obtain ⟨e, he, hReply⟩ := List.any_eq_true.mp (h.empty.trans hEmpty)
      rw [← h.calls]
      exact hAnswered.unempty e he hReply
    · rintro ⟨hLimit, hEmpty⟩
      refine ⟨hLimit, h.unthrown, fun e he hReply => ?_⟩
      rw [h.calls]
      exact hEmpty (h.empty ▸ List.any_eq_true.mpr ⟨e, he, hReply⟩)

theorem Stopped.lifecycle_iff {maxModelCalls : Int} (h : Stopped org run maxModelCalls.toNat s) :
    Lifecycle run maxModelCalls s ↔ Answered maxModelCalls s := by
  obtain ⟨p, hAt, hStatus, hError, hPending, hEmpty, hCalls⟩ := h
  obtain ⟨hLifecycle, hAnswered⟩ := hAt.lifecycle_iff maxModelCalls hStatus hPending
  rw [hLifecycle, hAnswered, hEmpty]
  have hNot : ¬∃ n, p.error = some (.callLimit n) := fun ⟨n, h⟩ => hError n h
  constructor
  · rintro ⟨hLe, -⟩
    exact ⟨by omega, nofun⟩
  · rintro ⟨hLimit, -⟩
    exact ⟨by omega, fun h => absurd h hNot⟩

/-- From the end of the loop on. -/
theorem end_lifecycle_iff {maxModelCalls : Int} {r : LoopEnd × AgentState W ρ}
    (h : LoopGoing org run maxModelCalls.toNat r) {s : AgentState W ρ}
    (hEnd : s = ((match r.1 with
      | .thrown => pure none
      | .stopped result => pure (some result)
      | .finalText text => do
        if text = "" then some <$> stopRun org run .failed (.callLimit maxModelCalls)
        else do
          call (.finishRun org run .succeeded text none)
          pure (some ⟨run, .succeeded, text, none⟩) : AgentM ρ (Option RunResult)).run (exec env) r.2).2) :
    Lifecycle run maxModelCalls s ↔ Answered maxModelCalls s := by
  obtain ⟨loopEnd, s'⟩ := r
  subst hEnd
  cases loopEnd with
  | thrown => exact Thrown.lifecycle_iff h
  | stopped result => exact Stopped.lifecycle_iff h
  | finalText text =>
    obtain ⟨calls, empty, hAt, hCalls, hEmpty, hText⟩ := h
    by_cases hNothing : text = ""
    · have hStopped := stopRun_at env hAt .failed (.callLimit maxModelCalls)
      obtain ⟨hLifecycle, hAnswered⟩ := hStopped.lifecycle_iff maxModelCalls nofun rfl
      simp only [if_pos hNothing, map_eq_pure_bind, run_bind]
      refine hLifecycle.trans (Iff.trans ?_ hAnswered.symm)
      show ((calls : Int) ≤ maxModelCalls ∧ ((∃ n, some (StopReason.callLimit maxModelCalls) = some (.callLimit n)) →
        (calls : Int) = maxModelCalls)) ↔ 0 ≤ maxModelCalls ∧ (empty = true → (calls : Int) = maxModelCalls)
      have hReached := fun hFilled : empty = false => hText hFilled hNothing
      constructor
      · rintro ⟨hLe, hLimit⟩
        have hEq := hLimit ⟨maxModelCalls, rfl⟩
        exact ⟨by omega, fun _ => hEq⟩
      · rintro ⟨hLimit, hEq⟩
        refine ⟨by omega, fun _ => ?_⟩
        cases empty with
        | true => exact hEq rfl
        | false =>
          rw [hReached rfl]
          exact Int.toNat_of_nonneg hLimit
    · have hFinished := hAt.finishRun env .succeeded text none
      obtain ⟨hLifecycle, hAnswered⟩ := hFinished.lifecycle_iff maxModelCalls nofun rfl
      simp only [if_neg hNothing]
      refine hLifecycle.trans (Iff.trans ?_ hAnswered.symm)
      show ((calls : Int) ≤ maxModelCalls ∧ ((∃ n, none = some (StopReason.callLimit n)) →
        (calls : Int) = maxModelCalls)) ↔ 0 ≤ maxModelCalls ∧ (empty = true → (calls : Int) = maxModelCalls)
      have hFilled : empty = false := Bool.eq_false_of_not_eq_true fun hEq => hNothing (hEmpty hEq)
      constructor
      · rintro ⟨hLe, -⟩
        exact ⟨by omega, fun hEq => Bool.noConfusion (hFilled.symm.trans hEq)⟩
      · rintro ⟨hLimit, -⟩
        exact ⟨by omega, nofun⟩

/-- The run once its budget has been checked. -/
theorem runWithin_lifecycle_iff (hTrace : Unasked s.trace) (request : RunRequest) (limits : RunLimits) :
    Lifecycle s.db.freshRunId limits.maxModelCalls ((runWithin env request limits).run (exec env) s).2 ↔
      Answered limits.maxModelCalls ((runWithin env request limits).run (exec env) s).2 := by
  have hStarted : At request.orgId s.db.freshRunId (.going 0) _ :=
    startRun_at env hTrace request.trigger request.startedBy
  have hPrompt := hStarted.appendStep env .prompt (.prompt request.userMessage) none none none
    (List.nil_append [])
  have hLoop := modelLoop_going env limits.maxModelCalls.toNat [⟨"user", request.userMessage⟩] hPrompt
  refine end_lifecycle_iff env (Nat.zero_add _ ▸ hLoop) ?_
  simp only [runWithin, call, run_bind, perform, run_call, run_done]
  rfl

end

/-- A run is one that the lifecycle holds of exactly when nothing has thrown out of it and the model has not
replied with nothing before its last call. -/
theorem run_lifecycle_iff (env : Environment W ρ) (request : RunRequest) (limits : RunLimits) (db : AgentDb ρ) (w : W) :
    Lifecycle db.freshRunId limits.maxModelCalls ((run env request limits).run (exec env) ⟨db, w, []⟩).2 ↔
      Answered limits.maxModelCalls ((run env request limits).run (exec env) ⟨db, w, []⟩).2 := by
  cases hBudget : limits.budgetTiyn with
  | none =>
    simp only [run, hBudget]
    exact runWithin_lifecycle_iff env (s := ⟨db, w, []⟩) (fun e he => by cases he) request limits
  | some budget =>
    have hAsked : Unasked (exec env (.costSince request.orgId limits.periodStart) ⟨db, w, []⟩).2.trace := fun e he => by
      rw [List.mem_singleton.mp he]
      exact ⟨rfl, rfl, rfl, rfl, rfl⟩
    simp only [run, hBudget, call, run_bind, perform, run_call, run_done]
    show Lifecycle _ _ (Program.run (exec env)
        (if budget ≤ db.costSince request.orgId limits.periodStart then _ else _) _).2 ↔
      Answered _ (Program.run (exec env)
        (if budget ≤ db.costSince request.orgId limits.periodStart then _ else _) _).2
    by_cases hSpent : budget ≤ db.costSince request.orgId limits.periodStart
    · simp only [if_pos hSpent, map_eq_pure_bind, run_bind]
      have hStarted : At request.orgId _ (.going 0) _ :=
        startRun_at env hAsked request.trigger request.startedBy
      exact Stopped.lifecycle_iff (stopRun_stopped env hStarted (Nat.zero_le _) nofun nofun)
    · simp only [if_neg hSpent]
      exact runWithin_lifecycle_iff env hAsked request limits

/-- A model that reads the journal, with a tool that throws. -/
def brokenJournal : Environment Unit Unit where
  callModel _ w := (.replied ⟨"", [("read_journal", .obj [])], 900, 40, "tool_use"⟩, w)
  tools := Table.empty.put "read_journal" ⟨⟨"read_journal", "journal", "read"⟩, fun _ _ w => (none, w), none⟩
  dump _ := some ""

/-- The journal may be read without an approval. -/
def journalDb : AgentDb Unit := ⟨[], [], [], [⟨1, "read_journal", .auto, none, none, none, false⟩], 0⟩

/-- The run of a tool that throws is left running. -/
theorem lifecycle_broken :
    ¬Lifecycle journalDb.freshRunId 8
      ((run brokenJournal ⟨1, "chat", none, "Что в журнале?"⟩ ⟨none, 0, 8⟩).run (exec brokenJournal)
        ⟨journalDb, (), []⟩).2 := fun h =>
  h.terminal ⟨1, 1, "chat", none, .running, "", 900, 40, 0, none, 0⟩ List.mem_cons_self rfl rfl

end CyberAccountant.Agent
