import CyberAccountant.Agent.ToolRegistry
import CyberAccountant.Ledger.Journal
import CyberAccountant.Library.Json
import CyberAccountant.Library.Program
import CyberAccountant.Library.Rows
import CyberAccountant.Library.Word64
import CyberAccountant.Money.MoneyFormat

/-! A run of the agent: model, tools, model.  What the run depends on outside of the database, the model
and the tools, may reply anything at any call and may throw. -/

namespace CyberAccountant.Agent

open CyberAccountant.Library CyberAccountant.Library.Program CyberAccountant.Ledger CyberAccountant.Tenancy
open CyberAccountant.Money

/-! ### The tables -/

inductive RunStatus where
  | running
  | succeeded
  | failed
  | awaitingApproval
  | budgetExceeded
  deriving DecidableEq

/-- Why a run has stopped; the row of the run has the text. -/
inductive StopReason where
  | budget (spent limit : Int)
  | notConfigured (what : String)
  | modelFailed (what : String)
  | callLimit (maxModelCalls : Int)
  deriving DecidableEq

def StopReason.text : StopReason → String
  | .budget spent limit =>
    "бюджет организации исчерпан: потрачено " ++ toString spent ++ " тиын при пределе " ++ toString limit
  | .notConfigured what => what
  | .modelFailed what => "обращение к модели не удалось: " ++ what
  | .callLimit maxModelCalls =>
    "прогон остановлен: достигнут предел обращений к модели (" ++ toString maxModelCalls ++ ")"

/-- A row of `agent_runs`. -/
structure RunRow where
  id : Uuid
  orgId : Uuid
  trigger : String
  startedBy : Option Uuid
  status : RunStatus
  summary : String
  inputTokens : Int
  outputTokens : Int
  costTiyn : Int
  error : Option StopReason
  createdAt : Timestamp

inductive StepKind where
  | prompt
  | modelReply
  | toolCall
  | toolResult
  | error
  deriving DecidableEq

/-- What a tool call has come to, as the model is told. -/
structure ToolResult (ρ : Type) where
  tool : String
  status : ToolStatus
  result : Option ρ
  reason : String

inductive StepPayload (ρ : Type) where
  | prompt (text : String)
  | modelReply (text : String) (toolCalls : Nat) (stopReason : String)
  | toolCall (args : Json) (status : ToolStatus)
  | toolResult (results : List (ToolResult ρ))
  | error (reason : StopReason)

/-- A row of `agent_steps`. -/
structure StepRow (ρ : Type) where
  runId : Uuid
  seq : Nat
  kind : StepKind
  tool : Option String
  payload : StepPayload ρ
  policyDecision : Option Mode
  policyReason : Option String

/-- A row of `approval_requests` as it is inserted. -/
structure ApprovalRow where
  id : Uuid
  orgId : Uuid
  runId : Uuid
  action : String
  payload : Json
  humanDiff : String

structure AgentDb (ρ : Type) where
  runs : List RunRow
  steps : List (StepRow ρ)
  approvals : List ApprovalRow
  policies : List PolicyRow
  now : Timestamp

/-- An id that is not among the given ones. -/
def freshId (ids : List Uuid) : Uuid := ids.foldr max 0 + 1

namespace AgentDb

variable {ρ : Type} (db : AgentDb ρ)

/-- The id of the next run. -/
def freshRunId : Uuid := freshId (db.runs.map RunRow.id ++ db.steps.map StepRow.runId)

def costSince (org : Uuid) (since : Timestamp) : Int :=
  ((db.runs.filter fun row => row.orgId = org ∧ since ≤ row.createdAt).map RunRow.costTiyn).sum

def startRun (org : Uuid) (trigger : String) (startedBy : Option Uuid) : AgentDb ρ :=
  { db with
    runs := db.runs ++ [⟨db.freshRunId, org, trigger, startedBy, .running, "", 0, 0, 0, none, db.now⟩] }

def appendStep (run : Uuid) (kind : StepKind) (payload : StepPayload ρ) (tool : Option String) (decision : Option Mode)
    (reason : Option String) : AgentDb ρ :=
  let seq := ((db.steps.filter fun step => step.runId = run).map StepRow.seq).foldr max 0 + 1
  { db with steps := db.steps ++ [⟨run, seq, kind, tool, payload, decision, reason⟩] }

/-- `UPDATE agent_runs SET … WHERE id AND org_id`. -/
def updateRun (org run : Uuid) (f : RunRow → RunRow) : AgentDb ρ :=
  { db with runs := changeRow RunRow.id db.runs run fun row => if row.orgId = org then f row else row }

def requestApproval (org run : Uuid) (action : String) (payload : Json) (humanDiff : String) : AgentDb ρ :=
  { db with
    approvals := db.approvals ++ [⟨freshId (db.approvals.map ApprovalRow.id), org, run, action, payload, humanDiff⟩] }

end AgentDb

def RunRow.finished (status : RunStatus) (summary : String) (error : Option StopReason) (row : RunRow) : RunRow :=
  { row with status, summary, error }

def RunRow.withUsage (inputTokens outputTokens costTiyn : Int) (row : RunRow) : RunRow :=
  { row with
    inputTokens := row.inputTokens + inputTokens
    outputTokens := row.outputTokens + outputTokens
    costTiyn := row.costTiyn + costTiyn }

/-! ### The model and the tools -/

structure Message where
  role : String
  content : String

structure ModelReply where
  text : String
  toolCalls : List (String × Json)
  inputTokens : Int
  outputTokens : Int
  stopReason : String

/-- A call of the model ends with a reply, with `NotConfigured`, with another `std::exception` or with
anything else that may be thrown. -/
inductive ModelAnswer where
  | replied (reply : ModelReply)
  | notConfigured (what : String)
  | failed (what : String)
  | thrown

/-- A tool whose handler and extractor depend on a world that they change; without a result they throw. -/
structure ToolEntry (W ρ : Type) where
  spec : ToolSpec
  handler : ToolContext → Json → W → Option ρ × W
  extractor : Option (Json → W → Option Action × W)

/-- What a run depends on: the caller of the model, the tools by name, and the text of the results, which is
missing where it is not UTF-8. -/
structure Environment (W ρ : Type) where
  callModel : List Message → W → ModelAnswer × W
  tools : Table String (ToolEntry W ρ)
  dump : List (ToolResult ρ) → Option String

/-- The action as a person reads it; nothing where its amount is negative. -/
def humanDiff (action : String) (args : Json) : Option String :=
  let withAmount :=
    match Json.member args.members "amount_tiyn" with
    | some (.int n) => (formatTiynRu (wrap64 n)).map fun amount => action ++ ", сумма " ++ amount ++ " ₸"
    | _ => some action
  withAmount.map fun out =>
    let out :=
      match Json.member args.members "counterparty_name" with
      | some (.str name) => out ++ ", контрагент " ++ name
      | _ => out
    match Json.member args.members "doc_type" with
    | some (.str docType) => out ++ ", документ " ++ docType
    | _ => out

/-! ### Calls -/

inductive AgentCommand (ρ : Type) where
  | costSince (org : Uuid) (since : Timestamp)
  | startRun (org : Uuid) (trigger : String) (startedBy : Option Uuid)
  | appendStep (run : Uuid) (kind : StepKind) (payload : StepPayload ρ) (tool : Option String) (decision : Option Mode)
      (reason : Option String)
  | finishRun (org run : Uuid) (status : RunStatus) (summary : String) (error : Option StopReason)
  | addUsage (org run : Uuid) (inputTokens outputTokens costTiyn : Int)
  | findPolicy (org : Uuid) (action : String)
  | requestApproval (org run : Uuid) (action : String) (payload : Json) (humanDiff : String)
  | callModel (messages : List Message)
  | extract (name : String) (args : Json)
  | handle (ctx : ToolContext) (name : String) (args : Json)
  | humanDiff (action : String) (args : Json)
  | dump (results : List (ToolResult ρ))

/-- A call that has no value in its reply has thrown. -/
@[reducible] def AgentCommand.Reply {ρ : Type} : AgentCommand ρ → Type
  | .costSince _ _ => Int
  | .startRun _ _ _ | .requestApproval _ _ _ _ _ => Uuid
  | .appendStep _ _ _ _ _ _ | .finishRun _ _ _ _ _ | .addUsage _ _ _ _ _ => Unit
  | .findPolicy _ _ => Option Policy
  | .callModel _ => ModelAnswer
  | .extract _ _ => Option Action
  | .handle _ _ _ => Option ρ
  | .humanDiff _ _ | .dump _ => Option String

/-- A call and its reply. -/
abbrev AgentEvent (ρ : Type) : Type := (c : AgentCommand ρ) × c.Reply

/-- The tables, the world, and what has been called so far, which no table holds. -/
structure AgentState (W ρ : Type) where
  db : AgentDb ρ
  world : W
  trace : List (AgentEvent ρ)

section

variable {W ρ : Type} (env : Environment W ρ)

/-- What a call replies and does to the tables and the world. -/
def answer : (c : AgentCommand ρ) → AgentDb ρ → W → c.Reply × AgentDb ρ × W
  | .costSince org since, db, w => (db.costSince org since, db, w)
  | .startRun org trigger startedBy, db, w => (db.freshRunId, db.startRun org trigger startedBy, w)
  | .appendStep run kind payload tool decision reason, db, w =>
    ((), db.appendStep run kind payload tool decision reason, w)
  | .finishRun org run status summary error, db, w => ((), db.updateRun org run (.finished status summary error), w)
  | .addUsage org run inputTokens outputTokens costTiyn, db, w =>
    ((), db.updateRun org run (.withUsage inputTokens outputTokens costTiyn), w)
  | .findPolicy org action, db, w => (Agent.findPolicy db.policies org action, db, w)
  | .requestApproval org run action payload humanDiff, db, w =>
    (freshId (db.approvals.map ApprovalRow.id), db.requestApproval org run action payload humanDiff, w)
  | .callModel messages, db, w => ((env.callModel messages w).1, db, (env.callModel messages w).2)
  | .extract name args, db, w =>
    match (env.tools name).bind ToolEntry.extractor with
    | none => (none, db, w)
    | some extract => ((extract args w).1, db, (extract args w).2)
  | .handle ctx name args, db, w =>
    match env.tools name with
    | none => (none, db, w)
    | some entry => ((entry.handler ctx args w).1, db, (entry.handler ctx args w).2)
  | .humanDiff action args, db, w => (Agent.humanDiff action args, db, w)
  | .dump results, db, w => (env.dump results, db, w)

def exec (c : AgentCommand ρ) (s : AgentState W ρ) : c.Reply × AgentState W ρ :=
  ((answer env c s.db s.world).1,
    ⟨(answer env c s.db s.world).2.1, (answer env c s.db s.world).2.2,
      s.trace ++ [⟨c, (answer env c s.db s.world).1⟩]⟩)

abbrev AgentM (ρ α : Type) : Type := Program (AgentCommand ρ) AgentCommand.Reply α

def call (c : AgentCommand ρ) : AgentM ρ c.Reply := perform c

/-! ### The run -/

structure RunRequest where
  orgId : Uuid
  trigger : String
  startedBy : Option Uuid
  userMessage : String

structure RunLimits where
  budgetTiyn : Option Int
  periodStart : Timestamp
  maxModelCalls : Int

structure RunResult where
  runId : Uuid
  status : RunStatus
  summary : String
  approvalId : Option Uuid

/-- The one way to run a tool; nothing where an exception leaves it. -/
def executeTool (ctx : ToolContext) (name : String) (args : Json) : AgentM ρ (Option (ToolOutcome ρ)) :=
  match env.tools name with
  | none => pure (some ⟨.refused, none, "инструмент '" ++ name ++ "' не существует", none⟩)
  | some entry =>
    if ¬allows ctx.role entry.spec.resource entry.spec.action then
      pure (some ⟨.refused, none, "роли '" ++ ctx.role ++ "' не разрешён доступ '" ++ entry.spec.action ++ "' к '" ++
        entry.spec.resource ++ "'", none⟩)
    else do
      let action ← if entry.extractor.isSome then call (.extract name args) else pure (some ⟨"", none, none, none, false⟩)
      match action with
      | none => pure none
      | some action => do
        let policy ← call (.findPolicy ctx.orgId name)
        let decision := evaluate policy { action with name := name }
        match decision.mode with
        | .forbid => pure (some ⟨.refused, none, decision.reason, some .forbid⟩)
        | .approve => pure (some ⟨.needsApproval, none, decision.reason, some .approve⟩)
        | .auto => do
          match ← call (.handle ctx name args) with
          | none => pure none
          | some result => pure (some ⟨.executed, some result, decision.reason, some .auto⟩)

/-- How the tool calls of a reply end. -/
inductive ToolsEnd (ρ : Type) where
  | results (results : List (ToolResult ρ))
  | stopped (result : RunResult)
  | thrown

/-- The tool calls of a reply, until one needs an approval. -/
def runTools (org run : Uuid) : List (String × Json) → List (ToolResult ρ) → AgentM ρ (ToolsEnd ρ)
  | [], results => pure (.results results)
  | (name, args) :: rest, results => do
    match ← executeTool env ⟨org, run, "agent"⟩ name args with
    | none => pure .thrown
    | some outcome => do
      call (.appendStep run .toolCall (.toolCall args outcome.status) (some name) outcome.policyMode (some outcome.reason))
      if outcome.status = .needsApproval then do
        match ← call (.humanDiff name args) with
        | none => pure .thrown
        | some diff => do
          let approval ← call (.requestApproval org run name args diff)
          call (.finishRun org run .awaitingApproval outcome.reason none)
          pure (.stopped ⟨run, .awaitingApproval, outcome.reason, some approval⟩)
      else runTools org run rest (results ++ [⟨name, outcome.status, outcome.result, outcome.reason⟩])

/-- How the loop of calls of the model ends. -/
inductive LoopEnd where
  | finalText (text : String)
  | stopped (result : RunResult)
  | thrown

/-- Records why the run has stopped. -/
def stopRun (org run : Uuid) (status : RunStatus) (reason : StopReason) : AgentM ρ RunResult := do
  call (.appendStep run .error (.error reason) none none none)
  call (.finishRun org run status reason.text (some reason))
  pure ⟨run, status, reason.text, none⟩

/-- The loop, with the number of calls of the model that are left. -/
def modelLoop (org run : Uuid) : Nat → List Message → AgentM ρ LoopEnd
  | 0, _ => pure (.finalText "")
  | left + 1, messages => do
    match ← call (.callModel messages) with
    | .thrown => pure .thrown
    | .notConfigured what => .stopped <$> stopRun org run .failed (.notConfigured what)
    | .failed what => .stopped <$> stopRun org run .failed (.modelFailed what)
    | .replied reply => do
      call (.addUsage org run reply.inputTokens reply.outputTokens 0)
      call (.appendStep run .modelReply (.modelReply reply.text reply.toolCalls.length reply.stopReason) none none none)
      if reply.toolCalls.isEmpty then pure (.finalText reply.text)
      else do
        match ← runTools env org run reply.toolCalls [] with
        | .thrown => pure .thrown
        | .stopped result => pure (.stopped result)
        | .results results => do
          match ← call (.dump results) with
          | none => pure .thrown
          | some text => do
            call (.appendStep run .toolResult (.toolResult results) none none none)
            modelLoop org run left (messages ++ [⟨"assistant", reply.text⟩, ⟨"user", text⟩])

/-- The run once its budget has been checked. -/
def runWithin (request : RunRequest) (limits : RunLimits) : AgentM ρ (Option RunResult) := do
  let run ← call (.startRun request.orgId request.trigger request.startedBy)
  call (.appendStep run .prompt (.prompt request.userMessage) none none none)
  match ← modelLoop env request.orgId run limits.maxModelCalls.toNat [⟨"user", request.userMessage⟩] with
  | .thrown => pure none
  | .stopped result => pure (some result)
  | .finalText text => do
    if text = "" then some <$> stopRun request.orgId run .failed (.callLimit limits.maxModelCalls)
    else do
      call (.finishRun request.orgId run .succeeded text none)
      pure (some ⟨run, .succeeded, text, none⟩)

/-- `Orchestrator::run`; nothing where an exception leaves it. -/
def run (request : RunRequest) (limits : RunLimits) : AgentM ρ (Option RunResult) := do
  match limits.budgetTiyn with
  | none => runWithin env request limits
  | some budget => do
    let spent ← call (.costSince request.orgId limits.periodStart)
    if budget ≤ spent then do
      let run ← call (.startRun request.orgId request.trigger request.startedBy)
      some <$> stopRun request.orgId run .budgetExceeded (.budget spent budget)
    else runWithin env request limits

end

end CyberAccountant.Agent
