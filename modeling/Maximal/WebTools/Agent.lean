import Maximal.Messages.AnthropicTypes
import Maximal.WebTools.Execution

/-!
# Web tools: the agent loop

`runAgentLoop` asks the upstream for whole responses. As long as a response calls web tools, they
are executed and their results are sent back in a follow-up request.

## Main definitions

- `TurnMessage` — a message of a request: given by the client or appended by the loop
- `UsageTotal`, `accumulateTurnUsage`
- `weaveTurn`, `synthesizeFinalResponse`
- `runAgentLoop`
-/

namespace Maximal.WebTools

open Js

/-- How a request can end without a response. -/
inductive Failure where
  | upstream
  | nonStreaming
  | invalidJson
  | type (e : TypeError)
  deriving DecidableEq

inductive TurnMessage where
  | given (message : AnthropicMessage)
  | assistant (content : List AnthropicAssistantContentBlock)
  | toolResults (results : List ToolResult)

/-! ## Usage -/

/-- The usage that a response reports. -/
structure TurnUsage where
  inputTokens : Val
  outputTokens : Val
  cacheCreationInputTokens : Val := none
  cacheReadInputTokens : Val := none
  serviceTier : Val := none

structure AnthropicResponse where
  id : Val
  model : Val
  content : List AnthropicAssistantContentBlock
  stopReason : StopReasonValue
  usage : TurnUsage
  /-- `copilot_usage?.total_nano_aiu`. -/
  totalNanoAiu : Val := none

structure UsageTotal where
  inputTokens : Json
  outputTokens : Json
  cacheCreationInputTokens : Val
  cacheReadInputTokens : Val
  serviceTier : Val
  copilotTotalNanoAiu : Val
  deriving DecidableEq

def newUsageTotal : UsageTotal :=
  ⟨.number (.ofNat 0), .number (.ofNat 0), none, none, none, none⟩

/-- A count that is reported only once a turn has reported it. -/
def addIfReported (total reported : Val) : Except TypeError Val :=
  match reported with
  | none => .ok total
  | some n => (Val.plus (total.orElse (.number (.ofNat 0))) n).map some

def accumulateTurnUsage (total : UsageTotal) (resp : AnthropicResponse) :
    Except TypeError UsageTotal := do
  let u := resp.usage
  let inputTokens ← Val.plus total.inputTokens u.inputTokens
  let outputTokens ← Val.plus total.outputTokens u.outputTokens
  let cacheCreation ← addIfReported total.cacheCreationInputTokens u.cacheCreationInputTokens
  let cacheRead ← addIfReported total.cacheReadInputTokens u.cacheReadInputTokens
  let nano ← addIfReported total.copilotTotalNanoAiu resp.totalNanoAiu
  return ⟨inputTokens, outputTokens, cacheCreation, cacheRead,
    u.serviceTier <|> total.serviceTier, nano⟩

/-! ## Turns -/

structure RoundTrip where
  toolUseId : Val
  outcome : ExecOutcome

structure Turn where
  assistant : List AnthropicAssistantContentBlock
  trips : List RoundTrip

/-- A call of a web tool, and which one it is. -/
def ourToolUse? (block : AnthropicAssistantContentBlock) :
    Option (AnthropicToolUseBlock × ToolName) :=
  block.toolUse?.bind fun tu => (toolName? tu.name).map (tu, ·)

/-- The calls of web tools of a content. -/
def ours (content : List AnthropicAssistantContentBlock) :
    List (AnthropicToolUseBlock × ToolName) :=
  content.filterMap ourToolUse?

/-- The loop goes on after this response. -/
def continues (resp : AnthropicResponse) : Bool :=
  !(ours resp.content).isEmpty && resp.stopReason = .reason .toolUse

section

variable (platform : Platform) (executor : Executor)

/-- One execution for each call, in order. -/
def executeAll : List (AnthropicToolUseBlock × ToolName) → Execution →
    List (AnthropicToolUseBlock × ExecOutcome) × Execution
  | [], x => ([], x)
  | (tu, name) :: rest, x =>
    let (outcome, x) := executeToolUse platform executor name tu.input x
    let (outcomes, x) := executeAll rest x
    ((tu, outcome) :: outcomes, x)

theorem executeAll_append (calls calls' : List (AnthropicToolUseBlock × ToolName))
    (x : Execution) :
    executeAll platform executor (calls ++ calls') x =
      ((executeAll platform executor calls x).1 ++
          (executeAll platform executor calls' (executeAll platform executor calls x).2).1,
        (executeAll platform executor calls' (executeAll platform executor calls x).2).2) := by
  induction calls generalizing x with
  | nil => rfl
  | cons call calls ih =>
    obtain ⟨tu, name⟩ := call
    simp only [List.cons_append, executeAll, ih]

/-! ## Synthesis -/

inductive SynthesizedBlock where
  | assistant (block : AnthropicAssistantContentBlock)
  | serverToolUse (block : AnthropicToolUseBlock)
  | result (block : ResultOutBlock)

/-- The last of several round trips with one id counts. -/
def tripById (trips : List RoundTrip) (id : Val) : Option RoundTrip :=
  trips.reverse.find? (·.toolUseId = id)

def weaveBlock (trips : List RoundTrip) (block : AnthropicAssistantContentBlock) :
    List SynthesizedBlock :=
  match block.toolUse? with
  | none => [.assistant block]
  | some tu =>
    match tripById trips tu.id with
    | none => [.assistant block]
    | some trip =>
      [.serverToolUse tu,
        .result (buildResultBlockForOutcome platform trip.toolUseId trip.outcome)]

def weaveTurn (turn : Turn) : List SynthesizedBlock :=
  if turn.trips.isEmpty then turn.assistant.map .assistant
  else turn.assistant.flatMap (weaveBlock platform turn.trips)

structure FinalResponse where
  id : Val
  model : Val
  content : List SynthesizedBlock
  stopReason : StopReasonValue
  usage : UsageTotal

def synthesizeFinalResponse (last : AnthropicResponse) (turns : List Turn)
    (usageTotal : UsageTotal) : FinalResponse where
  id := last.id
  model := last.model
  content := turns.flatMap (weaveTurn platform)
  stopReason := last.stopReason
  usage := usageTotal

/-! ## The loop -/

structure AgentState where
  messages : List TurnMessage
  turns : List Turn
  usageTotal : UsageTotal
  execution : Execution

/-- The message lists sent upstream, the executor calls made, and how the request ended. -/
structure AgentRun where
  sent : List (List TurnMessage)
  calls : List ExecutorCall
  result : Except Failure FinalResponse

/-- What a turn that goes on adds to the state. -/
def AgentState.followUp (s : AgentState) (content : List AnthropicAssistantContentBlock)
    (usageTotal : UsageTotal) : AgentState :=
  let (outcomes, execution) := executeAll platform executor (ours content) s.execution
  { messages := s.messages ++
      [.assistant content,
        .toolResults (outcomes.map fun o => buildToolResultMessage platform o.1.id o.2)]
    turns := s.turns ++ [⟨content, outcomes.map fun o => ⟨o.1.id, o.2⟩⟩]
    usageTotal
    execution }

/-- The turns from here on, `left` of them after this one; `callOnce` answers by the number of
the turn. -/
def agentLoop (callOnce : ℕ → Except Failure AnthropicResponse) (left : ℕ) (s : AgentState) :
    AgentRun :=
  match callOnce s.turns.length with
  | .error e => ⟨[s.messages], s.execution.calls, .error e⟩
  | .ok resp =>
    match accumulateTurnUsage s.usageTotal resp with
    | .error e => ⟨[s.messages], s.execution.calls, .error (.type e)⟩
    | .ok usageTotal =>
      if continues resp then
        let s' := s.followUp platform executor resp.content usageTotal
        match left with
        | 0 =>
          ⟨[s.messages], s'.execution.calls,
            .ok (synthesizeFinalResponse platform resp s'.turns usageTotal)⟩
        | left + 1 =>
          let rest := agentLoop callOnce left s'
          { rest with sent := s.messages :: rest.sent }
      else
        ⟨[s.messages], s.execution.calls,
          .ok (synthesizeFinalResponse platform resp (s.turns ++ [⟨resp.content, []⟩]) usageTotal)⟩

/-- A run that ends with a response ends with this turn, or goes on with the next one. -/
theorem agentLoop_cases {callOnce : ℕ → Except Failure AnthropicResponse} {left : ℕ}
    {s : AgentState} {response : FinalResponse}
    (h : (agentLoop platform executor callOnce left s).result = .ok response) :
    ∃ resp usageTotal, callOnce s.turns.length = .ok resp ∧
      accumulateTurnUsage s.usageTotal resp = .ok usageTotal ∧
      (continues resp = false ∧
          agentLoop platform executor callOnce left s =
            ⟨[s.messages], s.execution.calls, .ok (synthesizeFinalResponse platform resp
              (s.turns ++ [⟨resp.content, []⟩]) usageTotal)⟩ ∨
        continues resp = true ∧ left = 0 ∧
          agentLoop platform executor callOnce left s =
            ⟨[s.messages], (s.followUp platform executor resp.content usageTotal).execution.calls,
              .ok (synthesizeFinalResponse platform resp
                (s.followUp platform executor resp.content usageTotal).turns usageTotal)⟩ ∨
        continues resp = true ∧ ∃ left', left = left' + 1 ∧
          agentLoop platform executor callOnce left s =
            { agentLoop platform executor callOnce left'
                (s.followUp platform executor resp.content usageTotal) with
              sent := s.messages :: (agentLoop platform executor callOnce left'
                (s.followUp platform executor resp.content usageTotal)).sent }) := by
  rw [agentLoop.eq_def] at h ⊢
  cases hresp : callOnce s.turns.length with
  | error e =>
    rw [hresp] at h
    cases h
  | ok resp =>
    simp only [hresp] at h ⊢
    cases husage : accumulateTurnUsage s.usageTotal resp with
    | error e =>
      simp only [husage] at h
      cases h
    | ok usageTotal =>
      refine ⟨resp, usageTotal, rfl, husage, ?_⟩
      cases hcontinues : continues resp with
      | false => exact .inl ⟨rfl, by simp⟩
      | true =>
        cases left with
        | zero => exact .inr (.inl ⟨rfl, rfl, by simp⟩)
        | succ left => exact .inr (.inr ⟨rfl, left, rfl, by simp⟩)

def initialState (messages : List AnthropicMessage) (declarations : List WebToolDecl) :
    AgentState :=
  ⟨messages.map .given, [], newUsageTotal, ⟨newRequestState declarations, []⟩⟩

def runAgentLoop (callOnce : ℕ → Except Failure AnthropicResponse)
    (messages : List AnthropicMessage) (declarations : List WebToolDecl) : AgentRun :=
  agentLoop platform executor callOnce (MAX_AGENT_TURNS - 1) (initialState messages declarations)

end

end Maximal.WebTools
