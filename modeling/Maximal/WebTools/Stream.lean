import Maximal.Lib.Js.Map
import Maximal.Messages.StreamTranslation
import Maximal.WebTools.Agent

/-!
# Web tools: the streaming agent

`runStreamingAgent` passes the events of each upstream turn on to the client while they come. A
call of a web tool is executed when its block stops, and its result becomes a block of its own.
The pings of the keepalive timer are left out.

## Main definitions

- `ClientEvent` — what is written to the client
- `OpenBlock`, `Dispatch` — the blocks of a turn that are open, and what the turn has collected
- `dispatchEvent`, `readFrames` — one event, and all frames of a turn
- `runStreamingAgent`
-/

namespace Maximal.WebTools

open Js

inductive ClientEvent where
  /-- An event of the upstream turn, with the index of the client. -/
  | forward (event : AnthropicStreamEventData)
  | serverToolUseStart (index : ℕ) (id name : Val)
  | resultStart (index : ℕ) (block : ResultOutBlock)
  /-- The last event but one, with the usage of all turns. -/
  | messageDelta (stopReason : StopReasonValue) (usage : UsageTotal)

structure OpenBlock where
  clientIndex : ℕ
  partialJson : String
  /-- The id and the name of a call of a web tool. -/
  toolUse : Option (Val × ToolName)
  text : String
  thinking : String
  blockKind : BlockKind

def OpenBlock.isWebTool (b : OpenBlock) : Bool := b.toolUse.isSome

structure Dispatch where
  upstreamToClient : Entries ℕ OpenBlock
  next : ℕ
  messageStartEmitted : Bool
  execution : Execution
  outcomes : List (AnthropicToolUseBlock × ExecOutcome)
  assistantContent : List AnthropicAssistantContentBlock
  bufferedFinal : List AnthropicStreamEventData
  stopReason : StopReasonValue
  written : List ClientEvent

namespace Dispatch

def write (d : Dispatch) (events : List ClientEvent) : Dispatch :=
  { d with written := d.written ++ events }

/-- What is open under an index; a number finds the key of its value. -/
def openAt (d : Dispatch) : BlockIndex → Option (ℕ × OpenBlock)
  | .at n => (d.upstreamToClient.get n).map (n, ·)
  | .other (some (.number x)) =>
    d.upstreamToClient.find? fun entry => (Number.ofNat entry.1).text = x.text
  | .other _ => none

end Dispatch

def webTool? : ContentBlock → Option (Val × ToolName)
  | .toolUse id name => (toolName? name).map (id, ·)
  | _ => none

/-- The object in the arguments of a call, if they are one. -/
def parseToolInput (platform : Platform) (partialJson : String) : Json :=
  if partialJson = "" then .object []
  else
    match platform.parse partialJson with
    | some (.object fields) => .object fields
    | _ => .object []

/-- The start of a block for the client; the call of a web tool is one of the server. -/
def startEvent (clientIndex : ℕ) (block : ContentBlock) : ClientEvent :=
  match webTool? block with
  | some (id, name) => .serverToolUseStart clientIndex id (some (.string name.text))
  | none => .forward (.contentBlockStart clientIndex block)

def handleBlockStart (index : ℕ) (block : ContentBlock) (d : Dispatch) : Dispatch :=
  { d with
    next := d.next + 1
    upstreamToClient :=
      d.upstreamToClient.set index ⟨d.next, "", webTool? block, "", "", block.kind⟩
    written := d.written ++ [startEvent d.next block] }

/-- What a delta adds to the block it is for. -/
def OpenBlock.add (b : OpenBlock) : BlockDelta → Except TypeError OpenBlock
  | .inputJsonDelta partialJson =>
    if b.isWebTool then partialJson.text.map fun t => { b with partialJson := b.partialJson ++ t }
    else .ok b
  | .textDelta text =>
    if b.blockKind = .text then text.text.map fun t => { b with text := b.text ++ t } else .ok b
  | .thinkingDelta thinking =>
    if b.blockKind = .thinking then
      thinking.text.map fun t => { b with thinking := b.thinking ++ t }
    else .ok b
  | .signatureDelta _ => .ok b

def handleBlockDelta (index : BlockIndex) (delta : BlockDelta) (d : Dispatch) :
    Except TypeError Dispatch :=
  match d.openAt index with
  | none => .ok d
  | some (key, b) =>
    (b.add delta).map fun b' =>
      { d with
        upstreamToClient := d.upstreamToClient.set key b'
        written := d.written ++ [.forward (.contentBlockDelta (.at b.clientIndex) delta)] }

section

variable (platform : Platform) (executor : Executor)

/-- The execution of a call whose block has stopped, and the block of its result. -/
def finishWebTool (id : Val) (name : ToolName) (partialJson : String) (d : Dispatch) : Dispatch :=
  let tu : AnthropicToolUseBlock :=
    ⟨id, some (.string name.text), parseToolInput platform partialJson⟩
  let (outcome, execution) := executeToolUse platform executor name tu.input d.execution
  { d with
    execution
    assistantContent := d.assistantContent ++ [.toolUse tu]
    outcomes := d.outcomes ++ [(tu, outcome)]
    next := d.next + 1
    written := d.written ++
      [.resultStart d.next (buildResultBlockForOutcome platform id outcome),
        .forward (.contentBlockStop d.next)] }

def handleBlockStop (index : ℕ) (d : Dispatch) : Dispatch :=
  match d.upstreamToClient.get index with
  | none => d
  | some b =>
    let d :=
      { d with
        upstreamToClient := d.upstreamToClient.delete index
        written := d.written ++ [.forward (.contentBlockStop b.clientIndex)] }
    match b.blockKind, b.toolUse with
    | .text, _ =>
      { d with assistantContent := d.assistantContent ++ [.text (.string b.text)] }
    -- a thinking block without its signature would be rejected in the next turn
    | .thinking, _ => d
    | .toolUse, some (id, name) => finishWebTool platform executor id name b.partialJson d
    | .toolUse, none => d

def dispatchEvent (event : AnthropicStreamEventData) (d : Dispatch) : Except TypeError Dispatch :=
  match event with
  | .messageStart _ _ _ =>
    .ok (if d.messageStartEmitted then d
      else { d with messageStartEmitted := true, written := d.written ++ [.forward event] })
  | .contentBlockStart index block => .ok (handleBlockStart index block d)
  | .contentBlockDelta index delta => handleBlockDelta index delta d
  | .contentBlockStop index => .ok (handleBlockStop platform executor index d)
  | .messageDelta stopReason _ =>
    .ok { d with
      bufferedFinal := d.bufferedFinal ++ [event]
      stopReason := if stopReason = .undefined then .null else stopReason }
  | .messageStop => .ok { d with bufferedFinal := d.bufferedFinal ++ [event] }
  | .ping => .ok { d with written := d.written ++ [.forward event] }
  | .error _ => .ok { d with written := d.written ++ [.forward event] }

/-- All events of a chunk, up to one that throws. -/
def dispatchAll : List AnthropicStreamEventData → Dispatch → Dispatch × Option TypeError
  | [], d => (d, none)
  | event :: events, d =>
    match dispatchEvent platform executor event d with
    | .error e => (d, some e)
    | .ok d' => dispatchAll events d'

/-- What an upstream answers to a streaming request: the data of its frames, and how the stream
breaks off, if it does. -/
inductive UpstreamAnswer where
  | rejected
  | nonStreaming
  | stream (frames : List (Option String)) (failure : Option Failure)

/-- The frames of a turn, one after the other. -/
def readFrames (failure : Option Failure) :
    List (Option String) → AnthropicStreamState → Dispatch → Dispatch × Option Failure
  | [], _, d => (d, failure)
  | data :: frames, innerState, d =>
    if data = some "[DONE]" then (d, none)
    else if data.getD "" = "" then readFrames failure frames innerState d
    else
      match platform.parse (data.getD "") with
      | none => (d, some .invalidJson)
      | some chunk =>
        match translateChunkToAnthropicEvents chunk innerState with
        | .error e => (d, some (.type e))
        | .ok (_, innerState, events) =>
          match dispatchAll platform executor events d with
          | (d, some e) => (d, some (.type e))
          | (d, none) => readFrames failure frames innerState d

/-! ## The loop -/

/-- Events without a usage do not count; every event the translator sends has one. -/
def accumulateUsage (total : UsageTotal) :
    List AnthropicStreamEventData → Except TypeError UsageTotal
  | [] => .ok total
  | .messageDelta _ u :: events => do
    let inputTokens ← Val.plus total.inputTokens (some (.number u.inputTokens))
    let outputTokens ← Val.plus total.outputTokens u.outputTokens
    let cacheRead ← addIfReported total.cacheReadInputTokens u.cacheReadInputTokens
    accumulateUsage { total with
      inputTokens, outputTokens, cacheReadInputTokens := cacheRead } events
  | _ :: events => accumulateUsage total events

/-- What is left of one turn when the next one starts. -/
structure StreamState where
  messages : List TurnMessage
  next : ℕ
  messageStartEmitted : Bool
  usageTotal : UsageTotal
  execution : Execution
  written : List ClientEvent

/-- The message lists sent upstream, the executor calls made, the events written to the client,
and why the request broke off, if it did. -/
structure StreamRun where
  sent : List (List TurnMessage)
  calls : List ExecutorCall
  written : List ClientEvent
  failure : Option Failure

def startTurn (s : StreamState) : Dispatch :=
  ⟨[], s.next, s.messageStartEmitted, s.execution, [], [], [], .null, s.written⟩

/-- The turn called web tools, and its results are sent back. -/
def Dispatch.continues (d : Dispatch) : Bool :=
  d.stopReason = .reason .toolUse && !d.outcomes.isEmpty

/-- The state in which the next turn starts. -/
def Dispatch.followUp (d : Dispatch) (messages : List TurnMessage) (usageTotal : UsageTotal) :
    StreamState where
  messages := messages ++
    [.assistant d.assistantContent,
      .toolResults (d.outcomes.map fun o => buildToolResultMessage platform o.1.id o.2)]
  next := d.next
  messageStartEmitted := d.messageStartEmitted
  usageTotal
  execution := d.execution
  written := d.written

/-- The terminal events of the last turn. -/
def finalEvents (usageTotal : UsageTotal) (bufferedFinal : List AnthropicStreamEventData) :
    List ClientEvent :=
  bufferedFinal.map fun
    | .messageDelta stopReason _ => .messageDelta stopReason usageTotal
    | event => .forward event

def StreamState.broken (s : StreamState) (d : Dispatch) (failure : Failure) : StreamRun :=
  ⟨[s.messages], d.execution.calls, d.written, some failure⟩

/-- The turns from here on, `left` of them after this one; `turn` is the number of this one. -/
def streamLoop (upstreamCall : ℕ → UpstreamAnswer) (turn left : ℕ) (s : StreamState) :
    StreamRun :=
  match upstreamCall turn with
  | .rejected => s.broken (startTurn s) .upstream
  | .nonStreaming => s.broken (startTurn s) .nonStreaming
  | .stream frames failure =>
    match readFrames platform executor failure frames .fresh (startTurn s) with
    | (d, some e) => s.broken d e
    | (d, none) =>
      match accumulateUsage s.usageTotal d.bufferedFinal with
      | .error e => s.broken d (.type e)
      | .ok usageTotal =>
        if d.continues then
          match left with
          | 0 =>
            ⟨[s.messages], d.execution.calls,
              d.written ++ finalEvents usageTotal d.bufferedFinal, none⟩
          | left + 1 =>
            let rest :=
              streamLoop upstreamCall (turn + 1) left (d.followUp platform s.messages usageTotal)
            { rest with sent := s.messages :: rest.sent }
        else
          ⟨[s.messages], d.execution.calls,
            d.written ++ finalEvents usageTotal d.bufferedFinal, none⟩

/-- A run that does not break off ends with this turn, or goes on with the next one. -/
theorem streamLoop_cases {upstreamCall : ℕ → UpstreamAnswer} {turn left : ℕ} {s : StreamState}
    (h : (streamLoop platform executor upstreamCall turn left s).failure = none) :
    ∃ frames failure d usageTotal, upstreamCall turn = .stream frames failure ∧
      readFrames platform executor failure frames .fresh (startTurn s) = (d, none) ∧
      accumulateUsage s.usageTotal d.bufferedFinal = .ok usageTotal ∧
      ((d.continues = false ∨ left = 0) ∧
          streamLoop platform executor upstreamCall turn left s =
            ⟨[s.messages], d.execution.calls, d.written ++ finalEvents usageTotal d.bufferedFinal,
              none⟩ ∨
        d.continues = true ∧ ∃ left', left = left' + 1 ∧
          streamLoop platform executor upstreamCall turn left s =
            { streamLoop platform executor upstreamCall (turn + 1) left'
                (d.followUp platform s.messages usageTotal) with
              sent := s.messages :: (streamLoop platform executor upstreamCall (turn + 1) left'
                (d.followUp platform s.messages usageTotal)).sent }) := by
  rw [streamLoop.eq_def] at h ⊢
  cases hanswer : upstreamCall turn with
  | rejected =>
    rw [hanswer] at h
    cases h
  | nonStreaming =>
    rw [hanswer] at h
    cases h
  | stream frames failure =>
    simp only [hanswer] at h ⊢
    cases hread : readFrames platform executor failure frames .fresh (startTurn s) with
    | mk d broken =>
      cases broken with
      | some e =>
        simp only [hread] at h
        cases h
      | none =>
        simp only [hread] at h ⊢
        cases husage : accumulateUsage s.usageTotal d.bufferedFinal with
        | error e =>
          simp only [husage] at h
          cases h
        | ok usageTotal =>
          refine ⟨frames, failure, d, usageTotal, rfl, hread, husage, ?_⟩
          cases hcontinues : d.continues with
          | false => exact .inl ⟨.inl rfl, by simp⟩
          | true =>
            cases left with
            | zero => exact .inl ⟨.inr rfl, by simp⟩
            | succ left => exact .inr ⟨rfl, left, rfl, by simp⟩

def runStreamingAgent (upstreamCall : ℕ → UpstreamAnswer) (messages : List AnthropicMessage)
    (declarations : List WebToolDecl) : StreamRun :=
  streamLoop platform executor upstreamCall 0 (MAX_AGENT_TURNS - 1)
    ⟨messages.map .given, 0, false, newUsageTotal, ⟨newRequestState declarations, []⟩, []⟩

end

end Maximal.WebTools
