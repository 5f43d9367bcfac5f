import Maximal.Lib.Emitter
import Maximal.Lib.Js.Map
import Maximal.Messages.AnthropicTypes

/-!
# Chat-completions stream translation

`translateChunkToAnthropicEvents` turns one parsed upstream chunk into Anthropic stream events.
The chunk is any JSON value; each handler reads its fields the way the program does.

## Main definitions

- `AnthropicStreamState`, `ToolCalls` — the state kept between chunks
- `readTranslatableChoice` — the choice and the delta of a chunk, if it has any
- `translateChunkWith` — the translator, handler by handler, for any placeholder text
- `translateChunkToAnthropicEvents` — the translator with the program's placeholder
-/

namespace Maximal

open Js Emitter

structure ToolCallInfo where
  id : Val
  name : Val
  anthropicBlockIndex : ℕ

/-- The `toolCalls` object of the state. Assigning the key `__proto__` replaces its prototype and
adds no entry. -/
structure ToolCalls where
  entries : Entries String ToolCallInfo
  proto : Option ToolCallInfo

/-- The names every object inherits, apart from `__proto__`. -/
def objectPrototypeMembers : List String :=
  ["constructor", "toString", "toLocaleString", "valueOf", "hasOwnProperty", "isPrototypeOf",
    "propertyIsEnumerable", "__defineGetter__", "__defineSetter__", "__lookupGetter__",
    "__lookupSetter__"]

namespace ToolCalls

def empty : ToolCalls := ⟨[], none⟩

def set (t : ToolCalls) (key : String) (info : ToolCallInfo) : ToolCalls :=
  if key = "__proto__" then { t with proto := some info }
  else { t with entries := t.entries.set key info }

theorem set_proto (t : ToolCalls) (info : ToolCallInfo) :
    t.set "__proto__" info = { t with proto := some info } := rfl

theorem set_of_ne (t : ToolCalls) {key : String} (info : ToolCallInfo) (h : key ≠ "__proto__") :
    t.set key info = ⟨t.entries.set key info, t.proto⟩ :=
  if_neg h

/-- `toolCalls[key].anthropicBlockIndex` when `toolCalls[key]` is truthy, inherited properties
included. -/
def blockIndexOf (t : ToolCalls) (key : String) : Option BlockIndex :=
  match t.entries.get key, t.proto with
  | some info, _ => some (.at info.anthropicBlockIndex)
  | none, none =>
    if key = "__proto__" ∨ key ∈ objectPrototypeMembers then some (.other none) else none
  | none, some info =>
    if key = "__proto__" then some (.at info.anthropicBlockIndex)
    else if key = "id" then some (.other (info.id.optProp "anthropicBlockIndex"))
    else if key = "name" then some (.other (info.name.optProp "anthropicBlockIndex"))
    else if key = "anthropicBlockIndex" then
      if info.anthropicBlockIndex = 0 then none else some (.other none)
    else if key ∈ objectPrototypeMembers then some (.other none)
    else none

end ToolCalls

structure AnthropicStreamState where
  messageStartSent : Bool
  contentBlockIndex : ℕ
  contentBlockOpen : Bool
  thinkingBlockOpen : Bool
  toolCalls : ToolCalls

namespace AnthropicStreamState

/-- The state every stream starts with. -/
def fresh : AnthropicStreamState := ⟨false, 0, false, false, .empty⟩

/-- The open content block is one of the known tool calls. -/
def isToolBlockOpen (state : AnthropicStreamState) : Bool :=
  state.contentBlockOpen
    && state.toolCalls.entries.any fun e => e.2.anthropicBlockIndex = state.contentBlockIndex

end AnthropicStreamState

structure Choice where
  finishReason : Val

structure Delta where
  content : Val
  toolCalls : Val
  reasoningText : Val
  reasoningOpaque : Val

def readDelta (delta : Val) : Delta :=
  ⟨delta.optProp "content", delta.optProp "tool_calls", delta.optProp "reasoning_text",
    delta.optProp "reasoning_opaque"⟩

/-- The first choice of a chunk and its delta; a missing delta reads as an empty one. -/
def readTranslatableChoice (chunk : Json) : Option (Choice × Delta) :=
  match ((Val.asRecord (some chunk)).optProp "choices").asArray with
  | none => none
  | some [] => none
  | some (first :: _) =>
    (Val.asRecord (some first)).map fun choice : Json =>
      (⟨choice.get "finish_reason"⟩, readDelta (Val.asRecord (choice.get "delta")))

def THINKING_TEXT : String := "Thinking..."

def mapOpenAIStopReasonToAnthropic (finishReason : String) : StopReasonValue :=
  if finishReason = "stop" then .reason .endTurn
  else if finishReason = "length" then .reason .maxTokens
  else if finishReason = "tool_calls" then .reason .toolUse
  else if finishReason = "content_filter" then .reason .endTurn
  else if finishReason = "__proto__" ∨ finishReason ∈ objectPrototypeMembers then
    .inherited finishReason
  else .undefined

/-- The usage of a chunk; cached prompt tokens are reported on their own. -/
def chunkUsage (chunk : Json) (outputTokens : Json) : Except TypeError Usage := do
  let usage := chunk.get "usage"
  let cached := (usage.optProp "prompt_tokens_details").optProp "cached_tokens"
  let zero := Json.number (.ofNat 0)
  let inputTokens ← Val.minus ((usage.optProp "prompt_tokens").orElse zero) (cached.orElse zero)
  return ⟨inputTokens, outputTokens, cached⟩

abbrev ChunkTranslator := Emitter TypeError AnthropicStreamState AnthropicStreamEventData

def handleMessageStart (chunk : Json) : ChunkTranslator Unit := do
  let state ← current
  when (!state.messageStartSent) do
    let usage ← ofExcept (chunkUsage chunk (.number (.ofNat 0)))
    emit [.messageStart (chunk.get "id") (chunk.get "model") usage]
    update fun s => { s with messageStartSent := true }

/-- Stop the open content block and move on to the next index. -/
def stopContentBlock : ChunkTranslator Unit := do
  let state ← current
  emit [.contentBlockStop state.contentBlockIndex]
  update fun s => { s with contentBlockIndex := s.contentBlockIndex + 1, contentBlockOpen := false }

def closeThinkingBlockIfOpen : ChunkTranslator Unit := do
  let state ← current
  when state.thinkingBlockOpen do
    emit [.contentBlockDelta (.at state.contentBlockIndex) (.signatureDelta (some (.string ""))),
      .contentBlockStop state.contentBlockIndex]
    update fun s =>
      { s with contentBlockIndex := s.contentBlockIndex + 1, thinkingBlockOpen := false }

/-- Thinking that arrives while a content block is open becomes the content of the delta. -/
def handleThinkingText (delta : Delta) : ChunkTranslator Delta := do
  let hasThinking ← ofExcept delta.reasoningText.hasLength
  let state ← current
  if hasThinking && state.contentBlockOpen then
    return { delta with content := delta.reasoningText, reasoningText := none }
  else
    when hasThinking do
      when (!state.thinkingBlockOpen) do
        emit [.contentBlockStart state.contentBlockIndex (.thinking "")]
        update fun s => { s with thinkingBlockOpen := true }
      emit [.contentBlockDelta (.at state.contentBlockIndex) (.thinkingDelta delta.reasoningText)]
    return delta

def closeToolBlockIfOpen : ChunkTranslator Unit := do
  let state ← current
  when state.isToolBlockOpen stopContentBlock

def openTextBlockIfNeeded : ChunkTranslator Unit := do
  let state ← current
  when (!state.contentBlockOpen) do
    emit [.contentBlockStart state.contentBlockIndex (.text "")]
    update fun s => { s with contentBlockOpen := true }

/-- Non-empty content goes to the open text block, after whatever else is open is closed. -/
def sendContent (delta : Delta) : ChunkTranslator Unit := do
  let hasContent ← ofExcept delta.content.hasLength
  when hasContent do
    closeThinkingBlockIfOpen
    closeToolBlockIfOpen
    openTextBlockIfNeeded
    let state ← current
    emit [.contentBlockDelta (.at state.contentBlockIndex) (.textDelta delta.content)]

/-- A claude model signs its open thinking block next to an empty content. -/
def signThinkingBlock (delta : Delta) : ChunkTranslator Unit :=
  when (delta.content.asString = some "") do
    let hasOpaque ← ofExcept delta.reasoningOpaque.hasLength
    let state ← current
    when (hasOpaque && state.thinkingBlockOpen) do
      emit [.contentBlockDelta (.at state.contentBlockIndex)
          (.signatureDelta delta.reasoningOpaque),
        .contentBlockStop state.contentBlockIndex]
      update fun s =>
        { s with contentBlockIndex := s.contentBlockIndex + 1, thinkingBlockOpen := false }

def handleContent (delta : Delta) : ChunkTranslator Unit := do
  sendContent delta
  signThinkingBlock delta

/-- A signature on its own becomes a whole thinking block with a placeholder text. -/
def handleReasoningOpaque (thinkingText : String) (delta : Delta) : ChunkTranslator Unit := do
  let hasOpaque ← ofExcept delta.reasoningOpaque.hasLength
  when hasOpaque do
    let state ← current
    emit [.contentBlockStart state.contentBlockIndex (.thinking ""),
      .contentBlockDelta (.at state.contentBlockIndex)
        (.thinkingDelta (some (.string thinkingText))),
      .contentBlockDelta (.at state.contentBlockIndex) (.signatureDelta delta.reasoningOpaque),
      .contentBlockStop state.contentBlockIndex]
    update fun s => { s with contentBlockIndex := s.contentBlockIndex + 1 }

def handleReasoningOpaqueInToolCalls (thinkingText : String) (delta : Delta) :
    ChunkTranslator Unit := do
  let state ← current
  when (state.contentBlockOpen && !state.isToolBlockOpen) stopContentBlock
  handleReasoningOpaque thinkingText delta

def closeContentBlockIfOpen : ChunkTranslator Unit := do
  let state ← current
  when state.contentBlockOpen stopContentBlock

/-- An entry of `tool_calls` with an id and a function name announces a call. -/
def startsToolCall (call : Json) : Bool :=
  (call.get "id").truthy && ((call.get "function").optProp "name").truthy

def startToolCall (call : Json) : ChunkTranslator Unit :=
  when (startsToolCall call) do
    closeContentBlockIfOpen
    let state ← current
    let key ← ofExcept (call.get "index").text
    let id := call.get "id"
    let name := (call.get "function").optProp "name"
    update fun s =>
      { s with
        toolCalls := s.toolCalls.set key ⟨id, name, state.contentBlockIndex⟩
        contentBlockOpen := true }
    emit [.contentBlockStart state.contentBlockIndex (.toolUse id name)]

/-- An entry of `tool_calls` that brings arguments. -/
def continuesToolCall (call : Json) : Bool := ((call.get "function").optProp "arguments").truthy

/-- The arguments of a fragment go to the block its index was given, whichever that is. -/
def continueToolCall (call : Json) : ChunkTranslator Unit :=
  when (continuesToolCall call) do
    let key ← ofExcept (call.get "index").text
    let state ← current
    match state.toolCalls.blockIndexOf key with
    | none => pure ()
    | some index =>
      emit [.contentBlockDelta index
        (.inputJsonDelta ((call.get "function").optProp "arguments"))]

/-- One entry of `tool_calls`; entries that are no objects are skipped. -/
def handleToolCall (toolCall : Json) : ChunkTranslator Unit :=
  when toolCall.isRecord do
    startToolCall toolCall
    continueToolCall toolCall

def handleToolCalls (thinkingText : String) (delta : Delta) : ChunkTranslator Unit :=
  match delta.toolCalls.asArray with
  | none => pure ()
  | some toolCalls =>
    when (toolCalls ≠ []) do
      closeThinkingBlockIfOpen
      handleReasoningOpaqueInToolCalls thinkingText delta
      forEach toolCalls handleToolCall

/-- The text of a finish reason, when the choice has a non-empty one. -/
def Choice.finish (choice : Choice) : Option String :=
  choice.finishReason.asString.filter (· ≠ "")

/-- Only an open content block is closed here; an open thinking block is not looked at. -/
def closeLastBlock (thinkingText : String) (delta : Delta) : ChunkTranslator Unit := do
  let state ← current
  when state.contentBlockOpen do
    stopContentBlock
    when (!state.isToolBlockOpen) (handleReasoningOpaque thinkingText delta)

def handleFinish (thinkingText : String) (choice : Choice) (chunk : Json) (delta : Delta) :
    ChunkTranslator Unit :=
  match choice.finish with
  | none => pure ()
  | some finishReason => do
    closeLastBlock thinkingText delta
    let completionTokens :=
      ((chunk.get "usage").optProp "completion_tokens").orElse (.number (.ofNat 0))
    let usage ← ofExcept (chunkUsage chunk completionTokens)
    emit [.messageDelta (mapOpenAIStopReasonToAnthropic finishReason) usage, .messageStop]

/-- The translator with a given placeholder text. -/
def translateChunkWith (thinkingText : String) (chunk : Json) : ChunkTranslator Unit :=
  match readTranslatableChoice chunk with
  | none => pure ()
  | some (choice, delta) => do
    handleMessageStart chunk
    let delta ← handleThinkingText delta
    handleContent delta
    handleToolCalls thinkingText delta
    handleFinish thinkingText choice chunk delta

def translateChunkToAnthropicEvents : Json → ChunkTranslator Unit :=
  translateChunkWith THINKING_TEXT

/-- A chunk with one choice, as an upstream sends it. -/
def chunkOf (delta : List (String × Json)) (finishReason : Json) : Json :=
  .object [("id", .string "chatcmpl-1"), ("object", .string "chat.completion.chunk"),
    ("created", .number (.ofNat 1700000000)), ("model", .string "claude-sonnet-4"),
    ("choices", .array [.object [("index", .number (.ofNat 0)), ("delta", .object delta),
      ("finish_reason", finishReason), ("logprobs", .null)]])]

end Maximal
