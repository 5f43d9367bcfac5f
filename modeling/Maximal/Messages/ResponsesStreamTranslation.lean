import Maximal.Lib.Emitter
import Maximal.Lib.Js.Map
import Maximal.Messages.ResponsesResult

/-!
# Responses stream translation

`translateResponsesStreamEvent` turns one parsed upstream frame into Anthropic stream events. A
frame comes with an identity, which tells its objects from those of other frames where they serve
as keys of a map.

## Main definitions

- `ResponsesStreamState` — the state kept between frames
- `MapKey` — values as keys of a map
- `updateWhitespaceRunState` — the guard against runaway tool call arguments
- `translateResponsesStreamEvent` — the translator, handler by handler
-/

namespace Maximal.Responses

open Js Emitter

/-- A value as the key of a map: numbers by value, objects by the frame they came with. Only one
field of a frame is ever used so. -/
inductive MapKey where
  | undefined
  | null
  | bool (b : Bool)
  | number (text : String)
  | string (s : String)
  | object (frame : ℕ)
  deriving DecidableEq, Repr

def mapKey (frame : ℕ) : Val → MapKey
  | none => .undefined
  | some .null => .null
  | some (.bool b) => .bool b
  | some (.number n) => .number n.text
  | some (.string s) => .string s
  | some _ => .object frame

structure FunctionCallStreamState where
  blockIndex : ℕ
  toolCallId : Json
  name : Json
  consecutiveWhitespaceCount : ℕ

structure ResponsesStreamState where
  estimatedInputTokens : Option Number
  messageStartSent : Bool
  messageCompleted : Bool
  nextContentBlockIndex : ℕ
  blockIndexByKey : Entries String ℕ
  /-- A set, in the order of insertion. -/
  openBlocks : List ℕ
  blockHasDelta : List ℕ
  functionCallStateByOutputIndex : Entries MapKey FunctionCallStreamState

def createResponsesStreamState (estimatedInputTokens : Option Number) : ResponsesStreamState :=
  ⟨estimatedInputTokens, false, false, 0, [], [], [], []⟩

def MAX_CONSECUTIVE_FUNCTION_CALL_WHITESPACE : ℕ := 20

/-- The count of line breaks and tabs with nothing but spaces between them, or `none` once it
exceeds the bound. -/
def updateWhitespaceRunState (count : ℕ) : List Json → Option ℕ
  | [] => some count
  | char :: chunk =>
    match Val.asString (some char) with
    | some "\r" | some "\n" | some "\t" =>
      if count + 1 > MAX_CONSECUTIVE_FUNCTION_CALL_WHITESPACE then none
      else updateWhitespaceRunState (count + 1) chunk
    | some " " => updateWhitespaceRunState count chunk
    | _ => updateWhitespaceRunState 0 chunk

abbrev ResponsesTranslator := Emitter TypeError ResponsesStreamState AnthropicStreamEventData

def closeBlockIfOpen (blockIndex : ℕ) : ResponsesTranslator Unit := do
  let state ← current
  when (blockIndex ∈ state.openBlocks) do
    emit [.contentBlockStop blockIndex]
    update fun s =>
      { s with
        openBlocks := s.openBlocks.filter (· ≠ blockIndex)
        blockHasDelta := s.blockHasDelta.filter (· ≠ blockIndex) }

def closeOpenBlocks : ResponsesTranslator Unit := do
  let state ← current
  forEach state.openBlocks closeBlockIfOpen

def closeAllOpenBlocks : ResponsesTranslator Unit := do
  closeOpenBlocks
  update fun s => { s with functionCallStateByOutputIndex := [] }

def getBlockKey (outputIndex contentIndex : Val) : Except TypeError String := do
  let outputIndex ← outputIndex.text
  let contentIndex ← contentIndex.text
  return outputIndex ++ ":" ++ contentIndex

/-- The block index of a key, the next free one when the key is new. -/
def blockIndexFor (key : String) : ResponsesTranslator ℕ := do
  let state ← current
  match state.blockIndexByKey.get key with
  | some blockIndex => return blockIndex
  | none =>
    update fun s =>
      { s with
        nextContentBlockIndex := s.nextContentBlockIndex + 1
        blockIndexByKey := s.blockIndexByKey.set key s.nextContentBlockIndex }
    return state.nextContentBlockIndex

/-- Start the block unless it is open, after closing whatever else is. -/
def openBlockIfNeeded (blockIndex : ℕ) (block : ContentBlock) : ResponsesTranslator Unit := do
  let state ← current
  when (blockIndex ∉ state.openBlocks) do
    closeOpenBlocks
    emit [.contentBlockStart blockIndex block]
    update fun s => { s with openBlocks := s.openBlocks ++ [blockIndex] }

def openTextBlockIfNeeded (outputIndex contentIndex : Val) : ResponsesTranslator ℕ := do
  let key ← ofExcept (getBlockKey outputIndex contentIndex)
  let blockIndex ← blockIndexFor key
  openBlockIfNeeded blockIndex (.text "")
  return blockIndex

/-- All summaries of a reasoning item share one block. -/
def openThinkingBlockIfNeeded (outputIndex : Val) : ResponsesTranslator ℕ := do
  let key ← ofExcept (getBlockKey outputIndex (some (.number (.ofNat 0))))
  let blockIndex ← blockIndexFor key
  openBlockIfNeeded blockIndex (.thinking "")
  return blockIndex

/-- The call known under an output index, or a new one with a block of its own. -/
def functionCallFor (outputIndex : MapKey) (toolCallId name : Val) :
    ResponsesTranslator FunctionCallStreamState := do
  let state ← current
  match state.functionCallStateByOutputIndex.get outputIndex with
  | some call => return call
  | none =>
    let blockIndex := state.nextContentBlockIndex
    let call : FunctionCallStreamState :=
      ⟨blockIndex, toolCallId.orElse (.string ("tool_call_" ++ toString blockIndex)),
        name.orElse (.string "function"), 0⟩
    update fun s =>
      { s with
        nextContentBlockIndex := s.nextContentBlockIndex + 1
        functionCallStateByOutputIndex := s.functionCallStateByOutputIndex.set outputIndex call }
    return call

def openFunctionCallBlock (outputIndex : MapKey) (toolCallId name : Val) :
    ResponsesTranslator ℕ := do
  let call ← functionCallFor outputIndex toolCallId name
  openBlockIfNeeded call.blockIndex (.toolUse (some call.toolCallId) (some call.name))
  return call.blockIndex

def markDelta (blockIndex : ℕ) : ResponsesTranslator Unit :=
  update fun s =>
    { s with blockHasDelta := if blockIndex ∈ s.blockHasDelta then s.blockHasDelta
      else s.blockHasDelta ++ [blockIndex] }

def sendDelta (blockIndex : ℕ) (delta : BlockDelta) : ResponsesTranslator Unit :=
  emit [.contentBlockDelta (.at blockIndex) delta]

def buildErrorEvent (message : String) : AnthropicStreamEventData := .error message

def handleFunctionCallArgumentsValidationError (reason : String) : ResponsesTranslator Unit := do
  closeAllOpenBlocks
  update fun s => { s with messageCompleted := true }
  emit [buildErrorEvent reason]

/-- The upstream has no usage yet when a response is created; the local estimate stands in. -/
def createdUsage (estimatedInputTokens : Option Number) (response : Json) :
    Except TypeError Usage := do
  let usage := response.get "usage"
  let cached := (usage.optProp "input_tokens_details").optProp "cached_tokens"
  let zero := Json.number (.ofNat 0)
  let inputTokens ←
    match usage.optProp "input_tokens" with
    | none => .ok (estimatedInputTokens.getD (.ofNat 0))
    | some upstreamInput => Val.minus (some upstreamInput) (cached.orElse zero)
  return ⟨inputTokens, zero, some (cached.orElse zero)⟩

def messageStart (response : Json) : ResponsesTranslator Unit := do
  update fun s => { s with messageStartSent := true }
  let state ← current
  let usage ← ofExcept (createdUsage state.estimatedInputTokens response)
  emit [.messageStart (response.get "id") (response.get "model") usage]

def handleResponseCreated (rawEvent : Json) : ResponsesTranslator Unit :=
  match Val.asRecord (rawEvent.get "response") with
  | none => pure ()
  | some response => messageStart response

/-- `arguments !== undefined && arguments.length > 0`. -/
def hasInitialArguments (initialArguments : Val) : Except TypeError Bool :=
  match initialArguments with
  | none => .ok false
  | some _ => do
    let length ← initialArguments.prop "length"
    let n ← length.toNumber
    return n.isPositive

/-- The item of an added function call. -/
def extractFunctionCallDetails (rawEvent : Json) : Option Json :=
  (Val.asRecord (rawEvent.get "item")).filter isFunctionCall

def handleOutputItemAdded (frame : ℕ) (rawEvent : Json) : ResponsesTranslator Unit :=
  match extractFunctionCallDetails rawEvent with
  | none => pure ()
  | some item => do
    let outputIndex := mapKey frame (rawEvent.get "output_index")
    let blockIndex ← openFunctionCallBlock outputIndex (item.get "call_id") (item.get "name")
    let initialArguments := item.get "arguments"
    let hasArguments ← ofExcept (hasInitialArguments initialArguments)
    when hasArguments do
      sendDelta blockIndex (.inputJsonDelta initialArguments)
      markDelta blockIndex

def handleCompactionDone (outputIndex : Val) (item : Json) : ResponsesTranslator Unit :=
  let id := item.get "id"
  let encrypted := item.get "encrypted_content"
  when (id.truthy && encrypted.truthy) do
    let blockIndex ← openThinkingBlockIfNeeded outputIndex
    let state ← current
    when (blockIndex ∉ state.blockHasDelta)
      (sendDelta blockIndex (.thinkingDelta (some (.string THINKING_TEXT))))
    let signature ← ofExcept (encodeCompactionCarrierSignature id encrypted)
    sendDelta blockIndex (.signatureDelta (some (.string signature)))
    markDelta blockIndex

def handleReasoningDone (outputIndex : Val) (item : Json) : ResponsesTranslator Unit := do
  let blockIndex ← openThinkingBlockIfNeeded outputIndex
  let signature ← ofExcept (reasoningSignature item)
  when (isMissingOrEmpty (item.get "summary"))
    (sendDelta blockIndex (.thinkingDelta (some (.string THINKING_TEXT))))
  sendDelta blockIndex (.signatureDelta (some (.string signature)))
  markDelta blockIndex

def handleOutputItemDone (rawEvent : Json) : ResponsesTranslator Unit :=
  match Val.asRecord (rawEvent.get "item") with
  | none => pure ()
  | some item =>
    let outputIndex := rawEvent.get "output_index"
    match (item.get "type").asString with
    | some "compaction" => handleCompactionDone outputIndex item
    | some "reasoning" => handleReasoningDone outputIndex item
    | _ => pure ()

def WITHOUT_TOOL_CALL : String :=
  "Received function call arguments delta without an open tool call block."

def TOO_MUCH_WHITESPACE : String :=
  "Received function call arguments delta containing more than 20 consecutive whitespace "
    ++ "characters."

/-- A delta of a function call's arguments, unless its white space exceeds the bound. -/
def sendArguments (outputIndex : MapKey) (blockIndex : ℕ) (delta : Val) :
    ResponsesTranslator Unit := do
  let state ← current
  match state.functionCallStateByOutputIndex.get outputIndex with
  | none => handleFunctionCallArgumentsValidationError WITHOUT_TOOL_CALL
  | some call =>
    let chars ← ofExcept (iterate delta)
    match updateWhitespaceRunState call.consecutiveWhitespaceCount chars with
    | none => handleFunctionCallArgumentsValidationError TOO_MUCH_WHITESPACE
    | some nextCount =>
      let call := { call with consecutiveWhitespaceCount := nextCount }
      update fun s =>
        { s with functionCallStateByOutputIndex :=
            s.functionCallStateByOutputIndex.set outputIndex call }
      sendDelta blockIndex (.inputJsonDelta delta)
      markDelta blockIndex

def handleFunctionCallArgumentsDelta (frame : ℕ) (rawEvent : Json) : ResponsesTranslator Unit :=
  let delta := rawEvent.get "delta"
  when delta.truthy do
    let outputIndex := mapKey frame (rawEvent.get "output_index")
    let blockIndex ← openFunctionCallBlock outputIndex none none
    sendArguments outputIndex blockIndex delta

def handleFunctionCallArgumentsDone (frame : ℕ) (rawEvent : Json) : ResponsesTranslator Unit := do
  let outputIndex := mapKey frame (rawEvent.get "output_index")
  let blockIndex ← openFunctionCallBlock outputIndex none none
  let finalArguments := (rawEvent.get "arguments").asString.getD ""
  let state ← current
  when (blockIndex ∉ state.blockHasDelta ∧ finalArguments ≠ "") do
    sendDelta blockIndex (.inputJsonDelta (some (.string finalArguments)))
    markDelta blockIndex
  update fun s =>
    { s with functionCallStateByOutputIndex :=
        s.functionCallStateByOutputIndex.delete outputIndex }

def handleOutputTextDelta (rawEvent : Json) : ResponsesTranslator Unit :=
  let delta := rawEvent.get "delta"
  when delta.truthy do
    let blockIndex ←
      openTextBlockIfNeeded (rawEvent.get "output_index") (rawEvent.get "content_index")
    sendDelta blockIndex (.textDelta delta)
    markDelta blockIndex

def handleReasoningSummaryTextDelta (rawEvent : Json) : ResponsesTranslator Unit := do
  let blockIndex ← openThinkingBlockIfNeeded (rawEvent.get "output_index")
  sendDelta blockIndex (.thinkingDelta (rawEvent.get "delta"))
  markDelta blockIndex

/-- A text that came as a whole is sent, but not noted as a delta. -/
def handleReasoningSummaryTextDone (rawEvent : Json) : ResponsesTranslator Unit := do
  let text := rawEvent.get "text"
  let blockIndex ← openThinkingBlockIfNeeded (rawEvent.get "output_index")
  let state ← current
  when (text.truthy ∧ blockIndex ∉ state.blockHasDelta)
    (sendDelta blockIndex (.thinkingDelta text))

def handleOutputTextDone (rawEvent : Json) : ResponsesTranslator Unit := do
  let text := rawEvent.get "text"
  let blockIndex ←
    openTextBlockIfNeeded (rawEvent.get "output_index") (rawEvent.get "content_index")
  let state ← current
  when (text.truthy ∧ blockIndex ∉ state.blockHasDelta) (sendDelta blockIndex (.textDelta text))

def withoutBody (type : String) : String :=
  "Upstream sent " ++ type ++ " with no response body; the stream cannot be completed."

def handleResponseCompleted (parse : String → Option Json) (type : String) (rawEvent : Json) :
    ResponsesTranslator Unit := do
  closeAllOpenBlocks
  match Val.asRecord (rawEvent.get "response") with
  | none => emit [buildErrorEvent (withoutBody type)]
  | some response =>
    let anthropic ← ofExcept (translateResponsesResultToAnthropic parse response)
    emit [.messageDelta anthropic.stopReason anthropic.usage, .messageStop]
  update fun s => { s with messageCompleted := true }

def handleResponseFailed (rawEvent : Json) : ResponsesTranslator Unit := do
  let error := Val.asRecord ((Val.asRecord (rawEvent.get "response")).optProp "error")
  let message := (error.optProp "message").asString
  closeAllOpenBlocks
  emit [buildErrorEvent (message.getD "The response failed due to an unknown error.")]
  update fun s => { s with messageCompleted := true }

/-- An error of the stream itself leaves open blocks open. -/
def handleErrorEvent (rawEvent : Json) : ResponsesTranslator Unit := do
  let message := (rawEvent.get "message").asString
  update fun s => { s with messageCompleted := true }
  emit [buildErrorEvent (message.getD "An unexpected error occurred during streaming.")]

def dispatchResponsesStreamEvent (parse : String → Option Json) (frame : ℕ) (rawEvent : Json) :
    ResponsesTranslator Unit :=
  match (rawEvent.get "type").asString with
  | some "response.created" => handleResponseCreated rawEvent
  | some "response.output_item.added" => handleOutputItemAdded frame rawEvent
  | some "response.reasoning_summary_text.delta" => handleReasoningSummaryTextDelta rawEvent
  | some "response.output_text.delta" => handleOutputTextDelta rawEvent
  | some "response.reasoning_summary_text.done" => handleReasoningSummaryTextDone rawEvent
  | some "response.output_text.done" => handleOutputTextDone rawEvent
  | some "response.output_item.done" => handleOutputItemDone rawEvent
  | some "response.function_call_arguments.delta" =>
    handleFunctionCallArgumentsDelta frame rawEvent
  | some "response.function_call_arguments.done" => handleFunctionCallArgumentsDone frame rawEvent
  | some "response.completed" => handleResponseCompleted parse "response.completed" rawEvent
  | some "response.incomplete" => handleResponseCompleted parse "response.incomplete" rawEvent
  | some "response.failed" => handleResponseFailed rawEvent
  | some "error" => handleErrorEvent rawEvent
  | _ => pure ()

/-- A parsed frame and its identity. -/
structure RawEvent where
  identity : ℕ
  value : Json

def translateResponsesStreamEvent (parse : String → Option Json) (rawEvent : RawEvent) :
    ResponsesTranslator Unit :=
  when rawEvent.value.isRecord
    (dispatchResponsesStreamEvent parse rawEvent.identity rawEvent.value)

end Maximal.Responses
