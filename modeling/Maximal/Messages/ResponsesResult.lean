import Maximal.Lib.Js.Text
import Maximal.Messages.AnthropicPayload
import Maximal.Messages.AnthropicTypes

/-!
# Responses results

`translateResponsesResultToAnthropic` turns the result of a Responses request into an Anthropic
response. The result is any JSON value: the same function reads the body of the frame that ends a
stream, which nothing has checked.

## Main definitions

- `AnthropicResponse`
- `parseToolCallArguments` — the input of a tool call, for any `JSON.parse`
- `translateResponsesResultToAnthropic` — the translation, which throws on some values
-/

namespace Maximal

open Js

structure AnthropicResponse where
  id : Val
  model : Val
  content : List AnthropicAssistantContentBlock
  stopReason : StopReasonValue
  usage : Usage

/-- The object `tool_use.input` is to hold. `parse` is `JSON.parse`, `none` where it throws. -/
def parseToolCallArguments (parse : String → Option Json) (rawArguments : Val) : Json :=
  match rawArguments.asString with
  | none => .object []
  | some raw =>
    if trim raw = "" then .object []
    else
      match parse raw with
      | some (.array items) => .object [("arguments", .array items)]
      | some (.object fields) => .object fields
      | _ => .object [("raw_arguments", .string raw)]

namespace Responses

def THINKING_TEXT : String := "Thinking..."

def COMPACTION_SIGNATURE_PREFIX : String := "cm1#"

def COMPACTION_SIGNATURE_SEPARATOR : String := "@"

/-- `for (const item of value)`. -/
def iterate : Val → Except TypeError (List Json)
  | some (.array items) => .ok items
  | some (.string s) => .ok (s.toList.map fun c => .string (String.singleton c))
  | _ => .error .notIterable

/-- `!v || v.length === 0`. -/
def isMissingOrEmpty (v : Val) : Bool :=
  !v.truthy ||
    match v.optProp "length" with
    | some (.number (.finite mantissa _)) => mantissa = 0
    | _ => false

/-- `(item.encrypted_content ?? "") + "@" + item.id`. -/
def reasoningSignature (item : Json) : Except TypeError String := do
  let encrypted ← ((item.get "encrypted_content").orElse (.string "")).text
  let id ← (item.get "id").text
  return encrypted ++ "@" ++ id

def encodeCompactionCarrierSignature (id encryptedContent : Val) : Except TypeError String := do
  let encrypted ← encryptedContent.text
  let id ← id.text
  return COMPACTION_SIGNATURE_PREFIX ++ encrypted ++ COMPACTION_SIGNATURE_SEPARATOR ++ id

/-- What one block adds to the text of a message. -/
def outputBlockText (block : Json) : Except TypeError String :=
  if block.isRecord ∧ (block.get "type").asString = some "output_text" then
    (block.get "text").text
  else if block.isRecord ∧ (block.get "type").asString = some "refusal" then
    (block.get "refusal").text
  else do
    let text ← Val.prop (some block) "text"
    match text.asString with
    | some text => return text
    | none => return ((block.get "reasoning").asString).getD ""

/-- The texts of the elements, one after the other. -/
def concatTexts (f : Json → Except TypeError String) : List Json → Except TypeError String
  | [] => .ok ""
  | x :: xs => do
    let t ← f x
    let ts ← concatTexts f xs
    return t ++ ts

def combineMessageTextContent (content : Val) : Except TypeError String :=
  match content.asArray with
  | none => .ok ""
  | some blocks => concatTexts outputBlockText blocks

/-- The text of a block of a reasoning summary, if it has one. -/
def summaryBlockText (block : Json) : Except TypeError String := do
  let text ← Val.prop (some block) "text"
  return text.asString.getD ""

def extractReasoningText (item : Json) : Except TypeError String :=
  let summary := item.get "summary"
  if isMissingOrEmpty summary then .ok THINKING_TEXT
  else
    match summary.asArray with
    | none => .ok ""
    | some blocks => (concatTexts summaryBlockText blocks).map trim

/-- A text block, unless the text is empty. -/
def textBlocks (text : String) : List AnthropicAssistantContentBlock :=
  if text = "" then [] else [.text (.string text)]

/-- The blocks one output item becomes. -/
def mapOutputItem (parse : String → Option Json) (item : Json) :
    Except TypeError (List AnthropicAssistantContentBlock) := do
  let type ← Val.prop (some item) "type"
  if type.asString = some "reasoning" then
    let thinkingText ← extractReasoningText item
    if thinkingText = "" then return []
    else
      let signature ← reasoningSignature item
      return [.thinking ⟨thinkingText, signature⟩]
  else if type.asString = some "function_call" then
    let toolId := item.get "call_id"
    let name := item.get "name"
    if !name.truthy || !toolId.truthy then return []
    else return [.toolUse ⟨toolId, name, parseToolCallArguments parse (item.get "arguments")⟩]
  else if type.asString = some "message" then
    return textBlocks (← combineMessageTextContent (item.get "content"))
  else if type.asString = some "compaction" then
    let id := item.get "id"
    let encrypted := item.get "encrypted_content"
    if !id.truthy || !encrypted.truthy then return []
    else return [.thinking ⟨THINKING_TEXT, ← encodeCompactionCarrierSignature id encrypted⟩]
  else
    -- output item types that are not recognized
    return textBlocks (← combineMessageTextContent (item.get "content"))

def mapOutputItems (parse : String → Option Json) :
    List Json → Except TypeError (List AnthropicAssistantContentBlock)
  | [] => .ok []
  | item :: items => do
    let blocks ← mapOutputItem parse item
    let rest ← mapOutputItems parse items
    return blocks ++ rest

def mapOutputToAnthropicContent (parse : String → Option Json) (output : Val) :
    Except TypeError (List AnthropicAssistantContentBlock) := do
  mapOutputItems parse (← iterate output)

def fallbackContentBlocks (outputText : Val) : List AnthropicAssistantContentBlock :=
  match outputText with
  | none => []
  | some text => if text.truthy then [.text text] else []

def isFunctionCall (item : Json) : Bool := (item.get "type").asString = some "function_call"

/-- The `stop_reason` of a response. Only an array has the method `some`, and only a completed
response calls it. -/
def mapResponsesStopReason (response : Json) : Except TypeError StopReasonValue :=
  let status := (response.get "status").asString
  let reason := ((response.get "incomplete_details").optProp "reason").asString
  if status = some "completed" then
    match (response.get "output").asArray with
    | none => .error .notFunction
    | some items => .ok (.reason (if items.any isFunctionCall then .toolUse else .endTurn))
  else if status = some "incomplete" ∧ reason = some "max_output_tokens" then
    .ok (.reason .maxTokens)
  else if status = some "incomplete" ∧ reason = some "content_filter" then
    .ok (.reason .endTurn)
  else .ok .null

def mapResponsesUsage (response : Json) : Except TypeError Usage := do
  let usage := response.get "usage"
  let cached := (usage.optProp "input_tokens_details").optProp "cached_tokens"
  let zero := Json.number (.ofNat 0)
  let inputTokens ← Val.minus ((usage.optProp "input_tokens").orElse zero) (cached.orElse zero)
  return ⟨inputTokens, (usage.optProp "output_tokens").orElse zero, cached⟩

def translateResponsesResultToAnthropic (parse : String → Option Json) (response : Json) :
    Except TypeError AnthropicResponse := do
  let contentBlocks ← mapOutputToAnthropicContent parse (response.get "output")
  let usage ← mapResponsesUsage response
  let stopReason ← mapResponsesStopReason response
  return {
    id := response.get "id"
    model := response.get "model"
    content := if contentBlocks.isEmpty then fallbackContentBlocks (response.get "output_text")
      else contentBlocks
    stopReason
    usage }

end Responses

end Maximal
